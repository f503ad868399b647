import Mathlib
import TimeSeries.IngestLine
import TimeSeries.TagIndex
import TimeSeries.Proofs.Failing

/-!
# What a full name says about a metric

The index keeps nothing of a metric but its full name. This module shows that this is enough. The
parts of a metric hold no blank and its keys hold no `=`, so the spaces of a full name separate
the name and the tags, and the first `=` of a tag separates its key from its value. Two metrics
with one full name therefore have one name and the same tags, and the first tag with a given key
is the one with the least value.
-/

namespace TimeSeries

/-! ## Pieces between spaces -/

/-- There is no space in a text. -/
def NoSpace (text : String) : Prop := ' ' ∉ text.toList

instance (text : String) : Decidable (NoSpace text) :=
  inferInstanceAs (Decidable (' ' ∉ text.toList))

theorem noSpace_of_hasBlank {text : String} (h : Text.hasBlank text = false) : NoSpace text := by
  intro hmem
  have hall := List.any_eq_false.mp h
  exact hall _ hmem (by decide)

theorem noSpace_append {s t : String} (hs : NoSpace s) (ht : NoSpace t) : NoSpace (s ++ t) := by
  simp only [NoSpace, String.toList_append, List.mem_append, not_or]
  exact ⟨hs, ht⟩

namespace Text

theorem pieces_append_space {cs rest : List Char} (h : ' ' ∉ cs) :
    pieces (· == ' ') (cs ++ ' ' :: rest) = cs :: pieces (· == ' ') rest := by
  rw [pieces_append_cons rfl, pieces_of_not_mem h]
  rfl

/-- Words that are joined with spaces are the pieces of what they are joined to. -/
theorem pieces_intercalate {word : String} {words : List String} (h : NoSpace word)
    (hs : ∀ w ∈ words, NoSpace w) :
    pieces (· == ' ') (" ".intercalate (word :: words)).toList =
      (word :: words).map String.toList := by
  induction words generalizing word with
  | nil => rw [String.intercalate_singleton, pieces_of_not_mem h, List.map_singleton]
  | cons next words ih =>
    rw [String.intercalate_cons_cons, String.toList_append, String.toList_append,
      show " ".toList = [' '] from rfl, List.append_assoc, List.singleton_append,
      pieces_append_space h, ih (hs next List.mem_cons_self) fun w hw =>
        hs w (List.mem_cons_of_mem _ hw)]
    rfl

end Text

/-! ## Tags -/

namespace Tag

/-- What is true of every tag that was made from a key and a value. -/
structure WellFormed (t : Tag) : Prop where
  key_ne : t.key ≠ ""
  key : NoSpace t.key
  value : NoSpace t.value
  no_equals : '=' ∉ t.key.toList

theorem toList_raw (t : Tag) : t.raw.toList = t.key.toList ++ '=' :: t.value.toList := by
  simp [raw]

theorem WellFormed.noSpace_raw {t : Tag} (h : t.WellFormed) : NoSpace t.raw :=
  noSpace_append (noSpace_append h.key (by decide)) h.value

/-- The first `=` separates key and value. -/
theorem key_value_of_append_eq {k l : List Char} (hk : '=' ∉ k) (hl : '=' ∉ l)
    {v w : List Char} (h : k ++ '=' :: v = l ++ '=' :: w) : k = l ∧ v = w := by
  induction k generalizing l with
  | nil =>
    cases l with
    -- a key that goes on where the other one ends would hold an equals sign
    | nil => exact ⟨rfl, (List.cons.inj h).2⟩
    | cons c l => exact absurd ((List.cons.inj h).1 ▸ List.mem_cons_self) hl
  | cons c k ih =>
    cases l with
    | nil => exact absurd ((List.cons.inj h).1 ▸ List.mem_cons_self) hk
    | cons d l =>
      simp only [List.mem_cons, not_or] at hk hl
      obtain ⟨rfl, htail⟩ := List.cons.inj h
      obtain ⟨rfl, rfl⟩ := ih hk.2 hl.2 htail
      exact ⟨rfl, rfl⟩

theorem raw_eq_iff {t : Tag} (ht : t.WellFormed) {key value : String} (hk : '=' ∉ key.toList) :
    t.raw = key ++ "=" ++ value ↔ t = ⟨key, value⟩ := by
  constructor
  · intro h
    have hl := congrArg String.toList h
    rw [toList_raw, String.toList_append, String.toList_append, List.append_assoc,
      show "=".toList = ['='] from rfl, List.singleton_append] at hl
    obtain ⟨hkey, hvalue⟩ := key_value_of_append_eq ht.no_equals hk hl
    rw [← String.toList_inj.mp hkey, ← String.toList_inj.mp hvalue]
  · rintro rfl
    rfl

theorem raw_inj {t u : Tag} (ht : t.WellFormed) (hu : u.WellFormed) (h : t.raw = u.raw) :
    t = u := (raw_eq_iff ht hu.no_equals).mp h

/-- Behind a key and `=` a written tag with that key has its value. -/
theorem isPrefixOf?_raw {t : Tag} (ht : t.WellFormed) {key : String} (hk : '=' ∉ key.toList)
    {value : List Char} :
    (key.toList ++ ['=']).isPrefixOf? t.raw.toList = some value ↔
      t = ⟨key, String.ofList value⟩ := by
  rw [List.isPrefixOf?_eq_some_iff_append_eq, ← raw_eq_iff ht hk, ← String.toList_inj]
  simp only [String.toList_append, String.toList_ofList, show "=".toList = ['='] from rfl]
  exact eq_comm

end Tag

/-! ## Metrics -/

namespace Metric

/-- What is true of every metric that was made from a name and written tags. -/
structure WellFormed (m : Metric) : Prop where
  name : NoSpace m.name
  tags : ∀ t ∈ m.tags, t.WellFormed

end Metric

theorem Tag.checkPart_eq_ok {part : TagPart} {text : String} {u : Unit}
    (h : Tag.checkPart part text = .ok u) : text ≠ "" ∧ NoSpace text := by
  unfold Tag.checkPart at h
  split at h
  · exact absurd h (by simp)
  · rename_i hblank
    split at h
    · exact absurd h (by simp)
    · rename_i hspaced
      refine ⟨?_, noSpace_of_hasBlank (Bool.not_eq_true _ ▸ hspaced)⟩
      rintro rfl
      exact hblank rfl

theorem Tag.wellFormed_of_new {key value : String} {t : Tag} (h : Tag.new key value = .ok t) :
    t.WellFormed := by
  unfold Tag.new at h
  obtain ⟨_, hkey, h⟩ := bind_eq_ok.mp h
  obtain ⟨_, hvalue, h⟩ := bind_eq_ok.mp h
  split at h
  · exact absurd h throw_ne_ok
  · rename_i hequals
    obtain rfl := pure_eq_ok.mp h
    exact ⟨(checkPart_eq_ok hkey).1, (checkPart_eq_ok hkey).2, (checkPart_eq_ok hvalue).2,
      by simpa using hequals⟩

theorem Tag.wellFormed_of_parse {text : String} {t : Tag} (h : Tag.parse text = .ok t) :
    t.WellFormed := by
  unfold Tag.parse at h
  split at h
  · exact wellFormed_of_new h
  · exact absurd h (by simp)

/-- Metrics are well formed from the start. -/
theorem Metric.wellFormed_of_new {name : String} {tags : List String} {m : Metric}
    (h : Metric.new name tags = .ok m) : m.WellFormed := by
  unfold Metric.new at h
  simp only at h
  split at h
  · exact absurd h throw_ne_ok
  · split at h
    · exact absurd h throw_ne_ok
    · rename_i hspaced
      obtain ⟨parsed, hparsed, h⟩ := bind_eq_ok.mp h
      obtain rfl := pure_eq_ok.mp h
      refine ⟨noSpace_of_hasBlank (Bool.not_eq_true _ ▸ hspaced), fun t ht => ?_⟩
      obtain ⟨text, _, htext⟩ := exists_of_mem_mapM hparsed ht
      exact Tag.wellFormed_of_parse htext

/-- So are the metrics of records that were read. -/
theorem PutRecord.wellFormed_of_parse {line : String} {r : PutRecord}
    (h : PutRecord.parse line = .ok r) : r.metric.WellFormed := by
  unfold PutRecord.parse at h
  split at h
  · obtain ⟨time, -, h⟩ := bind_eq_ok.mp h
    obtain ⟨bits, -, h⟩ := bind_eq_ok.mp h
    obtain ⟨metric, hmetric, h⟩ := bind_eq_ok.mp h
    obtain rfl := pure_eq_ok.mp h
    exact Metric.wellFormed_of_new hmetric
  · exact absurd h (by simp)
  · exact absurd h (by simp)

namespace Metric

variable {m n : Metric}

/-! ## Full names -/

theorem perm_sortedTags (m : Metric) : m.sortedTags.Perm (m.tags.map Tag.raw) :=
  List.mergeSort_perm _ _

theorem mem_sortedTags {raw : String} : raw ∈ m.sortedTags ↔ ∃ t ∈ m.tags, t.raw = raw := by
  rw [sortedTags, List.mem_mergeSort, List.mem_map]

theorem pairwise_sortedTags (m : Metric) : m.sortedTags.Pairwise (· ≤ ·) := by
  have trans (a b c : String) : decide (a ≤ b) = true → decide (b ≤ c) = true →
      decide (a ≤ c) = true := by
    simp only [decide_eq_true_eq]
    exact le_trans
  have total (a b : String) : (decide (a ≤ b) || decide (b ≤ a)) = true := by
    simpa using le_total a b
  exact (List.pairwise_mergeSort trans total _).imp fun h => of_decide_eq_true h

theorem WellFormed.noSpace_sortedTags (hm : m.WellFormed) : ∀ raw ∈ m.sortedTags, NoSpace raw := by
  intro raw hraw
  obtain ⟨t, ht, rfl⟩ := mem_sortedTags.mp hraw
  exact (hm.tags t ht).noSpace_raw

/-- The pieces of a full name are the name and the sorted tags. -/
theorem WellFormed.tokens_fullName (hm : m.WellFormed) :
    FullName.tokens m.fullName = (m.name :: m.sortedTags).map String.toList :=
  Text.pieces_intercalate hm.name hm.noSpace_sortedTags

/-- The written tags say which tags there are, and how often. -/
theorem perm_of_perm_map_raw {ts us : List Tag} (ht : ∀ t ∈ ts, t.WellFormed)
    (hu : ∀ u ∈ us, u.WellFormed) (h : (ts.map Tag.raw).Perm (us.map Tag.raw)) : ts.Perm us := by
  have hinj : Set.InjOn Tag.raw {t | t.WellFormed} :=
    fun t ht u hu heq => Tag.raw_inj ht hu heq
  have hread := hinj.leftInvOn_invFunOn
  have hback {list : List Tag} (hlist : ∀ t ∈ list, t.WellFormed) :
      (list.map Tag.raw).map (Function.invFunOn Tag.raw {t | t.WellFormed}) = list := by
    rw [List.map_map]
    exact (List.map_congr_left fun t ht => hread (hlist t ht)).trans (List.map_id list)
  have hperm := h.map (Function.invFunOn Tag.raw {t | t.WellFormed})
  rwa [hback ht, hback hu] at hperm

/-- **Metrics have one full name just if they have one name and the same tags**, in any order, but
each as often. -/
theorem WellFormed.fullName_eq_iff (hm : m.WellFormed) (hn : n.WellFormed) :
    m.fullName = n.fullName ↔ m.name = n.name ∧ m.tags.Perm n.tags := by
  constructor
  · intro h
    have htokens := congrArg FullName.tokens h
    rw [hm.tokens_fullName, hn.tokens_fullName,
      (List.map_injective_iff.mpr fun _ _ => String.toList_inj.mp).eq_iff] at htokens
    obtain ⟨hname, hsorted⟩ := List.cons.inj htokens
    -- the sorted tags are one list, but the tags need not have been given in one order
    have hraw := m.perm_sortedTags.symm.trans ((List.Perm.of_eq hsorted).trans n.perm_sortedTags)
    exact ⟨hname, perm_of_perm_map_raw hm.tags hn.tags hraw⟩
  · rintro ⟨hname, htags⟩
    have hsorted : m.sortedTags = n.sortedTags := by
      refine List.Perm.eq_of_pairwise (fun a b _ _ => le_antisymm) m.pairwise_sortedTags
        n.pairwise_sortedTags ?_
      exact m.perm_sortedTags.trans ((htags.map Tag.raw).trans n.perm_sortedTags.symm)
    rw [fullName, fullName, hname, hsorted]

theorem WellFormed.eq_of_fullName (hm : m.WellFormed) (hn : n.WellFormed)
    (h : m.fullName = n.fullName) : m.name = n.name ∧ ∀ t, t ∈ m.tags ↔ t ∈ n.tags := by
  obtain ⟨hname, htags⟩ := (hm.fullName_eq_iff hn).mp h
  exact ⟨hname, fun t => htags.mem_iff⟩

/-! ## Keys and values in full names -/

/-- The least value that a metric has under a key, in the order of the code points. -/
def LeastValue (m : Metric) (key value : String) : Prop :=
  ⟨key, value⟩ ∈ m.tags ∧ ∀ t ∈ m.tags, t.key = key → value ≤ t.value

theorem LeastValue.unique {key v w : String} (hv : m.LeastValue key v) (hw : m.LeastValue key w) :
    v = w := le_antisymm (hv.2 _ hw.1 rfl) (hw.2 _ hv.1 rfl)

/-- Tags with one key are in the order of their values. -/
theorem value_le_of_raw_le {key v w : String} (h : (Tag.mk key v).raw ≤ (Tag.mk key w).raw) :
    v ≤ w := by
  by_contra hlt
  refine absurd h (not_le.mpr ?_)
  rw [String.lt_iff, Tag.toList_raw, Tag.toList_raw]
  refine List.append_left_lt ?_
  exact List.cons_lt_cons_self.mpr (String.lt_iff.mp (not_le.mp hlt))

/-- What is found behind a key and `=` in a written tag. -/
def behindKey? (key raw : String) : Option String :=
  ((key.toList ++ ['=']).isPrefixOf? raw.toList).map String.ofList

theorem behindKey?_raw {t : Tag} (ht : t.WellFormed) {key value : String}
    (hk : '=' ∉ key.toList) : behindKey? key t.raw = some value ↔ t = ⟨key, value⟩ := by
  rw [behindKey?, Option.map_eq_some_iff]
  constructor
  · rintro ⟨cs, hcs, rfl⟩
    exact (Tag.isPrefixOf?_raw ht hk).mp hcs
  · rintro h
    exact ⟨value.toList, (Tag.isPrefixOf?_raw ht hk).mpr (by rw [h, String.ofList_toList]),
      String.ofList_toList⟩

theorem WellFormed.tagValue?_eq (hm : m.WellFormed) (key : String) :
    FullName.tagValue? m.fullName key = m.sortedTags.findSome? (behindKey? key) := by
  rw [FullName.tagValue?, hm.tokens_fullName, List.map_cons, List.drop_one, List.tail_cons,
    List.findSome?_map]
  rfl

theorem WellFormed.leastValue_of_tagValue? (hm : m.WellFormed) {key value : String}
    (hk : '=' ∉ key.toList) (h : FullName.tagValue? m.fullName key = some value) :
    m.LeastValue key value := by
  rw [hm.tagValue?_eq] at h
  obtain ⟨before, raw, after, hsplit, hvalue, hbefore⟩ := List.findSome?_eq_some_iff.mp h
  obtain ⟨t, ht, rfl⟩ := mem_sortedTags.mp (hsplit ▸ by simp : raw ∈ m.sortedTags)
  obtain rfl := (behindKey?_raw (hm.tags t ht) hk).mp hvalue
  refine ⟨ht, fun u hu hkey => ?_⟩
  have hsorted := m.pairwise_sortedTags
  rw [hsplit, List.pairwise_append, List.pairwise_cons] at hsorted
  have humem : u.raw ∈ m.sortedTags := mem_sortedTags.mpr ⟨u, hu, rfl⟩
  rw [hsplit, List.mem_append, List.mem_cons] at humem
  obtain ⟨_, v⟩ := u
  obtain rfl := hkey
  rcases humem with hin | heq | hin
  · -- a tag with the key before the first one that was found
    have hmiss := hbefore _ hin
    rw [(behindKey?_raw (hm.tags _ hu) hk).mpr rfl] at hmiss
    exact absurd hmiss (by simp)
  · exact value_le_of_raw_le heq.ge
  · exact value_le_of_raw_le (hsorted.2.1.1 _ hin)

/-- **The first tag with a key has the least of its values.** -/
theorem WellFormed.tagValue?_fullName (hm : m.WellFormed) {key value : String}
    (hk : '=' ∉ key.toList) :
    FullName.tagValue? m.fullName key = some value ↔ m.LeastValue key value := by
  refine ⟨hm.leastValue_of_tagValue? hk, fun h => ?_⟩
  cases hv : FullName.tagValue? m.fullName key with
  | some v => rw [(hm.leastValue_of_tagValue? hk hv).unique h]
  | none =>
    -- a tag with the key would have been found
    rw [hm.tagValue?_eq, List.findSome?_eq_none_iff] at hv
    have hmiss := hv _ (mem_sortedTags.mpr ⟨_, h.1, rfl⟩)
    rw [(behindKey?_raw (hm.tags _ h.1) hk).mpr rfl] at hmiss
    exact absurd hmiss (by simp)

/-- A key of a metric is found in its full name. -/
theorem WellFormed.isSome_tagValue? (hm : m.WellFormed) {key : String} (hk : '=' ∉ key.toList) :
    (FullName.tagValue? m.fullName key).isSome = true ↔ ∃ t ∈ m.tags, t.key = key := by
  constructor
  · intro h
    obtain ⟨value, hvalue⟩ := Option.isSome_iff_exists.mp h
    exact ⟨_, (hm.leastValue_of_tagValue? hk hvalue).1, rfl⟩
  · rintro ⟨t, ht, rfl⟩
    rw [← Option.ne_none_iff_isSome, hm.tagValue?_eq]
    intro hnone
    have hmiss := List.findSome?_eq_none_iff.mp hnone _ (mem_sortedTags.mpr ⟨t, ht, rfl⟩)
    rw [(behindKey?_raw (hm.tags t ht) hk).mpr rfl] at hmiss
    exact absurd hmiss (by simp)

end Metric

namespace TagIndex

variable {m : Metric} {key : String}

theorem mem_keysOf_name : (key, some .name) ∈ keysOf m ↔ key = m.name := by
  simp [keysOf]

theorem mem_keysOf_tagKey : (key, some .tagKey) ∈ keysOf m ↔ ∃ t ∈ m.tags, t.key = key := by
  simp [keysOf, eq_comm]

theorem mem_keysOf_tag : (key, some .tag) ∈ keysOf m ↔ ∃ t ∈ m.tags, t.raw = key := by
  simp [keysOf, eq_comm]

/-- **A full name has a key in a role just if the metric is entered under it in that role.** -/
theorem hasKey_fullName (hm : m.WellFormed) {role : KeyRole}
    (hk : role = .tagKey → '=' ∉ key.toList) :
    FullName.hasKey m.fullName key role = true ↔ (key, some role) ∈ keysOf m := by
  cases role with
  | name =>
    rw [FullName.hasKey, hm.tokens_fullName, mem_keysOf_name, List.map_cons, List.head?_cons,
      beq_iff_eq, Option.some_inj, String.toList_inj]
    exact eq_comm
  | tagKey =>
    rw [FullName.hasKey, hm.isSome_tagValue? (hk rfl), mem_keysOf_tagKey]
  | tag =>
    rw [FullName.hasKey, hm.tokens_fullName, mem_keysOf_tag, List.map_cons, List.drop_one,
      List.tail_cons, List.contains_iff_mem, List.mem_map]
    simp [Metric.mem_sortedTags, String.toList_inj]

end TagIndex

end TimeSeries
