import Mathlib
import TimeSeries.Proofs.FullName

/-!
# Reading a metric back from its full name

The name of a metric and the parts of its tags are words, and so is a tag as it is written. Words
pass all the checks that are made when a metric is made, and there is nothing to trim off them. The
pieces of a full name between its spaces are therefore a name and tags of which a metric can be
made again. It has its tags in the order in which they are written, but otherwise it is the metric
that the full name was taken from.
-/

namespace TimeSeries

/-! ## Words -/

/-- A text that is a single word. -/
structure IsWord (text : String) : Prop where
  ne : text ≠ ""
  unbroken : Text.hasBlank text = false

namespace Text

theorem trimChars_of_not_blank {cs : List Char} (h : ∀ c ∈ cs, isBlank c = false) :
    trimChars cs = cs := by
  have keep {list : List Char} (hlist : ∀ c ∈ list, isBlank c = false) :
      list.dropWhile isBlank = list := by
    cases list with
    | nil => rfl
    | cons c list => exact List.dropWhile_cons_of_neg (by simp [hlist c])
  rw [trimChars, keep h, keep (by simpa using h), List.reverse_reverse]

theorem cutFirst_append {x : Char} {before : List Char} (h : x ∉ before) (after : List Char) :
    cutFirst (· == x) (before ++ x :: after) = (before, some after) := by
  induction before with
  | nil => simp [cutFirst]
  | cons c before ih =>
    simp only [List.mem_cons, not_or] at h
    rw [List.cons_append, cutFirst, if_neg (by simpa using Ne.symm h.1), ih h.2]

end Text

namespace IsWord

variable {text : String}

theorem trim_eq (h : IsWord text) : Text.trim text = text := by
  have hall : ∀ c ∈ text.toList, Text.isBlank c = false := by
    simpa [Text.hasBlank] using h.unbroken
  rw [Text.trim, Text.trimChars_of_not_blank hall, String.ofList_toList]

theorem isEmpty_eq (h : IsWord text) : text.isEmpty = false := by
  simpa [String.isEmpty_iff] using h.ne

/-- A word is not blank. -/
theorem isBlankText_eq (h : IsWord text) : Text.isBlankText text = false := by
  have hne : text.toList ≠ [] := by simpa [String.toList_eq_nil_iff] using h.ne
  obtain ⟨c, rest, htext⟩ := List.exists_cons_of_ne_nil hne
  have hall := h.unbroken
  rw [Text.hasBlank, htext, List.any_cons, Bool.or_eq_false_iff] at hall
  rw [Text.isBlankText, htext, List.all_cons, hall.1, Bool.false_and]

end IsWord

/-! ## Tags -/

namespace Tag

variable {t : Tag}

/-- Words are the parts of tags. -/
theorem checkPart_eq_ok_iff {part : TagPart} {text : String} {u : Unit} :
    checkPart part text = .ok u ↔ IsWord text := by
  constructor
  · intro h
    have hne := (checkPart_eq_ok h).1
    unfold checkPart at h
    split at h
    · exact absurd h (by simp)
    · split at h
      · exact absurd h (by simp)
      · rename_i hspaced
        exact ⟨hne, by simpa using hspaced⟩
  · intro h
    rw [checkPart, if_neg (by simp [h.isBlankText_eq]), if_neg (by simp [h.unbroken])]

/-- What a key and a value have to be to make a tag. -/
structure Valid (t : Tag) : Prop where
  key : IsWord t.key
  value : IsWord t.value
  no_equals : '=' ∉ t.key.toList

theorem new_eq_ok_iff {key value : String} :
    Tag.new key value = .ok t ↔ t = ⟨key, value⟩ ∧ t.Valid := by
  unfold Tag.new
  simp only [bind_eq_ok, guard_eq_ok, checkPart_eq_ok_iff, pure_eq_ok, List.contains_iff_mem]
  constructor
  · rintro ⟨_, hkey, _, hvalue, hequals, rfl⟩
    exact ⟨rfl, hkey, hvalue, hequals⟩
  · rintro ⟨rfl, hkey, hvalue, hequals⟩
    exact ⟨(), hkey, (), hvalue, hequals, rfl⟩

theorem valid_of_parse {text : String} (h : Tag.parse text = .ok t) : t.Valid := by
  unfold Tag.parse at h
  split at h
  · exact (new_eq_ok_iff.mp h).2
  · exact absurd h (by simp)

theorem Valid.isWord_raw (h : t.Valid) : IsWord t.raw := by
  refine ⟨fun hempty => ?_, ?_⟩
  · have hlist := congrArg String.toList hempty
    rw [toList_raw] at hlist
    simp at hlist
  · have hkey := h.key.unbroken
    have hvalue := h.value.unbroken
    rw [Text.hasBlank] at hkey hvalue ⊢
    rw [toList_raw, List.any_append, List.any_cons, hkey, hvalue]
    decide

/-- **A tag is read back from its written form.** -/
theorem Valid.parse_raw (h : t.Valid) : Tag.parse t.raw = .ok t := by
  have hsplit : split? t.raw = some (t.key, t.value) := by
    rw [split?, toList_raw, Text.cutFirst_append h.no_equals]
    simp only [String.ofList_toList]
  rw [Tag.parse, hsplit]
  exact new_eq_ok_iff.mpr ⟨rfl, h⟩

theorem mapM_parse_raw {tags : List Tag} (h : ∀ t ∈ tags, t.Valid) :
    (tags.map raw).mapM Tag.parse = .ok tags := by
  induction tags with
  | nil => rfl
  | cons t tags ih =>
    obtain ⟨ht, htags⟩ := List.forall_mem_cons.mp h
    rw [List.map_cons, List.mapM_cons, ht.parse_raw, ok_bind, ih htags, ok_bind]
    rfl

end Tag

/-! ## Metrics -/

namespace Metric

variable {m n : Metric}

/-- What a name and tags have to be to make a metric. -/
structure Valid (m : Metric) : Prop where
  name : IsWord m.name
  tags : ∀ t ∈ m.tags, t.Valid

theorem valid_of_new {name : String} {texts : List String} (h : Metric.new name texts = .ok m) :
    m.Valid := by
  unfold Metric.new at h
  obtain ⟨hempty, h⟩ := guard_eq_ok.mp h
  obtain ⟨hspaced, h⟩ := guard_eq_ok.mp h
  obtain ⟨tags, hparsed, h⟩ := bind_eq_ok.mp h
  obtain rfl := pure_eq_ok.mp h
  refine ⟨⟨?_, by simpa using hspaced⟩, fun t ht => ?_⟩
  · simpa [String.isEmpty_iff] using hempty
  · obtain ⟨text, -, htext⟩ := exists_of_mem_mapM hparsed ht
    exact Tag.valid_of_parse htext

/-- Of a name and tags that are words nothing is trimmed off, and no tag is left out. -/
theorem new_of_words {name : String} {texts : List String} (hname : IsWord name)
    (htexts : ∀ text ∈ texts, IsWord text) :
    Metric.new name texts = (texts.mapM Tag.parse >>= fun tags => .ok ⟨name, tags⟩) := by
  have htrim : texts.map Text.trim = texts :=
    (List.map_congr_left fun text h => (htexts text h).trim_eq).trans (List.map_id texts)
  have hfilter : texts.filter (!·.isEmpty) = texts :=
    List.filter_eq_self.mpr fun text h => by rw [(htexts text h).isEmpty_eq, Bool.not_false]
  rw [Metric.new, hname.trim_eq, htrim, hfilter, if_neg (by simp [hname.isEmpty_eq]),
    if_neg (by simp [hname.unbroken])]
  rfl

/-- A metric is made of its name and its written tags. -/
theorem Valid.new_raw (h : m.Valid) : Metric.new m.name (m.tags.map Tag.raw) = .ok m := by
  have hwords : ∀ raw ∈ m.tags.map Tag.raw, IsWord raw := by
    intro raw hraw
    obtain ⟨t, ht, rfl⟩ := List.mem_map.mp hraw
    exact (h.tags t ht).isWord_raw
  rw [new_of_words h.name hwords, Tag.mapM_parse_raw h.tags, ok_bind]

/-- The metric with its tags in the order in which they are written. -/
def sorted (m : Metric) : Metric :=
  ⟨m.name, m.tags.mergeSort fun t u => decide (t.raw ≤ u.raw)⟩

theorem perm_sorted (m : Metric) : m.sorted.tags.Perm m.tags := List.mergeSort_perm _ _

theorem sortedTags_eq (m : Metric) : m.sortedTags = m.sorted.tags.map Tag.raw := by
  rw [sortedTags, sorted, List.map_mergeSort]
  intro t _ u _
  rfl

theorem Valid.sorted (h : m.Valid) : m.sorted.Valid :=
  ⟨h.name, fun t ht => h.tags t (m.perm_sorted.mem_iff.mp ht)⟩

/-- **The full name of a metric is canonical.** Metrics are the same just if they have one name and
the same tags, each as often. And the pieces of a full name between its spaces are a name and tags
of which the metric is made again. -/
theorem fullName_canonical {name name' : String} {texts texts' : List String}
    (hm : Metric.new name texts = .ok m) (hn : Metric.new name' texts' = .ok n) :
    (m.same n = true ↔ m.name = n.name ∧ m.tags.Perm n.tags) ∧
      ∃ first others read, (FullName.tokens m.fullName).map String.ofList = first :: others ∧
        Metric.new first others = .ok read ∧ read.same m = true ∧ read.name = m.name ∧
        read.tags.Perm m.tags := by
  have hwell := wellFormed_of_new hm
  have hread := (valid_of_new hm).sorted.new_raw
  refine ⟨?_, m.name, m.sortedTags, m.sorted, ?_, ?_, ?_, rfl, m.perm_sorted⟩
  · rw [same, beq_iff_eq]
    exact hwell.fullName_eq_iff (wellFormed_of_new hn)
  · rw [hwell.tokens_fullName, List.map_map]
    exact (List.map_congr_left fun text _ => String.ofList_toList).trans (List.map_id _)
  · rw [sortedTags_eq]
    exact hread
  · rw [same, beq_iff_eq]
    exact ((wellFormed_of_new hread).fullName_eq_iff hwell).mpr ⟨rfl, m.perm_sorted⟩

/-- A value with `=` in it, a tag that is given twice, and a blank tag. -/
theorem fullName_canonical_sample :
    let m : Metric := ⟨"m", [⟨"b", "1"⟩, ⟨"a", "x=y"⟩, ⟨"b", "1"⟩]⟩
    let n : Metric := ⟨"m", [⟨"a", "x=y"⟩, ⟨"b", "1"⟩]⟩
    Metric.new " m" ["b=1", " ", "a=x=y ", "b=1"] = .ok m ∧
      Metric.new "m" ["a=x=y", "b=1"] = .ok n ∧ m.same n = false ∧
      ∃ first others read, (FullName.tokens m.fullName).map String.ofList = first :: others ∧
        Metric.new first others = .ok read ∧ read.same m = true ∧ read.name = m.name ∧
        read.tags.Perm m.tags := by
  intro m n
  have hm : Metric.new " m" ["b=1", " ", "a=x=y ", "b=1"] = .ok m := rfl
  have hn : Metric.new "m" ["a=x=y", "b=1"] = .ok n := rfl
  obtain ⟨hsame, hread⟩ := fullName_canonical hm hn
  refine ⟨hm, hn, ?_, hread⟩
  rw [← Bool.not_eq_true, hsame]
  rintro ⟨-, hperm⟩
  exact absurd hperm.length_eq (by decide)

end Metric

end TimeSeries
