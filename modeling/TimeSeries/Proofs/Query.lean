import Mathlib
import TimeSeries.Query
import TimeSeries.Proofs.Words

/-!
# Which texts are queries

A text is a query by its words alone: a metric name, and then words that write tags, no two of them
with the same key. `WrittenBy` says so, and says which query it is. What a query that was read shows
are these words again, with a space before each but the first. So it is read back as it was, and no
text of a second form comes of it.
-/

namespace TimeSeries

/-! ## Matchers -/

namespace Matcher

/-- The matcher that a tag asks for: its value, or any value if that is a star. -/
def ofTag (t : Tag) : Matcher :=
  ⟨t.key, if t.value = "*" then .wildcard t.value false else .exact t.value⟩

theorem display_ofTag (t : Tag) : (ofTag t).display = t.raw := by
  obtain ⟨key, value⟩ := t
  by_cases h : value = "*"
  · simp [ofTag, display, Tag.raw, h, String.append_assoc]
  · simp [ofTag, display, Tag.raw, h]

variable {key value : String} {m : Matcher} {u : Unit}

theorem checkKey_eq_ok_iff (hkey : Text.hasBlank key = false) :
    checkKey key = .ok u ↔ key ≠ "" := by
  rw [checkKey, Ne, ← isBlankText_iff_of_unbroken hkey]
  split <;> simp_all

theorem exact_eq_ok_iff (hkey : Text.hasBlank key = false) (hvalue : Text.hasBlank value = false) :
    exact key value = .ok m ↔ key ≠ "" ∧ value ≠ "" ∧ m = ⟨key, .exact value⟩ := by
  rw [exact, bind_eq_ok]
  simp only [checkKey_eq_ok_iff hkey, guard_eq_ok, isBlankText_iff_of_unbroken hvalue, pure_eq_ok]
  constructor
  · rintro ⟨-, hkey, hvalue, rfl⟩
    exact ⟨hkey, hvalue, rfl⟩
  · rintro ⟨hkey, hvalue, rfl⟩
    exact ⟨(), hkey, hvalue, rfl⟩

theorem wildcard_star_eq_ok_iff (hkey : Text.hasBlank key = false) :
    wildcard key "*" false = .ok m ↔ key ≠ "" ∧ m = ⟨key, .wildcard "*" false⟩ := by
  rw [wildcard, bind_eq_ok]
  simp only [checkKey_eq_ok_iff hkey, guard_eq_ok, pure_eq_ok]
  constructor
  · rintro ⟨-, hkey, -, rfl⟩
    exact ⟨hkey, rfl⟩
  · rintro ⟨hkey, rfl⟩
    exact ⟨(), hkey, by decide, rfl⟩

end Matcher

namespace Query

variable {text : String} {q : Query} {m : Matcher} {words : List String}

/-- A word asks for what the tag that it writes asks for. -/
theorem parseMatcher_raw {t : Tag} (hword : IsWord t.raw) (hequals : '=' ∉ t.key.toList) :
    parseMatcher t.raw = .ok m ↔ t.Parted ∧ m = Matcher.ofTag t := by
  obtain ⟨hkey, hvalue⟩ := Tag.hasBlank_parts hword
  have hsplit : Tag.split? t.raw = some (t.key, t.value) :=
    Tag.split?_eq_some_iff.mpr ⟨rfl, hequals⟩
  rw [parseMatcher, hsplit]
  dsimp only
  by_cases hstar : t.value = "*"
  · rw [if_pos hstar, hstar, Matcher.wildcard_star_eq_ok_iff hkey, Matcher.ofTag, if_pos hstar,
      hstar]
    refine and_congr_left fun _ => ⟨fun h => ⟨h, ?_, hequals⟩, Tag.Parted.key_ne⟩
    rw [hstar]
    decide
  · rw [if_neg hstar, Matcher.exact_eq_ok_iff hkey hvalue, Matcher.ofTag, if_neg hstar, ← and_assoc]
    refine and_congr_left fun _ => ⟨fun h => ⟨h.1, h.2, hequals⟩, fun h => ?_⟩
    exact ⟨h.key_ne, h.value_ne⟩

theorem parseMatcher_word (hword : IsWord text) :
    parseMatcher text = .ok m ↔ ∃ t, t.raw = text ∧ t.Parted ∧ m = Matcher.ofTag t := by
  constructor
  · intro h
    cases hsplit : Tag.split? text with
    | none => simp [parseMatcher, hsplit] at h
    | some parts =>
      obtain ⟨htext, hequals⟩ := Tag.split?_eq_some_iff.mp hsplit
      obtain rfl : (Tag.mk parts.1 parts.2).raw = text := htext.symm
      exact ⟨_, rfl, (parseMatcher_raw hword hequals).mp h⟩
  · rintro ⟨t, rfl, h⟩
    exact (parseMatcher_raw hword h.1.no_equals).mpr h

/-- No key is repeated just if the keys are different, from each other and from those before. -/
theorem repeatedKey?_eq_none_iff (seen : List String) (ms : List Matcher) :
    repeatedKey? seen ms = none ↔
      (ms.map Matcher.key).Nodup ∧ ∀ m ∈ ms, m.key ∉ seen := by
  induction ms generalizing seen with
  | nil => simp [repeatedKey?]
  | cons m ms ih =>
    rw [repeatedKey?]
    by_cases hseen : m.key ∈ seen
    · simp [hseen]
    · rw [if_neg (by simpa using hseen), ih, List.map_cons, List.nodup_cons,
        List.forall_mem_cons]
      simp only [List.mem_cons, not_or, List.mem_map, not_exists, not_and]
      constructor
      · rintro ⟨hnodup, hms⟩
        exact ⟨⟨fun n hn => (hms n hn).1, hnodup⟩, hseen, fun n hn => (hms n hn).2⟩
      · rintro ⟨⟨hne, hnodup⟩, -, hms⟩
        exact ⟨hnodup, fun n hn => ⟨hne n hn, hms n hn⟩⟩

/-- The words that write a query: a metric name, and tags with different keys. -/
inductive WrittenBy : List String → Query → Prop
  | query {metric : String} {tags : List Tag} (htags : ∀ t ∈ tags, t.Parted)
      (hkeys : (tags.map Tag.key).Nodup) :
      WrittenBy (metric :: tags.map Tag.raw) ⟨metric, tags.map Matcher.ofTag⟩

theorem mapM_parseMatcher_words {texts : List String} (htexts : ∀ text ∈ texts, IsWord text)
    {ms : List Matcher} : texts.mapM parseMatcher = .ok ms ↔
      ∃ tags : List Tag, tags.map Tag.raw = texts ∧ (∀ t ∈ tags, t.Parted) ∧
        ms = tags.map Matcher.ofTag := by
  rw [mapM_eq_ok_iff]
  constructor
  · intro h
    induction h with
    | nil => exact ⟨[], rfl, by simp, rfl⟩
    | cons hparse _ ih =>
      obtain ⟨hword, hothers⟩ := List.forall_mem_cons.mp htexts
      obtain ⟨t, rfl, hparted, rfl⟩ := (parseMatcher_word hword).mp hparse
      obtain ⟨tags, rfl, hrest, rfl⟩ := ih hothers
      exact ⟨t :: tags, rfl, List.forall_mem_cons.mpr ⟨hparted, hrest⟩, rfl⟩
  · rintro ⟨tags, rfl, htags, rfl⟩
    rw [List.forall₂_map_left_iff, List.forall₂_map_right_iff]
    refine List.forall₂_same.mpr fun t ht => ?_
    exact (parseMatcher_word (htexts _ (List.mem_map_of_mem ht))).mpr ⟨t, rfl, htags t ht, rfl⟩

/-- A metric that is a word and matchers are a query if no key is repeated. -/
theorem new_eq_ok_iff {metric : String} {ms : List Matcher} (hmetric : IsWord metric) :
    new metric ms = .ok q ↔ (ms.map Matcher.key).Nodup ∧ q = ⟨metric, ms⟩ := by
  have hrepeated := repeatedKey?_eq_none_iff [] ms
  simp only [List.not_mem_nil, not_false_eq_true, implies_true, and_true] at hrepeated
  rw [new, hmetric.trim_eq, if_neg (by simp [hmetric.isEmpty_eq]), ← hrepeated]
  cases hkey : repeatedKey? [] ms with
  | some key => simp [throw_ne_ok]
  | none =>
    simp only [true_and]
    exact pure_eq_ok.trans eq_comm

/-- **The words of a text say which query it is, if any.** -/
theorem parse_eq_ok_iff (h : Text.HasWords text.toList words) :
    parse text = .ok q ↔ WrittenBy words q := by
  have hwords := h.isWord
  have hkeys (tags : List Tag) : (tags.map Matcher.ofTag).map Matcher.key = tags.map Tag.key := by
    rw [List.map_map]
    rfl
  rw [parse, Text.words_eq_iff.mpr h]
  cases words with
  | nil =>
    constructor
    · intro h
      exact absurd h (by simp)
    · intro h
      cases h
  | cons metric texts =>
    obtain ⟨hmetric, htexts⟩ := List.forall_mem_cons.mp hwords
    dsimp only
    rw [bind_eq_ok]
    simp only [mapM_parseMatcher_words htexts, new_eq_ok_iff hmetric]
    constructor
    · rintro ⟨-, ⟨tags, rfl, htags, rfl⟩, hnodup, rfl⟩
      exact .query htags (hkeys tags ▸ hnodup)
    · rintro ⟨htags, hnodup⟩
      exact ⟨_, ⟨_, rfl, htags, rfl⟩, (hkeys _).symm ▸ hnodup, rfl⟩

/-! ## Queries as they are shown -/

/-- A query shows its metric and its matchers, each with a space before it. -/
theorem toList_display (q : Query) :
    q.display.toList = q.metric.toList ++ q.matchers.flatMap fun m => ' ' :: m.display.toList := by
  have hfold (ms : List Matcher) (front : String) :
      (ms.foldl (fun text m => text ++ " " ++ m.display) front).toList =
        front.toList ++ ms.flatMap fun m => ' ' :: m.display.toList := by
    induction ms generalizing front with
    | nil => simp
    | cons m ms ih => simp [ih]
  exact hfold q.matchers q.metric

/-- Words with a space before each are words. -/
theorem hasWords_spaced {texts : List String} (htexts : ∀ text ∈ texts, IsWord text) :
    Text.HasWords (texts.flatMap fun text => ' ' :: text.toList) texts ∧
      ∀ c ∈ (texts.flatMap fun text => ' ' :: text.toList).head?, Text.isBlank c = true := by
  induction texts with
  | nil => exact ⟨.blanks (by simp), by simp⟩
  | cons text texts ih =>
    obtain ⟨htext, htexts⟩ := List.forall_mem_cons.mp htexts
    obtain ⟨hrest, hend⟩ := ih htexts
    have hspace : ∀ c ∈ [' '], Text.isBlank c = true := List.forall_mem_singleton.mpr rfl
    refine ⟨Text.HasWords.word hspace htext hend hrest, fun c hc => ?_⟩
    exact hspace c (List.mem_singleton.mpr (Option.some_inj.mp hc).symm)

theorem hasWords_display (hmetric : IsWord q.metric)
    (hmatchers : ∀ m ∈ q.matchers, IsWord m.display) :
    Text.HasWords q.display.toList (q.metric :: q.matchers.map Matcher.display) := by
  have hshown : ∀ text ∈ q.matchers.map Matcher.display, IsWord text := by
    simpa using hmatchers
  obtain ⟨hrest, hend⟩ := hasWords_spaced hshown
  rw [List.flatMap_map] at hrest hend
  rw [toList_display]
  exact .first hmetric hend hrest

/-- A query that words write shows these words. -/
theorem WrittenBy.hasWords_display (h : WrittenBy words q) (hwords : ∀ w ∈ words, IsWord w) :
    Text.HasWords q.display.toList words := by
  cases h with
  | @query metric tags htags hkeys =>
    obtain ⟨hmetric, htexts⟩ := List.forall_mem_cons.mp hwords
    have hshown : (tags.map Matcher.ofTag).map Matcher.display = tags.map Tag.raw := by
      rw [List.map_map]
      exact List.map_congr_left fun t _ => Matcher.display_ofTag t
    have hdisplay := Query.hasWords_display (q := ⟨metric, tags.map Matcher.ofTag⟩) hmetric (by
      rw [← List.forall_mem_map (P := IsWord), hshown]
      exact htexts)
    rwa [hshown] at hdisplay

theorem same_self (q : Query) : q.same q = true := by
  have hzip : q.matchers.zip q.matchers = q.matchers.map fun m => (m, m) := List.zipWith_self
  rw [same, beq_self_eq_true, beq_self_eq_true, hzip, List.all_map]
  simp [Matcher.same]

/-- **A text is a query just if its words write one**: there is a word, and every other word has
something on both sides of its first `=`, no two of them the same before it. The query is read back
from what it shows, and shows the same again. -/
theorem parse_display (text : String) :
    (∀ q, parse text = .ok q ↔ ∃ words, Text.HasWords text.toList words ∧ WrittenBy words q) ∧
      ∀ q, parse text = .ok q → parse q.display = .ok q ∧
        ∃ r, parse q.display = .ok r ∧ r.same q = true ∧ r.display = q.display := by
  obtain ⟨words, hwords⟩ := Text.exists_hasWords text.toList
  refine ⟨fun q => ⟨fun h => ⟨words, hwords, (parse_eq_ok_iff hwords).mp h⟩, ?_⟩, ?_⟩
  · rintro ⟨words', hwords', h⟩
    exact (parse_eq_ok_iff hwords').mpr h
  · intro q hparse
    have hwritten := (parse_eq_ok_iff hwords).mp hparse
    have hback := (parse_eq_ok_iff (hwritten.hasWords_display hwords.isWord)).mpr hwritten
    exact ⟨hback, q, hback, q.same_self, rfl⟩

/-- Values with `=`, with parentheses and with a star among other characters. -/
theorem parse_display_sample :
    let q : Query := ⟨"m", [⟨"a", .exact "b=c"⟩, ⟨"d", .exact "regexp(*)"⟩,
      ⟨"e", .wildcard "*" false⟩]⟩
    parse " m\u2003a=b=c\n d=regexp(*)  e=* " = .ok q ∧ q.display = "m a=b=c d=regexp(*) e=*" ∧
      parse q.display = .ok q := by
  intro q
  have h : parse " m\u2003a=b=c\n d=regexp(*)  e=* " = .ok q := by rfl
  exact ⟨h, by rfl, ((parse_display _).2 q h).1⟩

end Query

end TimeSeries
