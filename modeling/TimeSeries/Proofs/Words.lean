import Mathlib
import TimeSeries.Proofs.FullName.Reading

/-!
# The words of a text

`HasWords` says what the words of a text are without taking the text apart: there are blanks before,
between and behind them, and none is cut short. Each text holds just one list of words, the one that
`Text.words` finds.

Ingest lines and queries are read word by word, and in both of them most words write tags. A word is
a tag just if its first `=` has something on both sides. Blanks, which a tag must not hold either,
need not be looked for: there are none in a word.
-/

namespace TimeSeries

theorem IsWord.not_blank {text : String} (h : IsWord text) :
    ∀ c ∈ text.toList, Text.isBlank c = false := by
  simpa [Text.hasBlank] using h.unbroken

theorem isWord_ofList {cs : List Char} (hne : cs ≠ [])
    (hcs : ∀ c ∈ cs, Text.isBlank c = false) : IsWord (String.ofList cs) := by
  refine ⟨?_, ?_⟩
  · simpa [← String.toList_eq_nil_iff] using hne
  · simpa [Text.hasBlank] using hcs

/-- Where there is no blank, only the empty text is blank. -/
theorem isBlankText_iff_of_unbroken {text : String} (h : Text.hasBlank text = false) :
    Text.isBlankText text = true ↔ text = "" := by
  constructor
  · intro hblank
    by_contra hne
    rw [(IsWord.mk hne h).isBlankText_eq] at hblank
    exact absurd hblank Bool.false_ne_true
  · rintro rfl
    rfl

namespace Text

/-- Some characters hold words. What follows a word is a blank or nothing. -/
inductive HasWords : List Char → List String → Prop
  | blanks {gap : List Char} (hgap : ∀ c ∈ gap, isBlank c = true) : HasWords gap []
  | word {gap rest : List Char} {text : String} {words : List String}
      (hgap : ∀ c ∈ gap, isBlank c = true) (htext : IsWord text)
      (hend : ∀ c ∈ rest.head?, isBlank c = true) (hrest : HasWords rest words) :
      HasWords (gap ++ (text.toList ++ rest)) (text :: words)

/-- A word at the front. -/
theorem HasWords.first {rest : List Char} {text : String} {words : List String}
    (htext : IsWord text) (hend : ∀ c ∈ rest.head?, isBlank c = true) (hrest : HasWords rest words) :
    HasWords (text.toList ++ rest) (text :: words) := by
  have hgap : ∀ c ∈ ([] : List Char), isBlank c = true := by simp
  exact .word hgap htext hend hrest

theorem HasWords.isWord {cs : List Char} {words : List String} (h : HasWords cs words) :
    ∀ w ∈ words, IsWord w := by
  induction h with
  | blanks _ => simp
  | word _ htext _ _ ih => exact List.forall_mem_cons.mpr ⟨htext, ih⟩

/-! ## The words that are found -/

/-- A blank keeps the words on its two sides apart. -/
theorem wordsOf_append_cons {c : Char} (hc : isBlank c = true) (before after : List Char) :
    wordsOf (before ++ c :: after) = wordsOf before ++ wordsOf after := by
  rw [wordsOf, pieces_append_cons hc, List.filter_append]
  rfl

theorem wordsOf_cons {c : Char} (hc : isBlank c = true) (cs : List Char) :
    wordsOf (c :: cs) = wordsOf cs := wordsOf_append_cons hc [] cs

theorem wordsOf_word {word : List Char} (hne : word ≠ []) (hword : ∀ c ∈ word, isBlank c = false) :
    wordsOf word = [word] := by
  rw [wordsOf, pieces_of_forall hword, List.filter_cons_of_pos (by simpa using hne)]
  rfl

theorem wordsOf_blanks_append {gap : List Char} (hgap : ∀ c ∈ gap, isBlank c = true)
    (cs : List Char) : wordsOf (gap ++ cs) = wordsOf cs := by
  induction gap with
  | nil => rfl
  | cons c gap ih =>
    obtain ⟨hc, hgap⟩ := List.forall_mem_cons.mp hgap
    rw [List.cons_append, wordsOf_cons hc, ih hgap]

theorem wordsOf_word_append {word rest : List Char} (hne : word ≠ [])
    (hword : ∀ c ∈ word, isBlank c = false) (hend : ∀ c ∈ rest.head?, isBlank c = true) :
    wordsOf (word ++ rest) = word :: wordsOf rest := by
  cases rest with
  | nil =>
    rw [List.append_nil, wordsOf_word hne hword]
    rfl
  | cons c rest =>
    rw [wordsOf_append_cons (hend c rfl), wordsOf_word hne hword, wordsOf_cons (hend c rfl)]
    rfl

theorem HasWords.wordsOf_eq {cs : List Char} {words : List String} (h : HasWords cs words) :
    (wordsOf cs).map String.ofList = words := by
  induction h with
  | @blanks gap hgap =>
    rw [← List.append_nil gap, wordsOf_blanks_append hgap]
    rfl
  | @word gap rest text words hgap htext hend _ ih =>
    have hne : text.toList ≠ [] := by simpa [String.toList_eq_nil_iff] using htext.ne
    rw [wordsOf_blanks_append hgap, wordsOf_word_append hne htext.not_blank hend, List.map_cons,
      ih, String.ofList_toList]

/-- All characters hold words. One more character at the front is a blank, begins the first word or
is a word of its own. -/
theorem exists_hasWords (cs : List Char) : ∃ words, HasWords cs words := by
  induction cs with
  | nil => exact ⟨[], .blanks (by simp)⟩
  | cons c cs ih =>
    obtain ⟨words, h⟩ := ih
    by_cases hc : isBlank c = true
    · cases h with
      | blanks hgap => exact ⟨[], .blanks (List.forall_mem_cons.mpr ⟨hc, hgap⟩)⟩
      | word hgap htext hend hrest =>
        exact ⟨_, .word (List.forall_mem_cons.mpr ⟨hc, hgap⟩) htext hend hrest⟩
    · have hone : IsWord (String.ofList [c]) := isWord_ofList (by simp) (by simpa using hc)
      cases h with
      | blanks hgap =>
        have hend : ∀ d ∈ cs.head?, isBlank d = true := fun d hd =>
          hgap d (List.mem_of_mem_head? hd)
        exact ⟨_, by simpa using HasWords.first hone hend (.blanks hgap)⟩
      | @word gap rest text words hgap htext hend hrest =>
        cases gap with
        | nil =>
          have hlonger : IsWord (String.ofList (c :: text.toList)) :=
            isWord_ofList (by simp) (List.forall_mem_cons.mpr ⟨by simpa using hc, htext.not_blank⟩)
          exact ⟨_, by simpa using HasWords.first hlonger hend hrest⟩
        | cons d gap =>
          have hend' : ∀ x ∈ (d :: gap ++ (text.toList ++ rest)).head?, isBlank x = true := by
            simpa using hgap d List.mem_cons_self
          exact ⟨_, by
            simpa using HasWords.first hone hend' (.word hgap htext hend hrest)⟩

/-- **The words of a text are those that it holds.** -/
theorem words_eq_iff {text : String} {ws : List String} :
    words text = ws ↔ HasWords text.toList ws := by
  constructor
  · rintro rfl
    obtain ⟨ws, h⟩ := exists_hasWords text.toList
    rwa [words, h.wordsOf_eq]
  · exact fun h => h.wordsOf_eq

/-- The first separator is cut out. -/
theorem eq_append_of_cutFirst {x : Char} {cs before after : List Char}
    (h : cutFirst (· == x) cs = (before, some after)) : cs = before ++ x :: after ∧ x ∉ before := by
  induction cs generalizing before with
  | nil => simp [cutFirst] at h
  | cons c cs ih =>
    by_cases hc : c = x
    · simp only [cutFirst, hc, beq_self_eq_true, if_true, Prod.mk.injEq, Option.some_inj] at h
      obtain ⟨rfl, rfl⟩ := h
      exact ⟨by rw [hc, List.nil_append], List.not_mem_nil⟩
    · rw [cutFirst, if_neg (by simpa using hc)] at h
      obtain ⟨rfl, hafter⟩ := Prod.mk.inj h
      obtain ⟨hcs, hnot⟩ := ih (Prod.ext rfl hafter)
      refine ⟨by rw [List.cons_append, ← hcs], ?_⟩
      simpa [hnot] using Ne.symm hc

end Text

/-! ## Words that are tags -/

namespace Tag

variable {t : Tag} {text key value : String}

theorem split?_eq_some_iff :
    split? text = some (key, value) ↔ text = key ++ "=" ++ value ∧ '=' ∉ key.toList := by
  constructor
  · intro h
    rw [split?] at h
    split at h
    · exact absurd h (by simp)
    · rename_i before after hcut
      simp only [Option.some_inj, Prod.mk.injEq] at h
      obtain ⟨rfl, rfl⟩ := h
      obtain ⟨hcs, hnot⟩ := Text.eq_append_of_cutFirst hcut
      refine ⟨?_, by simpa using hnot⟩
      rw [← String.toList_inj, hcs]
      simp
  · rintro ⟨rfl, hnot⟩
    have hlist : (key ++ "=" ++ value).toList = key.toList ++ '=' :: value.toList := by simp
    rw [split?, hlist, Text.cutFirst_append hnot]
    simp only [String.ofList_toList]

/-- A key and a value that are not empty, the key without `=`. -/
structure Parted (t : Tag) : Prop where
  key_ne : t.key ≠ ""
  value_ne : t.value ≠ ""
  no_equals : '=' ∉ t.key.toList

theorem Valid.parted (h : t.Valid) : t.Parted := ⟨h.key.ne, h.value.ne, h.no_equals⟩

theorem hasBlank_parts (hword : IsWord t.raw) :
    Text.hasBlank t.key = false ∧ Text.hasBlank t.value = false := by
  have hparts := hword.unbroken
  rw [Text.hasBlank, toList_raw, List.any_append, List.any_cons, Bool.or_eq_false_iff,
    Bool.or_eq_false_iff] at hparts
  exact ⟨hparts.1, hparts.2.2⟩

/-- The parts of a word are words if they are not empty. -/
theorem Parted.valid (h : t.Parted) (hword : IsWord t.raw) : t.Valid :=
  ⟨⟨h.key_ne, (hasBlank_parts hword).1⟩, ⟨h.value_ne, (hasBlank_parts hword).2⟩, h.no_equals⟩

/-- **A word is a tag just if its first `=` has something on both sides.** -/
theorem parse_word (hword : IsWord text) : Tag.parse text = .ok t ↔ t.raw = text ∧ t.Parted := by
  constructor
  · intro h
    refine ⟨?_, (valid_of_parse h).parted⟩
    rw [Tag.parse] at h
    split at h
    · rename_i key value hsplit
      obtain ⟨rfl, -⟩ := new_eq_ok_iff.mp h
      exact (split?_eq_some_iff.mp hsplit).1.symm
    · exact absurd h (by simp)
  · rintro ⟨rfl, h⟩
    exact (h.valid hword).parse_raw

theorem mapM_parse_words {words : List String} (hwords : ∀ w ∈ words, IsWord w) {tags : List Tag} :
    words.mapM Tag.parse = .ok tags ↔ tags.map raw = words ∧ ∀ t ∈ tags, t.Parted := by
  rw [mapM_eq_ok_iff]
  constructor
  · intro h
    induction h with
    | nil => simp
    | cons hparse _ ih =>
      obtain ⟨hword, hothers⟩ := List.forall_mem_cons.mp hwords
      obtain ⟨rfl, hparted⟩ := (parse_word hword).mp hparse
      obtain ⟨rfl, hrest⟩ := ih hothers
      exact ⟨rfl, List.forall_mem_cons.mpr ⟨hparted, hrest⟩⟩
  · rintro ⟨rfl, h⟩
    rw [List.forall₂_map_left_iff]
    refine List.forall₂_same.mpr fun t ht => ?_
    exact (parse_word (hwords _ (List.mem_map_of_mem ht))).mpr ⟨rfl, h t ht⟩

end Tag

end TimeSeries
