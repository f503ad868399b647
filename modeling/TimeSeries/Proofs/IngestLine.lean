import Mathlib
import TimeSeries.Proofs.Words

/-!
# Which lines are records

A line is a record by its words alone. `WrittenBy` lists what they have to be, and says which record
they write. A line with other words is refused as wrong input, and nothing else can go wrong. Tags
come last in a line and their order means nothing: lines that differ in it alone bring the same
point of the same metric.
-/

namespace TimeSeries

/-! ## Lines that are no records -/

/-- The input is wrong. -/
def Error.Invalidated (e : Error) : Prop := ∃ why, e = .invalid why

theorem Tag.failsOnly_checkPart (part : TagPart) (text : String) :
    FailsOnly Error.Invalidated (Tag.checkPart part text) := by
  unfold Tag.checkPart
  split
  · exact failsOnly_error ⟨_, rfl⟩
  · split
    · exact failsOnly_error ⟨_, rfl⟩
    · exact failsOnly_ok ()

theorem Tag.failsOnly_parse (text : String) : FailsOnly Error.Invalidated (Tag.parse text) := by
  unfold Tag.parse
  split
  · rename_i key value _
    refine failsOnly_bind (Tag.failsOnly_checkPart .key key) fun _ _ => ?_
    refine failsOnly_bind (Tag.failsOnly_checkPart .value value) fun _ _ => ?_
    split
    · exact failsOnly_error ⟨_, rfl⟩
    · exact failsOnly_ok _
  · exact failsOnly_error ⟨_, rfl⟩

theorem Metric.failsOnly_new (name : String) (tags : List String) :
    FailsOnly Error.Invalidated (Metric.new name tags) := by
  unfold Metric.new
  dsimp only
  split
  · exact failsOnly_error ⟨_, rfl⟩
  · split
    · exact failsOnly_error ⟨_, rfl⟩
    · refine failsOnly_bind (failsOnly_mapM fun raw _ => Tag.failsOnly_parse raw) fun parsed _ => ?_
      exact failsOnly_ok _

/-- A line that is no record is wrong input. -/
theorem PutRecord.failsOnly_parse (line : String) :
    FailsOnly Error.Invalidated (PutRecord.parse line) := by
  unfold PutRecord.parse
  split
  · rename_i name time value tags _
    have htime : FailsOnly Error.Invalidated (PutRecord.parseTime time) := by
      unfold PutRecord.parseTime
      split
      · exact failsOnly_ok _
      · exact failsOnly_error ⟨_, rfl⟩
    have hvalue : FailsOnly Error.Invalidated (PutRecord.parseValue value) := by
      unfold PutRecord.parseValue
      split
      · exact failsOnly_ok _
      · exact failsOnly_error ⟨_, rfl⟩
    refine failsOnly_bind htime fun _ _ => ?_
    refine failsOnly_bind hvalue fun _ _ => ?_
    refine failsOnly_bind (Metric.failsOnly_new name tags) fun metric _ => ?_
    exact failsOnly_ok _
  · exact failsOnly_error ⟨_, rfl⟩
  · exact failsOnly_error ⟨_, rfl⟩

/-! ## Lines that are records -/

namespace PutRecord

/-- The words that write a record: `put`, a name, a time, a value, and any number of tags. -/
inductive WrittenBy : List String → PutRecord → Prop
  | put {name time value : String} {tags : List Tag} {seconds : Int} {bits : UInt64}
      (htime : Text.readInteger time.toList = .ok seconds)
      (hvalue : Text.readBinary64 value.toList = some bits) (htags : ∀ t ∈ tags, t.Parted) :
      WrittenBy ("put" :: name :: time :: value :: tags.map Tag.raw)
        ⟨⟨name, tags⟩, ⟨seconds, bits⟩⟩

variable {line : String} {r : PutRecord} {words : List String}

theorem parseTime_eq_ok_iff {token : String} {seconds : Int} :
    parseTime token = .ok seconds ↔ Text.readInteger token.toList = .ok seconds := by
  unfold parseTime
  split <;> simp_all

theorem parseValue_eq_ok_iff {token : String} {bits : UInt64} :
    parseValue token = .ok bits ↔ Text.readBinary64 token.toList = some bits := by
  unfold parseValue
  split <;> simp_all

/-- **The words of a line say which record it is, if any.** -/
theorem parse_eq_ok_iff (h : Text.HasWords line.toList words) :
    parse line = .ok r ↔ WrittenBy words r := by
  have hwords := h.isWord
  rw [parse, Text.words_eq_iff.mpr h]
  constructor
  · intro hparse
    split at hparse
    · rename_i name time value texts
      simp only [List.forall_mem_cons] at hwords
      obtain ⟨-, hname, -, -, htexts⟩ := hwords
      obtain ⟨seconds, htime, hparse⟩ := bind_eq_ok.mp hparse
      obtain ⟨bits, hvalue, hparse⟩ := bind_eq_ok.mp hparse
      obtain ⟨metric, hmetric, hparse⟩ := bind_eq_ok.mp hparse
      obtain rfl := pure_eq_ok.mp hparse
      rw [Metric.new_of_words hname htexts] at hmetric
      obtain ⟨tags, htags, hmetric⟩ := bind_eq_ok.mp hmetric
      obtain rfl := Except.ok.inj hmetric
      obtain ⟨rfl, hparted⟩ := (Tag.mapM_parse_words htexts).mp htags
      exact .put (parseTime_eq_ok_iff.mp htime) (parseValue_eq_ok_iff.mp hvalue) hparted
    · exact absurd hparse (by simp)
    · exact absurd hparse (by simp)
  · rintro ⟨htime, hvalue, htags⟩
    simp only [List.forall_mem_cons] at hwords
    obtain ⟨-, hname, -, -, htexts⟩ := hwords
    simp only [parseTime_eq_ok_iff.mpr htime, parseValue_eq_ok_iff.mpr hvalue,
      Metric.new_of_words hname htexts, (Tag.mapM_parse_words htexts).mpr ⟨rfl, htags⟩]
    rfl

/-- What is a rearranged image of a list is the image of the list rearranged. -/
theorem exists_map_of_perm {texts : List String} {tags : List Tag}
    (h : texts.Perm (tags.map Tag.raw)) :
    ∃ tags' : List Tag, texts = tags'.map Tag.raw ∧ tags'.Perm tags := by
  have hraw : List.Forall₂ (fun text t => text = Tag.raw t) (tags.map Tag.raw) tags := by
    rw [← List.forall₂_map_right_iff (R := (· = ·)), List.forall₂_eq_eq_eq]
  obtain ⟨tags', hraw', hperm⟩ := List.perm_comp_forall₂ h hraw
  rw [← List.forall₂_map_right_iff (R := (· = ·)), List.forall₂_eq_eq_eq] at hraw'
  exact ⟨tags', hraw', hperm⟩

/-- Tags in another order write the same metric and the same point. -/
theorem WrittenBy.perm {front texts texts' : List String} (h : WrittenBy (front ++ texts) r)
    (hfront : front.length = 4) (htexts : texts.Perm texts') :
    ∃ r', WrittenBy (front ++ texts') r' ∧ r'.metric.name = r.metric.name ∧
      r'.metric.tags.Perm r.metric.tags ∧ r'.point = r.point := by
  obtain ⟨put, name, time, value, rfl⟩ : ∃ a b c d, front = [a, b, c, d] :=
    match front, hfront with
    | [a, b, c, d], _ => ⟨a, b, c, d, rfl⟩
  generalize hwords : [put, name, time, value] ++ texts = words at h
  cases h with
  | put htime hvalue htags =>
    simp only [List.cons_append, List.nil_append, List.cons.injEq] at hwords
    obtain ⟨rfl, rfl, rfl, rfl, rfl⟩ := hwords
    obtain ⟨tags', rfl, hperm⟩ := exists_map_of_perm htexts.symm
    exact ⟨_, .put htime hvalue fun t ht => htags t (hperm.mem_iff.mp ht), rfl, hperm, rfl⟩

/-- **A line is a record just if its words write one**, the words being what stands between blanks.
Every other line is refused as wrong input. Lines whose words differ in the order of the tags alone
are the same: both are refused, or both bring the same point of the same metric. -/
theorem parse_grammar (line : String) :
    (∀ r, parse line = .ok r ↔ ∃ words, Text.HasWords line.toList words ∧ WrittenBy words r) ∧
      ((∃ r, parse line = .ok r) ∨ ∃ why, parse line = .error (.invalid why)) ∧
      ∀ other front tags tags', Text.HasWords line.toList (front ++ tags) →
        Text.HasWords other.toList (front ++ tags') → front.length = 4 → tags.Perm tags' →
        ∀ r, parse line = .ok r → ∃ r', parse other = .ok r' ∧ r'.metric.same r.metric = true ∧
          r'.metric.name = r.metric.name ∧ r'.metric.tags.Perm r.metric.tags ∧
          r'.point = r.point := by
  obtain ⟨words, hwords⟩ := Text.exists_hasWords line.toList
  refine ⟨fun r => ⟨fun h => ⟨words, hwords, (parse_eq_ok_iff hwords).mp h⟩, ?_⟩, ?_, ?_⟩
  · rintro ⟨words', hwords', h⟩
    exact (parse_eq_ok_iff hwords').mpr h
  · cases hparse : parse line with
    | ok r => exact .inl ⟨r, rfl⟩
    | error e =>
      obtain ⟨why, rfl⟩ := failsOnly_parse line e hparse
      exact .inr ⟨why, rfl⟩
  · intro other front tags tags' hline hother hfront htags r hparse
    obtain ⟨r', hwritten, hname, hperm, hpoint⟩ :=
      ((parse_eq_ok_iff hline).mp hparse).perm hfront htags
    have hparse' := (parse_eq_ok_iff hother).mpr hwritten
    refine ⟨r', hparse', ?_, hname, hperm, hpoint⟩
    rw [Metric.same, beq_iff_eq]
    exact ((wellFormed_of_parse hparse').fullName_eq_iff (wellFormed_of_parse hparse)).mpr
      ⟨hname, hperm⟩

/-- A no-break space and a tab between words, an `=` in a value, and the tags in another order. -/
theorem parse_grammar_sample :
    let line := " put\u00a0cpu +60\t-.5e1 b=x=y a=1\r"
    let other := "put cpu +60 -.5e1 a=1 b=x=y"
    let r : PutRecord := ⟨⟨"cpu", [⟨"b", "x=y"⟩, ⟨"a", "1"⟩]⟩, ⟨60, 0xC014000000000000⟩⟩
    parse line = .ok r ∧ ∃ r', parse other = .ok r' ∧ r'.metric.same r.metric = true ∧
      r'.metric.name = r.metric.name ∧ r'.metric.tags.Perm r.metric.tags ∧
      r'.point = r.point := by
  intro line other r
  have hline : Text.HasWords line.toList (["put", "cpu", "+60", "-.5e1"] ++ ["b=x=y", "a=1"]) :=
    Text.words_eq_iff.mp (by decide +kernel)
  have hother : Text.HasWords other.toList (["put", "cpu", "+60", "-.5e1"] ++ ["a=1", "b=x=y"]) :=
    Text.words_eq_iff.mp (by decide +kernel)
  have hparse : parse line = .ok r := by decide +kernel
  exact ⟨hparse, (parse_grammar line).2.2 other _ _ _ hline hother rfl (.swap ..) r hparse⟩

end PutRecord

end TimeSeries
