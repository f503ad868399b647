import Mathlib
import TimeSeries.Matcher
import TimeSeries.Proofs.Glob.Filling

/-!
# Globs without case

To match without case, the glob and the value are both lowered before they are matched, each as a
whole. A capital sigma is lowered by its neighbours, and next to a star the glob does not show what
the neighbour will be: `AΣ*` is lowered as if the word ended there, and in `AΣB` it does not. So a
value can match a glob and be lost when case is ignored.

This happens to a glob just if one of its sigmas is not `settled`: what stands in the glob leaves it
open whether the sigma ends a word. If all are settled, the lowered value is the lowered glob with
the same stars replaced. If one is not, then the value with ` A` or with `A ` for every star shows
it: some sigma is lowered the other way there, no other one goes back, and what the lowered glob
asks for more often than the lowered value has it cannot be found.
-/

namespace TimeSeries

namespace Text

variable {before after cs rest : List Char} {c : Char}

/-- The lower case of a capital sigma between two texts, the one before it in reverse. -/
def lowerSigma (before after : List Char) : Char :=
  if casedNext before && !casedNext after then 'ς' else 'σ'

theorem lowerAfter_sigma (before rest : List Char) :
    lowerAfter before ('Σ' :: rest) =
      lowerSigma before rest :: lowerAfter ('Σ' :: before) rest := by
  rw [lowerAfter, if_pos rfl, lowerSigma]
  split <;> rfl

theorem count_lowerAfter_sigma (d : Char) (before rest : List Char) :
    (lowerAfter before ('Σ' :: rest)).count d =
      [lowerSigma before rest].count d + (lowerAfter ('Σ' :: before) rest).count d := by
  rw [lowerAfter_sigma, ← List.singleton_append, List.count_append]

/-- Every other character is lowered alike between any neighbours. -/
theorem exists_lowerAfter_cons (hc : c ≠ 'Σ') :
    ∃ lowered, ∀ before rest, lowerAfter before (c :: rest) =
      lowered ++ lowerAfter (c :: before) rest := by
  refine ⟨if c = 'İ' then ['i', '\u0307'] else [lowerChar c], fun before rest => ?_⟩
  rw [lowerAfter, if_neg hc]

theorem lowerAfter_cons_of_lt (hc : c.toNat < 0x80) (before rest : List Char) :
    lowerAfter before (c :: rest) = c.toLower :: lowerAfter (c :: before) rest := by
  have hsigma : c ≠ 'Σ' := by
    rintro rfl
    exact absurd hc (by decide)
  have hdotted : c ≠ 'İ' := by
    rintro rfl
    exact absurd hc (by decide)
  rw [lowerAfter, if_neg hsigma, if_neg hdotted, lowerChar, if_pos hc, List.singleton_append]

theorem count_lowerAfter_of_lt {d : Char} {before rest : List Char} (hc : c.toNat < 0x80)
    (hd : c.toLower ≠ d) :
    (lowerAfter before (c :: rest)).count d = (lowerAfter (c :: before) rest).count d := by
  rw [lowerAfter_cons_of_lt hc, List.count_cons_of_ne hd]

theorem lowerAfter_star (before rest : List Char) :
    lowerAfter before ('*' :: rest) = '*' :: lowerAfter ('*' :: before) rest :=
  lowerAfter_cons_of_lt (by decide) before rest

theorem exists_lowerAfter_append (before cs rest : List Char) :
    ∃ lowered, lowerAfter before (cs ++ rest) =
      lowered ++ lowerAfter (cs.reverse ++ before) rest := by
  induction cs generalizing before with
  | nil => exact ⟨[], rfl⟩
  | cons c cs ih =>
    obtain ⟨lowered, hlowered⟩ := ih (c :: before)
    rw [List.reverse_cons, List.append_assoc, List.singleton_append]
    exact ⟨_, by rw [List.cons_append, lowerAfter, hlowered, ← List.append_assoc]⟩

theorem casedNext_cons (c : Char) (cs : List Char) :
    casedNext (c :: cs) = if isCaseIgnorable c then casedNext cs else isCased c := by
  rw [casedNext, List.dropWhile_cons]
  by_cases hskip : isCaseIgnorable c = true
  · rw [if_pos hskip, if_pos hskip, casedNext]
  · rw [if_neg hskip, if_neg hskip]

end Text

namespace Glob

open Text

variable {before before' after after' cs text : List Char} {c d x y : Char}

/-- The first character of a glob that the search for a cased neighbour does not skip is a star. -/
def meetsStar (cs : List Char) : Bool := (cs.dropWhile isCaseIgnorable).head? == some '*'

/-- Whether a glob shows how a capital sigma is lowered in every text that matches it. Before a
cased character it does not end a word. Otherwise the glob has to show whether it is after a cased
character, and if it is, that it is not before one. -/
def settled (before after : List Char) : Bool :=
  casedNext after || !meetsStar before && (!casedNext before || !meetsStar after)

/-- Every capital sigma of a glob is settled. -/
def Settled (cs : List Char) : Prop :=
  ∀ before after, cs = before ++ 'Σ' :: after → settled before.reverse after = true

/-- Whether every capital sigma of a glob is settled, behind what is held in reverse. -/
def settledFrom (before : List Char) : List Char → Bool
  | [] => true
  | c :: cs => (c != 'Σ' || settled before cs) && settledFrom (c :: before) cs

theorem settledFrom_iff :
    settledFrom before cs = true ↔ ∀ front after, cs = front ++ 'Σ' :: after →
      settled (front.reverse ++ before) after = true := by
  induction cs generalizing before with
  | nil => simp [settledFrom]
  | cons c cs ih =>
    rw [settledFrom, Bool.and_eq_true, Bool.or_eq_true, bne_iff_ne, ih]
    constructor
    · rintro ⟨hhere, hmore⟩ front after hcs
      cases front with
      | nil =>
        obtain ⟨rfl, rfl⟩ := List.cons.inj hcs
        exact hhere.resolve_left (absurd rfl)
      | cons d front =>
        obtain ⟨rfl, rfl⟩ := List.cons.inj hcs
        simpa using hmore front after rfl
    · intro h
      refine ⟨?_, fun front after hcs => ?_⟩
      · by_cases hc : c = 'Σ'
        · exact .inr (h [] cs (by rw [hc, List.nil_append]))
        · exact .inl hc
      · simpa using h (c :: front) after (by rw [hcs, List.cons_append])

instance (cs : List Char) : Decidable (Settled cs) :=
  decidable_of_iff (settledFrom [] cs = true) (by simp [settledFrom_iff, Settled])

/-- A star leaves it open what is next to a sigma, and a blank does not. -/
example : ¬ Settled "AΣ*".toList ∧ ¬ Settled "*Σ".toList ∧ Settled "*AΣ *".toList := by
  decide +kernel

/-! ## Settled globs -/

theorem meetsStar_cons (c : Char) (cs : List Char) :
    meetsStar (c :: cs) = if isCaseIgnorable c then meetsStar cs else c == '*' := by
  rw [meetsStar, List.dropWhile_cons]
  split
  · rfl
  · rw [List.head?_cons, Option.some_beq_some]

theorem meetsStar_of_casedNext (h : casedNext cs = true) : meetsStar cs = false := by
  induction cs with
  | nil => rfl
  | cons c cs ih =>
    rw [casedNext_cons] at h
    rw [meetsStar_cons]
    split at h
    · rename_i hskip
      rw [if_pos hskip, ih h]
    · rename_i hskip
      rw [if_neg hskip, beq_eq_false_iff_ne]
      rintro rfl
      exact absurd h (by decide +kernel)

/-- What the glob shows is so in each text that matches it. -/
theorem Fills.casedNext_eq (h : Fills cs text) (hshown : meetsStar cs = false) :
    casedNext text = casedNext cs := by
  induction h with
  | nil => rfl
  | star gap h ih =>
    rw [meetsStar_cons, if_neg (by decide +kernel)] at hshown
    exact absurd hshown (by decide)
  | char hc h ih =>
    rw [meetsStar_cons] at hshown
    rw [casedNext_cons, casedNext_cons]
    split
    · rename_i hskip
      rw [if_pos hskip] at hshown
      exact ih hshown
    · rfl

theorem lowerSigma_eq (hbefore : Fills before before') (hafter : Fills after after')
    (hsettled : settled before after = true) :
    lowerSigma before' after' = lowerSigma before after := by
  rw [lowerSigma, lowerSigma]
  by_cases hcased : casedNext after = true
  · rw [hafter.casedNext_eq (meetsStar_of_casedNext hcased), hcased, Bool.not_true, Bool.and_false,
      Bool.and_false]
  · rw [Bool.not_eq_true] at hcased
    rw [settled, hcased, Bool.false_or, Bool.and_eq_true, Bool.not_eq_true', Bool.or_eq_true,
      Bool.not_eq_true', Bool.not_eq_true'] at hsettled
    rw [hbefore.casedNext_eq hsettled.1]
    rcases hsettled.2 with hword | hshown
    · rw [hword, Bool.false_and, Bool.false_and]
    · rw [hafter.casedNext_eq hshown]

theorem Fills.append_left (lowered : List Char) (h : Fills cs text) :
    Fills (lowered ++ cs) (lowered ++ text) := by
  induction lowered with
  | nil => exact h
  | cons c lowered ih =>
    by_cases hc : c = '*'
    · subst hc
      exact .star ['*'] ih
    · exact .char hc ih

/-- A lowered text is the lowered glob with its stars replaced. -/
theorem Fills.lowerAfter (hbefore : Fills before before') (h : Fills cs text)
    (hsettled : Settled (before.reverse ++ cs)) :
    Fills (lowerAfter before cs) (lowerAfter before' text) := by
  induction h generalizing before before' with
  | nil => exact .nil
  | @star pattern text gap h ih =>
    obtain ⟨lowered, hlowered⟩ := exists_lowerAfter_append before' gap text
    rw [lowerAfter_star, hlowered]
    exact .star lowered (ih (.star gap.reverse hbefore) (by simpa using hsettled))
  | @char pattern text c hc h ih =>
    have hmore := ih (.char hc hbefore) (by simpa using hsettled)
    by_cases hsigma : c = 'Σ'
    · subst hsigma
      have hhere := hsettled before.reverse pattern rfl
      rw [List.reverse_reverse] at hhere
      rw [lowerAfter_sigma, lowerAfter_sigma, lowerSigma_eq hbefore h hhere]
      exact hmore.append_left [_]
    · obtain ⟨lowered, hlowered⟩ := exists_lowerAfter_cons hsigma
      rw [hlowered, hlowered]
      exact hmore.append_left lowered

/-! ## Globs that are not settled -/

/-- A glob with two characters for each star. -/
def fillWith (x y : Char) : List Char → List Char
  | [] => []
  | c :: cs => if c = '*' then x :: y :: fillWith x y cs else c :: fillWith x y cs

theorem fillWith_star (x y : Char) (cs : List Char) :
    fillWith x y ('*' :: cs) = x :: y :: fillWith x y cs := if_pos rfl

theorem fillWith_cons (hc : c ≠ '*') : fillWith x y (c :: cs) = c :: fillWith x y cs := if_neg hc

theorem fills_fillWith (x y : Char) (cs : List Char) : Fills cs (fillWith x y cs) := by
  induction cs with
  | nil => exact .nil
  | cons c cs ih =>
    rw [fillWith]
    split
    · rename_i hc
      subst hc
      exact .star [x, y] ih
    · rename_i hc
      exact .char hc ih

/-- Where the search meets a star, it finds the character that is put there. -/
theorem casedNext_fillWith (hx : isCaseIgnorable x = false) (cs : List Char) :
    casedNext (fillWith x y cs) = (casedNext cs || meetsStar cs && isCased x) := by
  induction cs with
  | nil => rfl
  | cons c cs ih =>
    rw [fillWith, casedNext_cons, meetsStar_cons]
    by_cases hc : c = '*'
    · subst hc
      have hstar : isCaseIgnorable '*' = false ∧ isCased '*' = false := by decide +kernel
      rw [if_pos rfl, casedNext_cons, hx, hstar.1, hstar.2]
      rfl
    · rw [if_neg hc, casedNext_cons, ih]
      split
      · rfl
      · rw [beq_false_of_ne hc, Bool.false_and, Bool.or_false]

/-- A text has every character of a glob at least as often. -/
theorem Fills.count_le (h : Fills cs text) (hd : d ≠ '*') : cs.count d ≤ text.count d := by
  induction h with
  | nil => exact Nat.le_refl _
  | star gap h ih =>
    rw [List.count_cons_of_ne hd.symm, List.count_append]
    omega
  | char hc h ih =>
    rw [List.count_cons, List.count_cons]
    omega

/-! Two characters are put for each star. Lowered, they do not hold the character that is counted,
and no sigma is lowered to it that was not in the glob. -/

section Count

variable
  (hgap : ∀ before rest, (Text.lowerAfter before (x :: y :: rest)).count d =
    (Text.lowerAfter (y :: x :: before) rest).count d)
  (hd : d ≠ '*')

include hgap hd

/-- Other characters than a sigma bring as many to the glob as to the value. -/
theorem exists_count_eq (hc : c ≠ 'Σ') (before cs : List Char) :
    ∃ k, (Text.lowerAfter before (c :: cs)).count d =
        k + (Text.lowerAfter (c :: before) cs).count d ∧
      (Text.lowerAfter (fillWith y x before) (fillWith x y (c :: cs))).count d =
        k + (Text.lowerAfter (fillWith y x (c :: before)) (fillWith x y cs)).count d := by
  by_cases hstar : c = '*'
  · subst hstar
    refine ⟨0, ?_, ?_⟩
    · rw [lowerAfter_star, List.count_cons_of_ne hd.symm, Nat.zero_add]
    · rw [fillWith_star, fillWith_star, hgap, Nat.zero_add]
  · obtain ⟨lowered, hlowered⟩ := exists_lowerAfter_cons hc
    refine ⟨lowered.count d, ?_, ?_⟩
    · rw [hlowered, List.count_append]
    · rw [fillWith_cons hstar, fillWith_cons hstar, hlowered, List.count_append]

variable (hsigma : ∀ before after, [lowerSigma (fillWith y x before) (fillWith x y after)].count d ≤
  [lowerSigma before after].count d)

include hsigma

theorem count_lower_le (before cs : List Char) :
    (Text.lowerAfter (fillWith y x before) (fillWith x y cs)).count d ≤
      (Text.lowerAfter before cs).count d := by
  induction cs generalizing before with
  | nil => exact Nat.zero_le _
  | cons c cs ih =>
    have hmore := ih (c :: before)
    by_cases hc : c = 'Σ'
    · subst hc
      have hhere := hsigma before cs
      rw [fillWith_cons (by decide)] at hmore ⊢
      rw [count_lowerAfter_sigma, count_lowerAfter_sigma]
      omega
    · obtain ⟨k, hglob, hvalue⟩ := exists_count_eq hgap hd hc before cs
      omega

/-- A sigma that is lowered to the character in the glob and not in the value is missed there. -/
theorem count_lower_lt (front after before : List Char)
    (hlt : [lowerSigma (fillWith y x (front.reverse ++ before)) (fillWith x y after)].count d <
      [lowerSigma (front.reverse ++ before) after].count d) :
    (Text.lowerAfter (fillWith y x before) (fillWith x y (front ++ 'Σ' :: after))).count d <
      (Text.lowerAfter before (front ++ 'Σ' :: after)).count d := by
  induction front generalizing before with
  | nil =>
    have hmore := count_lower_le hgap hd hsigma ('Σ' :: before) after
    rw [List.reverse_nil, List.nil_append] at hlt
    rw [fillWith_cons (by decide)] at hmore
    rw [List.nil_append, fillWith_cons (by decide), count_lowerAfter_sigma, count_lowerAfter_sigma]
    omega
  | cons c front ih =>
    have hmore := ih (c :: before) (by simpa using hlt)
    rw [List.cons_append]
    by_cases hc : c = 'Σ'
    · subst hc
      have hhere := hsigma before (front ++ 'Σ' :: after)
      rw [fillWith_cons (by decide)] at hmore ⊢
      rw [count_lowerAfter_sigma, count_lowerAfter_sigma]
      omega
    · obtain ⟨k, hglob, hvalue⟩ := exists_count_eq hgap hd hc before (front ++ 'Σ' :: after)
      omega

/-- The value is not the lowered glob with its stars replaced. -/
theorem not_fills_lower (front after : List Char)
    (hlt : [lowerSigma (fillWith y x front.reverse) (fillWith x y after)].count d <
      [lowerSigma front.reverse after].count d) :
    ¬ Fills (Text.lowerAfter [] (front ++ 'Σ' :: after))
      (Text.lowerAfter [] (fillWith x y (front ++ 'Σ' :: after))) := by
  intro h
  have hless := count_lower_lt hgap hd hsigma front after [] (by rwa [List.append_nil])
  exact absurd (h.count_le hd) (Nat.not_le.mpr hless)

end Count

theorem isCased_letter : isCaseIgnorable 'A' = false ∧ isCased 'A' = true := by decide +kernel

theorem isCased_blank : isCaseIgnorable ' ' = false ∧ isCased ' ' = false := by decide +kernel

/-- With ` A` for every star, a sigma comes after a letter where a star is before it. -/
theorem lowerSigma_letters (before after : List Char) :
    lowerSigma (fillWith 'A' ' ' before) (fillWith ' ' 'A' after) =
      if (casedNext before || meetsStar before) && !casedNext after then 'ς' else 'σ' := by
  rw [lowerSigma, casedNext_fillWith isCased_letter.1, casedNext_fillWith isCased_blank.1,
    isCased_letter.2, isCased_blank.2, Bool.and_true, Bool.and_false, Bool.or_false]

/-- With `A ` for every star, a sigma comes before a letter where a star is behind it. -/
theorem lowerSigma_blanks (before after : List Char) :
    lowerSigma (fillWith ' ' 'A' before) (fillWith 'A' ' ' after) =
      if casedNext before && !(casedNext after || meetsStar after) then 'ς' else 'σ' := by
  rw [lowerSigma, casedNext_fillWith isCased_letter.1, casedNext_fillWith isCased_blank.1,
    isCased_letter.2, isCased_blank.2, Bool.and_true, Bool.and_false, Bool.or_false]

/-- A sigma behind a star, and not before a cased character, ends a word in some value. -/
theorem not_fills_letters {front after : List Char} (hstar : meetsStar front.reverse = true)
    (hafter : casedNext after = false) :
    ¬ Fills (Text.lowerAfter [] (front ++ 'Σ' :: after))
      (Text.lowerAfter [] (fillWith ' ' 'A' (front ++ 'Σ' :: after))) := by
  have hbefore : casedNext front.reverse = false := by
    rw [Bool.eq_false_iff]
    intro hcased
    rw [meetsStar_of_casedNext hcased] at hstar
    exact absurd hstar (by decide)
  refine not_fills_lower (d := 'σ') (fun before rest => ?_) (by decide) (fun before after => ?_)
    front after ?_
  · rw [count_lowerAfter_of_lt (by decide) (by decide),
      count_lowerAfter_of_lt (by decide) (by decide)]
  · rw [lowerSigma_letters, lowerSigma]
    cases casedNext before <;> cases meetsStar before <;> cases casedNext after <;> decide
  · rw [lowerSigma_letters, lowerSigma, hbefore, hstar, hafter]
    decide

/-- A sigma that ends a word, before a star, does not end a word in some value. -/
theorem not_fills_blanks {front after : List Char} (hstar : meetsStar after = true)
    (hbefore : casedNext front.reverse = true) (hafter : casedNext after = false) :
    ¬ Fills (Text.lowerAfter [] (front ++ 'Σ' :: after))
      (Text.lowerAfter [] (fillWith 'A' ' ' (front ++ 'Σ' :: after))) := by
  refine not_fills_lower (d := 'ς') (fun before rest => ?_) (by decide) (fun before after => ?_)
    front after ?_
  · rw [count_lowerAfter_of_lt (by decide) (by decide),
      count_lowerAfter_of_lt (by decide) (by decide)]
  · rw [lowerSigma_blanks, lowerSigma]
    cases casedNext before <;> cases meetsStar after <;> cases casedNext after <;> decide
  · rw [lowerSigma_blanks, lowerSigma, hbefore, hstar, hafter]
    decide

/-- A value that is lost for the sake of a sigma that is not settled. -/
theorem exists_lost {front after : List Char} (h : settled front.reverse after = false) :
    ∃ text, Fills (front ++ 'Σ' :: after) text ∧
      ¬ Fills (Text.lowerAfter [] (front ++ 'Σ' :: after)) (Text.lowerAfter [] text) := by
  rw [settled, Bool.or_eq_false_iff] at h
  obtain ⟨hafter, hopen⟩ := h
  cases hstar : meetsStar front.reverse with
  | true => exact ⟨_, fills_fillWith ' ' 'A' _, not_fills_letters hstar hafter⟩
  | false =>
    rw [hstar, Bool.not_false, Bool.true_and, Bool.or_eq_false_iff, Bool.not_eq_false',
      Bool.not_eq_false'] at hopen
    exact ⟨_, fills_fillWith 'A' ' ' _, not_fills_blanks hopen.2 hopen.1 hafter⟩

end Glob

/-- **A glob finds without case all that it finds with case just if its capital sigmas are
settled.** -/
theorem ValueTest.caseless_widens_iff (pattern : String) :
    (∀ value, (ValueTest.wildcard pattern false).holds value = true →
        (ValueTest.wildcard pattern true).holds value = true) ↔
      Glob.Settled pattern.toList := by
  have htests (value : String) :
      ((ValueTest.wildcard pattern false).holds value = true ↔
          Glob.Fills pattern.toList value.toList) ∧
        ((ValueTest.wildcard pattern true).holds value = true ↔
          Glob.Fills (Text.lowerAfter [] pattern.toList) (Text.lowerAfter [] value.toList)) := by
    rw [ValueTest.holds, ValueTest.holds, Glob.accepts_eq_true_iff, Glob.accepts_eq_true_iff,
      Text.lower, Text.lower, String.toList_ofList, String.toList_ofList]
    exact ⟨Iff.rfl, Iff.rfl⟩
  constructor
  · intro hwidens front after hpattern
    by_contra hopen
    rw [Bool.not_eq_true] at hopen
    obtain ⟨text, hfills, hlost⟩ := Glob.exists_lost hopen
    rw [← hpattern] at hfills hlost
    have hvalue := htests (String.ofList text)
    rw [String.toList_ofList] at hvalue
    exact hlost (hvalue.2.mp (hwidens _ (hvalue.1.mpr hfills)))
  · intro hsettled value hholds
    exact (htests value).2.mpr (Glob.Fills.lowerAfter .nil ((htests value).1.mp hholds) hsettled)

/-- In the glob `AΣ*` the sigma ends a word, and in the value `AΣB` it does not. -/
theorem ValueTest.caseless_loses :
    ¬ ∀ pattern value : String, '*' ∈ pattern.toList →
      (ValueTest.wildcard pattern false).holds value = true →
        (ValueTest.wildcard pattern true).holds value = true := by
  intro h
  exact absurd (h "AΣ*" "AΣB" (by decide) (by decide +kernel)) (by decide +kernel)

end TimeSeries
