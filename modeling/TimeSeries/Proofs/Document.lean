import Mathlib
import TimeSeries.Document

/-!
# Places in documents

A value that was set is found at its place, and on the way to it there is a table or a list. What
it does elsewhere is bounded: a plain value that is found at another place was there before, for
nothing is added besides the value but tables, lists and nulls. A path leads to places of its own
form, whatever the document; only the items that its indices mean depend on it.
-/

namespace TimeSeries

theorem lookup_cons_eq {α β : Type} [DecidableEq α] (key other : α) (v : β) (fs : List (α × β)) :
    ((key, v) :: fs).lookup other = if other = key then some v else fs.lookup other := by
  rw [List.lookup_cons]
  by_cases h : other = key
  · rw [h, beq_self_eq_true, if_pos rfl]
  · rw [beq_false_of_ne h, if_neg h]

namespace Document

variable {d v w : Document} {p q : List Place} {a b : Place} {key : String}

/-- Whether a document is a plain value, with nothing below it. -/
def isPlain : Document → Bool
  | boolean _ | integer _ | float _ | text _ => true
  | null | list _ | table _ => false

theorem ne_null_of_isPlain (h : v.isPlain = true) : v ≠ null := by
  rintro rfl
  cases h

theorem child?_of_isPlain (h : v.isPlain = true) (a : Place) : child? a v = none := by
  cases v <;> cases a <;> first | rfl | cases h

theorem at?_singleton (a : Place) (d : Document) : at? [a] d = child? a d := by
  rw [at?]
  cases child? a d <;> rfl

theorem at?_append (p q : List Place) (d : Document) :
    at? (p ++ q) d = (at? p d).bind (at? q) := by
  induction p generalizing d with
  | nil => rfl
  | cons a rest ih =>
    rw [List.cons_append, at?, at?, Option.bind_assoc]
    exact Option.bind_congr fun w _ => ih w

/-- In nothing there is no plain value. -/
theorem at?_null_ne (hv : v.isPlain = true) (p : List Place) : at? p null ≠ some v := by
  intro h
  cases p with
  | nil => exact ne_null_of_isPlain hv (Option.some_inj.mp h).symm
  | cons a rest => cases a <;> cases h

/-- A field is what is found at its key, unless that is nothing. -/
theorem field?_eq_some_iff :
    d.field? key = some v ↔ at? [.key key] d = some v ∧ v ≠ null := by
  rw [at?_singleton, child?, field?]
  split
  · next h =>
    rw [h, Option.some_inj]
    exact ⟨fun hv => absurd hv (by simp), fun ⟨heq, hne⟩ => absurd heq.symm hne⟩
  · next h => simp [h]
  · next w hne h =>
    rw [h, Option.some_inj]
    exact ⟨fun heq => ⟨heq, fun hnull => hne (heq.trans hnull)⟩, And.left⟩

theorem field?_eq_none_iff : d.field? key = none ↔ ∀ v, at? [.key key] d = some v → v = null := by
  rw [Option.eq_none_iff_forall_ne_some]
  refine forall_congr' fun v => ?_
  rw [ne_eq, field?_eq_some_iff, not_and, not_not]

/-! ## Setting a part -/

theorem lookup_setField (key other : String) (v : Document) (fs : List (String × Document)) :
    (setField key v fs).lookup other = if other = key then some v else fs.lookup other := by
  induction fs with
  | nil => rw [setField, lookup_cons_eq]
  | cons f fs ih =>
    obtain ⟨k, w⟩ := f
    rw [setField]
    by_cases hk : k = key
    · rw [if_pos hk, lookup_cons_eq, lookup_cons_eq, hk]
      split_ifs <;> rfl
    · rw [if_neg hk, lookup_cons_eq, lookup_cons_eq, ih]
      by_cases h : other = k
      · rw [if_pos h, if_pos h, if_neg (h ▸ hk)]
      · rw [if_neg h, if_neg h]

theorem getElem?_setItem_self (n : Nat) (v : Document) (ds : List Document) :
    (setItem n v ds)[n]? = some v := by
  rw [setItem, List.getElem?_set_self]
  rw [List.length_append, List.length_replicate]
  omega

/-- Another item that is found was added to fill up the list, or it was there before. -/
theorem getElem?_setItem_ne {n m : Nat} {ds : List Document} (hm : m ≠ n)
    (h : (setItem n v ds)[m]? = some w) : w = null ∨ ds[m]? = some w := by
  rw [setItem, List.getElem?_set_ne hm.symm] at h
  rcases lt_or_ge m ds.length with hlt | hge
  · rw [List.getElem?_append_left hlt] at h
    exact .inr h
  · rw [List.getElem?_append_right hge] at h
    exact .inl (List.eq_of_mem_replicate (List.mem_of_getElem? h))

theorem child?_setChild_self (a : Place) (v d : Document) :
    child? a (setChild v a d) = some v := by
  cases a with
  | key name => rw [setChild, child?, fields, lookup_setField, if_pos rfl]
  | item n => rw [setChild, child?, items, getElem?_setItem_self]

theorem child?_setChild_ne (hab : a ≠ b) (h : child? a (setChild v b d) = some w) :
    w = null ∨ child? a d = some w := by
  cases a with
  | key name =>
    cases b with
    | key other =>
      rw [setChild, child?, fields, lookup_setField, if_neg fun heq => hab (congrArg _ heq)] at h
      exact .inr h
    | item n => cases h
  | item m =>
    cases b with
    | key other => cases h
    | item n => exact getElem?_setItem_ne (fun heq => hab (congrArg _ heq)) h

/-- Setting a field leaves the other fields. -/
theorem child?_setChild_key {other : String} (hne : key ≠ other) (v d : Document) :
    child? (.key key) (setChild v (.key other) d) = child? (.key key) d := by
  rw [setChild, child?, fields, lookup_setField, if_neg hne, child?]

/-- **A plain value that is found after a plain value was set is that value, or it was there
before.** -/
theorem at?_setAt_cases (hw : w.isPlain = true) (hv : v.isPlain = true)
    (h : at? p (setAt w q d) = some v) : (q = p ∧ v = w) ∨ (q ≠ p ∧ at? p d = some v) := by
  induction q generalizing p d with
  | nil =>
    cases p with
    | nil => exact .inl ⟨rfl, (Option.some_inj.mp h).symm⟩
    | cons a more =>
      rw [setAt, at?, child?_of_isPlain hw] at h
      cases h
  | cons b rest ih =>
    cases p with
    | nil =>
      rw [setAt, at?, Option.some_inj] at h
      exact absurd hv (by rw [← h]; cases b <;> simp [setChild, isPlain])
    | cons a more =>
      rw [setAt, at?, Option.bind_eq_some_iff] at h
      obtain ⟨u, hu, h⟩ := h
      by_cases hab : a = b
      · -- the place lies in the part that was set
        subst hab
        rw [child?_setChild_self, Option.some_inj] at hu
        rcases ih (hu ▸ h) with ⟨rfl, hvw⟩ | ⟨hne, hbefore⟩
        · exact .inl ⟨rfl, hvw⟩
        · refine .inr ⟨fun heq => hne (List.cons.inj heq).2, ?_⟩
          rw [at?]
          -- nothing was there if there was no such part
          cases hchild : child? a d with
          | none =>
            rw [hchild] at hbefore
            exact absurd hbefore (at?_null_ne hv more)
          | some c => rwa [hchild] at hbefore
      · refine .inr ⟨fun heq => hab (List.cons.inj heq).1.symm, ?_⟩
        rcases child?_setChild_ne hab hu with rfl | hchild
        · exact absurd h (at?_null_ne hv more)
        · rw [at?, hchild, Option.bind_some, h]

/-! ## Paths -/

/-- A step leads to a place: a name to the field of the name, and an index to some item. -/
inductive Leads : Step → Place → Prop where
  | key (name : String) : Leads (.key name) (.key name)
  | index (i : Int) (n : Nat) : Leads (.index i) (.item n)

theorem leads_of_place? {path : List Step} (h : place? path d = some p) :
    List.Forall₂ Leads path p := by
  induction path generalizing d p with
  | nil =>
    obtain rfl := Option.some_inj.mp h
    exact .nil
  | cons step rest ih =>
    cases step with
    | key name =>
      obtain ⟨more, hmore, rfl⟩ := Option.map_eq_some_iff.mp h
      exact .cons (.key name) (ih hmore)
    | index i =>
      obtain ⟨n, -, h⟩ := Option.bind_eq_some_iff.mp h
      obtain ⟨more, hmore, rfl⟩ := Option.map_eq_some_iff.mp h
      exact .cons (.index i n) (ih hmore)

/-- A path that leads through fields only has their names as its steps. -/
theorem eq_of_leads_keys {path : List Step} {names : List String}
    (h : List.Forall₂ Leads path (names.map Place.key)) : path = names.map Step.key := by
  induction names generalizing path with
  | nil => exact List.forall₂_nil_right_iff.mp h
  | cons name names ih =>
    obtain ⟨step, rest, hstep, hrest, rfl⟩ := List.forall₂_cons_right_iff.mp h
    cases hstep
    rw [ih hrest, List.map_cons]

/-- Names lead to the fields of the names in every document. -/
theorem place?_keys (names : List String) (d : Document) :
    place? (names.map Step.key) d = some (names.map Place.key) := by
  induction names generalizing d with
  | nil => rfl
  | cons name names ih => rw [List.map_cons, place?, ih, List.map_cons, Option.map_some]

/-- A plain value is put by setting it. -/
theorem put?_of_isPlain (hv : v.isPlain = true) (path : List Step) (d : Document) :
    put? v path d = (place? path d).map fun place => setAt v place d := by
  have hoverlay (old : Option Document) : overlay v old = v := by
    cases v <;> first | rfl | cases hv
  simp only [put?, hoverlay]

end Document

end TimeSeries
