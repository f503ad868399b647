import Mathlib
import TimeSeries.Daemon.Environment
import TimeSeries.Proofs.Document

/-!
# What the environment sets

A variable sets what its name leads to, and the variables are taken in their order. What is found
in the document at the end need not be what the last variable of a name has set, since a variable
that leads to a part of it makes a table or a list of it, and one that leads to something around it
takes it away. But neither leaves a plain value. So a plain value at a place is that of the last
variable for the place, or else it was there before. Which variables are for a field is seen from
their names; which are for an item of a list may depend on how long the list is by then. What kind
of thing a setting is at the end, is decided by the last variable that leads to it or to a part
of it.
-/

namespace TimeSeries.Environment

open Document Text

variable {env : List (String × String)} {e : String × String} {doc doc' v : Document}
  {key text : String}

/-- The path to which a variable leads by its name, if it leads anywhere. -/
def pathOfName? (name : String) : Option (List Step) :=
  (keyOf? name).map fun key => pathOf (dotted key)

/-- The text that an environment gives for a path: that of the last variable that leads there and
is not empty. -/
def text? (env : List (String × String)) (path : List Step) : Option String :=
  ((env.filter fun (name, text) => pathOfName? name = some path ∧ text ≠ "").getLast?).map (·.2)

/-- The value that an environment gives for a path. -/
def value? (env : List (String × String)) (path : List Step) : Option Document :=
  (text? env path).map readValue

/-! ## Names of variables -/

/-- A key that is a name by itself, with nothing in it that leads on. -/
structure IsName (key : String) : Prop where
  ne : key ≠ ""
  all : key.toList.all isNameChar = true
  dotted : dotted key.toList = key.toList

instance : Decidable (IsName key) :=
  decidable_of_iff
    (key ≠ "" ∧ key.toList.all isNameChar = true ∧ dotted key.toList = key.toList)
    ⟨fun ⟨hne, hall, hdotted⟩ => ⟨hne, hall, hdotted⟩, fun h => ⟨h.ne, h.all, h.dotted⟩⟩

theorem IsName.not_mem (h : IsName key) {c : Char} (hc : isNameChar c = false) : c ∉ key.toList :=
  fun hmem => absurd (List.all_eq_true.mp h.all _ hmem) (by simp [hc])

/-- Two underscores leave a dot. -/
theorem dotted_eq_of_no_dot {cs : List Char} (h : '.' ∉ dotted cs) : dotted cs = cs := by
  fun_induction Environment.dotted cs with
  | case1 => rfl
  | case2 rest ih => exact absurd List.mem_cons_self h
  | case3 c rest _ ih => rw [ih fun hrest => h (List.mem_cons_of_mem _ hrest)]

/-- A part of a key that is a path begins with a name. -/
theorem steps?_eq_some {part : List Char} {steps : List Step} (h : steps? part = some steps) :
    ∃ name subscripts indices, pieces (· == '[') part = name :: subscripts ∧
      subscripts.mapM subscript? = some indices ∧ steps = .key (String.ofList name) :: indices := by
  unfold steps? at h
  split at h
  · next name subscripts hpieces =>
    split at h
    · obtain ⟨indices, hindices, rfl⟩ := Option.map_eq_some_iff.mp h
      exact ⟨name, subscripts, indices, hpieces, hindices, rfl⟩
    · cases h
  · cases h

theorem mapM_eq_nil {α β : Type} {f : α → Option β} {xs : List α} (h : xs.mapM f = some []) :
    xs = [] := by
  cases xs with
  | nil => rfl
  | cons x xs => simp [List.mapM_cons, Option.bind_eq_some_iff] at h

/-- The path of a key: that of its first part, and then those of the others, or the key as a
name. -/
theorem pathOf_cases (cs : List Char) :
    pathOf cs = [.key (String.ofList cs)] ∨
      ∃ part more first rest, pieces (· == '.') cs = part :: more ∧ steps? part = some first ∧
        more.mapM steps? = some rest ∧ pathOf cs = first ++ rest.flatten := by
  unfold pathOf
  split
  · next parts hparts =>
    obtain ⟨part, more, hpieces⟩ := List.exists_cons_of_ne_nil (pieces_ne_nil (· == '.') cs)
    rw [hpieces, List.mapM_cons] at hparts
    obtain ⟨first, hfirst, hparts⟩ := Option.bind_eq_some_iff.mp hparts
    obtain ⟨rest, hrest, hparts⟩ := Option.bind_eq_some_iff.mp hparts
    obtain rfl := Option.some_inj.mp hparts
    exact .inr ⟨part, more, first, rest, hpieces, hfirst, hrest, List.flatten_cons⟩
  · exact .inl rfl

/-- A path begins with a name. -/
theorem exists_pathOf_eq_cons (cs : List Char) : ∃ name rest, pathOf cs = .key name :: rest := by
  rcases pathOf_cases cs with h | ⟨part, more, first, rest, -, hfirst, -, h⟩
  · exact ⟨_, _, h⟩
  · obtain ⟨name, -, indices, -, -, rfl⟩ := steps?_eq_some hfirst
    exact ⟨_, _, h⟩

/-- A key whose path is one name is that name. -/
theorem eq_of_pathOf_eq_name {cs : List Char} (h : pathOf cs = [.key key]) : cs = key.toList := by
  have hname {part : List Char} (heq : [Step.key (String.ofList part)] = [.key key]) :
      part = key.toList := by
    simpa [← String.toList_inj] using heq
  rcases pathOf_cases cs with hpath | ⟨part, more, first, rest, hpieces, hfirst, hrest, hpath⟩
  · exact hname (hpath ▸ h)
  · obtain ⟨name, subscripts, indices, hpart, hindices, rfl⟩ := steps?_eq_some hfirst
    rw [hpath, List.cons_append, List.cons_eq_cons, List.append_eq_nil_iff] at h
    obtain ⟨hkey, rfl, hflat⟩ := h
    obtain rfl := mapM_eq_nil hindices
    rw [pieces_eq_singleton hpart] at hpieces
    cases more with
    | nil => exact (pieces_eq_singleton hpieces).trans (hname (by rw [hkey]))
    | cons other more =>
      -- each part leaves at least its name
      rw [List.mapM_cons] at hrest
      obtain ⟨second, hsecond, hrest⟩ := Option.bind_eq_some_iff.mp hrest
      obtain ⟨others, -, hrest⟩ := Option.bind_eq_some_iff.mp hrest
      obtain rfl := Option.some_inj.mp hrest
      obtain ⟨_, _, _, -, -, rfl⟩ := steps?_eq_some hsecond
      cases hflat

theorem pathOf_of_isName (h : IsName key) : pathOf key.toList = [.key key] := by
  have hdot : pieces (· == '.') key.toList = [key.toList] :=
    pieces_of_not_mem (h.not_mem (by decide))
  have hbracket : pieces (· == '[') key.toList = [key.toList] :=
    pieces_of_not_mem (h.not_mem (by decide))
  simp [pathOf, steps?, hdot, hbracket, h.all, h.ne]

/-- **A variable leads to a name just if its own name is the prefix and that name, in any case.** -/
theorem pathOfName?_eq_name (hkey : IsName key) (name : String) :
    pathOfName? name = some [.key key] ↔ lower name = "chunkdb_" ++ key := by
  have hpath (cs : List Char) : pathOf (dotted cs) = [.key key] ↔ cs = key.toList := by
    constructor
    · intro h
      have hdotted := eq_of_pathOf_eq_name h
      rw [← hdotted, dotted_eq_of_no_dot]
      rw [hdotted]
      exact hkey.not_mem (by decide)
    · rintro rfl
      rw [hkey.dotted, pathOf_of_isName hkey]
  have hprefix (cs : List Char) : keyOf? name = some cs ↔ namePrefix ++ cs = (lower name).toList :=
    List.isPrefixOf?_eq_some_iff_append_eq
  simp only [pathOfName?, Option.map_eq_some_iff, hpath, hprefix, exists_eq_right]
  rw [← String.toList_inj, String.toList_append, eq_comm]
  rfl

example : pathOfName? "ChunkDB_Compression__Type" = some [.key "compression", .key "type"] := by
  decide +kernel

example : pathOfName? "ChunkDB_Compression[ -1 ]" = some [.key "compression", .index (-1)] := by
  decide +kernel

/-! ## One variable -/

/-- The path where a variable sets its value, if it sets any. -/
def path? (e : String × String) : Option (List Step) :=
  if e.2 = "" then none else pathOfName? e.1

theorem path?_eq_some_iff {path : List Step} :
    path? e = some path ↔ pathOfName? e.1 = some path ∧ e.2 ≠ "" := by
  by_cases h : e.2 = "" <;> simp [path?, h]

theorem isPlain_readValue (text : String) : (readValue text).isPlain = true := by
  unfold readValue
  repeat' split
  all_goals rfl

/-- A variable without a path does nothing. -/
theorem setVariable_of_none (h : path? e = none) (doc : Document) :
    setVariable doc e = some doc := by
  rw [setVariable]
  split
  · rfl
  · next key hkey =>
    by_cases hempty : e.2 = ""
    · rw [hempty]
      rfl
    · rw [path?, if_neg hempty, pathOfName?, hkey] at h
      cases h

/-- A variable with a path sets its value at the place to which it leads. -/
theorem setVariable_of_some {path : List Step} (h : path? e = some path) (doc : Document) :
    setVariable doc e = (place? path doc).map fun place => setAt (readValue e.2) place doc := by
  obtain ⟨hname, hempty⟩ := path?_eq_some_iff.mp h
  obtain ⟨key, hkey, rfl⟩ := Option.map_eq_some_iff.mp hname
  rw [setVariable, hkey]
  dsimp only
  rw [if_neg (by simpa using hempty), put?_of_isPlain (isPlain_readValue e.2)]

theorem apply_cons (e : String × String) (env : List (String × String)) (doc : Document) :
    apply (e :: env) doc = (setVariable doc e).bind (apply env) :=
  List.foldlM_cons

/-- An empty variable sets nothing. -/
theorem apply_append_empty (before after : List (String × String)) (name : String)
    (doc : Document) :
    apply (before ++ (name, "") :: after) doc = apply (before ++ after) doc := by
  rw [apply, apply, List.foldlM_append, List.foldlM_append]
  congr 1
  funext doc
  rw [List.foldlM_cons, setVariable_of_none rfl]
  rfl

/-! ## The last variable for a place -/

/-- The place where a variable sets its value in a document. -/
def placeOf? (doc : Document) (e : String × String) : Option (List Place) :=
  (path? e).bind fun path => place? path doc

/-- The text of the last variable that sets its value at a place. -/
def textAt? (place : List Place) : List (String × String) → Document → Option String
  | [], _ => none
  | e :: env, doc =>
    (setVariable doc e).bind (textAt? place env) <|>
      if placeOf? doc e = some place then some e.2 else none

/-- **A plain value is that of the last variable for its place, or it was there before.** -/
theorem textAt?_or_at? {place : List Place} (hv : v.isPlain = true)
    (happly : apply env doc = some doc') (h : at? place doc' = some v) :
    ((textAt? place env doc).map readValue <|> at? place doc) = some v := by
  induction env generalizing doc with
  | nil =>
    obtain rfl := Option.some_inj.mp happly
    exact h
  | cons e env ih =>
    rw [apply_cons] at happly
    obtain ⟨next, hset, happly⟩ := Option.bind_eq_some_iff.mp happly
    rw [textAt?, hset, Option.bind_some]
    have hlater := ih happly
    -- a later variable for the place goes before this one
    cases htext : textAt? place env next with
    | some text => rwa [htext] at hlater
    | none =>
      replace hlater : at? place next = some v := by rwa [htext] at hlater
      show ((if placeOf? doc e = some place then some e.2 else none).map readValue <|>
        at? place doc) = some v
      cases hpath : path? e with
      | none =>
        rw [setVariable_of_none hpath, Option.some_inj] at hset
        rw [placeOf?, hpath, hset]
        exact hlater
      | some path =>
        rw [setVariable_of_some hpath] at hset
        obtain ⟨found, hfound, rfl⟩ := Option.map_eq_some_iff.mp hset
        rw [placeOf?, hpath, Option.bind_some, hfound]
        rcases at?_setAt_cases (isPlain_readValue e.2) hv hlater with ⟨rfl, rfl⟩ | ⟨hne, hbefore⟩
        · rw [if_pos rfl]
          rfl
        · rw [if_neg fun heq => hne (Option.some_inj.mp heq)]
          exact hbefore

theorem text?_cons (e : String × String) (env : List (String × String)) (path : List Step) :
    text? (e :: env) path = (text? env path <|> if path? e = some path then some e.2 else none) := by
  rw [text?, text?, List.filter_cons]
  by_cases h : path? e = some path
  · rw [if_pos h, if_pos (by simpa using path?_eq_some_iff.mp h), List.getLast?_cons]
    cases (env.filter _).getLast? <;> rfl
  · have hnot : ¬ (pathOfName? e.1 = some path ∧ e.2 ≠ "") := path?_eq_some_iff.not.mp h
    rw [if_neg h, if_neg (by simpa using hnot)]
    cases (env.filter _).getLast? <;> rfl

/-- **Which variables are for a field is seen from their names.** -/
theorem textAt?_keys (happly : apply env doc = some doc') (names : List String) :
    textAt? (names.map Place.key) env doc = text? env (names.map Step.key) := by
  induction env generalizing doc with
  | nil => rfl
  | cons e env ih =>
    rw [apply_cons] at happly
    obtain ⟨next, hset, happly⟩ := Option.bind_eq_some_iff.mp happly
    have hplace : placeOf? doc e = some (names.map Place.key) ↔
        path? e = some (names.map Step.key) := by
      constructor
      · intro h
        obtain ⟨path, hpath, hplace⟩ := Option.bind_eq_some_iff.mp h
        rw [hpath, eq_of_leads_keys (leads_of_place? hplace)]
      · intro h
        rw [placeOf?, h, Option.bind_some, place?_keys]
    rw [textAt?, hset, Option.bind_some, ih happly, text?_cons]
    simp only [hplace]

/-- **A plain value in a field is that of the last variable with its path, or it was there
before.** -/
theorem value?_or_at? (names : List String) (hv : v.isPlain = true)
    (happly : apply env doc = some doc') (h : at? (names.map Place.key) doc' = some v) :
    (value? env (names.map Step.key) <|> at? (names.map Place.key) doc) = some v := by
  rw [value?, ← textAt?_keys happly]
  exact textAt?_or_at? hv happly h

/-! ## The last variable for a setting or a part of it -/

/-- How a variable leads on from a key, if it leads there. -/
def restOf? (key : String) (e : String × String) : Option (List Step) :=
  match path? e with
  | some (.key name :: rest) => if name = key then some rest else none
  | _ => none

/-- How the last variable that leads to a key or to a part of what is there leads on. -/
def lastRest? (env : List (String × String)) (key : String) : Option (List Step) :=
  (env.filterMap (restOf? key)).getLast?

/-- What a variable makes of that from which it leads on. -/
def Makes : List Step → Document → Prop
  | [], d => d.isPlain = true
  | .key _ :: _, d => ∃ fields, d = table fields
  | .index _ :: _, d => ∃ items, d = list items

theorem makes_setAt (rest : List Step) {place : List Place} (hv : v.isPlain = true)
    (h : List.Forall₂ Leads rest place) (d : Document) : Makes rest (setAt v place d) := by
  cases h with
  | nil => exact hv
  | cons hfirst _ =>
    cases hfirst with
    | key name => exact ⟨_, rfl⟩
    | index i n => exact ⟨_, rfl⟩

/-- One variable leaves a field, or makes something of it. -/
theorem setVariable_child? (h : setVariable doc e = some doc') (key : String) :
    match restOf? key e with
    | none => child? (.key key) doc' = child? (.key key) doc
    | some rest => ∃ d, child? (.key key) doc' = some d ∧ Makes rest d := by
  cases hpath : path? e with
  | none =>
    rw [setVariable_of_none hpath, Option.some_inj] at h
    rw [restOf?, hpath, h]
  | some path =>
    obtain ⟨cs, -, hcs⟩ := Option.map_eq_some_iff.mp (path?_eq_some_iff.mp hpath).1
    obtain ⟨name, rest, rfl⟩ : ∃ name rest, path = .key name :: rest :=
      hcs ▸ exists_pathOf_eq_cons (dotted cs)
    rw [setVariable_of_some hpath] at h
    obtain ⟨place, hplace, rfl⟩ := Option.map_eq_some_iff.mp h
    obtain ⟨more, hmore, rfl⟩ := Option.map_eq_some_iff.mp hplace
    rw [restOf?, hpath]
    dsimp only
    by_cases hname : name = key
    · subst hname
      rw [if_pos rfl]
      exact ⟨_, child?_setChild_self _ _ _,
        makes_setAt rest (isPlain_readValue e.2) (leads_of_place? hmore) _⟩
    · rw [if_neg hname]
      exact child?_setChild_key (Ne.symm hname) _ _

/-- **What is in a field at the end is what the last variable for it makes of it**, or what was
there before. -/
theorem apply_child? (h : apply env doc = some doc') (key : String) :
    match lastRest? env key with
    | none => child? (.key key) doc' = child? (.key key) doc
    | some rest => ∃ d, child? (.key key) doc' = some d ∧ Makes rest d := by
  induction env generalizing doc with
  | nil =>
    obtain rfl := Option.some_inj.mp h
    rfl
  | cons e env ih =>
    rw [apply_cons] at h
    obtain ⟨next, hset, h⟩ := Option.bind_eq_some_iff.mp h
    have hfirst := setVariable_child? hset key
    have hlater := ih h
    have hlast : lastRest? (e :: env) key = (lastRest? env key <|> restOf? key e) := by
      rw [lastRest?, lastRest?, List.filterMap_cons]
      cases restOf? key e with
      | none =>
        dsimp only
        cases (env.filterMap (restOf? key)).getLast? <;> rfl
      | some rest =>
        dsimp only
        rw [List.getLast?_cons]
        cases (env.filterMap (restOf? key)).getLast? <;> rfl
    rw [hlast]
    -- if no later variable leads to the field, it holds what this one has left there
    cases hrest : lastRest? env key with
    | some rest => rwa [hrest] at hlater
    | none =>
      replace hlater : child? (.key key) doc' = child? (.key key) next := by rwa [hrest] at hlater
      rw [hlater]
      exact hfirst

/-- Where no variable leads to a setting or to a part of it, none gives a value there. -/
theorem value?_eq_none (h : lastRest? env key = none) (rest : List Step) :
    value? env (.key key :: rest) = none := by
  rw [lastRest?, List.getLast?_eq_none_iff, List.filterMap_eq_nil_iff] at h
  rw [value?, text?, List.filter_eq_nil_iff.mpr]
  · rfl
  · intro e he hpath
    have hrest := h e he
    rw [restOf?, path?_eq_some_iff.mpr (by simpa using hpath)] at hrest
    simp at hrest

/-! ## Texts that stay as they are -/

/-- A text that is the text of the value that it is taken for: a truth value is in lower case, and
a number is written as numbers are shown. -/
structure KeptAsText (text : String) : Prop where
  boolean : ∀ b : Bool, lower text = toString b → text = toString b
  integer : ∀ n, readInteger text.toList = .ok n → text = toString n
  float : ∀ bits, (readInteger text.toList).isOk = false → readBinary64 text.toList = some bits →
    text = shortestDecimal bits

/-- The words for truth values write no numbers. -/
theorem keptAsText_toString (b : Bool) : KeptAsText (toString b) := by
  have hinteger : (readInteger (toString b).toList).isOk = false := by cases b <;> rfl
  have hfloat : readBinary64 (toString b).toList = none := by cases b <;> decide +kernel
  refine ⟨fun b' h => ?_, fun n h => ?_, fun bits _ h => ?_⟩
  · cases b <;> cases b' <;> first | rfl | exact absurd h (by decide +kernel)
  · rw [h] at hinteger
    cases hinteger
  · rw [h] at hfloat
    cases hfloat

/-- **The text of a variable comes back from its value just if it is kept.** -/
theorem asText_readValue_iff (text : String) :
    (readValue text).asText = some text ↔ KeptAsText text := by
  have hword (b : Bool) (h : lower text = toString b) :
      (boolean b).asText = some text ↔ KeptAsText text := by
    have htext : (boolean b).asText = some (toString b) := by cases b <;> rfl
    rw [htext, Option.some_inj]
    exact ⟨fun heq => heq ▸ keptAsText_toString b, fun hkept => (hkept.boolean b h).symm⟩
  unfold readValue
  split
  · next h => exact hword true h
  · next h => exact hword false h
  · next htrue hfalse =>
    have hboolean (b : Bool) (h : lower text = toString b) : text = toString b := by
      cases b
      · exact absurd h hfalse
      · exact absurd h htrue
    split
    · next n hn =>
      rw [asText, Option.some_inj]
      refine ⟨fun heq => ⟨hboolean, fun n' hn' => ?_, fun _ hnone => ?_⟩, fun hkept =>
        (hkept.integer n hn).symm⟩
      · rw [hn, Except.ok.injEq] at hn'
        rw [← hn', heq]
      · rw [hn] at hnone
        cases hnone
    · next hn =>
      split
      · next bits hbits =>
        rw [asText, Option.some_inj]
        refine ⟨fun heq => ⟨hboolean, fun n' hn' => ?_, fun bits' _ hbits' => ?_⟩, fun hkept =>
          (hkept.float bits (by rw [hn]; rfl) hbits).symm⟩
        · rw [hn] at hn'
          cases hn'
        · rw [hbits, Option.some_inj] at hbits'
          rw [← hbits', heq]
      · next hbits =>
        refine ⟨fun _ => ⟨hboolean, fun n' hn' => ?_, fun bits' _ hbits' => ?_⟩, fun _ => rfl⟩
        · rw [hn] at hn'
          cases hn'
        · rw [hbits] at hbits'
          cases hbits'

end TimeSeries.Environment
