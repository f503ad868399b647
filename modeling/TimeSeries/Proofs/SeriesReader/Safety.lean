import Mathlib
import TimeSeries.Proofs.BitStream.Read
import TimeSeries.Proofs.Manager.Window
import TimeSeries.Proofs.SeriesReader.Trap

/-!
# The decoder does not trap

`Safe P t s` says of a step `t` that may trap and a step `s` of the decoder that they are the same
wherever a reader can be, that a failure is always one to decode, and that a result is in `P` and
leaves the reader in its stream. It holds of single reads and is kept by going on from one step to
the next; what a read promises of its result, which is how many bits it has, is what the operations
behind it need.
-/

namespace TimeSeries

/-- The bytes are wrong. -/
def Error.Damaged (e : Error) : Prop := ∃ why, e = .malformed why

namespace Trap

variable {α β : Type} {P : α → Prop} {Q : β → Prop}

/-! ## Operations -/

theorem shiftLeft_of_lt (w : UInt64) {k : Nat} (h : k < 64) :
    shiftLeft w k = some (w <<< UInt64.ofNat k) := if_pos h

theorem shiftRight_of_lt (w : UInt64) {k : Nat} (h : k < 64) :
    shiftRight w k = some (w >>> UInt64.ofNat k) := if_pos h

theorem minus_of_le {a b : Nat} (h : b ≤ a) : minus a b = some (a - b) := if_pos h

theorem wordAt_of_lt {words : Array UInt64} {i : Nat} (h : i < words.size) :
    wordAt words i = some (words[i]?.getD 0) := by
  rw [wordAt, Array.getElem?_eq_getElem h, Option.getD_some]

theorem int64_of_mem {n : Int} (h : Text.minInt64 ≤ n) (h' : n ≤ Text.maxInt64) :
    int64 n = some n := by
  rw [int64, SeriesReader.fitsInt64, decide_eq_true h, decide_eq_true h']
  rfl

/-- The words under a field are there, and it is cut out of them with short shifts. -/
theorem fieldAt_eq {words : Array UInt64} {position n : Nat} (hn : 1 ≤ n ∧ n ≤ 64)
    (hend : position + n ≤ 64 * words.size) :
    fieldAt words position n = some (BitReader.fieldAt words position n) := by
  have hdiv := Nat.div_add_mod position 64
  have hshift : position % 64 < 64 := Nat.mod_lt _ (by omega)
  unfold fieldAt BitReader.fieldAt
  simp only [wordAt_of_lt (show position / 64 < words.size by omega), minus_of_le hshift.le,
    shiftLeft_of_lt _ hshift, shiftRight_of_lt _ hshift, Option.bind_eq_bind, Option.bind_some]
  split
  · rename_i hinside
    rw [minus_of_le hn.2, Option.bind_some, shiftRight_of_lt _ (by omega)]
  · -- the field ends with the word or goes on in the next
    rename_i hover
    rw [minus_of_le (by omega), Option.bind_some]
    split
    · rfl
    · rename_i hcarry
      rw [shiftLeft_of_lt _ (by omega), Option.bind_some, wordAt_of_lt (by omega),
        Option.bind_some, minus_of_le (by omega), Option.bind_some, shiftRight_of_lt _ (by omega),
        Option.bind_some]
      rfl

/-- A field of a few bits is a signed number, and so is its difference from the bias of a code. -/
theorem unbiased_eq {v : UInt64} (hv : v.toNat < 2 ^ 32) {bias : Int}
    (hbias : 0 ≤ bias ∧ bias < 2 ^ 32) : unbiased v bias = some (Int.ofNat v.toNat - bias) := by
  have hnat : (0 : Int) ≤ v.toNat := Int.natCast_nonneg _
  have hlt : (v.toNat : Int) < 2 ^ 32 := by exact_mod_cast hv
  have hmin : Text.minInt64 ≤ -2 ^ 32 := by decide
  have hmax : 2 ^ 32 ≤ Text.maxInt64 := by decide
  rw [unbiased, int64_of_mem (by omega) (by omega), Option.bind_eq_bind, Option.bind_some,
    int64_of_mem (by omega) (by omega)]
  rfl

/-! ## Steps -/

/-- Two steps that are the same, fail only because of the bytes, and give something in `P`. -/
structure Safe (P : α → Prop) (t : Step α) (s : BitReader.Step α) : Prop where
  same : ∀ r, r.InRange → t r = (some (s r) : Option (Except Error (α × BitReader)))
  fails : ∀ r, r.InRange → FailsOnly Error.Damaged (s r)
  result : ∀ r a next, r.InRange → s r = .ok (a, next) → P a ∧ next.InRange

theorem safe_pure {a : α} (h : P a) : Safe P (pure a) (pure a) where
  same := fun _ _ => rfl
  fails := fun r _ => failsOnly_ok (a, r)
  result := by
    intro r b next hr hb
    obtain ⟨rfl, rfl⟩ := Prod.mk.inj (Except.ok.inj hb)
    exact ⟨h, hr⟩

theorem safe_throw (why : Malformed) :
    Safe P (throw (.malformed why)) (throw (.malformed why)) where
  same := fun _ _ => rfl
  fails := fun _ _ => failsOnly_error ⟨why, rfl⟩
  result := fun _ _ _ _ h => absurd h throw_ne_ok

/-- **What is safe one after the other is safe together.** -/
theorem Safe.bind {t : Step α} {s : BitReader.Step α} {f : α → Step β} {g : α → BitReader.Step β}
    (h : Safe P t s) (hf : ∀ a, P a → Safe Q (f a) (g a)) : Safe Q (t >>= f) (s >>= g) where
  same := by
    intro r hr
    have hsame := h.same r hr
    show (t r >>= fun x => f x.1 x.2 : ExceptT Error Option (β × BitReader)) =
      some (s r >>= fun x => g x.1 x.2)
    rw [hsame]
    cases hs : s r with
    | error e => rfl
    | ok x =>
      obtain ⟨hp, hnext⟩ := h.result r x.1 x.2 hr hs
      exact (hf x.1 hp).same x.2 hnext
  fails := by
    intro r hr
    refine failsOnly_bind (h.fails r hr) fun x hx => ?_
    obtain ⟨hp, hnext⟩ := h.result r x.1 x.2 hr hx
    exact (hf x.1 hp).fails x.2 hnext
  result := by
    intro r b next hr hb
    obtain ⟨x, hx, hb⟩ := bind_eq_ok.mp hb
    obtain ⟨hp, hnext⟩ := h.result r x.1 x.2 hr hx
    exact (hf x.1 hp).result x.2 b next hnext hb

/-- An operation that has a result is as good as the result. -/
theorem Safe.lift {x : Option α} {a : α} {f : α → Step β} {s : BitReader.Step β} (hx : x = some a)
    (h : Safe Q (f a) s) : Safe Q ((x : Step α) >>= f) s where
  same := by
    intro r hr
    subst hx
    exact h.same r hr
  fails := h.fails
  result := h.result

theorem safe_ite {c : Prop} [Decidable c] {t t' : Step α} {s s' : BitReader.Step α}
    (h : c → Safe P t s) (h' : ¬ c → Safe P t' s') :
    Safe P (if c then t else t') (if c then s else s') := by
  split
  · rename_i hc
    exact h hc
  · rename_i hc
    exact h' hc

/-! ### Reads -/

/-- A read of at most 64 bits gives a number of so many bits. -/
theorem safe_read {n : Nat} (hn : n ≤ 64) :
    Safe (fun v : UInt64 => v.toNat < 2 ^ n) (read n) (BitReader.read n) where
  same := by
    intro r hr
    have hroom := r.stream.length_le
    unfold read BitReader.read
    split
    · rfl
    · split
      · rfl
      · split
        · rfl
        · rw [fieldAt_eq (by omega) (by omega)]
          rfl
  fails := by
    intro r hr
    rw [BitReader.read, if_neg (by omega)]
    split
    · exact failsOnly_ok _
    · split
      · exact failsOnly_error ⟨_, rfl⟩
      · exact failsOnly_ok _
  result := by
    intro r v next hr hread
    refine ⟨?_, hr.read hread⟩
    rw [BitReader.read, if_neg (by omega)] at hread
    split at hread
    · obtain ⟨rfl, -⟩ := Prod.mk.inj (Except.ok.inj hread)
      exact Nat.two_pow_pos n
    · split at hread
      · exact absurd hread (by simp)
      · rename_i hzero hend
        obtain ⟨rfl, -⟩ := Prod.mk.inj (Except.ok.inj hread)
        obtain ⟨hspell, hsmall⟩ :=
          BitReader.toNat_fieldAt (r := r) (n := n) (by omega) (Nat.not_lt.mp hend)
        rw [hspell]
        exact hsmall

theorem safe_tryRead {n : Nat} (hn : n ≤ 64) (expected : UInt64) :
    Safe (fun _ : Bool => True) (tryRead n expected) (BitReader.tryRead n expected) where
  same := by
    intro r hr
    have hread := (safe_read hn).same r hr
    show (read n r >>= fun x => pure (if x.1 = expected then (true, x.2) else (false, r)) :
      ExceptT Error Option (Bool × BitReader)) = some (BitReader.tryRead n expected r)
    rw [hread, BitReader.tryRead]
    cases BitReader.read n r <;> rfl
  fails := fun r hr => failsOnly_bind ((safe_read hn).fails r hr) fun _ _ => failsOnly_ok _
  result := fun r same next hr h => ⟨trivial, hr.tryRead h⟩

/-! ## Times -/

/-- A code whose fields fit into words, and whose numbers fit into 32 bits. -/
structure Narrow (c : ChangeCode) : Prop where
  markWidth : c.markWidth ≤ 64
  width : c.width ≤ 32
  bias : 0 ≤ c.bias ∧ c.bias < 2 ^ 32

theorem narrow_largeChange : Narrow largeChange := by
  constructor <;> decide

theorem narrow_smallChanges : ∀ c ∈ smallChanges, Narrow c := by
  intro c hc
  simp only [smallChanges, List.mem_cons, List.not_mem_nil, or_false] at hc
  rcases hc with rfl | rfl | rfl <;> constructor <;> decide

/-- The number of a code. -/
theorem safe_code {c : ChangeCode} (hc : Narrow c) :
    Safe (fun _ : Int => True) (read c.width >>= fun v => (unbiased v c.bias : Step Int))
      (BitReader.read c.width >>= fun v => pure (Int.ofNat v.toNat - c.bias)) := by
  refine (safe_read (hc.width.trans (by decide))).bind fun v hv => ?_
  have hsmall : v.toNat < 2 ^ 32 :=
    Nat.lt_of_lt_of_le hv (Nat.pow_le_pow_right (by decide) hc.width)
  have hpure := Safe.lift (unbiased_eq hsmall hc.bias) (f := pure)
    (safe_pure (P := fun _ : Int => True) trivial)
  rwa [bind_pure] at hpure

theorem safe_readChangeBy {codes : List ChangeCode} (hcodes : ∀ c ∈ codes, Narrow c) :
    Safe (fun _ : Int => True) (readChangeBy codes) (SeriesReader.readChangeBy codes) := by
  induction codes with
  | nil =>
    exact (safe_read narrow_largeChange.markWidth).bind fun _ _ => safe_code narrow_largeChange
  | cons c codes ih =>
    obtain ⟨hc, hrest⟩ := List.forall_mem_cons.mp hcodes
    refine (safe_tryRead hc.markWidth c.mark).bind fun found _ => ?_
    exact safe_ite (fun _ => safe_code hc) fun _ => ih hrest

theorem safe_readChange : Safe (fun _ : Int => True) readChange SeriesReader.readChange := by
  refine (safe_tryRead (by decide) 0).bind fun found _ => ?_
  exact safe_ite (fun _ => safe_pure trivial) fun _ => safe_readChangeBy narrow_smallChanges

/-- A time that is read is one that a point can have. -/
theorem safe_readTime (r : SeriesReader) :
    Safe (fun x : Int × Int => PointTime x.1) (readTime r) r.readTime := by
  have hrange (x : Int × Int) : Safe (fun x : Int × Int => PointTime x.1)
      (if 0 ≤ x.1 ∧ x.1 ≤ maxTime then pure x
        else throw (.malformed (.timestampOutOfRange x.1 r.decoded)))
      (if 0 ≤ x.1 ∧ x.1 ≤ maxTime then pure x
        else throw (.malformed (.timestampOutOfRange x.1 r.decoded))) :=
    safe_ite (fun hx => safe_pure hx) fun _ => safe_throw _
  unfold readTime SeriesReader.readTime
  refine safe_ite (fun _ => ?_) fun _ => ?_
  · -- the header is short, so its sum cannot be too large
    refine (safe_read (by decide)).bind fun header hheader => ?_
    refine (safe_read (by decide)).bind fun offset hoffset => ?_
    have hmin : Text.minInt64 ≤ 0 := by decide
    have hmax : 2 ^ 33 ≤ Text.maxInt64 := by decide
    refine Safe.lift (int64_of_mem (by omega) (by omega)) ?_
    refine Safe.lift (int64_of_mem (by omega) (by omega)) ?_
    refine Safe.lift (int64_of_mem (by omega) (by omega)) ?_
    exact (safe_pure (P := fun _ => True) trivial).bind fun x _ => hrange x
  · refine safe_readChange.bind fun change _ => ?_
    refine safe_ite (fun _ => ?_) fun _ => ?_
    · exact (safe_pure (P := fun _ => True) trivial).bind fun x _ => hrange x
    · exact (safe_throw (P := fun _ => True) _).bind fun x _ => hrange x

/-! ## Values -/

/-- A window that the fields for its counts can hold. -/
def Fits (w : BitWindow) : Prop := w.leading < 2 ^ 5 ∧ w.trailing < 2 ^ 6

/-- The bits in a window, put in their place. -/
theorem safe_changed (r : SeriesReader) {w : BitWindow} (hw : Fits w) :
    Safe (fun x : UInt64 × BitWindow => Fits x.2)
      (do
        let below ← int64 (64 - w.leading)
        let meaningful ← int64 (below - w.trailing)
        if meaningful < 0 ∨ 64 < meaningful then
          throw (.malformed (.meaningfulBits meaningful r.decoded))
        let changed ← read meaningful.toNat
        let shifted ← shiftLeft changed w.trailing
        return (r.lastBits ^^^ shifted, w))
      (do
        if 64 < w.leading + w.trailing then
          throw (.malformed (.meaningfulBits (64 - w.leading - w.trailing) r.decoded))
        let changed ← BitReader.read w.width
        return (r.lastBits ^^^ (changed <<< UInt64.ofNat w.trailing), w)) := by
  obtain ⟨hleading, htrailing⟩ := hw
  have hmin : Text.minInt64 ≤ -100 := by decide
  have hmax : 100 ≤ Text.maxInt64 := by decide
  refine Safe.lift (int64_of_mem (by omega) (by omega)) ?_
  refine Safe.lift (int64_of_mem (by omega) (by omega)) ?_
  by_cases hwide : 64 < w.leading + w.trailing
  · rw [if_pos (by omega), if_pos hwide]
    exact (safe_throw (P := fun _ => False) _).bind fun _ hnever => hnever.elim
  · rw [if_neg (by omega), if_neg hwide]
    have hwidth : (64 - (w.leading : Int) - w.trailing).toNat = w.width := by
      rw [BitWindow.width]
      omega
    rw [hwidth]
    refine (safe_read (by rw [BitWindow.width]; omega)).bind fun changed _ => ?_
    refine Safe.lift (shiftLeft_of_lt changed htrailing) ?_
    exact safe_pure ⟨hleading, htrailing⟩

theorem safe_readBits {r : SeriesReader} (hr : Fits r.window) :
    Safe (fun x : UInt64 × BitWindow => Fits x.2) (readBits r) r.readBits := by
  unfold readBits SeriesReader.readBits
  refine safe_ite (fun _ => ?_) fun _ => ?_
  · exact (safe_read (by decide)).bind fun bits _ => safe_pure hr
  refine (safe_tryRead (by decide) 0).bind fun same _ => ?_
  refine safe_ite (fun _ => safe_pure hr) fun _ => ?_
  refine (safe_read (by decide)).bind fun mark _ => ?_
  refine safe_ite (fun _ => ?_) fun _ => ?_
  · refine (safe_read (by decide)).bind fun leading hleading => ?_
    refine (safe_read (by decide)).bind fun trailing htrailing => ?_
    exact safe_changed r (w := ⟨leading.toNat, trailing.toNat⟩) ⟨hleading, htrailing⟩
  · exact safe_changed r hr

end Trap

end TimeSeries
