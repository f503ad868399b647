import TimeSeries.Document
import TimeSeries.Toml.Quoted

/-!
# Numbers of TOML

The forms are those of TOML 1.0. An integer is written in decimal with an optional sign, or without
a sign in one of three other bases after a mark. A float has a fraction or an exponent or both, or
is one of the words `inf` and `nan`. Single underscores may stand between digits, and a decimal
number does not begin with a needless zero. Integers have 64 bits, and no float is too large.
-/

namespace TimeSeries.Toml

open Text

/-- Digits with single underscores between them. -/
def digits (isDigit : Char → Bool) : Scan (List Char) := do
  let first ← Scan.satisfy isDigit
  let more ← Scan.many (do let _ ← Scan.optional (Scan.char '_'); Scan.satisfy isDigit)
  return first :: more

/-- An optional sign. -/
def sign : Scan (List Char) := do
  return (← Scan.optional (Scan.satisfy fun c => c == '+' || c == '-')).toList

/-- Decimal digits, of which the first is no needless zero. -/
def decimalDigits : Scan (List Char) := do
  if (← Scan.peek?) = some '0' then return [← Scan.satisfy Char.isDigit] else digits Char.isDigit

/-- A decimal integer as it is read without underscores. -/
def decimal : Scan (List Char) := do return (← sign) ++ (← decimalDigits)

/-- An integer in another base. -/
def based (mark : Char) (base : Nat) (isDigit : Char → Bool) : Scan Int := do
  Scan.literal ['0', mark]
  let n := (← digits isDigit).foldl (fun n c => base * n + hexValue c) 0
  if Int.ofNat n ≤ maxInt64 then return n else failure

/-- An integer. -/
def integer : Scan Int :=
  based 'x' 16 isHex <|> based 'o' 8 (fun c => '0' ≤ c && c ≤ '7') <|>
  based 'b' 2 (fun c => c == '0' || c == '1') <|>
  (do match readInteger (← decimal) with
      | .ok n => return n
      | .error _ => failure)

/-- A fraction with its point. -/
def fraction : Scan (List Char) := do
  Scan.char '.'
  return '.' :: (← digits Char.isDigit)

/-- An exponent with its mark. -/
def exponent : Scan (List Char) := do
  let _ ← Scan.satisfy fun c => c == 'e' || c == 'E'
  return 'e' :: ((← sign) ++ (← digits Char.isDigit))

/-- A float written with digits. -/
def finiteFloat : Scan UInt64 := do
  let whole ← decimal
  let rest ← exponent <|> (do return (← fraction) ++ ((← Scan.optional exponent).getD []))
  match readBinary64 (whole ++ rest) with
  | some bits => if bits = UInt64.ofNat infinityBits then failure else return bits
  | none => failure

/-- A float written as a word. -/
def wordFloat : Scan UInt64 := do
  let s ← sign
  let word (w : String) : Scan (List Char) := do Scan.word w; return w.toList
  match readBinary64 (s ++ (← word "inf" <|> word "nan")) with
  | some bits => return bits
  | none => failure

/-- A float. -/
def float : Scan UInt64 := finiteFloat <|> wordFloat

end TimeSeries.Toml
