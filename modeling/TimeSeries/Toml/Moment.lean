import TimeSeries.Toml.Quoted

/-!
# Dates and times of TOML

The forms are those of TOML 1.0. A moment is a date, a time of day, or a date with a time of day and
perhaps an offset from universal time. It is read into its normal text: a `T` between date and time,
a fraction of a second of at most nine digits without zeros at its end, and `Z` or hours and minutes
for the offset.
-/

namespace TimeSeries.Toml

open Text

/-- A number of digits within bounds. -/
def bounded (count low high : Nat) : Scan (List Char) := do
  let cs ← Scan.exactly count Char.isDigit
  let n := cs.foldl (fun n c => 10 * n + (c.toNat - '0'.toNat)) 0
  if low ≤ n && n ≤ high then return cs else failure

/-- The number of days in a month. -/
def daysInMonth (year month : Nat) : Nat :=
  if month = 2 then
    if year % 4 = 0 && (year % 100 != 0 || year % 400 = 0) then 29 else 28
  else if [4, 6, 9, 11].contains month then 30
  else 31

/-- The number that digits write. -/
def numberOf (cs : List Char) : Nat := cs.foldl (fun n c => 10 * n + (c.toNat - '0'.toNat)) 0

/-- A date. -/
def date : Scan (List Char) := do
  let year ← Scan.exactly 4 Char.isDigit
  Scan.char '-'
  let month ← bounded 2 1 12
  Scan.char '-'
  let day ← bounded 2 1 (daysInMonth (numberOf year) (numberOf month))
  return year ++ ['-'] ++ month ++ ['-'] ++ day

/-- A fraction of a second, which is lost when all of its digits that count are zeros. -/
def secondFraction : Scan (List Char) := do
  Scan.char '.'
  let first ← Scan.satisfy Char.isDigit
  let cs := ((first :: (← Scan.takeWhile Char.isDigit)).take 9).reverse.dropWhile (· == '0')
  return if cs.isEmpty then [] else '.' :: cs.reverse

/-- A time of day. The last minute of a day may have 61 seconds. -/
def timeOfDay : Scan (List Char) := do
  let hour ← bounded 2 0 23
  Scan.char ':'
  let minute ← bounded 2 0 59
  Scan.char ':'
  let second ← bounded 2 0 60
  let part ← Scan.optional secondFraction
  return hour ++ [':'] ++ minute ++ [':'] ++ second ++ part.getD []

/-- An offset from universal time. -/
def offset : Scan (List Char) :=
  (do let _ ← Scan.satisfy fun c => c == 'Z' || c == 'z'; return ['Z']) <|>
  (do
    let s ← Scan.satisfy fun c => c == '+' || c == '-'
    let hour ← bounded 2 0 23
    Scan.char ':'
    let minute ← bounded 2 0 59
    let s := if numberOf hour = 0 && numberOf minute = 0 then '+' else s
    return s :: hour ++ [':'] ++ minute)

/-- The time that may follow a date. -/
def timeAfterDate : Scan (List Char) := do
  let _ ← Scan.satisfy fun c => c == 'T' || c == 't' || c == ' '
  return 'T' :: (← timeOfDay) ++ ((← Scan.optional offset).getD [])

/-- A moment. -/
def moment : Scan (List Char) :=
  (do return (← date) ++ ((← Scan.optional timeAfterDate).getD [])) <|> timeOfDay

end TimeSeries.Toml
