import TimeSeries.Text.Unprintable

/-!
# Quoted text

How a text is shown inside a message: between double quotes, with `"` and `\` escaped by `\`, the
common control characters by a letter, and every other character that would not show as itself
by its code point in hexadecimal. A single quote is written as it is.
-/

namespace TimeSeries.Text

/-- The characters a quoted text writes for one character. -/
def quotedChar (c : Char) : List Char :=
  if c = '"' then ['\\', '"']
  else if c = '\\' then ['\\', '\\']
  else if c = '\t' then ['\\', 't']
  else if c = '\n' then ['\\', 'n']
  else if c = '\r' then ['\\', 'r']
  else if c = '\x00' then ['\\', '0']
  else if isUnprintable c then
    '\\' :: 'u' :: '\x7b' :: (Nat.toDigits 16 c.toNat ++ ['\x7d'])
  else [c]

/-- A text between double quotes, with its special characters escaped. -/
def quoted (text : String) : String :=
  String.ofList ('"' :: (text.toList.flatMap quotedChar ++ ['"']))

end TimeSeries.Text
