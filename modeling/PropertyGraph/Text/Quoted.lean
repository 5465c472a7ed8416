/-
  PropertyGraph.Text.Quoted
  ─────────────────────────
  **NAMES IN MESSAGES.**

  A name that is refused is shown in quotes, with everything visible: quote
  and backslash after a backslash, line ends, tab and NUL by a letter or
  digit, and any other character that does not show by its number.
-/
import PropertyGraph.Text.Unprintable

namespace PropertyGraph.Text

/-- A character inside quotes. -/
def quoteChar (c : Char) : List Char :=
  if c = '"' then ['\\', '"']
  else if c = '\\' then ['\\', '\\']
  else if c = '\n' then ['\\', 'n']
  else if c = '\r' then ['\\', 'r']
  else if c = '\t' then ['\\', 't']
  else if c = '\x00' then ['\\', '0']
  else if isUnprintable c then
    '\\' :: 'u' :: '\x7b' :: (Nat.toDigits 16 c.toNat ++ ['\x7d'])
  else [c]

/-- A text in quotes. -/
def quoted (text : String) : String :=
  String.ofList ('"' :: (text.toList.flatMap quoteChar ++ ['"']))

end PropertyGraph.Text
