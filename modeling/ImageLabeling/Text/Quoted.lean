import ImageLabeling.Text.Hidden

/-!
# Quoted texts

A quoted text stands between double quotes. A quote and a backslash inside it follow a backslash,
the tab, line feed, carriage return and null have short forms, and every other character that is
not shown plainly is spelled as its code point in braces. A list of texts is written with commas
between square brackets.
-/

namespace ImageLabeling.Text

/-- The hexadecimal digits of `n`. -/
def hexText (n : Nat) : String :=
  String.ofList (Nat.toDigits 16 n)

/-- How a character is written inside double quotes. -/
def quoteChar (c : Char) : List Char :=
  if c = '"' then ['\\', '"']
  else if c = '\\' then ['\\', '\\']
  else if c = '\t' then ['\\', 't']
  else if c = '\n' then ['\\', 'n']
  else if c = '\r' then ['\\', 'r']
  else if c.toNat = 0 then ['\\', '0']
  else if isHidden c then ['\\', 'u', '\x7b'] ++ (hexText c.toNat).toList ++ ['\x7d']
  else [c]

/-- A text between double quotes. -/
def quoted (text : String) : String :=
  String.ofList ('"' :: text.toList.flatMap quoteChar ++ ['"'])

/-- Texts in square brackets, each already written out. -/
def bracketed (items : List String) : String :=
  "[" ++ ", ".intercalate items ++ "]"

end ImageLabeling.Text
