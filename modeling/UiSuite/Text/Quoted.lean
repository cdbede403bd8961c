import UiSuite.Text.Printable

/-! Texts in quotation marks, for messages.

A quoted text stays on one line and shows what it holds: the quote, the backslash
and the common controls have short escapes, and any other character that does not
show as itself is written with its code point. -/
namespace UiSuite.Text

/-- One character inside quotation marks. -/
def quoteChar (c : Char) : List Char :=
  if c = '"' || c = '\\' then ['\\', c]
  else if c = '\n' then ['\\', 'n']
  else if c = '\r' then ['\\', 'r']
  else if c = '\t' then ['\\', 't']
  else if c.toNat = 0 then ['\\', '0']
  else if isPrintable c then [c]
  else '\\' :: 'u' :: '\x7b' :: (Nat.toDigits 16 c.toNat ++ ['\x7d'])

/-- A text in quotation marks. -/
def quoted (s : String) : String :=
  String.ofList ('"' :: (s.toList.flatMap quoteChar ++ ['"']))

end UiSuite.Text
