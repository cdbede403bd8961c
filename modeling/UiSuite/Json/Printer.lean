import UiSuite.Json.Basic
import UiSuite.Decimal.Shortest

/-! Compact JSON text.

A value is written without blanks, the fields of an object in the order of their
keys. A text escapes the quote, the backslash and the characters below U+0020, and
nothing else, so the text of a value is always one line. A number that is not an
integer has its shortest digits and always a point or a power of ten. -/
namespace UiSuite.Json

/-- Numbers are written in full from 0.00001 up to, and without, 10^16. -/
def layout : Decimal.Layout :=
  ⟨-5, 15⟩

/-- The text of an integer. -/
def integerChars (i : Int) : List Char :=
  if i < 0 then '-' :: Nat.toDigits 10 i.natAbs else Nat.toDigits 10 i.natAbs

def numberChars : Number → List Char
  | .integer i => integerChars i
  | .float x => layout.render x

/-- A code below U+0020 as four digits. -/
def controlDigits (n : Nat) : List Char :=
  ['0', '0', Nat.digitChar (n / 16), Nat.digitChar (n % 16)]

/-- One character inside a text. -/
def escape (c : Char) : List Char :=
  if c = '"' then ['\\', '"']
  else if c = '\\' then ['\\', '\\']
  else if 0x20 ≤ c.toNat then [c]
  else if c.toNat = 0x08 then ['\\', 'b']
  else if c.toNat = 0x09 then ['\\', 't']
  else if c.toNat = 0x0A then ['\\', 'n']
  else if c.toNat = 0x0C then ['\\', 'f']
  else if c.toNat = 0x0D then ['\\', 'r']
  else '\\' :: 'u' :: controlDigits c.toNat

def stringChars (s : String) : List Char :=
  '"' :: (s.toList.flatMap escape ++ ['"'])

mutual
/-- The text of a value. -/
def chars : Json → List Char
  | null => ['n', 'u', 'l', 'l']
  | bool true => ['t', 'r', 'u', 'e']
  | bool false => ['f', 'a', 'l', 's', 'e']
  | number n => numberChars n
  | string s => stringChars s
  | array [] => ['[', ']']
  | array (x :: xs) => '[' :: (chars x ++ itemsChars xs)
  | object [] => ['\x7b', '\x7d']
  | object ((k, x) :: xs) => '\x7b' :: (stringChars k ++ ':' :: (chars x ++ fieldsChars xs))

/-- The further items of an array and its end. -/
def itemsChars : List Json → List Char
  | [] => [']']
  | x :: xs => ',' :: (chars x ++ itemsChars xs)

/-- The further fields of an object and its end. -/
def fieldsChars : List (String × Json) → List Char
  | [] => ['\x7d']
  | (k, x) :: xs => ',' :: (stringChars k ++ ':' :: (chars x ++ fieldsChars xs))
end

/-- The text of a value. -/
def render (j : Json) : String :=
  String.ofList (chars j)

end UiSuite.Json
