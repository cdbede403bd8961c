import UiSuite.Decimal.Binary64

/-! JSON values.

An integer within 64 bits is kept exactly; every other number is a binary64
number. The fields of an object are kept in ascending order of their keys, each
key once, so two objects with the same fields are the same value; `insert` keeps
that order and overwrites. `Json.WellFormed` says of a whole value that all its
objects are in order and all its integers within range. -/
namespace UiSuite

open Decimal (Binary64)

/-- A number: an integer within 64 bits, signed or not, or a binary64 number. -/
inductive Number where
  | integer (value : Int)
  | float (value : Binary64)
deriving DecidableEq

namespace Number

/-- The least and the greatest integer that stay exact. -/
def least : Int := -9223372036854775808

def greatest : Int := 18446744073709551615

/-- Whether a number is one that a text can denote. -/
def InRange : Number → Prop
  | .integer i => least ≤ i ∧ i ≤ greatest
  | .float _ => True

instance : (n : Number) → Decidable n.InRange
  | .integer i => inferInstanceAs (Decidable (least ≤ i ∧ i ≤ greatest))
  | .float _ => inferInstanceAs (Decidable True)

end Number

/-- A JSON value. -/
inductive Json where
  | null
  | bool (value : Bool)
  | number (value : Number)
  | string (value : String)
  | array (items : List Json)
  | object (fields : List (String × Json))

namespace Json

/-! ### Equality -/

mutual
def decEq : (a b : Json) → Decidable (a = b)
  | null, null => .isTrue rfl
  | bool a, bool b =>
    if h : a = b then .isTrue (by rw [h]) else .isFalse (by simpa using h)
  | number a, number b =>
    if h : a = b then .isTrue (by rw [h]) else .isFalse (by simpa using h)
  | string a, string b =>
    if h : a = b then .isTrue (by rw [h]) else .isFalse (by simpa using h)
  | array a, array b =>
    match decEqItems a b with
    | .isTrue h => .isTrue (by rw [h])
    | .isFalse h => .isFalse (by simpa using h)
  | object a, object b =>
    match decEqFields a b with
    | .isTrue h => .isTrue (by rw [h])
    | .isFalse h => .isFalse (by simpa using h)
  | null, bool _ | null, number _ | null, string _ | null, array _ | null, object _
  | bool _, null | bool _, number _ | bool _, string _ | bool _, array _ | bool _, object _
  | number _, null | number _, bool _ | number _, string _ | number _, array _
  | number _, object _
  | string _, null | string _, bool _ | string _, number _ | string _, array _
  | string _, object _
  | array _, null | array _, bool _ | array _, number _ | array _, string _
  | array _, object _
  | object _, null | object _, bool _ | object _, number _ | object _, string _
  | object _, array _ => .isFalse nofun

def decEqItems : (a b : List Json) → Decidable (a = b)
  | [], [] => .isTrue rfl
  | [], _ :: _ | _ :: _, [] => .isFalse nofun
  | x :: xs, y :: ys =>
    match decEq x y, decEqItems xs ys with
    | .isTrue h, .isTrue hs => .isTrue (by rw [h, hs])
    | .isFalse h, _ => .isFalse (by simp [h])
    | _, .isFalse h => .isFalse (by simp [h])

def decEqFields : (a b : List (String × Json)) → Decidable (a = b)
  | [], [] => .isTrue rfl
  | [], _ :: _ | _ :: _, [] => .isFalse nofun
  | (k, x) :: xs, (l, y) :: ys =>
    if hk : k = l then
      match decEq x y, decEqFields xs ys with
      | .isTrue h, .isTrue hs => .isTrue (by rw [hk, h, hs])
      | .isFalse h, _ => .isFalse (by simp [h])
      | _, .isFalse h => .isFalse (by simp [h])
    else .isFalse (by simp [hk])
end

instance : DecidableEq Json := decEq

/-! ### Fields -/

/-- The value under a key. -/
def get? (key : String) (fields : List (String × Json)) : Option Json :=
  (fields.find? (·.1 == key)).map (·.2)

/-- Puts a value under a key, in place of an earlier one. -/
def insert (key : String) (value : Json) : List (String × Json) → List (String × Json)
  | [] => [(key, value)]
  | (k, v) :: rest =>
    if key < k then (key, value) :: (k, v) :: rest
    else if key = k then (key, value) :: rest
    else (k, v) :: insert key value rest

/-- The object with these fields; of two with one key the later counts. -/
def ofFields (fields : List (String × Json)) : Json :=
  object (fields.foldl (fun acc (k, v) => insert k v acc) [])

/-- A natural number as a value. -/
def ofNat (n : Nat) : Json :=
  number (.integer n)

/-- A text, or null in its absence. -/
def ofOption : Option String → Json
  | some s => string s
  | none => null

/-- A field that is left out when it has no value. -/
def presentField (name : String) : Option Json → List (String × Json)
  | some j => [(name, j)]
  | none => []

/-! ### Well-formed values -/

/-- Keys in ascending order, each once. -/
def Ascending (fields : List (String × Json)) : Prop :=
  (fields.map (·.1)).Pairwise (· < ·)

instance (fields : List (String × Json)) : Decidable (Ascending fields) :=
  inferInstanceAs (Decidable (List.Pairwise ..))

mutual
/-- Every object in order, every integer within range. -/
def WellFormed : Json → Prop
  | number n => n.InRange
  | array items => WellFormedItems items
  | object fields => Ascending fields ∧ WellFormedFields fields
  | null | bool _ | string _ => True

def WellFormedItems : List Json → Prop
  | [] => True
  | x :: xs => WellFormed x ∧ WellFormedItems xs

def WellFormedFields : List (String × Json) → Prop
  | [] => True
  | (_, x) :: xs => WellFormed x ∧ WellFormedFields xs
end

mutual
/-- How many containers stand around the innermost value. -/
def nesting : Json → Nat
  | array items => nestingItems items + 1
  | object fields => nestingFields fields + 1
  | null | bool _ | number _ | string _ => 0

def nestingItems : List Json → Nat
  | [] => 0
  | x :: xs => max (nesting x) (nestingItems xs)

def nestingFields : List (String × Json) → Nat
  | [] => 0
  | (_, x) :: xs => max (nesting x) (nestingFields xs)
end

end Json
end UiSuite
