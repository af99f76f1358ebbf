import ScopedDocs.Double
import ScopedDocs.Members
/-!
# JSON — values

The values that documents, filters and pipelines are made of. Objects are
ordered (`Members`), and a number is an exact integer or a double; the two are
never the same value. `Json.same` is equality of values: it looks past the
order of an object's keys and past the sign of zero.
-/


namespace ScopedDocs

/-- A JSON number. -/
inductive Number where
  /-- An integer, from `-2⁶³` to `2⁶⁴ - 1`. -/
  | int (n : Int)
  /-- A finite double. -/
  | double (d : Double)
  deriving DecidableEq, Inhabited

namespace Number

/-- Equality of numbers as values: an integer is never the same as a double. -/
def same : Number → Number → Bool
  | int a, int b => a == b
  | double a, double b => a.same b
  | _, _ => false

/-- The double nearest to a number. -/
def toDouble : Number → Double
  | int n => .ofInt n
  | double d => d

/-- The integer a number is, if it is one of 64 bits with a sign. -/
def toSigned? : Number → Option Int
  | int n => if Int64.minValue.toInt ≤ n ∧ n ≤ Int64.maxValue.toInt then some n else none
  | double _ => none

/-- The natural number a number is, if it is one. -/
def toNat? : Number → Option Nat
  | int n => if 0 ≤ n then some n.toNat else none
  | double _ => none

end Number

/-- A JSON value. -/
inductive Json where
  /-- The value `null`. -/
  | null
  /-- A truth value. -/
  | bool (b : Bool)
  /-- A number. -/
  | num (n : Number)
  /-- A string. -/
  | str (s : String)
  /-- An array of items. -/
  | arr (items : List Json)
  /-- An object with its members in order. -/
  | obj (members : List (String × Json))
  deriving Inhabited

namespace Json

/-- An integer as a JSON value. -/
def ofInt (n : Int) : Json := num (.int n)

/-- A natural number as a JSON value. -/
def ofNat (n : Nat) : Json := ofInt n

/-- A word of 64 bits as a JSON value. -/
def ofWord (n : UInt64) : Json := ofNat n.toNat

/-- A string or `null`. -/
def ofString? : Option String → Json
  | some s => str s
  | none => null

/-- Strings as an array. -/
def ofStrings (items : List String) : Json := arr (items.map str)

/-- The value of a key, if the value is an object that has it. -/
def get? (key : String) : Json → Option Json
  | obj members => members.lookup key
  | _ => none

/-- Whether the value is an object. -/
def isObject : Json → Bool
  | obj _ => true
  | _ => false

/-- The items, if the value is an array. -/
def items? : Json → Option (List Json)
  | arr items => some items
  | _ => none

/-- The members, if the value is an object. -/
def members? : Json → Option (Members Json)
  | obj members => some members
  | _ => none

/-- The text, if the value is a string. -/
def string? : Json → Option String
  | str s => some s
  | _ => none

/-- The natural number, if the value is one. -/
def nat? : Json → Option Nat
  | num n => n.toNat?
  | _ => none

mutual

/-- **Equality of values.** Two objects are the same when they have as many
members and each key of the first has the same value in the second. -/
def same : Json → Json → Bool
  | null, null => true
  | bool a, bool b => a == b
  | num a, num b => a.same b
  | str a, str b => a == b
  | arr a, arr b => sameItems a b
  | obj a, obj b => a.length == b.length && sameMembers a b
  | _, _ => false

/-- Equality of arrays, item by item. -/
def sameItems : List Json → List Json → Bool
  | [], [] => true
  | a :: as, b :: bs => same a b && sameItems as bs
  | _, _ => false

/-- Whether each member of the first has the same value in the second. -/
def sameMembers : List (String × Json) → List (String × Json) → Bool
  | [], _ => true
  | (key, a) :: as, bs =>
    (match bs.lookup key with
      | some b => same a b
      | none => false) && sameMembers as bs

end

end Json

end ScopedDocs
