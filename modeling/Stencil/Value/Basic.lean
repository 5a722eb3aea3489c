import Stencil.Number.Double

/-!
Data values.

A context is one `Value`. Integers and doubles are kept apart: they compare as
doubles in conditions, but they differ inside arrays and objects
(`Value.sameAs`) and are written differently there. The fields of an object
stand in ascending order of their keys, each key once; `insertField` keeps it
so.
-/

namespace Stencil

/-- A number of a data value: an integer, or a finite double. -/
inductive Number where
  | int (n : Int)
  | double (d : FiniteDouble)
  deriving DecidableEq

namespace Number

/-- The integers that are kept as such, from `-2 ^ 63` to `2 ^ 64 - 1`. -/
def isInRange (n : Int) : Bool :=
  -9223372036854775808 ≤ n && n ≤ 18446744073709551615

/-- The number as a double. Integers are rounded to the nearest one. -/
def toDouble : Number → Double
  | .int n => .ofInt n
  | .double d => .finite d

/-- Numbers of one kind are compared by value, so the two zeros are the same;
an integer is never the same as a double. -/
def sameAs : Number → Number → Bool
  | .int a, .int b => a == b
  | .double a, .double b => a.position == b.position
  | _, _ => false

end Number

/-- A data value. -/
inductive Value where
  | null
  | bool (b : Bool)
  | number (n : Number)
  | string (text : String)
  | array (items : List Value)
  | object (fields : List (String × Value))

/-- Puts a field into its place by the order of keys, instead of any field with
the same key. -/
def insertField (key : String) (value : Value) : List (String × Value) → List (String × Value)
  | [] => [(key, value)]
  | (other, held) :: rest =>
    if key < other then
      (key, value) :: (other, held) :: rest
    else if key = other then
      (key, value) :: rest
    else
      (other, held) :: insertField key value rest

mutual

/-- Structural equality: same kind, same items in the same order, same fields. -/
def Value.sameAs : Value → Value → Bool
  | .null, .null => true
  | .bool a, .bool b => a == b
  | .number a, .number b => a.sameAs b
  | .string a, .string b => a == b
  | .array a, .array b => sameItems a b
  | .object a, .object b => sameFields a b
  | _, _ => false

/-- Equal lengths, and equal items place by place. -/
def sameItems : List Value → List Value → Bool
  | [], [] => true
  | a :: as, b :: bs => a.sameAs b && sameItems as bs
  | _, _ => false

/-- Equal keys place by place, with equal values. -/
def sameFields : List (String × Value) → List (String × Value) → Bool
  | [], [] => true
  | (key, a) :: as, (key', b) :: bs => key == key' && a.sameAs b && sameFields as bs
  | _, _ => false

end

end Stencil
