import Mathlib.Algebra.Group.Int.Defs
import Mathlib.Data.List.Basic

/-!
# JSON documents

A document as a tree, with the accessors of a dynamically typed value.  The fields of an object are
in the order of the text, and a name that stands twice has its last value.
-/

namespace Json

/-- A JSON document; the fields of an object in the order of the text. -/
inductive Value where
  | null
  | bool (b : Bool)
  | int (n : Int)
  | float (text : String)
  | str (s : String)
  | arr (items : List Value)
  | obj (fields : List (String × Value))

/-- The last value of the name. -/
def lookup (fields : List (String × Value)) (name : String) : Option Value :=
  (fields.reverse.find? (·.1 = name)).map (·.2)

namespace Value

/-- The value of a boolean. -/
def asBool : Value → Option Bool
  | bool b => some b
  | _ => none

/-- The text of a string. -/
def asStr : Value → Option String
  | str s => some s
  | _ => none

/-- A number that is not negative and has 64 bits. -/
def asU64 : Value → Option Nat
  | int n => if 0 ≤ n ∧ n < 2 ^ 64 then some n.toNat else none
  | _ => none

/-- The items of a list. -/
def asArray : Value → Option (List Value)
  | arr items => some items
  | _ => none

/-- The fields of an object. -/
def asObject : Value → Option (List (String × Value))
  | obj fields => some fields
  | _ => none

/-- The value of a field, `none` also where there are no fields. -/
def get (v : Value) (name : String) : Option Value := v.asObject.bind (lookup · name)

end Value

end Json
