import Mathlib.Tactic

/-!
The messages that the Python and the TypeScript client read, as their JSON parsers return them.
-/

namespace Dcp

/-- A parsed value. A string is the list of its code points in Python and of its code units in
TypeScript; a number has a value unless it is infinite or not a number. -/
inductive ClientValue
  | null
  | bool (b : Bool)
  | number (value : Option ℚ)
  | string (s : List Nat)
  | array (items : List ClientValue)
  | object (members : List (List Nat × ClientValue))

/-- The code points of a text in ASCII. -/
def chars (s : String) : List Nat := s.toList.map Char.toNat

/-- The members of an object, no two of which have the same key. -/
abbrev ClientMembers := List (List Nat × ClientValue)

def memberOf (key : String) (members : ClientMembers) : Option ClientValue :=
  members.lookup (chars key)

namespace ClientValue

def isString (text : List Nat) : ClientValue → Bool
  | string s => s = text
  | _ => false

/-- A response in JSON-RPC to the request with the id: no method, a result or an error, and the id
as a number. -/
def IsResponseTo (id : Nat) : ClientValue → Prop
  | object members => memberOf "method" members = none ∧
      (memberOf "result" members ≠ none ∨ memberOf "error" members ≠ none) ∧
      memberOf "id" members = some (number (some id))
  | _ => False

end ClientValue
end Dcp
