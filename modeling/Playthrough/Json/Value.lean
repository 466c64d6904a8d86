import Playthrough.Json.Number

/-!
# JSON values

JSON documents as values. Objects are lists of members, so the order in which
members are written is part of the value.
-/

namespace Playthrough

/-- A JSON value. -/
inductive Json where
  | null
  | bool (b : Bool)
  | number (n : Json.Number)
  | string (s : String)
  | array (items : List Json)
  | object (members : List (String × Json))

namespace Json

instance : Inhabited Json := ⟨.null⟩

/-- The value of the first member with the given name. -/
def member? (name : String) : Json → Option Json
  | object members => members.lookup name
  | _ => none

/-- A binary64 number as a value; those that JSON cannot write are `null`. -/
def ofBinary64 (a : Binary64) : Json :=
  match Number.ofBinary64? a with
  | some n => number n
  | none => null

/-- A natural number as a value. -/
def ofNat (n : Nat) : Json := number (.ofNat n)

end Json

end Playthrough
