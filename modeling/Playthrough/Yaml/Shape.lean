import Playthrough.Text.Quotation
import Playthrough.Yaml.Scalar.Value

/-!
# Faults of shape

A document has the wrong shape if some part of it is not of the kind that is asked
for there. Such a fault is reported with the path to that part.
-/

namespace Playthrough.Yaml

/-! ## Paths -/

/-- A step from a part of a document to a part of that part. -/
inductive PathStep where
  /-- To the value of a key. -/
  | field (name : String)
  /-- To the value of a key that is only referred to. -/
  | unnamed
  /-- To an item, counted from zero. -/
  | item (index : Nat)
deriving DecidableEq

/-- The steps from the root of a document to one of its parts, last step first. -/
abbrev Path := List PathStep

/-- How a path is written. -/
def Path.text : Path → String
  | [] => ""
  | .item index :: parent => Path.text parent ++ "[" ++ toString index ++ "]"
  | .field name :: parent => dotted (Path.text parent) name
  | .unnamed :: parent => dotted (Path.text parent) "?"
where
  /-- A name below a path. -/
  dotted (parent name : String) : String :=
    if parent.isEmpty then name else parent ++ "." ++ name

/-! ## Faults -/

/-- What is found in the place of something else. -/
inductive Found where
  | value (v : Scalar.Value)
  | sequence
  | mapping
deriving DecidableEq

/-- The name of a whole number in messages, by the words it fits into. -/
def wholeText (n : Int) : String :=
  let digits := "integer `" ++ toString n ++ "`"
  if 0x10000000000000000 ≤ n then digits ++ " as u128"
  else if n < -0x8000000000000000 then digits ++ " as i128"
  else digits

/-- The shortest digits of a real number, with a point in any case. -/
def realText (a : Binary64) : String :=
  if a.isFinite && !a.text.contains '.' then a.text ++ ".0" else a.text

/-- The name of what is found. -/
def Found.text : Found → String
  | value .null => "unit value"
  | value (.boolean b) => "boolean `" ++ (if b then "true" else "false") ++ "`"
  | value (.whole n) => wholeText n
  | value (.real a) => "floating point `" ++ realText a ++ "`"
  | value (.text s) => "string " ++ Text.quote s
  | sequence => "sequence"
  | mapping => "map"

/-- What is wrong with a part of a document. -/
inductive ShapeFault where
  /-- A mapping lacks a key. -/
  | missingField (name : String)
  /-- A mapping has a key twice. -/
  | duplicateField (name : String)
  /-- Something else is found than what is expected. -/
  | unexpected (found : Found) (expected : String)
  /-- A number is too large for what is expected. -/
  | outOfRange (n : Nat) (expected : String)
  /-- A name is none of those that are known. -/
  | unknownName (name : String) (known : List String)
  /-- A text is no UUID. -/
  | badUuid
deriving DecidableEq

/-- A name between backticks. -/
def ticked (name : String) : String := "`" ++ name ++ "`"

/-- The wording of a fault. -/
def ShapeFault.message : ShapeFault → String
  | missingField name => "missing field " ++ ticked name
  | duplicateField name => "duplicate field " ++ ticked name
  | unexpected found expected => "invalid type: " ++ found.text ++ ", expected " ++ expected
  | outOfRange n expected =>
    "invalid value: " ++ Found.text (.value (.whole n)) ++ ", expected " ++ expected
  | unknownName name known =>
    "unknown variant " ++ ticked name ++ ", expected one of " ++
      String.intercalate ", " (known.map ticked)
  | badUuid => "UUID parsing failed"

end Playthrough.Yaml
