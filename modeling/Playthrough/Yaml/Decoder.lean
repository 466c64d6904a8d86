import Playthrough.Uuid
import Playthrough.Yaml.Node.Reader
import Playthrough.Yaml.Shape

/-!
# From trees to values

A *decoder* turns a node into a value of some type or says what is wrong with the
node. Parts are decoded in the order in which they are written, so the fault that is
reported is the first one in the text; a place where the text breaks off counts as
such a fault.

- `text`, `natural`, `real`, `uuid`, `named` decode scalars;
- `optional`, `listOf` and `Record.decode` decode what is made of other values;
- `Source.decode` decodes the document of a text.
-/

namespace Playthrough.Yaml

/-- Why there is no value. -/
inductive DecodeError where
  /-- The text is no single YAML document, or its references lead too far. -/
  | unreadable
  /-- A part of the document does not have the right shape. -/
  | misshapen (path : Path) (fault : ShapeFault)
deriving DecidableEq

/-- The wording of an error. Nothing is told about a text that is no document. -/
def DecodeError.message : DecodeError → String
  | unreadable => ""
  | misshapen path fault => (if path.isEmpty then "" else path.text ++ ": ") ++ fault.message

/-- What references are resolved with. -/
structure References where
  /-- The nodes with anchors, latest first. -/
  targets : List (Nat × Node Nat)
  /-- How many references may be followed in all. -/
  limit : Nat

/-- A computation that may follow references, and counts them. -/
abbrev Decoding := ReaderT References (StateT Nat (Except DecodeError))

/-- A decoder of the node at a path. -/
abbrev Decoder (α : Type) := Path → Node Nat → Decoding α

namespace Decoder

/-! ## Nodes -/

/-- The node that a node stands for. -/
def resolve (node : Node Nat) : Decoding (Node Nat) := do
  match node with
  | .cut => throw .unreadable
  | .reference target =>
    modify (· + 1)
    let references ← read
    if references.limit < (← get) then throw .unreadable
    else
      match references.targets.lookup target with
      | some node => return node
      | none => throw .unreadable
  | node => return node

/-- Passes a node over. No reference in it is followed. -/
def ignore (node : Node Nat) : Decoding Unit :=
  if node.isCut then throw .unreadable else return ()

/-- What a node is found to be. References and cuts do not come here, as they have been
resolved before. -/
def found : Node Nat → Found
  | .scalar _ .plain text => .value (Scalar.Value.ofText text)
  | .scalar _ .quoted text => .value (.text text)
  | .mapping .. => .mapping
  | .sequence .. | .reference _ | .cut => .sequence

/-- Reports that a node is not what is expected. -/
def mismatch {α : Type} (expected : String) (path : Path) (node : Node Nat) : Decoding α :=
  throw (.misshapen path (.unexpected (found node) expected))

/-! ## Scalars -/

/-- Decodes a scalar by its text, however it is written. -/
def anyText (expected : String) : Decoder String := fun path node => do
  match (← resolve node) with
  | .scalar _ _ text => return text
  | node => mismatch expected path node

/-- Decodes a text. -/
def text : Decoder String := anyText "a string"

/-- Decodes a plain scalar by a reader of its text. -/
def plain {α : Type} (expected : String) (read : List Char → Option α) : Decoder α :=
  fun path node => do
    let node ← resolve node
    match node with
    | .scalar _ .plain text =>
      match read text.toList with
      | some a => return a
      | none => mismatch expected path node
    | node => mismatch expected path node

/-- The limit of the natural numbers that can be decoded: they have 64 bits. -/
def naturalLimit : Nat := 0x10000000000000000

/-- Decodes a natural number below a limit. Messages call such numbers by a name. -/
def natural (name : String) (limit : Nat) : Decoder Nat := fun path node => do
  let n ← plain name (Scalar.natural? naturalLimit) path node
  if n < limit then return n else throw (.misshapen path (.outOfRange n name))

/-- Decodes a real number. -/
def real : Decoder Binary64 := plain "f64" Scalar.real?

/-- Decodes an identifier. -/
def uuid : Decoder Uuid := fun path node => do
  match Uuid.ofChars? (← anyText "a formatted UUID string" path node).toList with
  | some id => return id
  | none => throw (.misshapen path .badUuid)

/-- Decodes one of the given values by its name. -/
def named {α : Type} (known : List α) (name : α → String) : Decoder α := fun path node => do
  let text ← anyText "a YAML tag starting with '!'" path node
  match known.find? fun a => name a == text with
  | some a => return a
  | none => throw (.misshapen path (.unknownName text (known.map name)))

/-! ## Collections -/

/-- Decodes a value that may be left out by writing nothing or a null. -/
def optional {α : Type} (decode : Decoder α) : Decoder (Option α) := fun path node => do
  let node ← resolve node
  match node with
  | .scalar _ .plain text =>
    if Scalar.isNull text then return none else some <$> decode path node
  | node => some <$> decode path node

/-- Decodes a sequence. An absent node is an empty sequence. -/
def listOf {α : Type} (decode : Decoder α) : Decoder (List α) := fun path node => do
  match (← resolve node) with
  | .sequence _ items => items.zipIdx.mapM fun (item, index) => decode (.item index :: path) item
  | .scalar _ .plain "" => return []
  | node => mismatch "a sequence" path node

/-- A key that a record knows. -/
structure Field (ρ : Type) where
  /-- The key. -/
  name : String
  /-- Whether a record has to have it. -/
  required : Bool
  /-- Decodes the value of the key into the record. -/
  decode : ρ → Decoder ρ

/-- A field of a record that may be left out. -/
def Field.optional {α ρ : Type} (name : String) (decode : Decoder α) (set : ρ → α → ρ) :
    Field ρ :=
  { name, required := false, decode := fun r path node => set r <$> decode path node }

/-- A field that a record has to have. -/
def Field.mandatory {α ρ : Type} (name : String) (decode : Decoder α) (set : ρ → α → ρ) :
    Field ρ :=
  { Field.optional name decode set with required := true }

/-- A kind of mapping with fixed keys. Other keys are passed over. -/
structure Record (ρ : Type) where
  /-- What the kind of mapping is called. -/
  name : String
  /-- The record in which every field still has to be filled or left out. -/
  blank : ρ
  /-- The known keys. -/
  fields : List (Field ρ)

namespace Record

variable {ρ : Type}

/-- Decodes a key; the step says how paths call its value. -/
def decodeKey (path : Path) (key : Node Nat) : Decoding (String × PathStep) := do
  let name ← anyText "field identifier" path key
  match key with
  | .reference _ => return (name, .unnamed)
  | _ => return (name, .field name)

/-- The first required field that has not been seen. -/
def missing? (record : Record ρ) (seen : List String) : Option (Field ρ) :=
  record.fields.find? fun field => field.required && !seen.contains field.name

/-- Decodes the entries of a mapping one after the other. -/
def decodeEntries (record : Record ρ) (path : Path) (seen : List String) (r : ρ) :
    List (Node Nat × Node Nat) → Decoding ρ
  | [] =>
    match record.missing? seen with
    | some field => throw (.misshapen path (.missingField field.name))
    | none => return r
  | (key, value) :: entries => do
    let (name, step) ← decodeKey path key
    match record.fields.find? fun field => field.name == name with
    | none =>
      ignore value
      record.decodeEntries path seen r entries
    | some field =>
      if seen.contains name then throw (.misshapen path (.duplicateField name))
      else
        let r ← field.decode r (step :: path) value
        record.decodeEntries path (name :: seen) r entries

/-- Decodes a mapping. An absent node is an empty mapping. -/
def decode (record : Record ρ) : Decoder ρ := fun path node => do
  match (← resolve node) with
  | .mapping _ entries => record.decodeEntries path [] record.blank entries
  | .scalar _ .plain "" => record.decodeEntries path [] record.blank []
  | node => mismatch ("struct " ++ record.name) path node

end Record

end Decoder

/-! ## Texts -/

/-- The references of a document. As many may be followed as the hundredfold of its
size. -/
def Source.references (source : Source) : References where
  targets := source.root.targets.reverse
  limit := 100 * source.root.size

/-- Decodes the document of a text. A fault of shape counts before anything that is
wrong with the text behind it. -/
def Source.decode {α : Type} (source : Source) (decoder : Decoder α) : Except DecodeError α := do
  let (a, _) ← ((decoder [] source.root).run source.references).run 0
  if source.isComplete then return a else throw .unreadable

end Playthrough.Yaml
