import Playthrough.Yaml.Node
import Playthrough.Yaml.Token.Lexer

/-!
# From tokens to trees

The grammar of documents over tokens. Every function returns what it read and the
tokens that follow, or none if the text broke off: where tokens run out or do not fit
the grammar, the tree gets a `cut`.

`Source.ofText` reads the first document of a text.
-/

namespace Playthrough.Yaml

namespace Node

/-! ## Parts of a tree -/

/-- Something read, and the tokens that follow unless the text broke off. -/
abbrev Read (β : Type) := β × Option (List Token)

/-- Where a node stands. -/
inductive Context where
  /-- Within brackets or braces. -/
  | flow
  /-- A document or an item of a block sequence. -/
  | item
  /-- A key or a value of a block mapping. Only here a sequence need not be indented. -/
  | entry
deriving DecidableEq

/-- Nothing where a node should be. -/
def broken : Read (Node String) := (.cut, none)

/-- Items read one after the other. -/
def andItems (first : Read (Node String)) (more : List Token → Read (List (Node String))) :
    Read (List (Node String)) :=
  match first with
  | (item, none) => ([item], none)
  | (item, some rest) =>
    let (items, rest) := more rest
    (item :: items, rest)

/-- A key and its value, read one after the other. -/
def andValue (key : Read (Node String)) (value : List Token → Read (Node String)) :
    Read (Node String × Node String) :=
  match key with
  | (key, none) => ((key, .cut), none)
  | (key, some rest) =>
    let (value, rest) := value rest
    ((key, value), rest)

/-- Entries read one after the other. -/
def andEntries (first : Read (Node String × Node String))
    (more : List Token → Read (List (Node String × Node String))) :
    Read (List (Node String × Node String)) :=
  match first with
  | (entry, none) => ([entry], none)
  | (entry, some rest) =>
    let (entries, rest) := more rest
    (entry :: entries, rest)

/-- An absent node, if there is a token that may follow it. -/
def absentBefore (tokens : List Token) : Read (Node String) :=
  if tokens.isEmpty then broken else (.absent, some tokens)

/-- An absent node in front of one of the given tokens, and otherwise what is read. -/
def unlessBefore (stops : List Token) (tokens : List Token)
    (read : List Token → Read (Node String)) : Read (Node String) :=
  if tokens.head?.any stops.contains then absentBefore tokens else read tokens

/-- What stands behind a `:`; an absent node if there is no `:`. -/
def afterColon (stops : List Token) (tokens : List Token)
    (read : List Token → Read (Node String)) : Read (Node String) :=
  match tokens with
  | .value :: rest => unlessBefore stops rest read
  | tokens => absentBefore tokens

/-- The tokens behind the comma that has to stand in front of every item within
brackets but the first. -/
def afterComma? (isFirst : Bool) (tokens : List Token) : Option (List Token) :=
  if isFirst then some tokens
  else
    match tokens with
    | .flowEntry :: rest => some rest
    | _ => none

/-- The tokens in front of which a key or value of a block mapping is absent. -/
def entryStops : List Token := [.key, .value, .blockEnd]

/-- The tokens in front of which a value between brackets is absent. -/
def flowItemStops : List Token := [.flowEntry, .flowSequenceEnd]

/-- The tokens in front of which a value between braces is absent. -/
def flowEntryStops : List Token := [.flowEntry, .flowMappingEnd]

/-! ## The grammar -/

mutual

/-- Reads a node. -/
def readNode (context : Context) : Nat → List Token → Read (Node String)
  | 0, _ => broken
  | fuel + 1, tokens =>
    match tokens with
    | .reference name :: rest => (.reference name, some rest)
    | .anchor name :: rest => readContent context (some name) fuel rest
    | tokens => readContent context none fuel tokens

/-- Reads a node from behind its anchor. A node with an anchor may be absent. -/
def readContent (context : Context) (anchor : Option String) :
    Nat → List Token → Read (Node String)
  | 0, _ => broken
  | fuel + 1, tokens =>
    match context, tokens with
    | _, .scalar style text :: rest => (.scalar anchor style text, some rest)
    | _, .flowSequenceStart :: rest => readFlowItems true fuel rest |>.map (.sequence anchor) id
    | _, .flowMappingStart :: rest => readFlowEntries true fuel rest |>.map (.mapping anchor) id
    | .entry, .blockEntry :: rest =>
      readUnindentedItems fuel (.blockEntry :: rest) |>.map (.sequence anchor) id
    | .item, .blockSequenceStart :: rest | .entry, .blockSequenceStart :: rest =>
      readBlockItems fuel rest |>.map (.sequence anchor) id
    | .item, .blockMappingStart :: rest | .entry, .blockMappingStart :: rest =>
      readBlockEntries fuel rest |>.map (.mapping anchor) id
    | _, [] => broken
    | _, tokens => if anchor.isSome then (.scalar anchor .plain "", some tokens) else broken

/-- Reads the items of an indented block sequence. -/
def readBlockItems : Nat → List Token → Read (List (Node String))
  | 0, _ => ([.cut], none)
  | fuel + 1, tokens =>
    match tokens with
    | .blockEntry :: rest =>
      andItems (unlessBefore [.blockEntry, .blockEnd] rest (readNode .item fuel))
        (readBlockItems fuel)
    | .blockEnd :: rest => ([], some rest)
    | _ => ([.cut], none)

/-- Reads the items of a block sequence that is not indented, which ends where no
further item follows. -/
def readUnindentedItems : Nat → List Token → Read (List (Node String))
  | 0, _ => ([.cut], none)
  | fuel + 1, tokens =>
    match tokens with
    | .blockEntry :: rest =>
      andItems (unlessBefore (.blockEntry :: entryStops) rest (readNode .item fuel))
        (readUnindentedItems fuel)
    | [] => ([.cut], none)
    | tokens => ([], some tokens)

/-- Reads the entries of a block mapping. -/
def readBlockEntries : Nat → List Token → Read (List (Node String × Node String))
  | 0, _ => ([(.cut, .cut)], none)
  | fuel + 1, tokens =>
    match tokens with
    | .key :: rest =>
      andEntries
        (andValue (unlessBefore entryStops rest (readNode .entry fuel)) fun rest =>
          afterColon entryStops rest (readNode .entry fuel))
        (readBlockEntries fuel)
    | .blockEnd :: rest => ([], some rest)
    | _ => ([(.cut, .cut)], none)

/-- Reads the items between brackets. An item with a `:` is a mapping of one entry. -/
def readFlowItems (isFirst : Bool) : Nat → List Token → Read (List (Node String))
  | 0, _ => ([.cut], none)
  | fuel + 1, tokens =>
    match tokens with
    | .flowSequenceEnd :: rest => ([], some rest)
    | tokens =>
      match afterComma? isFirst tokens with
      | none => ([.cut], none)
      | some (.flowSequenceEnd :: rest) => ([], some rest)
      | some (.key :: rest) => andItems (readFlowPair fuel rest) (readFlowItems false fuel)
      | some rest => andItems (readNode .flow fuel rest) (readFlowItems false fuel)

/-- Reads an entry between brackets, from behind where its key begins. A token that
shows its key to be absent is passed over. -/
def readFlowPair : Nat → List Token → Read (Node String)
  | 0, _ => broken
  | fuel + 1, tokens =>
    let key := match tokens with
      | .value :: rest | .flowEntry :: rest | .flowSequenceEnd :: rest => (.absent, some rest)
      | tokens => readNode .flow fuel tokens
    let entry := andValue key fun rest =>
      afterColon flowItemStops rest (readNode .flow fuel)
    match entry with
    | (entry, some []) => (.mapping none [entry, (.cut, .cut)], none)
    | (entry, rest) => (.mapping none [entry], rest)

/-- Reads the entries between braces. A key without a `:` has an absent value. -/
def readFlowEntries (isFirst : Bool) : Nat → List Token → Read (List (Node String × Node String))
  | 0, _ => ([(.cut, .cut)], none)
  | fuel + 1, tokens =>
    match tokens with
    | .flowMappingEnd :: rest => ([], some rest)
    | tokens =>
      match afterComma? isFirst tokens with
      | none => ([(.cut, .cut)], none)
      | some (.flowMappingEnd :: rest) => ([], some rest)
      | some (.key :: rest) =>
        andEntries
          (andValue (unlessBefore (.value :: flowEntryStops) rest (readNode .flow fuel))
            fun rest => afterColon flowEntryStops rest (readNode .flow fuel))
          (readFlowEntries false fuel)
      | some rest =>
        andEntries (andValue (readNode .flow fuel rest) absentBefore) (readFlowEntries false fuel)

end

end Node

/-! ## Texts -/

/-- What is known of a text: the tree of its first document, and whether there is
nothing else in it that would matter. -/
structure Source where
  /-- The first document. A text without any counts as one with an absent node. -/
  root : Node Nat
  /-- Whether the text holds one document at most and makes sense to its end. -/
  isComplete : Bool

namespace Source

/-- Reads the first document. On the way down at most three calls share a token, so
four for each token is fuel enough. -/
def readFirst (tokens : List Token) : Node.Read (Node String) :=
  let fuel := 4 * tokens.length + 4
  match tokens with
  | .textEnd :: rest => (.absent, some (.textEnd :: rest))
  | .documentStart :: rest =>
    Node.unlessBefore [.documentStart, .documentEnd, .textEnd] rest (Node.readNode .item fuel)
  | tokens => Node.readNode .item fuel tokens

/-- Reads a text. -/
def ofText (text : List Char) : Source :=
  let (written, rest) := readFirst (tokens text)
  let (root, names) := written.number []
  let ending := rest.map (·.dropWhile (· == .documentEnd))
  { root, isComplete := names.isSome && ending == some [.textEnd] }

end Source

end Playthrough.Yaml
