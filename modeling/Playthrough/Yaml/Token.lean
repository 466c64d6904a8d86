/-!
# Tokens

A YAML text is a sequence of tokens. Some stand for characters of the text; the
beginnings and ends of block collections stand for changes of indentation, and
`key` for the discovery that what follows it is the key of a mapping.
-/

namespace Playthrough.Yaml

/-- How a scalar is written. Only plain scalars can be anything but text. -/
inductive ScalarStyle where
  /-- Without quotes. -/
  | plain
  /-- In quotes or as a block. -/
  | quoted
deriving DecidableEq

/-- A token. -/
inductive Token where
  /-- The end of the text. -/
  | textEnd
  /-- `---` -/
  | documentStart
  /-- `...` -/
  | documentEnd
  /-- Deeper indentation before the first item of a block sequence. -/
  | blockSequenceStart
  /-- Deeper indentation before the first key of a block mapping. -/
  | blockMappingStart
  /-- The end of the indentation of a block collection. -/
  | blockEnd
  /-- `[` -/
  | flowSequenceStart
  /-- `]` -/
  | flowSequenceEnd
  /-- An opening brace. -/
  | flowMappingStart
  /-- A closing brace. -/
  | flowMappingEnd
  /-- `-` before an item. -/
  | blockEntry
  /-- `,` -/
  | flowEntry
  /-- `?`, or the place where it could have stood. -/
  | key
  /-- `:` -/
  | value
  /-- `&name` -/
  | anchor (name : String)
  /-- `*name` -/
  | reference (name : String)
  /-- A scalar and its value. -/
  | scalar (style : ScalarStyle) (text : String)
deriving DecidableEq

end Playthrough.Yaml
