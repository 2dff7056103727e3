namespace ClaimMapping.CommandLine.Yaml

structure Tag where
  handle : String
  suffix : String
  deriving DecidableEq, Repr

/-- The tokens of a YAML text. Indentation is spelled out: blocks begin and end with tokens. -/
inductive Token where
  | directive
  | documentStart
  | documentEnd
  | blockSequence
  | blockMapping
  | blockEnd
  | blockEntry
  | flowSequence
  | flowSequenceEnd
  | flowMapping
  | flowMappingEnd
  | flowEntry
  | key
  | value
  /-- The name of a node that stands elsewhere. -/
  | reference (name : String)
  | anchor (name : String)
  | tag (t : Tag)
  /-- The text of a scalar; only plain ones can be anything but text. -/
  | scalar (plain : Bool) (text : String)
  deriving DecidableEq, Repr

end ClaimMapping.CommandLine.Yaml
