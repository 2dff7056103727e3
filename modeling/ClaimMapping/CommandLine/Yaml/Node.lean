import ClaimMapping.CommandLine.Yaml.Token

namespace ClaimMapping.CommandLine.Yaml

/-- The tree of a document. What is left out where a node can stand is a null. -/
inductive Node where
  | reference (name : String)
  | scalar (anchor : Option String) (tag : Option Tag) (plain : Bool) (text : String)
  | sequence (anchor : Option String) (items : List Node)
  /-- Keys and values by turns. -/
  | mapping (anchor : Option String) (nodes : List Node)

namespace Node

def null : Node := .scalar none none true "~"

/-- An anchor and a tag in either order. -/
def takeProperties : List Token → Option String × Option Tag × List Token
  | .anchor a :: .tag t :: rest => (some a, some t, rest)
  | .tag t :: .anchor a :: rest => (some a, some t, rest)
  | .anchor a :: rest => (some a, none, rest)
  | .tag t :: rest => (none, some t, rest)
  | rest => (none, none, rest)

/-- Whether no node stands between a key sign and the token at the front. -/
def lacksKey : List Token → Bool
  | .key :: _ => true
  | .value :: _ => true
  | .blockEnd :: _ => true
  | _ => false

/-- Whether no node stands between an entry sign and the token at the front. -/
def lacksEntry : List Token → Bool
  | .blockEntry :: _ => true
  | .blockEnd :: _ => true
  | _ => false

def lacksPlainEntry (tokens : List Token) : Bool := lacksEntry tokens || lacksKey tokens

def endsFlowValue (close : Token) : List Token → Bool
  | t :: _ => t == .flowEntry || t == close
  | [] => false

def endsFlowKey (close : Token) (tokens : List Token) : Bool :=
  tokens.head? == some .value || endsFlowValue close tokens

mutual

/-- The node at the front. `inBlock` allows blocks, and `isValue` a sequence that is not indented,
as the value of a key may be one. -/
def take? : Nat → Bool → Bool → List Token → Option (Node × List Token)
  | 0, _, _, _ => none
  | fuel + 1, inBlock, isValue, tokens =>
    match tokens with
    | .reference name :: rest => some (.reference name, rest)
    | tokens =>
      let (anchor, tag, tokens) := takeProperties tokens
      let empty :=
        if anchor.isSome || tag.isSome then some (.scalar anchor tag true "", tokens) else none
      match tokens with
      | .scalar plain text :: rest => some (.scalar anchor tag plain text, rest)
      | .flowSequence :: rest =>
        (flowItems? fuel rest).map fun (items, rest) => (.sequence anchor items, rest)
      | .flowMapping :: rest =>
        (flowPairs? fuel rest).map fun (nodes, rest) => (.mapping anchor nodes, rest)
      | .blockSequence :: rest =>
        if inBlock then
          (blockItems? fuel rest).map fun (items, rest) => (.sequence anchor items, rest)
        else empty
      | .blockMapping :: rest =>
        if inBlock then
          (blockPairs? fuel rest).map fun (nodes, rest) => (.mapping anchor nodes, rest)
        else empty
      | .blockEntry :: _ =>
        if isValue then
          (plainItems? fuel tokens).map fun (items, rest) => (.sequence anchor items, rest)
        else empty
      | _ => empty

/-- The items of an indented sequence. -/
def blockItems? : Nat → List Token → Option (List Node × List Token)
  | 0, _ => none
  | fuel + 1, .blockEntry :: rest => do
    let (item, rest) ← if lacksEntry rest then some (null, rest) else take? fuel true false rest
    let (items, rest) ← blockItems? fuel rest
    return (item :: items, rest)
  | _ + 1, .blockEnd :: rest => some ([], rest)
  | _ + 1, _ => none

/-- The items of a sequence that is not indented, which ends with its last item. -/
def plainItems? : Nat → List Token → Option (List Node × List Token)
  | 0, _ => none
  | fuel + 1, .blockEntry :: rest => do
    let (item, rest) ←
      if lacksPlainEntry rest then some (null, rest) else take? fuel true false rest
    let (items, rest) ← plainItems? fuel rest
    return (item :: items, rest)
  | _ + 1, rest => some ([], rest)

/-- A node behind a key sign or a value sign in a block. -/
def blockPart? : Nat → List Token → Option (Node × List Token)
  | 0, _ => none
  | fuel + 1, rest => if lacksKey rest then some (null, rest) else take? fuel true true rest

def blockPairs? : Nat → List Token → Option (List Node × List Token)
  | 0, _ => none
  | _ + 1, .blockEnd :: rest => some ([], rest)
  | fuel + 1, tokens => do
    let (key, rest) ← match tokens with
      | .key :: rest => blockPart? fuel rest
      | .value :: _ => some (null, tokens)
      | _ => none
    let (value, rest) ← match rest with
      | .value :: rest => blockPart? fuel rest
      | _ => some (null, rest)
    let (nodes, rest) ← blockPairs? fuel rest
    return (key :: value :: nodes, rest)

/-- The value of a key in a flow collection, which may be left out with its colon. -/
def flowValue? : Nat → Token → List Token → Option (Node × List Token)
  | 0, _, _ => none
  | fuel + 1, close, .value :: rest =>
    if endsFlowValue close rest then some (null, rest) else take? fuel false false rest
  | _ + 1, _, rest => some (null, rest)

/-- A key and its value, or a key alone. -/
def flowPair? : Nat → List Token → Option (List Node × List Token)
  | 0, _ => none
  | fuel + 1, tokens => do
    let (key, rest) ← match tokens with
      | .key :: rest =>
        if endsFlowKey .flowMappingEnd rest then some (null, rest) else take? fuel false false rest
      | .value :: _ => some (null, tokens)
      | _ => take? fuel false false tokens
    let (value, rest) ← match tokens with
      | .key :: _ => flowValue? fuel .flowMappingEnd rest
      | .value :: _ => flowValue? fuel .flowMappingEnd rest
      | _ => some (null, rest)
    return ([key, value], rest)

def flowPairs? : Nat → List Token → Option (List Node × List Token)
  | 0, _ => none
  | _ + 1, .flowMappingEnd :: rest => some ([], rest)
  | fuel + 1, tokens => do
    let (pair, rest) ← flowPair? fuel tokens
    match rest with
    | .flowMappingEnd :: rest => return (pair, rest)
    | .flowEntry :: rest =>
      let (nodes, rest) ← flowPairs? fuel rest
      return (pair ++ nodes, rest)
    | _ => none

/-- An item of a sequence; one pair alone is a mapping. A token that stands for a missing key of
such a pair is lost. -/
def flowItem? : Nat → List Token → Option (Node × List Token)
  | 0, _ => none
  | fuel + 1, .key :: rest => do
    let (key, rest) ← if endsFlowKey .flowSequenceEnd rest then some (null, rest.drop 1)
      else take? fuel false false rest
    let (value, rest) ← flowValue? fuel .flowSequenceEnd rest
    return (.mapping none [key, value], rest)
  | fuel + 1, tokens => take? fuel false false tokens

def flowItems? : Nat → List Token → Option (List Node × List Token)
  | 0, _ => none
  | _ + 1, .flowSequenceEnd :: rest => some ([], rest)
  | fuel + 1, tokens => do
    let (item, rest) ← flowItem? fuel tokens
    match rest with
    | .flowSequenceEnd :: rest => return ([item], rest)
    | .flowEntry :: rest =>
      let (items, rest) ← flowItems? fuel rest
      return (item :: items, rest)
    | _ => none

end

/-- Every token is behind at most three calls. -/
def takeRoot? (tokens : List Token) : Option (Node × List Token) :=
  take? (3 * tokens.length + 3) true false tokens

/-- Whether a document with a mark at its front has nothing inside. -/
def isBare : List Token → Bool
  | [] => true
  | .directive :: _ => true
  | .documentStart :: _ => true
  | .documentEnd :: _ => true
  | _ => false

def takeDocument? (tokens : List Token) : Option (Node × List Token) :=
  match tokens.dropWhile (· == .directive) with
  | .documentStart :: rest => if isBare rest then some (null, rest) else takeRoot? rest
  | rest => if rest.length = tokens.length then takeRoot? tokens else none

/-- The only document, if there is one; more than one is refused. -/
def root? (tokens : List Token) : Option (Option Node) :=
  if tokens.isEmpty then some none
  else do
    let (node, rest) ← takeDocument? tokens
    if rest.all (· == .documentEnd) then some (some node) else none

end Node
end ClaimMapping.CommandLine.Yaml
