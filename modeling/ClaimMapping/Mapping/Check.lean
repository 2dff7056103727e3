import ClaimMapping.Attribute.Value
import ClaimMapping.Mapping.Error
import ClaimMapping.Mapping.Request
import ClaimMapping.Text.Blank

namespace ClaimMapping.Mapping

open Attribute

/-- Limits are in bytes, except for the one on the count of custom attributes. -/
def subjectLimit : Nat := 127

def attributesLimit : Nat := 8192

def mappingLimit : Nat := 2048

def conditionLimit : Nat := 4096

def customLimit : Nat := 50

/-- The mapping of a request that has a payload and only keys of target attributes. -/
def Request.check (r : Request) : Except Error (KeyMap String) :=
  if r.payload = "" then .error (.invalidInput .emptyPayload)
  else match r.mapping with
    | none => .error (.invalidInput .missingMapping)
    | some [] => .error (.invalidInput .emptyMapping)
    | some mapping =>
      match (KeyMap.keys mapping).find? fun key => (Key.read? key).isNone with
      | some key => .error (.invalidMappingKey key)
      | none => .ok mapping

def skipBlank (text : List Char) : List Char := text.dropWhile Text.isBlank

/-- Whether the text begins with the name of a function and an opening parenthesis; what follows. -/
def stripCall? (name : String) (text : List Char) : Option (List Char) := do
  let rest ← Text.stripStart? name.toList text
  Text.stripStart? ['('] (skipBlank rest)

def beginsTimeOfNumber (text : List Char) : Bool :=
  ((stripCall? "timestamp" text).bind fun rest => stripCall? "int" (skipBlank rest)).isSome

/-- Whether a call of `timestamp` with a call of `int` right behind its parenthesis occurs anywhere
in the text. -/
def makesTimeOfNumber : List Char → Bool
  | [] => false
  | c :: text => beginsTimeOfNumber (c :: text) || makesTimeOfNumber text

def checkLength (target : Target) (source : String) (limit : Nat) : Except Error Unit :=
  if limit < byteSize source then .error (.expressionTooLong target (byteSize source) limit)
  else .ok ()

def checkLengths : List (String × String) → Except Error Unit
  | [] => .ok ()
  | (key, source) :: mapping => do
    checkLength (.attribute key) source mappingLimit
    checkLengths mapping

/-- The name in a custom key, if it is not valid. -/
def invalidName? (key : String) : Option String :=
  match Key.read? key with
  | some (.custom name) => if isValidName name then none else some name
  | _ => none

def checkNames (keys : List String) : Except Error Unit :=
  match keys.findSome? invalidName? with
  | some name => .error (.invalidAttributeName name)
  | none => .ok ()

def checkTimes (sources : List String) : Except Error Unit :=
  if sources.any fun source => makesTimeOfNumber source.toList then
    .error .unsupportedTimestampConstruction
  else .ok ()

/-- The checks that a run makes before the expressions are evaluated. -/
def checkSources (mapping : KeyMap String) (condition : String) : Except Error Unit := do
  checkLengths mapping
  checkLength .condition condition conditionLimit
  checkNames (KeyMap.keys mapping)
  checkTimes (mapping.map Prod.snd ++ [condition])

def checkSubject (d : Derived) : Except Error Unit :=
  match (KeyMap.get? d subjectKey).bind Value.text? with
  | none => .error .missingSubject
  | some subject =>
    if subjectLimit < byteSize subject then
      .error (.subjectTooLong (byteSize subject) subjectLimit)
    else .ok ()

def checkSize (d : Derived) : Except Error Unit :=
  if attributesLimit < d.size then .error (.attributesTooLarge d.size attributesLimit) else .ok ()

def checkCount (d : Derived) : Except Error Unit :=
  if customLimit < d.customCount then
    .error (.tooManyCustomAttributes d.customCount customLimit)
  else .ok ()

/-- The checks that a run makes of what the expressions gave. -/
def checkDerived (d : Derived) : Except Error Unit := do
  checkSubject d
  checkSize d
  checkCount d

end ClaimMapping.Mapping
