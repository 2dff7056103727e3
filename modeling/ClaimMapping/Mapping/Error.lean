import ClaimMapping.Expression.Environment
import ClaimMapping.Provider.Error

namespace ClaimMapping.Mapping

inductive InputDefect where
  | emptyPayload
  | missingMapping
  | emptyMapping
  deriving DecidableEq, Repr

def InputDefect.message : InputDefect → String
  | .emptyPayload => "payload is empty"
  | .missingMapping => "attribute mapping is missing"
  | .emptyMapping => "attribute mapping is empty"

/-- What an expression is for. -/
inductive Target where
  | attribute (key : String)
  | condition
  deriving DecidableEq, Repr

def Target.name : Target → String
  | .attribute key => key
  | .condition => "attribute condition"

/-- The type that an attribute must have. -/
inductive Wanted where
  | text
  | list
  deriving DecidableEq, Repr

def Wanted.name : Wanted → String
  | .text => "string"
  | .list => "list<string>"

/-- What an expression gave instead. -/
inductive Found where
  | value (kind : Expression.Kind)
  | item (kind : Expression.Kind) (index : Nat)
  deriving DecidableEq, Repr

def Found.name : Found → String
  | .value kind => kind.name
  | .item kind index =>
    "list with a " ++ kind.name ++ " at index " ++ Expression.natString index

/-- Why a run derives no attributes. -/
inductive Error where
  | invalidInput (d : InputDefect)
  | invalidMappingKey (key : String)
  | unknownProvider (name : String)
  | noProviderFound
  | parse (provider : String) (source : Provider.ParseError)
  | expressionTooLong (target : Target) (length limit : Nat)
  | invalidAttributeName (name : String)
  | unsupportedTimestampConstruction
  | compile (target : Target) (e : Expression.SyntaxError)
  | evaluate (target : Target) (e : Expression.Error)
  | environment (variableName : String)
  | wrongType (key : String) (wanted : Wanted) (found : Found)
  | missingSubject
  | subjectTooLong (length limit : Nat)
  | attributesTooLarge (size limit : Nat)
  | tooManyCustomAttributes (count limit : Nat)
  | conditionRejected

/-- What ends a run. A crash is not an error: the evaluation of an expression has ended without a
report. -/
inductive Stop where
  | error (e : Error)
  | crash

namespace Error

def kind : Error → String
  | .invalidInput _ => "InvalidInput"
  | .invalidMappingKey _ => "InvalidMappingKey"
  | .unknownProvider _ => "UnknownProvider"
  | .noProviderFound => "NoProviderFound"
  | .parse .. => "Parse"
  | .expressionTooLong .. => "ExpressionTooLong"
  | .invalidAttributeName _ => "InvalidAttributeName"
  | .unsupportedTimestampConstruction => "UnsupportedTimestampConstruction"
  | .compile .. => "Compile"
  | .evaluate .. => "Evaluate"
  | .environment _ => "Environment"
  | .wrongType .. => "WrongType"
  | .missingSubject => "MissingSubject"
  | .subjectTooLong .. => "SubjectTooLong"
  | .attributesTooLarge .. => "AttributesTooLarge"
  | .tooManyCustomAttributes .. => "TooManyCustomAttributes"
  | .conditionRejected => "ConditionRejected"

def message : Error → String
  | .invalidInput d => "input is invalid: " ++ d.message
  | .invalidMappingKey key =>
    "invalid attribute mapping key: " ++ key ++
      ". Only 'google.subject', 'google.groups' and 'attribute.<custom_attribute>' are accepted"
  | .unknownProvider name => "provider " ++ name ++ " is not registered"
  | .noProviderFound => "no registered provider is able to parse the given payload"
  | .parse provider _ => provider ++ " provider failed to parse the payload"
  | .expressionTooLong target length limit =>
    "the maximum length of an " ++ target.name ++ " expression is " ++ Expression.natString limit
      ++ " bytes, got " ++ Expression.natString length
  | .invalidAttributeName name =>
    "invalid mapped attribute key: " ++ name ++ ". The maximum length of a mapped attribute key is "
      ++ "100 characters and may only contain the characters [a-z0-9_]"
  | .unsupportedTimestampConstruction =>
    "creating a timestamp from a unix timestamp integer is not supported by the Workload Identity "
      ++ "Federation expression implementation"
  | .compile target e => "error compiling expression for " ++ target.name ++ ": " ++ e.message
  | .evaluate target e => "error evaluating expression for " ++ target.name ++ ": " ++ e.message
  | .environment variableName =>
    "error preparing evaluation environment: variable " ++ variableName
      ++ " must be an object to be namespaced"
  | .wrongType key wanted found =>
    "the mapped attribute '" ++ key ++ "' must be of type " ++ wanted.name ++ ", got " ++ found.name
  | .missingSubject => "missing 'google.subject' attribute"
  | .subjectTooLong length limit =>
    "the size of mapped attribute 'google.subject' is " ++ Expression.natString length
      ++ " bytes and exceeds the " ++ Expression.natString limit ++ " bytes limit"
  | .attributesTooLarge size limit =>
    "the size of mapped attributes is " ++ Expression.natString size ++ " bytes and exceeds the "
      ++ Expression.natString limit ++ " bytes limit"
  | .tooManyCustomAttributes count limit =>
    Expression.natString count ++ " custom attributes are mapped, custom attributes are limited to "
      ++ Expression.natString limit
  | .conditionRejected => "the given credential is rejected by the attribute condition"

def cause? : Error → Option Provider.ParseError
  | .parse _ source => some source
  | _ => none

end Error
end ClaimMapping.Mapping
