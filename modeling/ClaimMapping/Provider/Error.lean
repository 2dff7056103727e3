import ClaimMapping.Expression.Syntax
import ClaimMapping.Xml.Defect

namespace ClaimMapping.Provider

/-- Why a payload is refused. -/
inductive ParseError where
  | json
  | xml (d : Xml.Defect)
  | unexpectedRoot (name : String)
  | missingElement (name : String)
  | notAnObject
  deriving DecidableEq, Repr

def ParseError.message : ParseError → String
  | .json => "error unmarshaling JSON: the text is no JSON value"
  | .xml d => "error parsing XML: " ++ d.message
  | .unexpectedRoot name =>
    "unexpected root element " ++ name ++ ", expected a SAML 2.0 protocol Response"
  | .missingElement name => "missing " ++ name ++ " element"
  | .notAnObject => "the assertion must be a JSON object"

/-- Why a payload is no token. -/
inductive TokenDefect where
  | segments (count : Nat)
  | badEncoding
  | badJson
  | noAlgorithm
  | claimsNotObject
  deriving DecidableEq, Repr

def TokenDefect.message : TokenDefect → String
  | .segments count => "expected 3 segments, got " ++ Expression.natString count
  | .badEncoding => "invalid base64url segment: a character, the length or the last bits are wrong"
  | .badJson => "invalid JSON segment: the bytes are no JSON value"
  | .noAlgorithm => "header has no alg"
  | .claimsNotObject => "claims are not a JSON object"

end ClaimMapping.Provider
