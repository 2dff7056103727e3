import ClaimMapping.Base64Url
import ClaimMapping.Json.Reader
import ClaimMapping.Provider.Basic
import ClaimMapping.Text.Blank

namespace ClaimMapping.Provider.Oidc

/-- The JSON value that a segment encodes. -/
def segment (text : List Char) : Except TokenDefect Json :=
  match Base64Url.decode? text with
  | none => .error .badEncoding
  | some bytes =>
    match (Text.Utf8.decode? bytes).bind fun text => Json.read? (String.ofList text) with
    | some j => .ok j
    | none => .error .badJson

def hasAlgorithm (header : Json) : Bool := ((header.member? "alg").bind Json.string?).isSome

def tokenClaims (header claims : List Char) : Except TokenDefect (KeyMap Json) := do
  let header ← segment header
  if hasAlgorithm header then
    match ← segment claims with
    | .object members => return members
    | _ => .error .claimsNotObject
  else .error .noAlgorithm

/-- The claims of a token; white space around it does not count. -/
def readToken (payload : String) : Except TokenDefect (KeyMap Json) :=
  match Text.splitChar '.' (Text.trim payload).toList with
  | [header, claims, _] => tokenClaims header claims
  | segments => .error (.segments segments.length)

def readObject (payload : String) : Except ParseError (KeyMap Json) :=
  match Json.read? payload with
  | none => .error .json
  | some (.object members) => .ok members
  | some _ => .error .notAnObject

open Journal in
/-- What is no token must be an object of claims. -/
def claims (payload : String) : Traced ParseError (KeyMap Json) :=
  match readToken payload with
  | .ok members => pure members
  | .error d => do
    Traced.note (.notToken d)
    Traced.lift (readObject payload)

def parse (payload : String) : Journal.Traced ParseError Expression.Bindings := do
  let members ← claims payload
  return assertion (.object members)

end ClaimMapping.Provider.Oidc

namespace ClaimMapping.Provider

/-- OpenID Connect: a payload is a JSON object of claims, or a compact token of three segments with
points between them, a header, the claims and a signature. The signature is not verified: the token
must be trusted before it comes here. -/
def oidc : Provider := ⟨"oidc", [.dynamic Attribute.assertionName], Oidc.parse⟩

end ClaimMapping.Provider
