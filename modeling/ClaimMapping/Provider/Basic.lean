import ClaimMapping.Attribute.Key
import ClaimMapping.Journal.Traced
import ClaimMapping.Json.Reader

namespace ClaimMapping

/-- A provider of identities reads a payload into the variables it declares; refusing the payload
also says that it is not in the format of the provider. -/
structure Provider where
  name : String
  declarations : List Expression.Declaration
  parse : String → Journal.Traced Provider.ParseError Expression.Bindings

namespace Provider

/-- The bindings of the one variable that holds an assertion. -/
def assertion (value : Json) : Expression.Bindings := [(Attribute.assertionName, value)]

namespace Condition

def declarations : List Expression.Declaration :=
  [.dynamic Attribute.customFamily, .dynamic Attribute.reservedFamily,
    .dynamic Attribute.assertionName]

def read (payload : String) : Except ParseError Expression.Bindings :=
  match Json.read? payload with
  | none => .error .json
  | some (.object members) =>
    .ok (KeyMap.filterKeys (fun name => declarations.any fun d => d.name == name) members)
  | some _ => .error .notAnObject

end Condition

/-- The provider of the variables that a condition may use. Its payload is a JSON object of
families; other members of the object are dropped. -/
def condition : Provider :=
  ⟨"attribute", Condition.declarations, fun payload => .lift (Condition.read payload)⟩

end Provider
end ClaimMapping
