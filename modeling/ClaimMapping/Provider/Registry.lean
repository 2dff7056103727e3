import ClaimMapping.Provider.Oidc
import ClaimMapping.Provider.Saml

namespace ClaimMapping.Provider

/-- Providers with distinct names, in the order in which they were registered. -/
abbrev Registry := List Provider

namespace Registry

def empty : Registry := []

def find? (r : Registry) (name : String) : Option Provider := List.find? (fun p => p.name == name) r

/-- A name that is taken is refused. -/
def register (r : Registry) (p : Provider) : Except Duplicate Registry :=
  if (find? r p.name).isSome then .error ⟨"provider", p.name⟩ else .ok (r ++ [p])

def registerAll (r : Registry) (ps : List Provider) : Except Duplicate Registry :=
  ps.foldlM register r

def names (r : Registry) : List String := r.map Provider.name

def standard : Registry := [oidc, saml]

open Journal in
/-- The first provider that accepts a payload, with its bindings; an error when there is none. -/
def resolve : Registry → String → Traced Unit (Provider × Expression.Bindings)
  | [], _ => .refuse ()
  | p :: r, payload =>
    let attempt := p.parse payload
    match attempt.outcome with
    | .ok bindings => ⟨attempt.notes ++ [.resolvedBy p.name], .ok (p, bindings)⟩
    | .error e =>
      let rest := resolve r payload
      ⟨attempt.notes ++ .rejectedBy p.name e :: rest.notes, rest.outcome⟩

end Registry
end ClaimMapping.Provider
