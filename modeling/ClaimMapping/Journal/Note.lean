import ClaimMapping.Expression.Environment
import ClaimMapping.Provider.Error

namespace ClaimMapping.Journal

/-- Where a note comes from: reading the payload, or the run itself. -/
inductive Origin where
  | provider
  | run
  deriving DecidableEq, Repr

/-- The notes that a run makes for its log. -/
inductive Note where
  | notToken (d : Provider.TokenDefect)
  | rejectedBy (provider : String) (e : Provider.ParseError)
  | resolvedBy (provider : String)
  | parsedBy (provider : String)
  | evaluated (key : String) (kind : Expression.Kind)
  | derived (keys : List String)
  | conditionValue (kind : Expression.Kind)
  | conditionError (e : Expression.Error)
  | conditionAccepted

def Note.origin : Note → Origin
  | .notToken _ | .rejectedBy .. | .resolvedBy _ => .provider
  | _ => .run

def Note.message : Note → String
  | .notToken d => "payload is not a JWT: " ++ d.message
  | .rejectedBy provider e => provider ++ " provider rejected the payload: " ++ e.message
  | .resolvedBy provider => "payload resolved by the " ++ provider ++ " provider"
  | .parsedBy provider => "payload parsed by the " ++ provider ++ " provider"
  | .evaluated key kind => "evaluated " ++ key ++ " to a " ++ kind.name
  | .derived keys => "derived attributes: " ++ Text.bracketed (keys.map Text.quoted)
  | .conditionValue kind => "attribute condition evaluated to a " ++ kind.name
  | .conditionError e => "attribute condition failed: " ++ e.message
  | .conditionAccepted => "attribute condition accepted the credential"

end ClaimMapping.Journal
