import ClaimMapping.Text.Quoted

namespace ClaimMapping

/-- Maps from names to values: the entries in increasing order of their keys, each key once, so two
maps with the same entries are equal and walking a map visits its keys in order. Strings are
compared by code point, which is also the order of their UTF-8 bytes. -/
abbrev KeyMap (α : Type) := List (String × α)

namespace KeyMap

variable {α β : Type}

def keys (m : KeyMap α) : List String := m.map Prod.fst

def get? : KeyMap α → String → Option α
  | [], _ => none
  | (k, v) :: m, key => if key = k then some v else get? m key

def contains (m : KeyMap α) (key : String) : Bool := (get? m key).isSome

/-- The value of a key that is already there is replaced. -/
def insert : KeyMap α → String → α → KeyMap α
  | [], key, value => [(key, value)]
  | (k, v) :: m, key, value =>
    if key < k then (key, value) :: (k, v) :: m
    else if key = k then (key, value) :: m
    else (k, v) :: insert m key value

/-- Later entries replace earlier ones of the same key. -/
def insertAll (m : KeyMap α) (entries : List (String × α)) : KeyMap α :=
  entries.foldl (fun acc e => insert acc e.1 e.2) m

def ofList (entries : List (String × α)) : KeyMap α := insertAll [] entries

def mapValues (f : α → β) (m : KeyMap α) : KeyMap β := m.map fun e => (e.1, f e.2)

def filterKeys (p : String → Bool) (m : KeyMap α) : KeyMap α := m.filter fun e => p e.1

/-- The keys strictly increase. -/
def Ordered (m : KeyMap α) : Prop := (keys m).Pairwise (· < ·)

end KeyMap

/-- What was given a name for the second time, as in "provider". -/
structure Duplicate where
  noun : String
  name : String
  deriving DecidableEq, Repr

def Duplicate.message (d : Duplicate) : String :=
  "duplicate " ++ d.noun ++ " for name " ++ Text.quoted d.name

end ClaimMapping
