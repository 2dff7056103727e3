import ClaimMapping.Journal.Note

namespace ClaimMapping.Journal

/-- An outcome with the notes made on the way to it. The notes stay when the outcome is an error. -/
structure Traced (ε α : Type) where
  notes : List Note
  outcome : Except ε α

namespace Traced

variable {ε ε' α β : Type}

def pure (a : α) : Traced ε α := ⟨[], .ok a⟩

def bind (x : Traced ε α) (f : α → Traced ε β) : Traced ε β :=
  match x.outcome with
  | .error e => ⟨x.notes, .error e⟩
  | .ok a => ⟨x.notes ++ (f a).notes, (f a).outcome⟩

instance : Monad (Traced ε) where
  pure := pure
  bind := bind

def note (n : Note) : Traced ε Unit := ⟨[n], .ok ()⟩

/-- An outcome without notes. -/
def lift (outcome : Except ε α) : Traced ε α := ⟨[], outcome⟩

def refuse (e : ε) : Traced ε α := ⟨[], .error e⟩

def map (f : α → β) (x : Traced ε α) : Traced ε β := ⟨x.notes, x.outcome.map f⟩

def mapError (f : ε → ε') (x : Traced ε α) : Traced ε' α := ⟨x.notes, x.outcome.mapError f⟩

@[simp] theorem pure_notes (a : α) : (Pure.pure a : Traced ε α).notes = [] := rfl

@[simp] theorem pure_outcome (a : α) : (Pure.pure a : Traced ε α).outcome = .ok a := rfl

theorem bind_of_ok {x : Traced ε α} {a : α} (h : x.outcome = .ok a) (f : α → Traced ε β) :
    x >>= f = ⟨x.notes ++ (f a).notes, (f a).outcome⟩ := by
  change bind x f = _
  rw [bind, h]

theorem bind_of_error {x : Traced ε α} {e : ε} (h : x.outcome = .error e) (f : α → Traced ε β) :
    x >>= f = ⟨x.notes, .error e⟩ := by
  change bind x f = _
  rw [bind, h]

end Traced
end ClaimMapping.Journal
