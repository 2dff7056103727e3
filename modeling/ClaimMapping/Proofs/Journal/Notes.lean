import ClaimMapping.Proofs.Journal.Outcome

namespace ClaimMapping.Journal.Traced

variable {ε ε' α β : Type}

/-- The notes of a chain are those of each step that is reached, in their order. -/
theorem bind_notes (x : Traced ε α) (f : α → Traced ε β) :
    (x >>= f).notes = x.notes ++
      match x.outcome with
      | .error _ => []
      | .ok a => (f a).notes := by
  cases h : x.outcome with
  | error e => rw [bind_of_error h, List.append_nil]
  | ok a => rw [bind_of_ok h]

theorem notes_bind_of_ok {x : Traced ε α} {a : α} (h : x.outcome = .ok a) (f : α → Traced ε β) :
    (x >>= f).notes = x.notes ++ (f a).notes := by
  rw [bind_of_ok h]

/-- A note of a chain was made by its first step, or by what follows it when the step succeeded. -/
theorem mem_notes_bind_iff {x : Traced ε α} {f : α → Traced ε β} {n : Note} :
    n ∈ (x >>= f).notes ↔ n ∈ x.notes ∨ ∃ a, x.outcome = .ok a ∧ n ∈ (f a).notes := by
  rw [bind_notes]
  cases h : x.outcome with
  | error e => simp
  | ok a => simp

@[simp] theorem lift_notes (x : Except ε α) : (lift x).notes = [] := rfl

@[simp] theorem note_notes (n : Note) : (note n : Traced ε Unit).notes = [n] := rfl

@[simp] theorem refuse_notes (e : ε) : (refuse e : Traced ε α).notes = [] := rfl

@[simp] theorem map_notes (f : α → β) (x : Traced ε α) : (x.map f).notes = x.notes := rfl

@[simp] theorem mapError_notes (f : ε → ε') (x : Traced ε α) : (x.mapError f).notes = x.notes := rfl

end ClaimMapping.Journal.Traced
