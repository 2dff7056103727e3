import ClaimMapping.Proofs.Text.Utf8

namespace ClaimMapping.Mapping

open Text.Utf8 (bytes bytes_strictMono)

/-- The checks of a run: of the request, of one key, or of the attributes as a whole. -/
inductive Check where
  | payload
  | missing
  | empty
  | key (key : String)
  | provider
  | mappingLength (key : String)
  | conditionLength
  | name (key : String)
  | time
  | compile (key : String)
  | evaluate (key : String)
  | type (key : String)
  | subject
  | subjectLength
  | size
  | count
  | environment (key : String)
  | families
  | conditionCompile
  | verdict
  deriving DecidableEq, Repr

namespace Check

/-- The sources are compiled and evaluated and their values typed in one stage. -/
def stage : Check → ℕ
  | payload => 0
  | missing => 1
  | empty => 2
  | key _ => 3
  | provider => 4
  | mappingLength _ => 5
  | conditionLength => 6
  | name _ => 7
  | time => 8
  | compile _ | evaluate _ | type _ => 9
  | subject => 10
  | subjectLength => 11
  | size => 12
  | count => 13
  | environment _ => 14
  | families => 15
  | conditionCompile => 16
  | verdict => 17

def text : Check → String
  | key k | mappingLength k | name k | compile k | evaluate k | type k | environment k => k
  | _ => ""

def step : Check → ℕ
  | evaluate _ => 1
  | type _ => 2
  | _ => 0

/-- Checks are ordered by stage, within a stage by the bytes of the key, and on one key by the
step. -/
def rank (c : Check) : ℕ ×ₗ List ℕ ×ₗ ℕ := toLex (c.stage, toLex (bytes c.text, c.step))

theorem rank_lt_rank_iff {c c' : Check} :
    c.rank < c'.rank ↔ c.stage < c'.stage ∨
      c.stage = c'.stage ∧ (c.text < c'.text ∨ c.text = c'.text ∧ c.step < c'.step) := by
  simp only [rank, Prod.Lex.toLex_lt_toLex, bytes_strictMono.lt_iff_lt,
    bytes_strictMono.injective.eq_iff]

/-- No two checks have the same place in the order. -/
theorem rank_injective : Function.Injective rank := by
  intro c c' h
  simp only [rank, toLex_inj, Prod.mk.injEq, bytes_strictMono.injective.eq_iff] at h
  obtain ⟨hs, ht, hp⟩ := h
  cases c <;> cases c' <;> simp_all [stage, text, step]

instance : LinearOrder Check := LinearOrder.lift' rank rank_injective

/-- Whether there is one such check for each key. -/
def perKey : Check → Bool
  | key _ | mappingLength _ | name _ | compile _ | evaluate _ | type _ | environment _ => true
  | _ => false

theorem eq_of_stage_eq {c c' : Check} (hc : c.perKey = false) (h : c'.stage = c.stage) :
    c' = c := by
  cases c <;> cases c' <;> simp_all [stage, perKey]

/-- Strings have the order of their bytes. -/
theorem lt_iff {c c' : Check} :
    c < c' ↔ c.stage < c'.stage ∨
      c.stage = c'.stage ∧ (c.text < c'.text ∨ c.text = c'.text ∧ c.step < c'.step) :=
  rank_lt_rank_iff

end Check
end ClaimMapping.Mapping
