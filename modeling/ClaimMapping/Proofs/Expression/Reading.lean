import ClaimMapping.Proofs.Expression.Grammar
import ClaimMapping.Proofs.Expression.Valueless

namespace ClaimMapping.Expression

open Journal (Avoids avoids_ok bind_eq_error_iff)

namespace Reader

/-- No token is a literal without a value. -/
def Clean (ts : List Lexeme) : Prop := .literal none ∉ tokens ts

variable {ending : SyntaxError} {ts rest : List Lexeme}

theorem Clean.of_suffix (h : Clean ts) (hs : tokens rest <:+ tokens ts) : Clean rest :=
  fun hmem => h (hs.subset hmem)

theorem Clean.of_writes {p : Phrase} (h : Clean ts) (hw : Writes p (tokens ts) (tokens rest)) :
    Clean rest := h.of_suffix (suffix_of_writes hw)

theorem Clean.of_cons {t : Token} (h : Clean ts) (ht : tokens ts = t :: tokens rest) :
    Clean rest := h.of_suffix (ht ▸ List.suffix_cons t _)

theorem avoids_unexpected {α : Type} : Avoids .crash (unexpected ending ts : Outcome α) := by
  cases ts <;> exact nofun

theorem avoids_expect {s : Symbol} : Avoids .crash (expect ending s ts) := by
  cases ts with
  | nil => exact nofun
  | cons t ts =>
    unfold expect
    dsimp only
    split_ifs
    · exact avoids_ok _
    · exact avoids_unexpected

theorem avoids_takeIdentifier : Avoids .crash (takeIdentifier ending ts) := by
  cases ts with
  | nil => exact nofun
  | cons t ts =>
    unfold takeIdentifier
    dsimp only
    split
    · exact avoids_ok _
    · exact avoids_unexpected

mutual

/-- Without a literal that has no value, the reader gives an expression or a mistake, by induction
on the fuel that the functions of the reader share. -/
theorem avoids_expr (fuel : Nat) {ts : List Lexeme} (h : Clean ts) :
    Avoids .crash (expr ending fuel ts) := by
  match fuel with
  | 0 => exact avoids_unexpected
  | fuel + 1 =>
    rw [expr]
    refine (avoids_disjunction fuel h).bind fun ⟨test, us⟩ htest => ?_
    replace h := h.of_writes (writes_disjunction fuel htest)
    dsimp only
    split
    case h_1 => exact avoids_ok _
    case h_2 hquestion =>
      replace h := h.of_cons (tokens_of_takeSymbol? hquestion)
      refine (avoids_disjunction fuel h).bind fun ⟨yes, vs⟩ hyes => ?_
      replace h := h.of_writes (writes_disjunction fuel hyes)
      refine avoids_expect.bind fun ws hcolon => ?_
      replace h := h.of_cons (tokens_of_expect hcolon)
      exact (avoids_expr fuel h).bind fun _ _ => avoids_ok _

theorem avoids_disjunction (fuel : Nat) {ts : List Lexeme} (h : Clean ts) :
    Avoids .crash (disjunction ending fuel ts) := by
  match fuel with
  | 0 => exact avoids_unexpected
  | fuel + 1 =>
    rw [disjunction]
    refine (avoids_conjunction fuel h).bind fun ⟨left, us⟩ hleft => ?_
    exact avoids_moreOr fuel (h.of_writes (writes_conjunction fuel hleft))

theorem avoids_moreOr (fuel : Nat) {left : Expr} {ts : List Lexeme} (h : Clean ts) :
    Avoids .crash (moreOr ending fuel left ts) := by
  match fuel with
  | 0 => exact avoids_unexpected
  | fuel + 1 =>
    rw [moreOr]
    split
    case h_1 => exact avoids_ok _
    case h_2 hsymbol =>
      replace h := h.of_cons (tokens_of_takeSymbol? hsymbol)
      refine (avoids_conjunction fuel h).bind fun ⟨right, us⟩ hright => ?_
      exact avoids_moreOr fuel (h.of_writes (writes_conjunction fuel hright))

theorem avoids_conjunction (fuel : Nat) {ts : List Lexeme} (h : Clean ts) :
    Avoids .crash (conjunction ending fuel ts) := by
  match fuel with
  | 0 => exact avoids_unexpected
  | fuel + 1 =>
    rw [conjunction]
    refine (avoids_comparison fuel h).bind fun ⟨left, us⟩ hleft => ?_
    exact avoids_moreAnd fuel (h.of_writes (writes_comparison fuel hleft))

theorem avoids_moreAnd (fuel : Nat) {left : Expr} {ts : List Lexeme} (h : Clean ts) :
    Avoids .crash (moreAnd ending fuel left ts) := by
  match fuel with
  | 0 => exact avoids_unexpected
  | fuel + 1 =>
    rw [moreAnd]
    split
    case h_1 => exact avoids_ok _
    case h_2 hsymbol =>
      replace h := h.of_cons (tokens_of_takeSymbol? hsymbol)
      refine (avoids_comparison fuel h).bind fun ⟨right, us⟩ hright => ?_
      exact avoids_moreAnd fuel (h.of_writes (writes_comparison fuel hright))

theorem avoids_comparison (fuel : Nat) {ts : List Lexeme} (h : Clean ts) :
    Avoids .crash (comparison ending fuel ts) := by
  match fuel with
  | 0 => exact avoids_unexpected
  | fuel + 1 =>
    rw [comparison]
    refine (avoids_sum fuel h).bind fun ⟨left, us⟩ hleft => ?_
    replace h := h.of_writes (writes_sum fuel hleft)
    dsimp only
    split
    case h_1 => exact avoids_ok _
    case h_2 hsymbol =>
      obtain ⟨s, -, hs⟩ := tokens_of_takeOperator? hsymbol
      exact (avoids_sum fuel (h.of_cons hs)).bind fun _ _ => avoids_ok _

theorem avoids_sum (fuel : Nat) {ts : List Lexeme} (h : Clean ts) :
    Avoids .crash (sum ending fuel ts) := by
  match fuel with
  | 0 => exact avoids_unexpected
  | fuel + 1 =>
    rw [sum]
    refine (avoids_product fuel h).bind fun ⟨left, us⟩ hleft => ?_
    exact avoids_moreSum fuel (h.of_writes (writes_product fuel hleft))

theorem avoids_moreSum (fuel : Nat) {left : Expr} {ts : List Lexeme} (h : Clean ts) :
    Avoids .crash (moreSum ending fuel left ts) := by
  match fuel with
  | 0 => exact avoids_unexpected
  | fuel + 1 =>
    rw [moreSum]
    split
    case h_1 => exact avoids_ok _
    case h_2 hsymbol =>
      obtain ⟨s, -, hs⟩ := tokens_of_takeOperator? hsymbol
      replace h := h.of_cons hs
      refine (avoids_product fuel h).bind fun ⟨right, us⟩ hright => ?_
      exact avoids_moreSum fuel (h.of_writes (writes_product fuel hright))

theorem avoids_product (fuel : Nat) {ts : List Lexeme} (h : Clean ts) :
    Avoids .crash (product ending fuel ts) := by
  match fuel with
  | 0 => exact avoids_unexpected
  | fuel + 1 =>
    rw [product]
    refine (avoids_signed fuel h).bind fun ⟨left, us⟩ hleft => ?_
    exact avoids_moreProduct fuel (h.of_writes (writes_signed fuel hleft))

theorem avoids_moreProduct (fuel : Nat) {left : Expr} {ts : List Lexeme} (h : Clean ts) :
    Avoids .crash (moreProduct ending fuel left ts) := by
  match fuel with
  | 0 => exact avoids_unexpected
  | fuel + 1 =>
    rw [moreProduct]
    split
    case h_1 => exact avoids_ok _
    case h_2 hsymbol =>
      obtain ⟨s, -, hs⟩ := tokens_of_takeOperator? hsymbol
      replace h := h.of_cons hs
      refine (avoids_signed fuel h).bind fun ⟨right, us⟩ hright => ?_
      exact avoids_moreProduct fuel (h.of_writes (writes_signed fuel hright))

theorem avoids_signed (fuel : Nat) {ts : List Lexeme} (h : Clean ts) :
    Avoids .crash (signed ending fuel ts) := by
  match fuel with
  | 0 => exact avoids_unexpected
  | fuel + 1 =>
    rw [signed]
    split
    case h_1 => exact avoids_chain fuel h
    case h_2 hsymbol =>
      obtain ⟨s, -, hs⟩ := tokens_of_takeOperator? hsymbol
      exact (avoids_chain fuel (h.of_cons hs)).bind fun _ _ => avoids_ok _

theorem avoids_chain (fuel : Nat) {ts : List Lexeme} (h : Clean ts) :
    Avoids .crash (chain ending fuel ts) := by
  match fuel with
  | 0 => exact avoids_unexpected
  | fuel + 1 =>
    rw [chain]
    refine (avoids_primary fuel h).bind fun ⟨first, us⟩ hfirst => ?_
    exact avoids_moreChain fuel (h.of_writes (writes_primary fuel hfirst))

theorem avoids_moreChain (fuel : Nat) {left : Expr} {ts : List Lexeme} (h : Clean ts) :
    Avoids .crash (moreChain ending fuel left ts) := by
  match fuel with
  | 0 => exact avoids_unexpected
  | fuel + 1 =>
    rw [moreChain]
    split
    case h_1 hdot =>
      replace h := h.of_cons (tokens_of_takeSymbol? hdot)
      refine avoids_takeIdentifier.bind fun ⟨x, us⟩ hx => ?_
      replace h := h.of_cons (tokens_of_takeIdentifier hx)
      dsimp only
      split
      case h_1 => exact avoids_moreChain fuel h
      case h_2 hparen =>
        replace h := h.of_cons (tokens_of_takeSymbol? hparen)
        refine (avoids_items fuel h).bind fun ⟨args, vs⟩ hargs => ?_
        exact avoids_moreChain fuel (h.of_writes (writes_items fuel hargs))
    case h_2 hbracket =>
      replace h := h.of_cons (tokens_of_takeSymbol? hbracket)
      refine (avoids_expr fuel h).bind fun ⟨i, us⟩ hi => ?_
      replace h := h.of_writes (writes_expr fuel hi)
      refine avoids_expect.bind fun vs hclose => ?_
      exact avoids_moreChain fuel (h.of_cons (tokens_of_expect hclose))
    case h_3 hbrace =>
      replace h := h.of_cons (tokens_of_takeSymbol? hbrace)
      refine (avoids_fields fuel h).bind fun ⟨fs, us⟩ hfs => ?_
      exact avoids_moreChain fuel (h.of_writes (writes_fields fuel hfs))
    case h_4 => exact avoids_ok _

/-- Here a literal without a value would be found. -/
theorem avoids_primary (fuel : Nat) {ts : List Lexeme} (h : Clean ts) :
    Avoids .crash (primary ending fuel ts) := by
  match fuel, ts with
  | 0, _ => exact avoids_unexpected
  | fuel + 1, [] => exact nofun
  | fuel + 1, t :: us =>
    have hus : Clean us := h.of_cons (tokens_cons t us)
    rw [primary]
    split
    case h_1 => exact avoids_ok _
    case h_2 ht =>
      refine absurd ?_ h
      rw [tokens_cons, ht]
      exact List.mem_cons_self
    case h_3 => exact avoids_named fuel hus
    case h_4 =>
      refine avoids_takeIdentifier.bind fun ⟨x, vs⟩ hx => ?_
      exact avoids_named fuel (hus.of_cons (tokens_of_takeIdentifier hx))
    case h_5 =>
      refine (avoids_expr fuel hus).bind fun _ _ => ?_
      exact avoids_expect.bind fun _ _ => avoids_ok _
    case h_6 => exact (avoids_items fuel hus).bind fun _ _ => avoids_ok _
    case h_7 => exact (avoids_entries fuel hus).bind fun _ _ => avoids_ok _
    case h_8 => exact avoids_unexpected

theorem avoids_named (fuel : Nat) {x : String} {ts : List Lexeme} (h : Clean ts) :
    Avoids .crash (named ending fuel x ts) := by
  match fuel with
  | 0 => exact avoids_unexpected
  | fuel + 1 =>
    rw [named]
    split
    case h_1 => exact avoids_ok _
    case h_2 hparen =>
      replace h := h.of_cons (tokens_of_takeSymbol? hparen)
      exact (avoids_items fuel h).bind fun _ _ => avoids_ok _

theorem avoids_items (fuel : Nat) {close : Symbol} {ts : List Lexeme} (h : Clean ts) :
    Avoids .crash (items ending close fuel ts) := by
  match fuel with
  | 0 => exact avoids_unexpected
  | fuel + 1 =>
    rw [items]
    split
    case h_1 => exact avoids_ok _
    case h_2 =>
      refine (avoids_expr fuel h).bind fun ⟨e, us⟩ he => ?_
      replace h := h.of_writes (writes_expr fuel he)
      dsimp only
      split
      case h_1 => exact avoids_expect.bind fun _ _ => avoids_ok _
      case h_2 hcomma =>
        replace h := h.of_cons (tokens_of_takeSymbol? hcomma)
        exact (avoids_items fuel h).bind fun _ _ => avoids_ok _

theorem avoids_entries (fuel : Nat) {ts : List Lexeme} (h : Clean ts) :
    Avoids .crash (entries ending fuel ts) := by
  match fuel with
  | 0 => exact avoids_unexpected
  | fuel + 1 =>
    rw [entries]
    split
    case h_1 => exact avoids_ok _
    case h_2 =>
      refine (avoids_expr fuel h).bind fun ⟨k, us⟩ hk => ?_
      replace h := h.of_writes (writes_expr fuel hk)
      refine avoids_expect.bind fun vs hcolon => ?_
      replace h := h.of_cons (tokens_of_expect hcolon)
      refine (avoids_expr fuel h).bind fun ⟨v, ws⟩ hv => ?_
      replace h := h.of_writes (writes_expr fuel hv)
      dsimp only
      split
      case h_1 => exact avoids_expect.bind fun _ _ => avoids_ok _
      case h_2 hcomma =>
        replace h := h.of_cons (tokens_of_takeSymbol? hcomma)
        exact (avoids_entries fuel h).bind fun _ _ => avoids_ok _

theorem avoids_fields (fuel : Nat) {ts : List Lexeme} (h : Clean ts) :
    Avoids .crash (fields ending fuel ts) := by
  match fuel with
  | 0 => exact avoids_unexpected
  | fuel + 1 =>
    rw [fields]
    split
    case h_1 => exact avoids_ok _
    case h_2 =>
      refine avoids_takeIdentifier.bind fun ⟨x, us⟩ hx => ?_
      replace h := h.of_cons (tokens_of_takeIdentifier hx)
      refine avoids_expect.bind fun vs hcolon => ?_
      replace h := h.of_cons (tokens_of_expect hcolon)
      refine (avoids_expr fuel h).bind fun ⟨v, ws⟩ hv => ?_
      replace h := h.of_writes (writes_expr fuel hv)
      dsimp only
      split
      case h_1 => exact avoids_expect.bind fun _ _ => avoids_ok _
      case h_2 hcomma =>
        replace h := h.of_cons (tokens_of_takeSymbol? hcomma)
        exact (avoids_fields fuel h).bind fun _ _ => avoids_ok _

end

end Reader

/-- Reading ends without a report only at a number out of range or a bad escape. -/
theorem exists_valueless_of_read {source : String} (h : read source = .error .crash) :
    ∃ t ∈ (lexemes source.toList).found, Valueless t.text := by
  have hclean : ¬ Reader.Clean (lexemes source.toList).found := by
    intro hclean
    obtain h | ⟨⟨e, rest⟩, -, h⟩ := bind_eq_error_iff.mp h
    · exact Reader.avoids_expr _ hclean h
    · dsimp only at h
      split at h
      case h_1 => cases h
      case h_2 => exact Reader.avoids_unexpected h
  obtain ⟨t, hmem, ht⟩ := List.mem_map.mp (not_not.mp hclean)
  exact ⟨t, hmem, valueless_of_mem_lexemes hmem ht⟩

end ClaimMapping.Expression
