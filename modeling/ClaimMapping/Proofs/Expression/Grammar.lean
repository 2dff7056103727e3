import ClaimMapping.Expression.Reader
import ClaimMapping.Proofs.Journal.Outcome

namespace ClaimMapping.Expression

open Journal (bind_eq_ok_iff)

/-- What tokens stand for: an expression, or the rest of a list with its closing symbol. -/
inductive Phrase where
  | expr (e : Expr)
  | items (close : Symbol) (es : List Expr)
  | entries (entries : List (Expr × Expr))
  | fields (fields : List (String × Expr))

/-- The tokens of the first list, up to those of the second, stand for a phrase. -/
inductive Writes : Phrase → List Token → List Token → Prop where
  | literal (l : Literal) (rest : List Token) :
    Writes (.expr (.literal l)) (.literal (some l) :: rest) rest
  | name (x : String) (rest : List Token) : Writes (.expr (.name x)) (.identifier x :: rest) rest
  | call {f : String} {args : List Expr} {ts rest : List Token}
    (h : Writes (.items .closeParen args) ts rest) :
    Writes (.expr (.call f args)) (.identifier f :: .symbol .openParen :: ts) rest
  /-- A point in front of a name changes nothing. -/
  | point {x : String} {e : Expr} {ts rest : List Token}
    (h : Writes (.expr e) (.identifier x :: ts) rest) :
    Writes (.expr e) (.symbol .dot :: .identifier x :: ts) rest
  | parens {e : Expr} {ts rest : List Token}
    (h : Writes (.expr e) ts (.symbol .closeParen :: rest)) :
    Writes (.expr e) (.symbol .openParen :: ts) rest
  | list {es : List Expr} {ts rest : List Token} (h : Writes (.items .closeBracket es) ts rest) :
    Writes (.expr (.list es)) (.symbol .openBracket :: ts) rest
  | map {es : List (Expr × Expr)} {ts rest : List Token} (h : Writes (.entries es) ts rest) :
    Writes (.expr (.map es)) (.symbol .openBrace :: ts) rest
  | unary {s : Symbol} {op : Unary} {e : Expr} {ts rest : List Token}
    (hop : Reader.unary? s = some op) (h : Writes (.expr e) ts rest) :
    Writes (.expr (.unary op e)) (.symbol s :: ts) rest
  | arithmetic {s : Symbol} {op : Arithmetic} {a b : Expr} {ts us rest : List Token}
    (hop : Reader.sum? s = some op ∨ Reader.product? s = some op)
    (ha : Writes (.expr a) ts (.symbol s :: us)) (hb : Writes (.expr b) us rest) :
    Writes (.expr (.arithmetic op a b)) ts rest
  | relation {s : Symbol} {op : Relation} {a b : Expr} {ts us rest : List Token}
    (hop : Reader.relation? s = some op) (ha : Writes (.expr a) ts (.symbol s :: us))
    (hb : Writes (.expr b) us rest) : Writes (.expr (.relation op a b)) ts rest
  | and {a b : Expr} {ts us rest : List Token} (ha : Writes (.expr a) ts (.symbol .andAnd :: us))
    (hb : Writes (.expr b) us rest) : Writes (.expr (.and a b)) ts rest
  | or {a b : Expr} {ts us rest : List Token} (ha : Writes (.expr a) ts (.symbol .orOr :: us))
    (hb : Writes (.expr b) us rest) : Writes (.expr (.or a b)) ts rest
  | conditional {test yes no : Expr} {ts us vs rest : List Token}
    (htest : Writes (.expr test) ts (.symbol .question :: us))
    (hyes : Writes (.expr yes) us (.symbol .colon :: vs)) (hno : Writes (.expr no) vs rest) :
    Writes (.expr (.conditional test yes no)) ts rest
  | member {e : Expr} {x : String} {ts rest : List Token}
    (h : Writes (.expr e) ts (.symbol .dot :: .identifier x :: rest)) :
    Writes (.expr (.member e x)) ts rest
  | callOn {f : String} {e : Expr} {args : List Expr} {ts us rest : List Token}
    (he : Writes (.expr e) ts (.symbol .dot :: .identifier f :: .symbol .openParen :: us))
    (h : Writes (.items .closeParen args) us rest) : Writes (.expr (.callOn f e args)) ts rest
  | index {e i : Expr} {ts us rest : List Token}
    (he : Writes (.expr e) ts (.symbol .openBracket :: us))
    (hi : Writes (.expr i) us (.symbol .closeBracket :: rest)) :
    Writes (.expr (.index e i)) ts rest
  | construct {e : Expr} {fs : List (String × Expr)} {ts us rest : List Token}
    (he : Writes (.expr e) ts (.symbol .openBrace :: us)) (h : Writes (.fields fs) us rest) :
    Writes (.expr (.construct e fs)) ts rest
  | noItem (close : Symbol) (rest : List Token) :
    Writes (.items close []) (.symbol close :: rest) rest
  | lastItem {close : Symbol} {e : Expr} {ts rest : List Token}
    (h : Writes (.expr e) ts (.symbol close :: rest)) : Writes (.items close [e]) ts rest
  | item {close : Symbol} {e : Expr} {es : List Expr} {ts us rest : List Token}
    (he : Writes (.expr e) ts (.symbol .comma :: us)) (h : Writes (.items close es) us rest) :
    Writes (.items close (e :: es)) ts rest
  | noEntry (rest : List Token) : Writes (.entries []) (.symbol .closeBrace :: rest) rest
  | lastEntry {k v : Expr} {ts us rest : List Token}
    (hk : Writes (.expr k) ts (.symbol .colon :: us))
    (hv : Writes (.expr v) us (.symbol .closeBrace :: rest)) : Writes (.entries [(k, v)]) ts rest
  | entry {k v : Expr} {es : List (Expr × Expr)} {ts us vs rest : List Token}
    (hk : Writes (.expr k) ts (.symbol .colon :: us))
    (hv : Writes (.expr v) us (.symbol .comma :: vs)) (h : Writes (.entries es) vs rest) :
    Writes (.entries ((k, v) :: es)) ts rest
  | noField (rest : List Token) : Writes (.fields []) (.symbol .closeBrace :: rest) rest
  | lastField {x : String} {v : Expr} {ts rest : List Token}
    (hv : Writes (.expr v) ts (.symbol .closeBrace :: rest)) :
    Writes (.fields [(x, v)]) (.identifier x :: .symbol .colon :: ts) rest
  | field {x : String} {v : Expr} {fs : List (String × Expr)} {ts us rest : List Token}
    (hv : Writes (.expr v) ts (.symbol .comma :: us)) (h : Writes (.fields fs) us rest) :
    Writes (.fields ((x, v) :: fs)) (.identifier x :: .symbol .colon :: ts) rest

theorem suffix_of_writes {p : Phrase} {ts rest : List Token} (h : Writes p ts rest) :
    rest <:+ ts := by
  have htail {t : Token} {ts us : List Token} (h : t :: us <:+ ts) : us <:+ ts :=
    (List.suffix_cons t us).trans h
  have hcons {t : Token} {ts us : List Token} (h : us <:+ ts) : us <:+ t :: ts :=
    h.trans (List.suffix_cons t ts)
  induction h with
  | literal => exact List.suffix_cons _ _
  | name => exact List.suffix_cons _ _
  | call _ ih => exact hcons (hcons ih)
  | point _ ih => exact hcons ih
  | parens _ ih => exact hcons (htail ih)
  | list _ ih => exact hcons ih
  | map _ ih => exact hcons ih
  | unary _ _ ih => exact hcons ih
  | arithmetic _ _ _ iha ihb => exact ihb.trans (htail iha)
  | relation _ _ _ iha ihb => exact ihb.trans (htail iha)
  | and _ _ iha ihb => exact ihb.trans (htail iha)
  | or _ _ iha ihb => exact ihb.trans (htail iha)
  | conditional _ _ _ ihtest ihyes ihno => exact ihno.trans ((htail ihyes).trans (htail ihtest))
  | member _ ih => exact htail (htail ih)
  | callOn _ _ ihe ih => exact ih.trans (htail (htail (htail ihe)))
  | index _ _ ihe ihi => exact (htail ihi).trans (htail ihe)
  | construct _ _ ihe ih => exact ih.trans (htail ihe)
  | noItem => exact List.suffix_cons _ _
  | lastItem _ ih => exact htail ih
  | item _ _ ihe ih => exact ih.trans (htail ihe)
  | noEntry => exact List.suffix_cons _ _
  | lastEntry _ _ ihk ihv => exact (htail ihv).trans (htail ihk)
  | entry _ _ _ ihk ihv ih => exact ih.trans ((htail ihv).trans (htail ihk))
  | noField => exact List.suffix_cons _ _
  | lastField _ ih => exact hcons (hcons (htail ih))
  | field _ _ ihv ih => exact hcons (hcons (ih.trans (htail ihv)))

theorem tail_of_writes {p : Phrase} {t : Token} {ts us : List Token} (h : Writes p ts (t :: us)) :
    us <:+ ts :=
  (List.suffix_cons t us).trans (suffix_of_writes h)

namespace Reader

def tokens (ts : List Lexeme) : List Token := ts.map Lexeme.token

theorem tokens_cons (t : Lexeme) (ts : List Lexeme) : tokens (t :: ts) = t.token :: tokens ts := rfl

variable {ending : SyntaxError} {ts rest : List Lexeme}

theorem unexpected_ne_ok {α : Type} {a : α} : unexpected ending ts ≠ .ok a := by
  cases ts <;> exact nofun

theorem valueless_ne_ok {α : Type} {a : α} : valueless ending ts ≠ .ok a := by
  unfold valueless
  split
  case h_1 => split <;> exact nofun
  case h_2 =>
    split_ifs
    · exact nofun
    · exact unexpected_ne_ok

theorem tokens_of_takeOperator? {α : Type} {wanted : Symbol → Option α} {op : α}
    (h : takeOperator? wanted ts = some (op, rest)) :
    ∃ s, wanted s = some op ∧ tokens ts = .symbol s :: tokens rest := by
  cases ts with
  | nil => cases h
  | cons t ts =>
    unfold takeOperator? at h
    dsimp only at h
    split at h
    case h_1 s hs =>
      obtain ⟨op', hop, he⟩ := Option.map_eq_some_iff.mp h
      cases he
      exact ⟨s, hop, by rw [tokens_cons, hs]⟩
    case h_2 => cases h

theorem tokens_of_takeSymbol? {s : Symbol} (h : takeSymbol? s ts = some rest) :
    tokens ts = .symbol s :: tokens rest := by
  obtain ⟨⟨u, rest'⟩, htake, rfl⟩ := Option.map_eq_some_iff.mp h
  obtain ⟨x, hx, ht⟩ := tokens_of_takeOperator? htake
  split_ifs at hx with hs
  rwa [← hs]

theorem tokens_of_expect {s : Symbol} (h : expect ending s ts = .ok rest) :
    tokens ts = .symbol s :: tokens rest := by
  cases ts with
  | nil => cases h
  | cons t ts =>
    unfold expect at h
    dsimp only at h
    split_ifs at h with hs
    · cases h
      rw [tokens_cons, hs]
    · exact absurd h unexpected_ne_ok

theorem tokens_of_takeIdentifier {x : String} (h : takeIdentifier ending ts = .ok (x, rest)) :
    tokens ts = .identifier x :: tokens rest := by
  cases ts with
  | nil => cases h
  | cons t ts =>
    unfold takeIdentifier at h
    dsimp only at h
    split at h
    case h_1 name hs =>
      cases h
      rw [tokens_cons, hs]
    case h_2 => exact absurd h unexpected_ne_ok

mutual

/-- What the reader takes for an expression is one, and likewise for every level of operators below:
each of the functions that call each other keeps to the grammar, by induction on the fuel they
share. -/
theorem writes_expr (fuel : Nat) {ts rest : List Lexeme} {e : Expr}
    (h : expr ending fuel ts = .ok (e, rest)) :
    Writes (.expr e) (tokens ts) (tokens rest) := by
  match fuel with
  | 0 => exact absurd h unexpected_ne_ok
  | fuel + 1 =>
    rw [expr] at h
    obtain ⟨⟨test, us⟩, htest, h⟩ := bind_eq_ok_iff.mp h
    replace htest := writes_disjunction fuel htest
    dsimp only at h
    split at h
    case h_1 =>
      cases h
      exact htest
    case h_2 us' hquestion =>
      obtain ⟨⟨yes, vs⟩, hyes, h⟩ := bind_eq_ok_iff.mp h
      obtain ⟨ws, hcolon, h⟩ := bind_eq_ok_iff.mp h
      obtain ⟨⟨no, xs⟩, hno, h⟩ := bind_eq_ok_iff.mp h
      cases h
      replace hyes := writes_disjunction fuel hyes
      rw [tokens_of_takeSymbol? hquestion] at htest
      rw [tokens_of_expect hcolon] at hyes
      exact .conditional htest hyes (writes_expr fuel hno)

theorem writes_disjunction (fuel : Nat) {ts rest : List Lexeme} {e : Expr}
    (h : disjunction ending fuel ts = .ok (e, rest)) :
    Writes (.expr e) (tokens ts) (tokens rest) := by
  match fuel with
  | 0 => exact absurd h unexpected_ne_ok
  | fuel + 1 =>
    rw [disjunction] at h
    obtain ⟨⟨left, us⟩, hleft, h⟩ := bind_eq_ok_iff.mp h
    exact writes_moreOr fuel (writes_conjunction fuel hleft) h

theorem writes_moreOr (fuel : Nat) {all : List Token} {left : Expr} {ts rest : List Lexeme}
    {e : Expr} (hleft : Writes (.expr left) all (tokens ts))
    (h : moreOr ending fuel left ts = .ok (e, rest)) : Writes (.expr e) all (tokens rest) := by
  match fuel with
  | 0 => exact absurd h unexpected_ne_ok
  | fuel + 1 =>
    rw [moreOr] at h
    split at h
    case h_1 =>
      cases h
      exact hleft
    case h_2 hsymbol =>
      obtain ⟨⟨right, us⟩, hright, h⟩ := bind_eq_ok_iff.mp h
      rw [tokens_of_takeSymbol? hsymbol] at hleft
      exact writes_moreOr fuel (.or hleft (writes_conjunction fuel hright)) h

theorem writes_conjunction (fuel : Nat) {ts rest : List Lexeme} {e : Expr}
    (h : conjunction ending fuel ts = .ok (e, rest)) :
    Writes (.expr e) (tokens ts) (tokens rest) := by
  match fuel with
  | 0 => exact absurd h unexpected_ne_ok
  | fuel + 1 =>
    rw [conjunction] at h
    obtain ⟨⟨left, us⟩, hleft, h⟩ := bind_eq_ok_iff.mp h
    exact writes_moreAnd fuel (writes_comparison fuel hleft) h

theorem writes_moreAnd (fuel : Nat) {all : List Token} {left : Expr} {ts rest : List Lexeme}
    {e : Expr} (hleft : Writes (.expr left) all (tokens ts))
    (h : moreAnd ending fuel left ts = .ok (e, rest)) : Writes (.expr e) all (tokens rest) := by
  match fuel with
  | 0 => exact absurd h unexpected_ne_ok
  | fuel + 1 =>
    rw [moreAnd] at h
    split at h
    case h_1 =>
      cases h
      exact hleft
    case h_2 hsymbol =>
      obtain ⟨⟨right, us⟩, hright, h⟩ := bind_eq_ok_iff.mp h
      rw [tokens_of_takeSymbol? hsymbol] at hleft
      exact writes_moreAnd fuel (.and hleft (writes_comparison fuel hright)) h

theorem writes_comparison (fuel : Nat) {ts rest : List Lexeme} {e : Expr}
    (h : comparison ending fuel ts = .ok (e, rest)) :
    Writes (.expr e) (tokens ts) (tokens rest) := by
  match fuel with
  | 0 => exact absurd h unexpected_ne_ok
  | fuel + 1 =>
    rw [comparison] at h
    obtain ⟨⟨left, us⟩, hleft, h⟩ := bind_eq_ok_iff.mp h
    replace hleft := writes_sum fuel hleft
    dsimp only at h
    split at h
    case h_1 =>
      cases h
      exact hleft
    case h_2 hsymbol =>
      obtain ⟨⟨right, vs⟩, hright, h⟩ := bind_eq_ok_iff.mp h
      cases h
      obtain ⟨s, hop, hs⟩ := tokens_of_takeOperator? hsymbol
      rw [hs] at hleft
      exact .relation hop hleft (writes_sum fuel hright)

theorem writes_sum (fuel : Nat) {ts rest : List Lexeme} {e : Expr}
    (h : sum ending fuel ts = .ok (e, rest)) :
    Writes (.expr e) (tokens ts) (tokens rest) := by
  match fuel with
  | 0 => exact absurd h unexpected_ne_ok
  | fuel + 1 =>
    rw [sum] at h
    obtain ⟨⟨left, us⟩, hleft, h⟩ := bind_eq_ok_iff.mp h
    exact writes_moreSum fuel (writes_product fuel hleft) h

theorem writes_moreSum (fuel : Nat) {all : List Token} {left : Expr} {ts rest : List Lexeme}
    {e : Expr} (hleft : Writes (.expr left) all (tokens ts))
    (h : moreSum ending fuel left ts = .ok (e, rest)) : Writes (.expr e) all (tokens rest) := by
  match fuel with
  | 0 => exact absurd h unexpected_ne_ok
  | fuel + 1 =>
    rw [moreSum] at h
    split at h
    case h_1 =>
      cases h
      exact hleft
    case h_2 hsymbol =>
      obtain ⟨⟨right, us⟩, hright, h⟩ := bind_eq_ok_iff.mp h
      obtain ⟨s, hop, hs⟩ := tokens_of_takeOperator? hsymbol
      rw [hs] at hleft
      exact writes_moreSum fuel (.arithmetic (.inl hop) hleft (writes_product fuel hright)) h

theorem writes_product (fuel : Nat) {ts rest : List Lexeme} {e : Expr}
    (h : product ending fuel ts = .ok (e, rest)) :
    Writes (.expr e) (tokens ts) (tokens rest) := by
  match fuel with
  | 0 => exact absurd h unexpected_ne_ok
  | fuel + 1 =>
    rw [product] at h
    obtain ⟨⟨left, us⟩, hleft, h⟩ := bind_eq_ok_iff.mp h
    exact writes_moreProduct fuel (writes_signed fuel hleft) h

theorem writes_moreProduct (fuel : Nat) {all : List Token} {left : Expr} {ts rest : List Lexeme}
    {e : Expr} (hleft : Writes (.expr left) all (tokens ts))
    (h : moreProduct ending fuel left ts = .ok (e, rest)) : Writes (.expr e) all (tokens rest) := by
  match fuel with
  | 0 => exact absurd h unexpected_ne_ok
  | fuel + 1 =>
    rw [moreProduct] at h
    split at h
    case h_1 =>
      cases h
      exact hleft
    case h_2 hsymbol =>
      obtain ⟨⟨right, us⟩, hright, h⟩ := bind_eq_ok_iff.mp h
      obtain ⟨s, hop, hs⟩ := tokens_of_takeOperator? hsymbol
      rw [hs] at hleft
      exact writes_moreProduct fuel (.arithmetic (.inr hop) hleft (writes_signed fuel hright)) h

theorem writes_signed (fuel : Nat) {ts rest : List Lexeme} {e : Expr}
    (h : signed ending fuel ts = .ok (e, rest)) :
    Writes (.expr e) (tokens ts) (tokens rest) := by
  match fuel with
  | 0 => exact absurd h unexpected_ne_ok
  | fuel + 1 =>
    rw [signed] at h
    split at h
    case h_1 => exact writes_chain fuel h
    case h_2 hsymbol =>
      obtain ⟨⟨e', us⟩, he, h⟩ := bind_eq_ok_iff.mp h
      cases h
      obtain ⟨s, hop, hs⟩ := tokens_of_takeOperator? hsymbol
      rw [hs]
      exact .unary hop (writes_chain fuel he)

theorem writes_chain (fuel : Nat) {ts rest : List Lexeme} {e : Expr}
    (h : chain ending fuel ts = .ok (e, rest)) :
    Writes (.expr e) (tokens ts) (tokens rest) := by
  match fuel with
  | 0 => exact absurd h unexpected_ne_ok
  | fuel + 1 =>
    rw [chain] at h
    obtain ⟨⟨left, us⟩, hleft, h⟩ := bind_eq_ok_iff.mp h
    exact writes_moreChain fuel (writes_primary fuel hleft) h

theorem writes_moreChain (fuel : Nat) {all : List Token} {left : Expr} {ts rest : List Lexeme}
    {e : Expr} (hleft : Writes (.expr left) all (tokens ts))
    (h : moreChain ending fuel left ts = .ok (e, rest)) : Writes (.expr e) all (tokens rest) := by
  match fuel with
  | 0 => exact absurd h unexpected_ne_ok
  | fuel + 1 =>
    rw [moreChain] at h
    split at h
    case h_1 hdot =>
      obtain ⟨⟨x, us⟩, hx, h⟩ := bind_eq_ok_iff.mp h
      rw [tokens_of_takeSymbol? hdot, tokens_of_takeIdentifier hx] at hleft
      dsimp only at h
      split at h
      case h_1 => exact writes_moreChain fuel (.member hleft) h
      case h_2 hparen =>
        obtain ⟨⟨args, vs⟩, hargs, h⟩ := bind_eq_ok_iff.mp h
        rw [tokens_of_takeSymbol? hparen] at hleft
        exact writes_moreChain fuel (.callOn hleft (writes_items fuel hargs)) h
    case h_2 hbracket =>
      obtain ⟨⟨i, us⟩, hi, h⟩ := bind_eq_ok_iff.mp h
      obtain ⟨vs, hclose, h⟩ := bind_eq_ok_iff.mp h
      replace hi := writes_expr fuel hi
      rw [tokens_of_takeSymbol? hbracket] at hleft
      rw [tokens_of_expect hclose] at hi
      exact writes_moreChain fuel (.index hleft hi) h
    case h_3 hbrace =>
      obtain ⟨⟨fs, us⟩, hfs, h⟩ := bind_eq_ok_iff.mp h
      rw [tokens_of_takeSymbol? hbrace] at hleft
      exact writes_moreChain fuel (.construct hleft (writes_fields fuel hfs)) h
    case h_4 =>
      cases h
      exact hleft

theorem writes_primary (fuel : Nat) {ts rest : List Lexeme} {e : Expr}
    (h : primary ending fuel ts = .ok (e, rest)) :
    Writes (.expr e) (tokens ts) (tokens rest) := by
  match fuel, ts with
  | 0, _ => exact absurd h unexpected_ne_ok
  | fuel + 1, [] => cases h
  | fuel + 1, t :: us =>
    rw [primary] at h
    rw [tokens_cons]
    split at h
    case h_1 l ht =>
      cases h
      rw [ht]
      exact .literal l _
    case h_2 => exact absurd h valueless_ne_ok
    case h_3 x ht =>
      rw [ht]
      exact writes_named fuel h
    case h_4 ht =>
      obtain ⟨⟨x, vs⟩, hx, h⟩ := bind_eq_ok_iff.mp h
      rw [ht, tokens_of_takeIdentifier hx]
      exact .point (writes_named fuel h)
    case h_5 ht =>
      obtain ⟨⟨e', vs⟩, he, h⟩ := bind_eq_ok_iff.mp h
      obtain ⟨ws, hclose, h⟩ := bind_eq_ok_iff.mp h
      cases h
      replace he := writes_expr fuel he
      rw [tokens_of_expect hclose] at he
      rw [ht]
      exact .parens he
    case h_6 ht =>
      obtain ⟨⟨es, vs⟩, hes, h⟩ := bind_eq_ok_iff.mp h
      cases h
      rw [ht]
      exact .list (writes_items fuel hes)
    case h_7 ht =>
      obtain ⟨⟨es, vs⟩, hes, h⟩ := bind_eq_ok_iff.mp h
      cases h
      rw [ht]
      exact .map (writes_entries fuel hes)
    case h_8 => exact absurd h unexpected_ne_ok

theorem writes_named (fuel : Nat) {x : String} {ts rest : List Lexeme} {e : Expr}
    (h : named ending fuel x ts = .ok (e, rest)) :
    Writes (.expr e) (.identifier x :: tokens ts) (tokens rest) := by
  match fuel with
  | 0 => exact absurd h unexpected_ne_ok
  | fuel + 1 =>
    rw [named] at h
    split at h
    case h_1 =>
      cases h
      exact .name x _
    case h_2 hparen =>
      obtain ⟨⟨args, us⟩, hargs, h⟩ := bind_eq_ok_iff.mp h
      cases h
      rw [tokens_of_takeSymbol? hparen]
      exact .call (writes_items fuel hargs)

theorem writes_items (fuel : Nat) {close : Symbol} {ts rest : List Lexeme} {es : List Expr}
    (h : items ending close fuel ts = .ok (es, rest)) :
    Writes (.items close es) (tokens ts) (tokens rest) := by
  match fuel with
  | 0 => exact absurd h unexpected_ne_ok
  | fuel + 1 =>
    rw [items] at h
    split at h
    case h_1 hclose =>
      cases h
      rw [tokens_of_takeSymbol? hclose]
      exact .noItem close _
    case h_2 =>
      obtain ⟨⟨e, us⟩, he, h⟩ := bind_eq_ok_iff.mp h
      replace he := writes_expr fuel he
      dsimp only at h
      split at h
      case h_1 =>
        obtain ⟨vs, hclose, h⟩ := bind_eq_ok_iff.mp h
        cases h
        rw [tokens_of_expect hclose] at he
        exact .lastItem he
      case h_2 hcomma =>
        obtain ⟨⟨more, vs⟩, hmore, h⟩ := bind_eq_ok_iff.mp h
        cases h
        rw [tokens_of_takeSymbol? hcomma] at he
        exact .item he (writes_items fuel hmore)

theorem writes_entries (fuel : Nat) {ts rest : List Lexeme} {es : List (Expr × Expr)}
    (h : entries ending fuel ts = .ok (es, rest)) :
    Writes (.entries es) (tokens ts) (tokens rest) := by
  match fuel with
  | 0 => exact absurd h unexpected_ne_ok
  | fuel + 1 =>
    rw [entries] at h
    split at h
    case h_1 hclose =>
      cases h
      rw [tokens_of_takeSymbol? hclose]
      exact .noEntry _
    case h_2 =>
      obtain ⟨⟨k, us⟩, hk, h⟩ := bind_eq_ok_iff.mp h
      obtain ⟨vs, hcolon, h⟩ := bind_eq_ok_iff.mp h
      obtain ⟨⟨v, ws⟩, hv, h⟩ := bind_eq_ok_iff.mp h
      replace hk := writes_expr fuel hk
      replace hv := writes_expr fuel hv
      rw [tokens_of_expect hcolon] at hk
      dsimp only at h
      split at h
      case h_1 =>
        obtain ⟨xs, hclose, h⟩ := bind_eq_ok_iff.mp h
        cases h
        rw [tokens_of_expect hclose] at hv
        exact .lastEntry hk hv
      case h_2 hcomma =>
        obtain ⟨⟨more, xs⟩, hmore, h⟩ := bind_eq_ok_iff.mp h
        cases h
        rw [tokens_of_takeSymbol? hcomma] at hv
        exact .entry hk hv (writes_entries fuel hmore)

theorem writes_fields (fuel : Nat) {ts rest : List Lexeme} {fs : List (String × Expr)}
    (h : fields ending fuel ts = .ok (fs, rest)) :
    Writes (.fields fs) (tokens ts) (tokens rest) := by
  match fuel with
  | 0 => exact absurd h unexpected_ne_ok
  | fuel + 1 =>
    rw [fields] at h
    split at h
    case h_1 hclose =>
      cases h
      rw [tokens_of_takeSymbol? hclose]
      exact .noField _
    case h_2 =>
      obtain ⟨⟨x, us⟩, hx, h⟩ := bind_eq_ok_iff.mp h
      obtain ⟨vs, hcolon, h⟩ := bind_eq_ok_iff.mp h
      obtain ⟨⟨v, ws⟩, hv, h⟩ := bind_eq_ok_iff.mp h
      replace hv := writes_expr fuel hv
      rw [tokens_of_takeIdentifier hx, tokens_of_expect hcolon]
      dsimp only at h
      split at h
      case h_1 =>
        obtain ⟨xs, hclose, h⟩ := bind_eq_ok_iff.mp h
        cases h
        rw [tokens_of_expect hclose] at hv
        exact .lastField hv
      case h_2 hcomma =>
        obtain ⟨⟨more, xs⟩, hmore, h⟩ := bind_eq_ok_iff.mp h
        cases h
        rw [tokens_of_takeSymbol? hcomma] at hv
        exact .field hv (writes_fields fuel hmore)

end

end Reader

/-- Whatever is read from a text, all of its tokens stand for it. -/
theorem writes_of_read {source : String} {e : Expr} (h : read source = .ok e) :
    Writes (.expr e) (Reader.tokens (lexemes source.toList).found) [] := by
  obtain ⟨⟨e', rest⟩, he, h⟩ := bind_eq_ok_iff.mp h
  dsimp only at h
  split at h
  case h_1 =>
    cases h
    exact Reader.writes_expr _ he
  case h_2 => exact absurd h Reader.unexpected_ne_ok

end ClaimMapping.Expression
