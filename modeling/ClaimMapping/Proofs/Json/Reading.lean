import ClaimMapping.Json.Reader
import ClaimMapping.Proofs.Json.Token
import ClaimMapping.Proofs.Json.Tree

namespace ClaimMapping.Json

theorem wellFormed_integer (negative : Bool) (n : Nat) :
    WellFormed (.number (integer negative n)) := by
  unfold integer
  split_ifs with hneg hreal
  · exact .real _
  · refine .negative (Int64.lt_iff_toInt_lt.mpr ?_)
    rw [Int64.toInt_ofInt_of_le (by omega) (by omega)]
    exact (show -(n : Int) < 0 by omega)
  · exact .natural _

theorem wellFormed_of_ofDigits? {negative : Bool} {whole : List Char}
    {fraction : Option (List Char)} {exponent : Option Int} {n : Number}
    (h : ofDigits? negative whole fraction exponent = some n) : WellFormed (.number n) := by
  unfold ofDigits? at h
  split at h
  dsimp only at h
  split at h
  case h_1 =>
    split_ifs at h
    · cases h
      exact wellFormed_integer negative _
    · obtain ⟨x, -, rfl⟩ := Option.map_eq_some_iff.mp h
      exact .real x
  case h_2 =>
    split at h
    case h_1 =>
      obtain ⟨x, -, rfl⟩ := Option.map_eq_some_iff.mp h
      exact .real x
    case h_2 =>
      obtain ⟨x, -, rfl⟩ := Option.map_eq_some_iff.mp h
      exact .real x

/-- A number that is read is an integer of 64 bits or a finite number in binary64. -/
theorem wellFormed_of_takeNumber? {text rest : List Char} {n : Number}
    (h : takeNumber? text = some (n, rest)) : WellFormed (.number n) := by
  unfold takeNumber? at h
  simp only [Option.bind_eq_bind, Option.bind_eq_some_iff, Prod.exists] at h
  obtain ⟨whole, r1, -, fraction, r2, -, exponent, r3, -, n', hn, he⟩ := h
  cases he
  exact wellFormed_of_ofDigits? hn

/-- Numbers among tokens are such as a value may hold. -/
def HoldsNumbers (ts : List Token) : Prop := ∀ n, Token.number n ∈ ts → WellFormed (.number n)

theorem holdsNumbers_of_tokensUpTo {fuel : Nat} {text : List Char} {ts : List Token}
    (h : tokensUpTo fuel text = some ts) : HoldsNumbers ts := by
  induction fuel generalizing text ts with
  | zero =>
    cases text with
    | nil =>
      cases h
      exact fun n hn => absurd hn List.not_mem_nil
    | cons c text => cases h
  | succ fuel ih =>
    cases text with
    | nil =>
      cases h
      exact fun n hn => absurd hn List.not_mem_nil
    | cons c text =>
      simp only [tokensUpTo] at h
      split_ifs at h
      · exact ih h
      · obtain ⟨⟨token, rest⟩, ht, h⟩ := Option.bind_eq_some_iff.mp h
        obtain ⟨ts', hts, h⟩ := Option.bind_eq_some_iff.mp h
        cases h
        intro n hn
        obtain rfl | hn := List.mem_cons.mp hn
        · exact wellFormed_of_takeNumber? (takeNumber?_of_token ht)
        · exact ih hts n hn

theorem HoldsNumbers.tail {t : Token} {ts : List Token} (h : HoldsNumbers (t :: ts)) :
    HoldsNumbers ts := fun n hn => h n (List.mem_cons_of_mem t hn)

mutual

/-- A value that is read is well-formed, nests no deeper than it may, and leaves tokens with
well-formed numbers; so are its items and members, by induction on the shared fuel. -/
theorem value?_sound (fuel : Nat) {d : Nat} {toks rest : List Token} {j : Json}
    (ht : HoldsNumbers toks) (h : value? fuel d toks = some (j, rest)) :
    WellFormed j ∧ depth j ≤ d ∧ HoldsNumbers rest := by
  unfold value? at h
  split at h
  case h_1 => cases h
  case h_2 s _ =>
    cases h
    exact ⟨.string s, Nat.zero_le d, ht.tail⟩
  case h_3 n _ =>
    cases h
    exact ⟨ht n List.mem_cons_self, Nat.zero_le d, ht.tail⟩
  case h_4 b _ =>
    cases h
    exact ⟨.bool b, Nat.zero_le d, ht.tail⟩
  case h_5 =>
    cases h
    exact ⟨.null, Nat.zero_le d, ht.tail⟩
  case h_6 d _ =>
    cases h
    exact ⟨.array fun j hj => absurd hj List.not_mem_nil, Nat.le_add_left 1 d, ht.tail.tail⟩
  case h_7 fuel d _ _ =>
    obtain ⟨⟨items, rest'⟩, hitems, he⟩ := Option.map_eq_some_iff.mp h
    cases he
    obtain ⟨hw, hd, hr⟩ := items?_sound fuel ht.tail hitems
    exact ⟨.array hw, Nat.succ_le_succ hd, hr⟩
  case h_8 d _ =>
    cases h
    exact ⟨.object KeyMap.ordered_nil fun e he => absurd he List.not_mem_nil, Nat.le_add_left 1 d,
      ht.tail.tail⟩
  case h_9 fuel d _ _ =>
    obtain ⟨⟨members, rest'⟩, hmembers, he⟩ := Option.map_eq_some_iff.mp h
    cases he
    obtain ⟨hw, hd, hr⟩ := members?_sound fuel ht.tail hmembers
    refine ⟨.object (KeyMap.ordered_ofList members) fun e he => hw e (KeyMap.mem_of_mem_ofList he),
      Nat.succ_le_succ (membersDepth_le_iff.mpr fun e he => ?_), hr⟩
    exact membersDepth_le_iff.mp hd e (KeyMap.mem_of_mem_ofList he)
  case h_10 => cases h

theorem items?_sound (fuel : Nat) {d : Nat} {toks rest : List Token} {items : List Json}
    (ht : HoldsNumbers toks) (h : items? fuel d toks = some (items, rest)) :
    (∀ j ∈ items, WellFormed j) ∧ itemsDepth items ≤ d ∧ HoldsNumbers rest := by
  match fuel with
  | 0 => cases h
  | fuel + 1 =>
    obtain ⟨⟨item, rest'⟩, hitem, h⟩ := Option.bind_eq_some_iff.mp h
    obtain ⟨hw, hd, hr⟩ := value?_sound fuel ht hitem
    dsimp only at h
    split at h
    case h_1 =>
      cases h
      refine ⟨List.forall_mem_singleton.mpr hw, ?_, hr.tail⟩
      rw [itemsDepth]
      exact max_le hd (Nat.zero_le d)
    case h_2 =>
      obtain ⟨⟨items', rest''⟩, hitems, h⟩ := Option.bind_eq_some_iff.mp h
      cases h
      obtain ⟨hws, hds, hrs⟩ := items?_sound fuel hr.tail hitems
      refine ⟨List.forall_mem_cons.mpr ⟨hw, hws⟩, ?_, hrs⟩
      rw [itemsDepth]
      exact max_le hd hds
    case h_3 => cases h

theorem members?_sound (fuel : Nat) {d : Nat} {toks rest : List Token}
    {members : List (String × Json)} (ht : HoldsNumbers toks)
    (h : members? fuel d toks = some (members, rest)) :
    (∀ e ∈ members, WellFormed e.2) ∧ membersDepth members ≤ d ∧ HoldsNumbers rest := by
  unfold members? at h
  split at h
  case h_1 => cases h
  case h_2 fuel key _ =>
    obtain ⟨⟨value, rest'⟩, hvalue, h⟩ := Option.bind_eq_some_iff.mp h
    obtain ⟨hw, hd, hr⟩ := value?_sound fuel ht.tail.tail hvalue
    dsimp only at h
    split at h
    case h_1 =>
      cases h
      refine ⟨List.forall_mem_singleton.mpr hw, ?_, hr.tail⟩
      rw [membersDepth]
      exact max_le hd (Nat.zero_le d)
    case h_2 =>
      obtain ⟨⟨members', rest''⟩, hmembers, h⟩ := Option.bind_eq_some_iff.mp h
      cases h
      obtain ⟨hws, hds, hrs⟩ := members?_sound fuel hr.tail hmembers
      refine ⟨List.forall_mem_cons.mpr ⟨hw, hws⟩, ?_, hrs⟩
      rw [membersDepth]
      exact max_le hd hds
    case h_3 => cases h
  case h_3 => cases h

end

/-- A value that was read is well-formed, and nests no deeper than reading goes. -/
theorem read?_sound {text : String} {j : Json} (h : read? text = some j) :
    WellFormed j ∧ depth j ≤ maxDepth := by
  obtain ⟨toks, htoks, h⟩ := Option.bind_eq_some_iff.mp h
  split at h
  case h_1 j' hvalue =>
    cases h
    obtain ⟨hw, hd, -⟩ := value?_sound _ (holdsNumbers_of_tokensUpTo htoks) hvalue
    exact ⟨hw, hd⟩
  case h_2 => cases h

end ClaimMapping.Json
