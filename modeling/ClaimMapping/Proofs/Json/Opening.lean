import ClaimMapping.Json.Reader
import ClaimMapping.Proofs.Json.Token

namespace ClaimMapping.Json

theorem eq_brace_of_takeToken? {c : Char} {text rest : List Char}
    (h : takeToken? (c :: text) = some (.openBrace, rest)) : c = '\x7b' := by
  unfold takeToken? at h
  split at h
  case h_3 htext => exact (List.cons.inj htext).1
  case h_10 =>
    obtain ⟨⟨s, rest'⟩, -, he⟩ := Option.map_eq_some_iff.mp h
    cases he
  case h_11 =>
    obtain ⟨⟨n, rest'⟩, -, he⟩ := Option.map_eq_some_iff.mp h
    cases he
  all_goals cases h

theorem eq_space_append_brace_of_tokensUpTo {fuel : Nat} {text : List Char} {ts : List Token}
    (h : tokensUpTo fuel text = some (.openBrace :: ts)) :
    ∃ space rest, text = space ++ '\x7b' :: rest ∧ ∀ c ∈ space, isSpace c = true := by
  induction fuel generalizing text with
  | zero => cases text <;> cases h
  | succ fuel ih =>
    cases text with
    | nil => cases h
    | cons c text =>
      simp only [tokensUpTo] at h
      split_ifs at h with hc
      · obtain ⟨space, rest, rfl, hspace⟩ := ih h
        exact ⟨c :: space, rest, rfl, List.forall_mem_cons.mpr ⟨hc, hspace⟩⟩
      · obtain ⟨⟨token, rest⟩, ht, h⟩ := Option.bind_eq_some_iff.mp h
        obtain ⟨ts', -, he⟩ := Option.bind_eq_some_iff.mp h
        cases he
        obtain rfl := eq_brace_of_takeToken? ht
        exact ⟨[], text, rfl, by simp⟩

theorem eq_openBrace_of_value? {fuel depth : Nat} {ts rest : List Token}
    {members : List (String × Json)} (h : value? fuel depth ts = some (.object members, rest)) :
    ∃ ts', ts = .openBrace :: ts' := by
  unfold value? at h
  split at h
  case h_8 => exact ⟨_, rfl⟩
  case h_9 => exact ⟨_, rfl⟩
  case h_7 =>
    obtain ⟨⟨items, rest'⟩, -, he⟩ := Option.map_eq_some_iff.mp h
    cases he
  all_goals cases h

/-- The text of an object. -/
theorem eq_space_append_brace_of_read? {text : String} {members : List (String × Json)}
    (h : read? text = some (.object members)) :
    ∃ space rest, text.toList = space ++ '\x7b' :: rest ∧ ∀ c ∈ space, isSpace c = true := by
  obtain ⟨ts, hts, h⟩ := Option.bind_eq_some_iff.mp h
  split at h
  case h_1 value hvalue =>
    cases h
    obtain ⟨ts', rfl⟩ := eq_openBrace_of_value? hvalue
    exact eq_space_append_brace_of_tokensUpTo hts
  case h_2 => cases h

end ClaimMapping.Json
