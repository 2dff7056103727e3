import ClaimMapping.Proofs.Provider.Token

namespace ClaimMapping.Provider.Oidc

open Journal (map_eq_ok_iff map_eq_error_iff)

variable {payload : String} {members : KeyMap Json}

/-- Without the white space around it, the payload has two points, and in front of each of them a
text in its one encoding: a header, and then the claims. -/
structure IsToken (payload : String) (members : KeyMap Json) : Prop where
  points : (Text.trim payload).toList.count '.' = 2
  segments : ∃ header claims signature, Text.trim payload = compact header claims signature ∧
    IsHeader header ∧ Json.read? claims = some (.object members)

theorem count_point_compact (header claims signature : String) :
    (compact header claims signature).toList.count '.' = signature.toList.count '.' + 2 := by
  have hencoded (text : String) : (encoded text).count '.' = 0 :=
    List.count_eq_zero.mpr (point_not_mem_encoded text)
  rw [toList_compact, List.count_append, List.count_cons_self, List.count_append,
    List.count_cons_self, hencoded, hencoded]
  omega

theorem IsToken.exists_compact (h : IsToken payload members) :
    ∃ header claims signature, Text.trim payload = compact header claims signature ∧
      '.' ∉ signature.toList ∧ IsHeader header ∧ Json.read? claims = some (.object members) := by
  obtain ⟨hpoints, header, claims, signature, hcompact, hheader, hclaims⟩ := h
  rw [hcompact, count_point_compact] at hpoints
  have hsignature : '.' ∉ signature.toList := List.count_eq_zero.mp (by omega)
  exact ⟨header, claims, signature, hcompact, hsignature, hheader, hclaims⟩

/-- The texts that are read as tokens are those of the grammar of tokens. -/
theorem readToken_eq_ok_iff : readToken payload = .ok members ↔ IsToken payload members := by
  constructor
  · intro h
    unfold readToken at h
    split at h
    case h_1 first second third hsplit =>
      obtain ⟨htrim, hpoint⟩ := Text.splitChar_eq_three hsplit
      obtain ⟨header, claims, rfl, rfl, hheader, hclaims⟩ := tokenClaims_eq_ok_iff.mp h
      have hcompact : Text.trim payload = compact header claims (String.ofList third) := by
        rw [← String.toList_inj, htrim, toList_compact, String.toList_ofList]
      refine ⟨?_, header, claims, String.ofList third, hcompact, hheader, hclaims⟩
      rw [hcompact, count_point_compact, String.toList_ofList, List.count_eq_zero.mpr hpoint]
    case h_2 => cases h
  · intro h
    obtain ⟨header, claims, signature, hcompact, hsignature, hheader, hclaims⟩ := h.exists_compact
    rw [readToken, hcompact, splitChar_compact header claims hsignature]
    exact tokenClaims_eq_ok_iff.mpr ⟨header, claims, rfl, rfl, hheader, hclaims⟩

theorem readObject_eq_ok_iff :
    readObject payload = .ok members ↔ Json.read? payload = some (.object members) := by
  unfold readObject
  split
  case h_1 hread => simp [hread]
  case h_2 hread => simp [hread]
  case h_3 hother hread =>
    rw [hread]
    refine iff_of_false (fun h => by cases h) fun h => hother members ?_
    exact Option.some.inj h

theorem readObject_eq_error_iff {e : ParseError} : readObject payload = .error e ↔
    (e = .json ∧ Json.read? payload = none) ∨
      e = .notAnObject ∧ ∃ j, Json.read? payload = some j ∧ j.isObject = false := by
  unfold readObject
  split
  case h_1 hread =>
    rw [Except.error.injEq, eq_comm]
    simp [hread]
  case h_2 hread => simp [hread, Json.isObject]
  case h_3 j hother hread =>
    have hj : j.isObject = false := by
      cases j with
      | object members => exact absurd rfl (hother members)
      | _ => rfl
    rw [Except.error.injEq, eq_comm]
    simp [hread, hj]

/-- The text of an object is no token. -/
theorem IsToken.read?_ne (h : IsToken payload members) (others : KeyMap Json) :
    Json.read? payload ≠ some (.object others) := by
  intro hobject
  obtain ⟨d, hd⟩ := readToken_of_object hobject
  rw [readToken_eq_ok_iff.mpr h] at hd
  cases hd

/-- What is no token is read as an object. -/
theorem parse_of_not_isToken (h : ∀ members, ¬ IsToken payload members) :
    (parse payload).outcome =
      (readObject payload).map fun members => assertion (.object members) := by
  have hclaims : (claims payload).outcome = readObject payload := by
    unfold claims
    split
    case h_1 members htoken => exact absurd (readToken_eq_ok_iff.mp htoken) (h members)
    case h_2 => rfl
  rw [parse, Journal.Traced.bind_outcome, hclaims]
  cases readObject payload <;> rfl

/-- The claims come from a token or from an object. -/
theorem parse_eq_ok_iff {b : Expression.Bindings} : (parse payload).outcome = .ok b ↔
    ∃ members, b = assertion (.object members) ∧
      (IsToken payload members ∨ Json.read? payload = some (.object members)) := by
  constructor
  · intro h
    by_cases htoken : ∃ members, IsToken payload members
    · obtain ⟨members, htoken⟩ := htoken
      rw [parse_of_token (readToken_eq_ok_iff.mpr htoken)] at h
      cases h
      exact ⟨members, rfl, .inl htoken⟩
    · rw [parse_of_not_isToken (not_exists.mp htoken), map_eq_ok_iff] at h
      obtain ⟨members, hobject, rfl⟩ := h
      exact ⟨members, rfl, .inr (readObject_eq_ok_iff.mp hobject)⟩
  · intro h
    obtain ⟨members, rfl, htoken | hobject⟩ := h
    · exact parse_of_token (readToken_eq_ok_iff.mpr htoken)
    · exact parse_of_object hobject

/-- A text in neither grammar is refused, and the error says whether it is a JSON value at all. -/
theorem parse_eq_error_iff {e : ParseError} : (parse payload).outcome = .error e ↔
    (∀ members, ¬ IsToken payload members ∧ Json.read? payload ≠ some (.object members)) ∧
      ((e = .json ∧ Json.read? payload = none) ∨
        e = .notAnObject ∧ ∃ j, Json.read? payload = some j ∧ j.isObject = false) := by
  constructor
  · intro h
    have hnone (members : KeyMap Json) :
        ¬ IsToken payload members ∧ Json.read? payload ≠ some (.object members) := by
      rw [← not_or]
      intro heither
      rw [parse_eq_ok_iff.mpr ⟨members, rfl, heither⟩] at h
      cases h
    rw [parse_of_not_isToken fun members => (hnone members).1, map_eq_error_iff,
      readObject_eq_error_iff] at h
    exact ⟨hnone, h⟩
  · intro h
    obtain ⟨hnone, h⟩ := h
    rw [parse_of_not_isToken fun members => (hnone members).1, map_eq_error_iff]
    exact readObject_eq_error_iff.mpr h

/-- The payloads that are read, what they are read as, and the errors of the others. A payload with
no brace in front of its first point, such as a token with a defect, is not read as an object. -/
theorem parse_spec (payload : String) :
    (∀ b, (parse payload).outcome = .ok b ↔ ∃ members, b = assertion (.object members) ∧
      (IsToken payload members ∨ Json.read? payload = some (.object members))) ∧
    (∀ members others, IsToken payload members →
      Json.read? payload ≠ some (.object others)) ∧
    (∀ e, (parse payload).outcome = .error e ↔
      (∀ members, ¬ IsToken payload members ∧ Json.read? payload ≠ some (.object members)) ∧
        ((e = .json ∧ Json.read? payload = none) ∨
          e = .notAnObject ∧ ∃ j, Json.read? payload = some j ∧ j.isObject = false)) ∧
    (∀ header rest, (Text.trim payload).toList = header ++ '.' :: rest → '\x7b' ∉ header →
      (∀ members, ¬ IsToken payload members) → ∃ e, (parse payload).outcome = .error e) := by
  refine ⟨fun b => parse_eq_ok_iff, fun members others h => h.read?_ne others,
    fun e => parse_eq_error_iff, fun header rest htrim hbrace hnone => ?_⟩
  cases h : (parse payload).outcome with
  | error e => exact ⟨e, rfl⟩
  | ok b =>
    obtain ⟨members, -, htoken | hobject⟩ := parse_eq_ok_iff.mp h
    · exact absurd htoken (hnone members)
    · obtain ⟨core, hcore⟩ := trim_of_object hobject
      rw [hcore] at htrim
      cases header with
      | nil => cases htrim
      | cons c header =>
        obtain ⟨rfl, -⟩ := List.cons.inj htrim
        exact absurd List.mem_cons_self hbrace

end ClaimMapping.Provider.Oidc
