import ClaimMapping.Proofs.Base64Url
import ClaimMapping.Proofs.Journal.Outcome
import ClaimMapping.Proofs.Json.Opening
import ClaimMapping.Proofs.Text.Search
import ClaimMapping.Proofs.Text.Trim
import ClaimMapping.Proofs.Text.Utf8RoundTrip
import ClaimMapping.Provider.Oidc

namespace ClaimMapping.Provider.Oidc

open Journal (bind_eq_ok_iff)

variable {members : KeyMap Json}

/-- The segment that encodes a text. -/
def encoded (text : String) : List Char := Base64Url.encode (Text.Utf8.encode text.toList)

/-- A token of a header, of claims and of a signature that is taken as it is. -/
def compact (header claims signature : String) : String :=
  String.ofList (encoded header ++ '.' :: (encoded claims ++ '.' :: signature.toList))

/-- The text of an object that names an algorithm. -/
def IsHeader (text : String) : Prop :=
  ∃ fields algorithm, Json.read? text = some (.object fields) ∧
    KeyMap.get? fields "alg" = some (.string algorithm)

theorem segment_encoded {text : String} {j : Json} (h : Json.read? text = some j) :
    segment (encoded text) = .ok j := by
  rw [segment, encoded, Base64Url.decode?_encode]
  dsimp only
  rw [Text.Utf8.decode?_encode, Option.bind_some, String.ofList_toList, h]

theorem not_mem_encode {c : Char} (hc : Base64Url.value? c = none) (bytes : List UInt8) :
    c ∉ Base64Url.encode bytes := by
  intro h
  obtain ⟨n, hn, rfl⟩ := Base64Url.exists_digit_of_mem_encode h
  rw [Base64Url.value?_digit hn] at hc
  cases hc

theorem isBlank_digit {n : Nat} (h : n < 64) : Text.isBlank (Base64Url.digit n) = false := by
  have hall : ∀ m < 64, Text.isBlank (Base64Url.digit m) = false := by decide
  exact hall n h

theorem encoded_ne_nil {text : String} {j : Json} (h : Json.read? text = some j) :
    encoded text ≠ [] := by
  intro hnil
  have hsegment := segment_encoded h
  rw [hnil] at hsegment
  cases hsegment

theorem decode?_eq_none_of_mem {c : Char} (hc : Base64Url.value? c = none) {text : List Char}
    (h : c ∈ text) : Base64Url.decode? text = none := by
  by_contra hne
  obtain ⟨bytes, hbytes⟩ := Option.ne_none_iff_exists'.mp hne
  rw [Base64Url.eq_encode_of_decode? hbytes] at h
  exact not_mem_encode hc bytes h

theorem segment_eq_ok_iff {digits : List Char} {j : Json} :
    segment digits = .ok j ↔ ∃ text, digits = encoded text ∧ Json.read? text = some j := by
  constructor
  · intro h
    unfold segment at h
    split at h
    case h_1 => cases h
    case h_2 bytes hbytes =>
      split at h
      case h_1 j' hread =>
        cases h
        obtain ⟨text, htext, hread⟩ := Option.bind_eq_some_iff.mp hread
        rw [Text.Utf8.decode?_eq_some_iff] at htext
        refine ⟨String.ofList text, ?_, hread⟩
        rw [encoded, String.toList_ofList, ← htext]
        exact Base64Url.decode?_eq_some_iff.mp hbytes
      case h_2 => cases h
  · intro h
    obtain ⟨text, rfl, hread⟩ := h
    exact segment_encoded hread

theorem hasAlgorithm_iff {j : Json} : hasAlgorithm j = true ↔ ∃ fields algorithm,
    j = .object fields ∧ KeyMap.get? fields "alg" = some (.string algorithm) := by
  constructor
  · intro h
    rw [hasAlgorithm, Option.isSome_iff_exists] at h
    obtain ⟨algorithm, h⟩ := h
    obtain ⟨value, hvalue, htext⟩ := Option.bind_eq_some_iff.mp h
    obtain ⟨fields, hfields, hget⟩ := Option.bind_eq_some_iff.mp hvalue
    have hj : j = .object fields := by
      cases j <;> simp_all [Json.object?]
    have hv : value = .string algorithm := by
      cases value <;> simp_all [Json.string?]
    exact ⟨fields, algorithm, hj, hv ▸ hget⟩
  · intro h
    obtain ⟨fields, algorithm, rfl, hget⟩ := h
    simp [hasAlgorithm, Json.member?, Json.object?, hget, Json.string?]

/-- Claims are read from a header and an object of claims, each in a segment of its own. -/
theorem tokenClaims_eq_ok_iff {header claims : List Char} :
    tokenClaims header claims = .ok members ↔
      ∃ headerText claimsText, header = encoded headerText ∧ claims = encoded claimsText ∧
        IsHeader headerText ∧ Json.read? claimsText = some (.object members) := by
  constructor
  · intro h
    obtain ⟨j, hheader, h⟩ := bind_eq_ok_iff.mp h
    split_ifs at h with halgorithm
    obtain ⟨j', hclaims, h⟩ := bind_eq_ok_iff.mp h
    obtain ⟨headerText, hencoded, hread⟩ := segment_eq_ok_iff.mp hheader
    obtain ⟨claimsText, hencoded', hread'⟩ := segment_eq_ok_iff.mp hclaims
    obtain ⟨fields, algorithm, rfl, hget⟩ := hasAlgorithm_iff.mp halgorithm
    split at h
    case h_1 =>
      cases h
      exact ⟨headerText, claimsText, hencoded, hencoded', ⟨fields, algorithm, hread, hget⟩, hread'⟩
    case h_2 => cases h
  · intro h
    obtain ⟨headerText, claimsText, rfl, rfl, ⟨fields, algorithm, hread, hget⟩, hclaims⟩ := h
    refine bind_eq_ok_iff.mpr ⟨.object fields, segment_encoded hread, ?_⟩
    rw [if_pos (hasAlgorithm_iff.mpr ⟨fields, algorithm, rfl, hget⟩), segment_encoded hclaims]
    rfl

theorem toList_compact (header claims signature : String) :
    (compact header claims signature).toList =
      encoded header ++ '.' :: (encoded claims ++ '.' :: signature.toList) := String.toList_ofList

theorem point_not_mem_encoded (text : String) : '.' ∉ encoded text := not_mem_encode (by decide) _

/-- A token has exactly three segments, since no encoded text holds a point. -/
theorem splitChar_compact (header claims : String) {signature : String}
    (h : '.' ∉ signature.toList) :
    Text.splitChar '.' (compact header claims signature).toList =
      [encoded header, encoded claims, signature.toList] := by
  rw [toList_compact, Text.splitChar_append_cons (point_not_mem_encoded header),
    Text.splitChar_append_cons (point_not_mem_encoded claims), Text.splitChar_of_not_mem h]

theorem trim_token {before after core : List Char} {first : Char}
    (hfirst : Text.isBlank first = false) (hbefore : ∀ c ∈ before, Text.isBlank c = true)
    (hafter : ∀ c ∈ after, Text.isBlank c = true) (signature : List Char) :
    Text.trimBy Text.isBlank (before ++ (first :: core ++ '.' :: signature) ++ after) =
      first :: core ++ '.' :: Text.trimEnd Text.isBlank signature := by
  have hstart : Text.trimStart Text.isBlank before = [] := Text.trimStart_eq_nil_iff.mpr hbefore
  have hpoint : Text.isBlank '.' = false := by decide
  have hpieces : before ++ (first :: core ++ '.' :: signature) ++ after =
      before ++ first :: (core ++ '.' :: (signature ++ after)) := by simp
  calc Text.trimBy Text.isBlank (before ++ (first :: core ++ '.' :: signature) ++ after)
    _ = Text.trimEnd Text.isBlank (first :: core ++ '.' :: (signature ++ after)) := by
      rw [Text.trimBy, hpieces, Text.trimStart_append_cons hfirst, hstart]
      rfl
    _ = first :: core ++ '.' :: Text.trimEnd Text.isBlank signature := by
      rw [Text.trimEnd_append_cons hpoint, Text.trimEnd_append_of_all hafter]

/-- White space around a token is dropped, and the token itself has none at its ends. -/
theorem trim_compact {header claims signature before after : String} {j : Json}
    (hheader : Json.read? header = some j) (hbefore : ∀ c ∈ before.toList, Text.isBlank c = true)
    (hafter : ∀ c ∈ after.toList, Text.isBlank c = true) :
    Text.trim (before ++ compact header claims signature ++ after) =
      compact header claims (String.ofList (Text.trimEnd Text.isBlank signature.toList)) := by
  obtain ⟨first, core, hencoded⟩ := List.exists_cons_of_ne_nil (encoded_ne_nil hheader)
  have hfirst : Text.isBlank first = false := by
    have hmem : first ∈ encoded header := by simp [hencoded]
    obtain ⟨n, hn, rfl⟩ := Base64Url.exists_digit_of_mem_encode hmem
    exact isBlank_digit hn
  have hpieces : (before ++ compact header claims signature ++ after).toList =
      before.toList ++ (first :: (core ++ '.' :: encoded claims) ++ '.' :: signature.toList) ++
        after.toList := by
    simp [compact, hencoded]
  rw [Text.trim, hpieces, trim_token hfirst hbefore hafter]
  simp [compact, hencoded]

/-- A token with an algorithm in its header is read as its claims, whatever else is in its header
and its signature. -/
theorem readToken_compact {header claims signature before after : String}
    {fields members : KeyMap Json} {algorithm : String}
    (hheader : Json.read? header = some (.object fields))
    (halgorithm : KeyMap.get? fields "alg" = some (.string algorithm))
    (hclaims : Json.read? claims = some (.object members)) (hsignature : '.' ∉ signature.toList)
    (hbefore : ∀ c ∈ before.toList, Text.isBlank c = true)
    (hafter : ∀ c ∈ after.toList, Text.isBlank c = true) :
    readToken (before ++ compact header claims signature ++ after) = .ok members := by
  have hlast : '.' ∉ (String.ofList (Text.trimEnd Text.isBlank signature.toList)).toList := by
    rw [String.toList_ofList]
    exact fun h => hsignature ((Text.trimEnd_prefix signature.toList).subset h)
  rw [readToken, trim_compact hheader hbefore hafter, splitChar_compact header claims hlast]
  exact tokenClaims_eq_ok_iff.mpr
    ⟨header, claims, rfl, rfl, ⟨fields, algorithm, hheader, halgorithm⟩, hclaims⟩

theorem isBlank_of_isSpace {c : Char} (h : Json.isSpace c = true) : Text.isBlank c = true := by
  simp only [Json.isSpace, Bool.or_eq_true, beq_iff_eq] at h
  obtain ((rfl | rfl) | rfl) | rfl := h <;> decide

/-- Without the white space around it the text of an object begins with its brace. -/
theorem trim_of_object {payload : String} {members : KeyMap Json}
    (h : Json.read? payload = some (.object members)) :
    ∃ rest, (Text.trim payload).toList = '\x7b' :: rest := by
  obtain ⟨space, rest, hpayload, hspace⟩ := Json.eq_space_append_brace_of_read? h
  have hbrace : Text.isBlank '\x7b' = false := by decide
  have hstart : Text.trimStart Text.isBlank space = [] :=
    Text.trimStart_eq_nil_iff.mpr fun c hc => isBlank_of_isSpace (hspace c hc)
  have hend := Text.trimEnd_append_cons hbrace [] rest
  refine ⟨Text.trimEnd Text.isBlank rest, ?_⟩
  rw [Text.trim, String.toList_ofList, hpayload, Text.trimBy, Text.trimStart_append_cons hbrace,
    hstart, hend]
  rfl

/-- The text of an object is no token, however many points are in it. -/
theorem readToken_of_object {payload : String} {members : KeyMap Json}
    (h : Json.read? payload = some (.object members)) : ∃ d, readToken payload = .error d := by
  obtain ⟨rest, htrim⟩ := trim_of_object h
  obtain ⟨part, parts, hsplit⟩ : ∃ part parts, Text.splitChar '.' (Text.trim payload).toList =
      ('\x7b' :: part) :: parts := by
    rw [htrim, Text.splitChar, if_neg (by decide)]
    cases Text.splitChar '.' rest <;> exact ⟨_, _, rfl⟩
  rw [readToken, hsplit]
  split
  case h_1 header claims signature hparts =>
    obtain ⟨rfl, -⟩ := List.cons.inj hparts
    have hdecode : Base64Url.decode? ('\x7b' :: part) = none :=
      decode?_eq_none_of_mem (by decide) List.mem_cons_self
    refine ⟨.badEncoding, ?_⟩
    rw [tokenClaims, segment, hdecode]
    rfl
  case h_2 => exact ⟨_, rfl⟩

/-- A token that encodes a set of claims is read as the claims themselves. -/
theorem parse_of_token {payload : String} {members : KeyMap Json}
    (h : readToken payload = .ok members) :
    (parse payload).outcome = .ok (assertion (.object members)) := by
  rw [parse, Journal.Traced.bind_outcome, claims, h]
  rfl

theorem parse_of_object {payload : String} {members : KeyMap Json}
    (h : Json.read? payload = some (.object members)) :
    (parse payload).outcome = .ok (assertion (.object members)) := by
  obtain ⟨d, hd⟩ := readToken_of_object h
  rw [parse, Journal.Traced.bind_outcome, claims, hd]
  dsimp only
  rw [Journal.Traced.bind_outcome, Journal.Traced.lift_outcome, readObject, h]
  rfl

end ClaimMapping.Provider.Oidc
