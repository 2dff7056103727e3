import ClaimMapping.Proofs.Text.Occurrence
import ClaimMapping.Text.Separated
import Mathlib

namespace ClaimMapping.Text

variable {separator text part rest : List Char} {parts : List (List Char)} {limit : Nat}

theorem joinParts_eq_intercalate (separator : List Char) (parts : List (List Char)) :
    joinParts separator parts = separator.intercalate parts := by
  induction parts with
  | nil => rfl
  | cons part parts ih =>
    cases parts with
    | nil => simp [joinParts]
    | cons next parts => rw [joinParts, ih, List.intercalate_cons_cons]

/-- Joining is the join of the standard library. -/
theorem join_eq_intercalate (parts : List String) (separator : String) :
    join parts separator = separator.intercalate parts := by
  rw [join, joinParts_eq_intercalate, ← String.toList_intercalate, String.ofList_toList]

theorem ofList_intercalate (separator : String) (parts : List (List Char)) :
    String.ofList (separator.toList.intercalate parts) =
      separator.intercalate (parts.map String.ofList) := by
  rw [← String.toList_inj, String.toList_intercalate]
  simp [Function.comp_def]

/-- With nothing between them, the characters of a text make the text. -/
theorem intercalate_singletons (text : List Char) :
    List.intercalate [] (text.map fun c => [c]) = text := by
  induction text with
  | nil => rfl
  | cons c text ih =>
    cases text with
    | nil => simp
    | cons d text =>
      have hrest : List.intercalate [] ([d] :: text.map fun c => [c]) = d :: text := ih
      rw [List.map_cons, List.map_cons, List.intercalate_cons_cons, hrest]
      rfl

/-- Parts at the end may be joined before the others. -/
theorem intercalate_append_intercalate (front : List (List Char)) (h : parts ≠ []) :
    separator.intercalate (front ++ [separator.intercalate parts]) =
      separator.intercalate (front ++ parts) := by
  induction front with
  | nil => simp
  | cons part front ih =>
    have hleft : front ++ [separator.intercalate parts] ≠ [] := by simp
    have hright : front ++ parts ≠ [] := by simp [h]
    rw [List.cons_append, List.cons_append, List.intercalate_cons_of_ne_nil hleft,
      List.intercalate_cons_of_ne_nil hright, ih]

section

variable {α β : Type} {join : List α → α}

/-- At most `limit` parts; the last one joins all that are left. -/
def limited (join : List α → α) (limit : Nat) (parts : List α) : List α :=
  if parts.length ≤ limit then parts
  else parts.take (limit - 1) ++ [join (parts.drop (limit - 1))]

theorem limited_of_length_le {parts : List α} (h : parts.length ≤ limit) :
    limited join limit parts = parts := if_pos h

theorem limited_one (h : ∀ part, join [part] = part) {parts : List α} (hne : parts ≠ []) :
    limited join 1 parts = [join parts] := by
  obtain ⟨part, parts, rfl⟩ := List.exists_cons_of_ne_nil hne
  cases parts with
  | nil => rw [limited_of_length_le (by simp), h]
  | cons next parts => simp [limited]

theorem limited_succ (hlimit : 1 ≤ limit) (part : α) (parts : List α) :
    limited join (limit + 1) (part :: parts) = part :: limited join limit parts := by
  have htake : (part :: parts).take limit = part :: parts.take (limit - 1) := by
    rw [← Nat.sub_add_cancel hlimit, List.take_succ_cons, Nat.add_sub_cancel]
  have hdrop : (part :: parts).drop limit = parts.drop (limit - 1) := by
    rw [← Nat.sub_add_cancel hlimit, List.drop_succ_cons, Nat.add_sub_cancel]
  by_cases h : parts.length ≤ limit
  · rw [limited_of_length_le h, limited_of_length_le (by simpa using h)]
  · have h' : ¬ (part :: parts).length ≤ limit + 1 := by simpa using h
    rw [limited, limited, if_neg h, if_neg h', Nat.add_sub_cancel, htake, hdrop, List.cons_append]

theorem map_limited {join' : List β → β} {f : α → β} (h : ∀ xs, f (join xs) = join' (xs.map f))
    (limit : Nat) (parts : List α) :
    (limited join limit parts).map f = limited join' limit (parts.map f) := by
  unfold limited
  rw [List.length_map]
  split_ifs with hlength
  · rfl
  · rw [List.map_append, List.map_take, List.map_singleton, h, List.map_drop]

end

/-- A limit does not change what the parts make together. -/
theorem intercalate_limited (hlimit : 1 ≤ limit) :
    separator.intercalate (limited separator.intercalate limit parts) =
      separator.intercalate parts := by
  by_cases h : parts.length ≤ limit
  · rw [limited_of_length_le h]
  · have hne : parts.drop (limit - 1) ≠ [] := by
      rw [Ne, List.drop_eq_nil_iff]
      omega
    rw [limited, if_neg h, intercalate_append_intercalate _ hne, List.take_append_drop]

/-- Each part but the last ends where the separator first occurs in what is left of the text; no
separator is left in the last one. -/
inductive IsDecomposition (separator : List Char) : List Char → List (List Char) → Prop where
  | last {text : List Char} (h : ¬ separator <:+: text) : IsDecomposition separator text [text]
  | cut {part rest : List Char} {parts : List (List Char)}
      (first : IsFirst separator (part ++ (separator ++ rest)) part)
      (h : IsDecomposition separator rest parts) :
      IsDecomposition separator (part ++ (separator ++ rest)) (part :: parts)

theorem breakAt?_of_isFirst (h : IsFirst separator (part ++ (separator ++ rest)) part) :
    breakAt? separator (part ++ (separator ++ rest)) = some (part, rest) := by
  rw [breakAt?_eq_some_iff]
  refine ⟨rfl, fun x y hxy => h.first x ⟨y, ?_⟩⟩
  rw [hxy, List.append_assoc]

namespace IsDecomposition

theorem ne_nil (h : IsDecomposition separator text parts) : parts ≠ [] := by
  cases h <;> exact List.cons_ne_nil _ _

theorem intercalate_eq (h : IsDecomposition separator text parts) :
    separator.intercalate parts = text := by
  induction h with
  | last => exact List.intercalate_singleton
  | cut _ h ih => rw [List.intercalate_cons_of_ne_nil h.ne_nil, ih, List.append_assoc]

theorem length_le (hs : separator ≠ []) (h : IsDecomposition separator text parts) :
    parts.length ≤ text.length + 1 := by
  induction h with
  | last => simp
  | cut _ _ ih =>
    have hpos : 0 < separator.length := List.length_pos_of_ne_nil hs
    rw [List.length_cons, List.length_append, List.length_append]
    omega

/-- Every text has its parts between separators, each of them found as early as it can be. -/
theorem exists_of_ne_nil (hs : separator ≠ []) (text : List Char) :
    ∃ parts, IsDecomposition separator text parts := by
  induction hn : text.length using Nat.strong_induction_on generalizing text with
  | _ n ih =>
    by_cases h : separator <:+: text
    · obtain ⟨part, hfirst⟩ := exists_isFirst h
      obtain ⟨rest, rfl⟩ := hfirst.occurs
      rw [List.append_assoc] at hfirst hn ⊢
      have hpos : 0 < separator.length := List.length_pos_of_ne_nil hs
      have hless : rest.length < n := by
        rw [← hn, List.length_append, List.length_append]
        omega
      obtain ⟨parts, hparts⟩ := ih rest.length hless rest rfl
      exact ⟨part :: parts, .cut hfirst hparts⟩
    · exact ⟨[text], .last h⟩

/-- What is split off are the parts between separators, up to the limit. -/
theorem partsUpTo_eq (h : IsDecomposition separator text parts) (hlimit : 1 ≤ limit) :
    partsUpTo separator limit text = limited separator.intercalate limit parts := by
  have hsingle (part : List Char) : separator.intercalate [part] = part :=
    List.intercalate_singleton
  induction h generalizing limit with
  | last h =>
    rw [limited_of_length_le (by simpa using hlimit)]
    obtain rfl | hmore := hlimit.eq_or_lt
    · rfl
    · obtain ⟨more, rfl⟩ : ∃ n, limit = n + 2 := ⟨limit - 2, by omega⟩
      rw [partsUpTo, breakAt?_eq_none_iff.mpr h]
  | cut first h ih =>
    obtain rfl | hmore := hlimit.eq_or_lt
    · rw [limited_one hsingle (List.cons_ne_nil _ _), (IsDecomposition.cut first h).intercalate_eq]
      rfl
    · obtain ⟨more, rfl⟩ : ∃ n, limit = n + 2 := ⟨limit - 2, by omega⟩
      rw [partsUpTo, breakAt?_of_isFirst first, limited_succ (by omega), ← ih (by omega)]

/-- Parts without the character that separates them are found again. -/
theorem of_forall_not_mem {c : Char} (hne : parts ≠ []) (h : ∀ part ∈ parts, c ∉ part) :
    IsDecomposition [c] (List.intercalate [c] parts) parts := by
  induction parts with
  | nil => exact absurd rfl hne
  | cons part parts ih =>
    obtain ⟨hpart, hparts⟩ := List.forall_mem_cons.mp h
    by_cases hlast : parts = []
    · subst hlast
      rw [List.intercalate_singleton]
      refine .last fun hinfix => hpart ?_
      exact hinfix.subset (List.mem_singleton_self c)
    · rw [List.intercalate_cons_of_ne_nil hlast, List.append_assoc]
      refine .cut ⟨?_, fun x hx => ?_⟩ (ih hlast hparts)
      · rw [← List.append_assoc]
        exact List.prefix_append _ _
      · -- An earlier separator would stand inside the part.
        by_contra hless
        have hshort : (x ++ [c]).length ≤ part.length := by
          rw [List.length_append, List.length_singleton]
          omega
        have hinside : x ++ [c] <+: part :=
          List.prefix_of_prefix_length_le hx (List.prefix_append part _) hshort
        exact hpart (hinside.subset (by simp))

end IsDecomposition

theorem charsUpTo_eq (text : List Char) (hlimit : 1 ≤ limit) :
    charsUpTo limit text = limited (List.intercalate []) limit (text.map fun c => [c]) := by
  have hsingle (part : List Char) : List.intercalate [] [part] = part := List.intercalate_singleton
  induction text generalizing limit with
  | nil =>
    rw [List.map_nil, limited_of_length_le (Nat.zero_le _), charsUpTo]
  | cons c text ih =>
    obtain rfl | hmore := hlimit.eq_or_lt
    · rw [limited_one hsingle (by simp), intercalate_singletons]
      rfl
    · obtain ⟨more, rfl⟩ : ∃ n, limit = n + 2 := ⟨limit - 2, by omega⟩
      rw [charsUpTo, List.map_cons, limited_succ (by omega), ← ih (by omega)]

/-- The parts of a text without a limit: one for each character when the separator is empty. -/
def HasParts (separator text : List Char) (parts : List (List Char)) : Prop :=
  if separator = [] then parts = text.map fun c => [c] else IsDecomposition separator text parts

theorem exists_hasParts (separator text : List Char) : ∃ parts, HasParts separator text parts := by
  by_cases hs : separator = []
  · exact ⟨_, (if_pos hs).mpr rfl⟩
  · obtain ⟨parts, hparts⟩ := IsDecomposition.exists_of_ne_nil hs text
    exact ⟨parts, (if_neg hs).mpr hparts⟩

namespace HasParts

theorem intercalate_eq (h : HasParts separator text parts) :
    separator.intercalate parts = text := by
  unfold HasParts at h
  split_ifs at h with hs
  · rw [hs, h, intercalate_singletons]
  · exact h.intercalate_eq

theorem length_le (h : HasParts separator text parts) : parts.length ≤ text.length + 1 := by
  unfold HasParts at h
  split_ifs at h with hs
  · rw [h, List.length_map]
    exact Nat.le_succ _
  · exact h.length_le hs

/-- A split gives the parts of the text up to its limit. -/
theorem split_eq {source separator : String} (h : HasParts separator.toList source.toList parts)
    {limit : Int} (hlimit : 1 ≤ partLimit limit source.toList) :
    split source separator limit = (limited separator.toList.intercalate
      (partLimit limit source.toList) parts).map String.ofList := by
  unfold HasParts at h
  split_ifs at h with hs
  · rw [split, hs, h, ← charsUpTo_eq _ hlimit]
    rfl
  · rw [split, ← h.partsUpTo_eq hlimit]
    simp [hs]

theorem split_of_neg {source separator : String} (h : HasParts separator.toList source.toList parts)
    {limit : Int} (hlimit : limit < 0) :
    split source separator limit = parts.map String.ofList := by
  have hbound : partLimit limit source.toList = source.toList.length + 1 := if_pos hlimit
  have hone : 1 ≤ partLimit limit source.toList := by
    rw [hbound]
    exact Nat.le_add_left 1 _
  rw [h.split_eq hone, hbound, limited_of_length_le h.length_le]

end HasParts

theorem partLimit_natCast (n : Nat) (text : List Char) : partLimit n text = n := by
  simp [partLimit]

theorem split_zero (source separator : String) : split source separator 0 = [] := by
  have hbound : partLimit 0 source.toList = 0 := partLimit_natCast 0 _
  rw [split, hbound]
  split_ifs
  · cases source.toList <;> rfl
  · rfl

/-- No part for a limit of zero, all parts for a negative one; with a larger limit as many parts as
it says, and what is left is in the last of them. The parts stand between the separators; they are
the characters when the separator is empty. -/
theorem split_spec (source separator : String) :
    split source separator 0 = [] ∧
    (∀ limit < 0, split source separator limit = split source separator (-1)) ∧
    (∀ limit : Nat, 1 ≤ limit → split source separator limit =
      limited separator.intercalate limit (split source separator (-1))) ∧
    (separator ≠ "" → IsDecomposition separator.toList source.toList
      ((split source separator (-1)).map String.toList)) ∧
    (separator = "" → split source separator (-1) = source.toList.map String.singleton) := by
  obtain ⟨parts, hparts⟩ := exists_hasParts separator.toList source.toList
  have hwhole : split source separator (-1) = parts.map String.ofList :=
    hparts.split_of_neg (by decide)
  have hlists : (split source separator (-1)).map String.toList = parts := by
    rw [hwhole, List.map_map]
    simp [Function.comp_def]
  refine ⟨split_zero source separator, fun limit hlimit => ?_, fun limit hlimit => ?_,
    fun hs => ?_, fun hs => ?_⟩
  · rw [hwhole, hparts.split_of_neg hlimit]
  · have hbound : partLimit limit source.toList = limit := partLimit_natCast limit _
    rw [hwhole, hparts.split_eq (by omega), hbound, map_limited (ofList_intercalate separator)]
  · have hs' : separator.toList ≠ [] := by simpa using hs
    rw [hlists]
    rwa [HasParts, if_neg hs'] at hparts
  · have hs' : separator.toList = [] := by simp [hs]
    rw [HasParts, if_pos hs'] at hparts
    rw [hwhole, hparts, List.map_map]
    exact List.map_congr_left fun c _ => rfl

/-- Separators that overlap: the second one begins inside the first. -/
theorem split_overlapping :
    (-5 : Int) < 0 ∧ 1 ≤ 2 ∧ "aa" ≠ "" ∧
      split "baaab" "aa" (-5) = split "baaab" "aa" (-1) ∧
      split "baaab" "aa" 2 = limited (String.intercalate "aa") 2 (split "baaab" "aa" (-1)) ∧
      IsDecomposition "aa".toList "baaab".toList
        ((split "baaab" "aa" (-1)).map String.toList) := by
  obtain ⟨-, hnegative, hlimit, hparts, -⟩ := split_spec "baaab" "aa"
  exact ⟨by decide, by decide, by decide, hnegative (-5) (by decide), hlimit 2 (by decide),
    hparts (by decide)⟩

example : split "baaab" "aa" (-1) = ["b", "ab"] := by decide

/-- Joining all parts gives the text back, whatever the limit left together. -/
theorem join_split {source separator : String} {limit : Int} (hlimit : limit ≠ 0) :
    join (split source separator limit) separator = source := by
  obtain ⟨parts, hparts⟩ := exists_hasParts separator.toList source.toList
  have hone : 1 ≤ partLimit limit source.toList := by
    unfold partLimit
    split_ifs <;> omega
  rw [hparts.split_eq hone, join_eq_intercalate, ← ofList_intercalate, intercalate_limited hone,
    hparts.intercalate_eq, String.ofList_toList]

/-- Parts without the separator are found again. -/
theorem split_join {parts : List String} {separator : String} (hne : parts ≠ [])
    (hone : separator.length = 1) (h : ∀ part ∈ parts, ¬ separator.toList <:+: part.toList) :
    split (join parts separator) separator (-1) = parts := by
  obtain ⟨c, hc⟩ : ∃ c, separator.toList = [c] := by
    rw [← List.length_eq_one_iff, String.length_toList, hone]
  have htexts : ∀ part ∈ parts.map String.toList, c ∉ part := by
    intro part hpart
    obtain ⟨s, hs, rfl⟩ := List.mem_map.mp hpart
    have hnot := h s hs
    rw [hc] at hnot
    intro hmem
    obtain ⟨before, after, hsplit⟩ := List.append_of_mem hmem
    exact hnot ⟨before, after, by simp [hsplit]⟩
  have hparts : HasParts separator.toList (join parts separator).toList
      (parts.map String.toList) := by
    have hdecomposition := IsDecomposition.of_forall_not_mem (by simpa using hne) htexts
    rw [join_eq_intercalate, String.toList_intercalate, hc, HasParts, if_neg (by simp)]
    exact hdecomposition
  rw [hparts.split_of_neg (by decide), List.map_map]
  simp [Function.comp_def]

/-- Joining undoes splitting at any limit but zero. Splitting undoes joining when the separator is a
single character that no part holds. -/
theorem join_split_and_split_join :
    (∀ (source separator : String) (limit : Int), limit ≠ 0 →
      join (split source separator limit) separator = source) ∧
    ∀ (parts : List String) (separator : String), parts ≠ [] → separator.length = 1 →
      (∀ part ∈ parts, ¬ separator.toList <:+: part.toList) →
      split (join parts separator) separator (-1) = parts :=
  ⟨fun _ _ _ hlimit => join_split hlimit, fun _ _ hne hone h => split_join hne hone h⟩

theorem join_split_comma :
    (2 : Int) ≠ 0 ∧ ["a", "", "b"] ≠ [] ∧ ",".length = 1 ∧
      (∀ part ∈ ["a", "", "b"], ¬ ",".toList <:+: part.toList) ∧
      join (split "a,,b" "," 2) "," = "a,,b" ∧
      split (join ["a", "", "b"] ",") "," (-1) = ["a", "", "b"] := by
  have hparts : ∀ part ∈ ["a", "", "b"], ¬ ",".toList <:+: part.toList := by decide
  obtain ⟨hjoin, hsplit⟩ := join_split_and_split_join
  exact ⟨by decide, by decide, by decide, hparts, hjoin "a,,b" "," 2 (by decide),
    hsplit ["a", "", "b"] "," (by decide) (by decide) hparts⟩

end ClaimMapping.Text
