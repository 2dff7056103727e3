import ClaimMapping.Proofs.Json.RoundTrip

namespace ClaimMapping.Json

variable {more : List Char} {ts : List Token}

theorem tokens?_space {c : Char} (hc : isSpace c = true) : tokens? (c :: more) = tokens? more :=
  if_pos hc

/-- New lines and blanks between tokens give no tokens of their own. -/
theorem tokens?_spaces {space : List Char} (hspace : ∀ c ∈ space, isSpace c = true) :
    tokens? (space ++ more) = tokens? more := by
  induction space with
  | nil => rfl
  | cons c space ih =>
    obtain ⟨hc, hspace⟩ := List.forall_mem_cons.mp hspace
    rw [List.cons_append, tokens?_space hc, ih hspace]

theorem tokens?_newLine (level : Nat) : tokens? (newLine level ++ more) = tokens? more := by
  refine tokens?_spaces (List.forall_mem_cons.mpr ⟨rfl, fun c hc => ?_⟩)
  rw [List.eq_of_mem_replicate hc]
  rfl

theorem tokens?_append {piece : List Char} (hp : piece ≠ []) {token : Token}
    (ht : takeToken? (piece ++ more) = some (token, more)) (h : tokens? more = some ts) :
    tokens? (piece ++ more) = some (token :: ts) := by
  rw [tokens?, List.length_append, Nat.add_comm]
  exact tokensUpTo_append hp ht h

theorem tokens?_cons {c : Char} {token : Token} (ht : takeToken? (c :: more) = some (token, more))
    (h : tokens? more = some ts) : tokens? (c :: more) = some (token :: ts) :=
  tokens?_append (List.cons_ne_nil c []) ht h

theorem tokens?_key (key : String) (h : tokens? more = some ts) :
    tokens? (stringText key ++ ':' :: ' ' :: more) = some (.string key :: .colon :: ts) := by
  have hblank : tokens? (' ' :: more) = some ts := (tokens?_space rfl).trans h
  have hcolon : tokens? (':' :: ' ' :: more) = some (.colon :: ts) := tokens?_cons rfl hblank
  exact tokens?_append (List.cons_ne_nil _ _) (takeToken?_stringText key _) hcolon

theorem tokens?_text {j : Json} (hw : WellFormed j) (hm : Ends more) (h : tokens? more = some ts) :
    tokens? (text j ++ more) = some (tokens (reread j) ++ ts) := by
  rw [tokens?, List.length_append, Nat.add_comm]
  exact tokensUpTo_text j hw hm h

theorem itemTokens_cons (item : Json) (items : List Json) :
    itemTokens (item :: items) = tokens item ++ items.flatMap fun j => .comma :: tokens j := by
  induction items generalizing item with
  | nil => rw [itemTokens, List.flatMap_nil, List.append_nil]
  | cons next items ih => rw [itemTokens, ih next, List.flatMap_cons, List.cons_append]

theorem memberTokens_cons (key : String) (value : Json) (members : List (String × Json)) :
    memberTokens ((key, value) :: members) = .string key :: .colon :: (tokens value ++
      members.flatMap fun e => .comma :: .string e.1 :: .colon :: tokens e.2) := by
  induction members generalizing key value with
  | nil => rw [memberTokens, List.flatMap_nil, List.append_nil]
  | cons next members ih =>
    obtain ⟨key', value'⟩ := next
    rw [memberTokens, ih key' value', List.flatMap_cons, List.cons_append, List.cons_append,
      List.cons_append]

theorem ends_indentedItems (level : Nat) (items : List Json) (hm : Ends more) :
    Ends (indentedItems level items ++ more) := by
  cases items with
  | nil => exact hm
  | cons item items => exact ends_comma _

theorem ends_indentedMembers (level : Nat) (members : List (String × Json)) (hm : Ends more) :
    Ends (indentedMembers level members ++ more) := by
  cases members with
  | nil => exact hm
  | cons e members => exact ends_comma _

mutual

/-- One line for each item gives the same tokens as no line, by induction on the value and its
items. -/
theorem tokens?_indentedText (level : Nat) (j : Json) (hw : WellFormed j) {more : List Char}
    {ts : List Token} (hm : Ends more) (h : tokens? more = some ts) :
    tokens? (indentedText level j ++ more) = some (tokens (reread j) ++ ts) := by
  cases j with
  | array items =>
    -- As in compact text, the tokens are put together from the end.
    have hclose : tokens? (newLine level ++ ']' :: more) = some (.closeBracket :: ts) :=
      (tokens?_newLine level).trans (tokens?_cons rfl h)
    match items with
    | [] => exact tokens?_text hw hm h
    | item :: items =>
      have hall : ∀ j ∈ item :: items, WellFormed j := by
        cases hw
        assumption
      obtain ⟨hitem, hitems⟩ := List.forall_mem_cons.mp hall
      have hrest := tokens?_indentedItems (level + 1) items hitems (ends_newLine level _) hclose
      have hfirst := tokens?_indentedText (level + 1) item hitem
        (ends_indentedItems (level + 1) items (ends_newLine level _)) hrest
      have hopen := tokens?_cons (c := '[') rfl ((tokens?_newLine (level + 1)).trans hfirst)
      simpa only [indentedText, reread, rereadItems, tokens, itemTokens_cons, List.cons_append,
        List.append_assoc, List.nil_append] using hopen
  | object members =>
    have hclose : tokens? (newLine level ++ '\x7d' :: more) = some (.closeBrace :: ts) :=
      (tokens?_newLine level).trans (tokens?_cons rfl h)
    match members with
    | [] => exact tokens?_text hw hm h
    | (key, value) :: members =>
      have hall : ∀ e ∈ (key, value) :: members, WellFormed e.2 := by
        cases hw
        assumption
      obtain ⟨hvalue, hmembers⟩ := List.forall_mem_cons.mp hall
      have hrest := tokens?_indentedMembers (level + 1) members hmembers (ends_newLine level _)
        hclose
      have hfirst := tokens?_key key (tokens?_indentedText (level + 1) value hvalue
        (ends_indentedMembers (level + 1) members (ends_newLine level _)) hrest)
      have hopen := tokens?_cons (c := '\x7b') rfl ((tokens?_newLine (level + 1)).trans hfirst)
      simpa only [indentedText, reread, rereadMembers, tokens, memberTokens_cons, List.cons_append,
        List.append_assoc, List.nil_append] using hopen
  | null => exact tokens?_text hw hm h
  | bool b => exact tokens?_text hw hm h
  | number n => exact tokens?_text hw hm h
  | string s => exact tokens?_text hw hm h

theorem tokens?_indentedItems (level : Nat) (items : List Json) (hw : ∀ j ∈ items, WellFormed j)
    {more : List Char} {ts : List Token} (hm : Ends more) (h : tokens? more = some ts) :
    tokens? (indentedItems level items ++ more) =
      some ((rereadItems items).flatMap (fun j => .comma :: tokens j) ++ ts) := by
  match items with
  | [] => exact h
  | item :: items =>
    obtain ⟨hitem, hitems⟩ := List.forall_mem_cons.mp hw
    have hrest := tokens?_indentedItems level items hitems hm h
    have hfirst := tokens?_indentedText level item hitem (ends_indentedItems level items hm) hrest
    have hcomma := tokens?_cons (c := ',') rfl ((tokens?_newLine level).trans hfirst)
    simpa only [indentedItems, rereadItems, List.flatMap_cons, List.cons_append,
      List.append_assoc] using hcomma

theorem tokens?_indentedMembers (level : Nat) (members : List (String × Json))
    (hw : ∀ e ∈ members, WellFormed e.2) {more : List Char} {ts : List Token} (hm : Ends more)
    (h : tokens? more = some ts) :
    tokens? (indentedMembers level members ++ more) =
      some ((rereadMembers members).flatMap
        (fun e => .comma :: .string e.1 :: .colon :: tokens e.2) ++ ts) := by
  match members with
  | [] => exact h
  | (key, value) :: members =>
    obtain ⟨hvalue, hmembers⟩ := List.forall_mem_cons.mp hw
    have hrest := tokens?_indentedMembers level members hmembers hm h
    have hfirst := tokens?_key key (tokens?_indentedText level value hvalue
      (ends_indentedMembers level members hm) hrest)
    have hcomma := tokens?_cons (c := ',') rfl ((tokens?_newLine level).trans hfirst)
    simpa only [indentedMembers, rereadMembers, List.flatMap_cons, List.cons_append,
      List.append_assoc] using hcomma

end

/-- What is written with one line for each item, and a line end behind it, is read again if it
nests no deeper than reading goes. -/
theorem read?_indented {j : Json} (hw : WellFormed j) :
    read? (indented j ++ "\n") = if depth j ≤ maxDepth then some (reread j) else none := by
  have hline : Ends ['\n'] := ends_newLine 0 []
  have hend : tokens? ['\n'] = some [] := rfl
  have htext : (indented j ++ "\n").toList = indentedText 0 j ++ ['\n'] := by
    rw [indented, String.toList_append, String.toList_ofList]
    rfl
  have htokens : tokens? (indented j ++ "\n").toList = some (tokens (reread j)) := by
    rw [htext, tokens?_indentedText 0 j hw hline hend, List.append_nil]
  rw [read?_of_tokens hw.reread htokens, depth_reread]

end ClaimMapping.Json
