import ClaimMapping.Proofs.Json.Reading
import ClaimMapping.Proofs.Json.Real

namespace ClaimMapping.Json

variable {more : List Char} {ts : List Token}

theorem rereadReal_of_token {x : Float} {t : Token} {j : Json}
    (ht : takeToken? (floatLayout.write x ++ []) = some (t, []))
    (hj : value? 3 maxDepth [t] = some (j, [])) : rereadReal x = j := by
  have htokens : tokens? (floatLayout.write x) = some [t] := by
    have h := tokensUpTo_append (write_ne_nil x) ht (show tokensUpTo 0 [] = some [] from rfl)
    rwa [List.append_nil, Nat.zero_add] at h
  rw [rereadReal, read?, compact, String.toList_ofList, text, Number.text, htokens]
  dsimp only [Option.bind_eq_bind, Option.bind_some, List.length_singleton]
  rw [hj]
  rfl

/-- The text of a binary64 number is one token, and its value has no parts. -/
theorem exists_token_real (x : Float) :
    ∃ t, (∀ more, Ends more → takeToken? (floatLayout.write x ++ more) = some (t, more)) ∧
      tokens (rereadReal x) = [t] ∧ WellFormed (rereadReal x) ∧ depth (rereadReal x) = 0 := by
  obtain ⟨n, hn⟩ | hnull := takeNumber?_write x
  · have ht (more : List Char) (hm : Ends more) :
        takeToken? (floatLayout.write x ++ more) = some (.number n, more) :=
      takeToken?_of_number (takeNumber?_append hn hm)
    have hw : WellFormed (.number n) := wellFormed_of_takeNumber? hn
    rw [rereadReal_of_token (ht [] ends_nil) rfl]
    exact ⟨.number n, ht, rfl, hw, rfl⟩
  · have ht (more : List Char) (hm : Ends more) :
        takeToken? (floatLayout.write x ++ more) = some (.null, more) := by
      rw [hnull]
      rfl
    rw [rereadReal_of_token (ht [] ends_nil) rfl]
    exact ⟨.null, ht, rfl, .null, rfl⟩

theorem rereadItems_eq_map (items : List Json) : rereadItems items = items.map reread := by
  induction items with
  | nil => rfl
  | cons item items ih => rw [rereadItems, ih, List.map_cons]

theorem rereadMembers_eq_mapValues (members : List (String × Json)) :
    rereadMembers members = KeyMap.mapValues reread members := by
  induction members with
  | nil => rfl
  | cons e members ih =>
    obtain ⟨key, value⟩ := e
    rw [rereadMembers, ih]
    rfl

theorem WellFormed.reread {j : Json} (h : WellFormed j) : WellFormed j.reread := by
  induction h with
  | null => exact .null
  | bool b => exact .bool b
  | natural n => exact .natural n
  | negative h => exact .negative h
  | real x =>
    obtain ⟨t, -, -, hw, -⟩ := exists_token_real x
    exact hw
  | string s => exact .string s
  | array h ih =>
    rw [Json.reread, rereadItems_eq_map]
    exact .array (List.forall_mem_map.mpr ih)
  | object ordered h ih =>
    rw [Json.reread, rereadMembers_eq_mapValues]
    exact .object (ordered.mapValues _) (List.forall_mem_map.mpr ih)

mutual

theorem depth_reread (j : Json) : depth (reread j) = depth j := by
  cases j with
  | number n =>
    cases n with
    | real x =>
      obtain ⟨t, -, -, -, hd⟩ := exists_token_real x
      exact hd
    | _ => rfl
  | array items => rw [reread, depth, depth, itemsDepth_reread items]
  | object members => rw [reread, depth, depth, membersDepth_reread members]
  | _ => rfl

theorem itemsDepth_reread (items : List Json) :
    itemsDepth (rereadItems items) = itemsDepth items := by
  match items with
  | [] => rfl
  | item :: items =>
    rw [rereadItems, itemsDepth, itemsDepth, depth_reread item, itemsDepth_reread items]

theorem membersDepth_reread (members : List (String × Json)) :
    membersDepth (rereadMembers members) = membersDepth members := by
  match members with
  | [] => rfl
  | (key, value) :: members =>
    rw [rereadMembers, membersDepth, membersDepth, depth_reread value, membersDepth_reread members]

end

theorem Returns.rereadReal {x : Float} (h : Returns x) : rereadReal x = .number (.real x) := by
  rw [Json.rereadReal, h]
  rfl

mutual

theorem reread_of_returns (j : Json) (h : ∀ x ∈ reals j, Returns x) : reread j = j := by
  cases j with
  | number n =>
    cases n with
    | real x => exact (h x (List.mem_singleton.mpr rfl)).rereadReal
    | _ => rfl
  | array items => rw [reread, rereadItems_of_returns items (by rwa [reals] at h)]
  | object members => rw [reread, rereadMembers_of_returns members (by rwa [reals] at h)]
  | _ => rfl

theorem rereadItems_of_returns (items : List Json) (h : ∀ x ∈ itemsReals items, Returns x) :
    rereadItems items = items := by
  match items with
  | [] => rfl
  | item :: items =>
    rw [itemsReals, List.forall_mem_append] at h
    rw [rereadItems, reread_of_returns item h.1, rereadItems_of_returns items h.2]

theorem rereadMembers_of_returns (members : List (String × Json))
    (h : ∀ x ∈ membersReals members, Returns x) : rereadMembers members = members := by
  match members with
  | [] => rfl
  | (key, value) :: members =>
    rw [membersReals, List.forall_mem_append] at h
    rw [rereadMembers, reread_of_returns value h.1, rereadMembers_of_returns members h.2]

end

theorem tokensUpTo_cons {n : Nat} {c : Char} {token : Token}
    (ht : takeToken? (c :: more) = some (token, more)) (h : tokensUpTo n more = some ts) :
    tokensUpTo (n + 1) (c :: more) = some (token :: ts) :=
  tokensUpTo_append (List.cons_ne_nil c []) ht h

theorem tokensUpTo_key {n : Nat} (key : String) (h : tokensUpTo n more = some ts) :
    tokensUpTo (n + (stringText key ++ [':']).length) (stringText key ++ ':' :: more) =
      some (.string key :: .colon :: ts) := by
  have hcolon : tokensUpTo (n + 1) (':' :: more) = some (.colon :: ts) := tokensUpTo_cons rfl h
  rw [List.length_append, Nat.add_comm (stringText key).length, ← Nat.add_assoc]
  exact tokensUpTo_append (List.cons_ne_nil _ _) (takeToken?_stringText key _) hcolon

mutual

theorem tokensUpTo_text (j : Json) (hw : WellFormed j) {n : Nat} {more : List Char}
    {ts : List Token} (hm : Ends more) (h : tokensUpTo n more = some ts) :
    tokensUpTo (n + (text j).length) (text j ++ more) = some (tokens (reread j) ++ ts) := by
  cases j with
  | null => exact tokensUpTo_append (List.cons_ne_nil _ _) rfl h
  | bool b => cases b <;> exact tokensUpTo_append (List.cons_ne_nil _ _) rfl h
  | number x =>
    cases x with
    | natural x =>
      have htoken := takeToken?_of_number (takeNumber?_natural x hm)
      exact tokensUpTo_append (Decimal.natText_ne_nil _) htoken h
    | negative x =>
      cases hw with
      | negative hx =>
        have htoken := takeToken?_of_number (takeNumber?_negative hx hm)
        exact tokensUpTo_append (Decimal.intText_ne_nil _) htoken h
    | real x =>
      obtain ⟨t, ht, htokens, -, -⟩ := exists_token_real x
      rw [reread, htokens]
      exact tokensUpTo_append (write_ne_nil x) (ht more hm) h
  | string s => exact tokensUpTo_append (List.cons_ne_nil _ _) (takeToken?_stringText s more) h
  | array items =>
    -- The tokens are put together from the end, since each piece needs what follows it.
    have hclose : tokensUpTo (n + 1) (']' :: more) = some (.closeBracket :: ts) :=
      tokensUpTo_cons rfl h
    have hitems := tokensUpTo_itemsText items (by cases hw; assumption) (ends_bracket more) hclose
    have hopen := tokensUpTo_cons (c := '[') rfl hitems
    simp only [text, reread, tokens, List.cons_append, List.append_assoc, List.nil_append,
      List.length_cons, List.length_append, List.length_nil] at hopen ⊢
    convert hopen using 2
    omega
  | object members =>
    have hclose : tokensUpTo (n + 1) ('\x7d' :: more) = some (.closeBrace :: ts) :=
      tokensUpTo_cons rfl h
    have hmembers := tokensUpTo_membersText members (by cases hw; assumption) (ends_brace more)
      hclose
    have hopen := tokensUpTo_cons (c := '\x7b') rfl hmembers
    simp only [text, reread, tokens, List.cons_append, List.append_assoc, List.nil_append,
      List.length_cons, List.length_append, List.length_nil] at hopen ⊢
    convert hopen using 2
    omega

theorem tokensUpTo_itemsText (items : List Json) (hw : ∀ j ∈ items, WellFormed j) {n : Nat}
    {more : List Char} {ts : List Token} (hm : Ends more) (h : tokensUpTo n more = some ts) :
    tokensUpTo (n + (itemsText items).length) (itemsText items ++ more) =
      some (itemTokens (rereadItems items) ++ ts) := by
  match items with
  | [] => exact h
  | [item] =>
    rw [itemsText, rereadItems, rereadItems, itemTokens]
    exact tokensUpTo_text item (hw item List.mem_cons_self) hm h
  | item :: next :: items =>
    have hrest := tokensUpTo_itemsText (next :: items)
      (fun j hj => hw j (List.mem_cons_of_mem _ hj)) hm h
    have hitem := tokensUpTo_text item (hw item List.mem_cons_self) (ends_comma _)
      (tokensUpTo_cons rfl hrest)
    simp only [itemsText, rereadItems, itemTokens, List.cons_append, List.append_assoc,
      List.length_cons, List.length_append] at hitem ⊢
    convert hitem using 2
    omega

theorem tokensUpTo_membersText (members : List (String × Json))
    (hw : ∀ e ∈ members, WellFormed e.2) {n : Nat} {more : List Char} {ts : List Token}
    (hm : Ends more) (h : tokensUpTo n more = some ts) :
    tokensUpTo (n + (membersText members).length) (membersText members ++ more) =
      some (memberTokens (rereadMembers members) ++ ts) := by
  match members with
  | [] => exact h
  | [(key, value)] =>
    have hvalue := tokensUpTo_text value (hw (key, value) List.mem_cons_self) hm h
    have hkey := tokensUpTo_key key hvalue
    simp only [membersText, rereadMembers, memberTokens, List.cons_append, List.append_assoc,
      List.length_cons, List.length_append, List.length_nil] at hkey ⊢
    convert hkey using 2
    omega
  | (key, value) :: next :: members =>
    have hrest := tokensUpTo_membersText (next :: members)
      (fun e he => hw e (List.mem_cons_of_mem _ he)) hm h
    have hvalue := tokensUpTo_text value (hw (key, value) List.mem_cons_self) (ends_comma _)
      (tokensUpTo_cons rfl hrest)
    have hkey := tokensUpTo_key key hvalue
    simp only [membersText, rereadMembers, memberTokens, List.cons_append, List.append_assoc,
      List.length_cons, List.length_append, List.length_nil] at hkey ⊢
    convert hkey using 2
    omega

end

theorem value?_openBracket {fuel d : Nat} {toks : List Token}
    (h : toks.head? ≠ some .closeBracket) :
    value? (fuel + 1) (d + 1) (.openBracket :: toks) =
      (items? fuel d toks).map fun (items, rest) => (.array items, rest) := by
  cases toks with
  | nil => rfl
  | cons t toks =>
    cases t with
    | closeBracket => exact absurd rfl h
    | _ => rfl

theorem value?_openBrace {fuel d : Nat} {toks : List Token}
    (h : toks.head? ≠ some .closeBrace) :
    value? (fuel + 1) (d + 1) (.openBrace :: toks) =
      (members? fuel d toks).map fun (members, rest) =>
        (.object (KeyMap.ofList members), rest) := by
  cases toks with
  | nil => rfl
  | cons t toks =>
    cases t with
    | closeBrace => exact absurd rfl h
    | _ => rfl

theorem head?_itemTokens (item : Json) (items : List Json) (rest : List Token) :
    (itemTokens (item :: items) ++ rest).head? ≠ some .closeBracket := by
  obtain ⟨t, ts, htokens, ht⟩ := tokens_eq_cons item
  cases items with
  | nil =>
    rw [itemTokens, htokens]
    exact fun h => ht (Option.some.inj h)
  | cons next items =>
    rw [itemTokens, htokens]
    exact fun h => ht (Option.some.inj h)

theorem head?_memberTokens (key : String) (value : Json) (members : List (String × Json))
    (rest : List Token) :
    (memberTokens ((key, value) :: members) ++ rest).head? ≠ some .closeBrace := by
  cases members with
  | nil => exact fun h => Token.noConfusion (Option.some.inj h)
  | cons next members => exact fun h => Token.noConfusion (Option.some.inj h)

/-- Where no level is allowed, neither an array nor an object is read. -/
theorem value?_zero {t : Token} (ht : t = .openBracket ∨ t = .openBrace) (fuel : Nat)
    (toks : List Token) : value? (fuel + 1) 0 (t :: toks) = none := by
  obtain rfl | rfl := ht
  all_goals
    cases toks with
    | nil => rfl
    | cons t toks => cases t <;> rfl

mutual

/-- A value is read from its tokens if the levels still allowed are as many as it nests. `fuel`
counts the steps still allowed; a value takes no more of them than it has tokens. -/
theorem value?_tokens (j : Json) (hw : WellFormed j) {fuel : Nat} (d : Nat)
    (hf : (tokens j).length ≤ fuel) (rest : List Token) :
    value? fuel d (tokens j ++ rest) = if depth j ≤ d then some (j, rest) else none := by
  obtain ⟨fuel, rfl⟩ : ∃ n, fuel = n + 1 := by
    obtain ⟨t, ts, htokens, -⟩ := tokens_eq_cons j
    rw [htokens, List.length_cons] at hf
    exact ⟨fuel - 1, by omega⟩
  cases j with
  | array items =>
    simp only [tokens, List.length_cons, List.length_append, List.length_nil] at hf
    rw [tokens, List.cons_append, List.append_assoc, depth]
    match d with
    | 0 => rw [value?_zero (.inl rfl), if_neg (by omega)]
    | d + 1 =>
      match items with
      | [] => rfl
      | item :: items =>
        have hitems : items? fuel d (itemTokens (item :: items) ++ ([.closeBracket] ++ rest)) =
            if itemsDepth (item :: items) ≤ d then some (item :: items, rest) else none :=
          items?_itemTokens (item :: items) (List.cons_ne_nil _ _) (by cases hw; assumption) d
            (by omega) rest
        rw [value?_openBracket (head?_itemTokens item items _), hitems]
        simp only [Nat.add_le_add_iff_right]
        split_ifs <;> rfl
  | object members =>
    simp only [tokens, List.length_cons, List.length_append, List.length_nil] at hf
    rw [tokens, List.cons_append, List.append_assoc, depth]
    cases hw with
    | object ordered hw =>
      match d with
      | 0 => rw [value?_zero (.inr rfl), if_neg (by omega)]
      | d + 1 =>
        match members with
        | [] => rfl
        | (key, value) :: members =>
          have hmembers : members? fuel d
              (memberTokens ((key, value) :: members) ++ ([.closeBrace] ++ rest)) =
              if membersDepth ((key, value) :: members) ≤ d then
                some ((key, value) :: members, rest) else none :=
            members?_memberTokens ((key, value) :: members) (List.cons_ne_nil _ _) hw d (by omega)
              rest
          rw [value?_openBrace (head?_memberTokens key value members _), hmembers]
          simp only [Nat.add_le_add_iff_right]
          split_ifs
          · rw [Option.map_some, KeyMap.ofList_of_ordered ordered]
          · rfl
  | _ => exact (if_pos (Nat.zero_le d)).symm

theorem items?_itemTokens (items : List Json) (hne : items ≠ []) (hw : ∀ j ∈ items, WellFormed j)
    {fuel : Nat} (d : Nat) (hf : (itemTokens items).length + 1 ≤ fuel) (rest : List Token) :
    items? fuel d (itemTokens items ++ .closeBracket :: rest) =
      if itemsDepth items ≤ d then some (items, rest) else none := by
  obtain ⟨fuel, rfl⟩ : ∃ n, fuel = n + 1 := ⟨fuel - 1, by omega⟩
  match items with
  | [] => exact absurd rfl hne
  | [item] =>
    rw [itemTokens] at hf ⊢
    rw [items?, value?_tokens item (hw item List.mem_cons_self) d (by omega), itemsDepth,
      itemsDepth, Nat.max_zero]
    split_ifs <;> rfl
  | item :: next :: items =>
    simp only [itemTokens, List.length_cons, List.length_append] at hf
    have hrest := items?_itemTokens (next :: items) (List.cons_ne_nil _ _)
      (fun j hj => hw j (List.mem_cons_of_mem _ hj)) d
      (show (itemTokens (next :: items)).length + 1 ≤ fuel by omega) rest
    rw [itemTokens, List.append_assoc, items?,
      value?_tokens item (hw item List.mem_cons_self) d (by omega), itemsDepth]
    simp only [max_le_iff]
    by_cases hitem : depth item ≤ d
    · rw [if_pos hitem]
      dsimp only [Option.bind_eq_bind, Option.bind_some, List.cons_append]
      rw [hrest]
      by_cases hitems : itemsDepth (next :: items) ≤ d
      · rw [if_pos hitems, if_pos ⟨hitem, hitems⟩]
        rfl
      · rw [if_neg hitems, if_neg fun h => hitems h.2]
        rfl
    · rw [if_neg hitem, if_neg fun h => hitem h.1]
      rfl

theorem members?_memberTokens (members : List (String × Json)) (hne : members ≠ [])
    (hw : ∀ e ∈ members, WellFormed e.2) {fuel : Nat} (d : Nat)
    (hf : (memberTokens members).length + 1 ≤ fuel) (rest : List Token) :
    members? fuel d (memberTokens members ++ .closeBrace :: rest) =
      if membersDepth members ≤ d then some (members, rest) else none := by
  obtain ⟨fuel, rfl⟩ : ∃ n, fuel = n + 1 := ⟨fuel - 1, by omega⟩
  match members with
  | [] => exact absurd rfl hne
  | [(key, value)] =>
    simp only [memberTokens, List.length_cons] at hf
    rw [memberTokens, List.cons_append, List.cons_append, members?,
      value?_tokens value (hw (key, value) List.mem_cons_self) d (by omega), membersDepth,
      membersDepth, Nat.max_zero]
    split_ifs <;> rfl
  | (key, value) :: next :: members =>
    simp only [memberTokens, List.length_cons, List.length_append] at hf
    have hrest := members?_memberTokens (next :: members) (List.cons_ne_nil _ _)
      (fun e he => hw e (List.mem_cons_of_mem _ he)) d
      (show (memberTokens (next :: members)).length + 1 ≤ fuel by omega) rest
    rw [memberTokens, List.cons_append, List.cons_append, List.append_assoc, members?,
      value?_tokens value (hw (key, value) List.mem_cons_self) d (by omega), membersDepth]
    simp only [max_le_iff]
    by_cases hvalue : depth value ≤ d
    · rw [if_pos hvalue]
      dsimp only [Option.bind_eq_bind, Option.bind_some, List.cons_append]
      rw [hrest]
      by_cases hmembers : membersDepth (next :: members) ≤ d
      · rw [if_pos hmembers, if_pos ⟨hvalue, hmembers⟩]
        rfl
      · rw [if_neg hmembers, if_neg fun h => hmembers h.2]
        rfl
    · rw [if_neg hvalue, if_neg fun h => hvalue h.1]
      rfl

end

/-- A text with the tokens of a value gives the value if it nests no deeper than reading goes. -/
theorem read?_of_tokens {j : Json} (hw : WellFormed j) {s : String}
    (h : tokens? s.toList = some (tokens j)) :
    read? s = if depth j ≤ maxDepth then some j else none := by
  have hfuel : (tokens j).length ≤ 2 * (tokens j).length + 1 := by omega
  have hvalue := value?_tokens j hw maxDepth hfuel []
  rw [List.append_nil] at hvalue
  rw [read?, h]
  dsimp only [Option.bind_eq_bind, Option.bind_some]
  rw [hvalue]
  split_ifs <;> rfl

/-- What is written compactly is read again if it nests no deeper than reading goes. -/
theorem read?_compact {j : Json} (hw : WellFormed j) :
    read? (compact j) = if depth j ≤ maxDepth then some (reread j) else none := by
  have htokens : tokens? (compact j).toList = some (tokens (reread j)) := by
    have h := tokensUpTo_text j hw ends_nil (show tokensUpTo 0 [] = some [] from rfl)
    rw [compact, String.toList_ofList]
    rwa [List.append_nil, List.append_nil, Nat.zero_add] at h
  rw [read?_of_tokens hw.reread htokens, depth_reread]

end ClaimMapping.Json
