import SelectQuery.Proofs.Reading.Local

/-!
# The window of a query

A query that is read from an index of a list of tokens ends at another index.  The
tokens between the two are its window: there are at least four of them, and the
query is read alike from every list with the same window and the same next token,
or none.  In particular a part of the list that is longer than the window is not
read as a query to its end.
-/

namespace SelectQuery

/-! ## The least number of tokens -/

theorem DerivesColumn.ne_nil {tokens : List Token} {column : Column}
    (derived : DerivesColumn tokens column) : tokens ≠ [] := by
  cases derived with
  | plain groups => exact groups.ne_nil
  | announced | short => simp

theorem DerivesColumns.ne_nil {tokens : List Token} {columns : List Column}
    (derived : DerivesColumns tokens columns) : tokens ≠ [] := by
  cases derived with
  | one only => exact only.ne_nil
  | more => simp

theorem DerivesSource.ne_nil {tokens : List Token} {source : Source}
    (derived : DerivesSource tokens source) : tokens ≠ [] := by
  cases derived <;> simp

/-- A `SELECT` has two keywords, a column and a source. -/
theorem DerivesSelect.four_le_length {tokens : List Token} {statement : Select}
    (derived : DerivesSelect tokens statement) : 4 ≤ tokens.length := by
  cases derived with
  | select _ projected _ tables _ =>
      have items := List.length_pos_iff.mpr projected.ne_nil
      have names := List.length_pos_iff.mpr tables.ne_nil
      simp only [List.length_cons, List.length_append]
      omega

theorem DerivesQuery.four_le_length {tokens : List Token} {query : Query}
    (derived : DerivesQuery tokens query) : 4 ≤ tokens.length := by
  cases derived with
  | single only => exact only.four_le_length
  | combined first _ _ =>
      have := first.four_le_length
      simp only [List.length_append]
      omega

/-! ## Windows -/

/-- A numbered list is cut as its tokens are. -/
theorem Located.exists_of_number_eq_append {position : Nat} {tokens : List Token}
    {used rest : List Located} (cut : number position tokens = used ++ rest) :
    ∃ window others, tokens = window ++ others ∧ used = number position window ∧
      rest = number (position + window.length) others := by
  have split : tokens = used.map toToken ++ rest.map toToken := by
    rw [← List.map_append, ← cut, map_toToken_number]
  refine ⟨used.map toToken, rest.map toToken, split, ?_⟩
  rw [split, number_append] at cut
  have parts := List.append_inj cut (by rw [length_number, List.length_map])
  exact ⟨parts.1.symm, parts.2.symm⟩

namespace Query

/-- A query that is read has a window, and is read from the window whatever stands
behind the token ahead. -/
theorem exists_window {limit start stop : Nat} {tokens : List Token} {query : Query}
    (read : ofTokens limit tokens start = .ok (query, stop)) :
    ∃ window, tokens.drop start = window ++ tokens.drop stop ∧
      stop = start + window.length ∧ stop ≤ tokens.length ∧ 4 ≤ window.length ∧
      ∀ others, SameAhead (Located.number stop (tokens.drop stop)) (Located.number stop others) →
        readQuery limit (Located.number start (window ++ others)) =
          .ok (query, Located.number stop others) := by
  obtain ⟨⟨found, rest⟩, readAll, equal⟩ := bind_eq_ok_iff.mp read
  cases equal
  obtain ⟨used, split, again⟩ := local_readQueryWithin limit limit _ _ _ readAll
  obtain ⟨_, splitDerived, derived, _⟩ := derivesQuery_of_readQueryWithin readAll
  rw [split] at splitDerived
  obtain rfl := List.append_cancel_right splitDerived
  obtain ⟨window, others, cut, rfl, rfl⟩ := Located.exists_of_number_eq_append split
  rw [Located.map_toToken_number] at derived
  have four := derived.four_le_length
  have total : tokens.length - start = window.length + others.length := by
    rw [← List.length_drop, cut, List.length_append]
  have stop_eq : tokens.length - (Located.number (start + window.length) others).length =
      start + window.length := by
    rw [Located.length_number]
    omega
  have behind : tokens.drop (start + window.length) = others := by
    rw [← List.drop_drop, cut, List.drop_left]
  rw [stop_eq, behind]
  refine ⟨window, cut, rfl, by omega, four, fun others ahead => ?_⟩
  rw [Located.number_append]
  exact again _ ahead

/-- A query is read alike from every list that has its window and, at the end of the
window, the same token or none. -/
theorem ofTokens_of_sameWindow {limit start stop : Nat} {tokens others : List Token}
    {query : Query} (read : ofTokens limit tokens start = .ok (query, stop))
    (same : ∀ index, start ≤ index → index < stop → others[index]? = tokens[index]?)
    (ahead : others[stop]? = none ∨ others[stop]? = tokens[stop]?) :
    ofTokens limit others start = .ok (query, stop) := by
  obtain ⟨window, cut, stop_eq, bound, four, again⟩ := exists_window read
  have sameAhead : SameAhead (Located.number stop (tokens.drop stop))
      (Located.number stop (others.drop stop)) := by
    rcases ahead with none | same
    · rw [List.getElem?_eq_none_iff] at none
      rw [List.drop_eq_nil_of_le none]
      exact .inl rfl
    · right
      rw [Located.head?_number, Located.head?_number, List.head?_drop, List.head?_drop, same]
  have sameWindow : (others.drop start).take window.length = window := by
    apply List.ext_getElem?
    intro index
    rw [List.getElem?_take, List.getElem?_drop]
    split
    · rename_i inside
      rw [same _ (by omega) (by omega), ← List.getElem?_drop, cut,
        List.getElem?_append_left inside]
    · rename_i outside
      rw [List.getElem?_eq_none (by omega)]
  have cutOthers : others.drop start = window ++ others.drop stop := by
    have parts := List.take_append_drop window.length (others.drop start)
    rw [sameWindow, List.drop_drop, ← stop_eq] at parts
    exact parts.symm
  have stops : others.length - (Located.number stop (others.drop stop)).length = stop := by
    have lengths := congrArg List.length cutOthers
    rw [List.length_drop, List.length_append, List.length_drop] at lengths
    rw [Located.length_number, List.length_drop]
    omega
  have readOthers := again _ sameAhead
  rw [← cutOthers] at readOthers
  rw [ofTokens, Located.tokensFrom, readOthers]
  simp only [bind, Except.bind, stops]

/-- A query that is read from an index takes up at least four tokens of the list.
Nothing but its window and the token behind the window decides, and the window is
the longest part of the list that is read as a query from there. -/
theorem ofTokens_isLocal {limit start stop : Nat} {tokens : List Token} {query : Query}
    (read : ofTokens limit tokens start = .ok (query, stop)) :
    (start + 4 ≤ stop ∧ stop ≤ tokens.length) ∧
      (∀ others : List Token,
        (∀ index, start ≤ index → index < stop → others[index]? = tokens[index]?) →
        (others[stop]? = none ∨ others[stop]? = tokens[stop]?) →
        ofTokens limit others start = .ok (query, stop)) ∧
      ∀ further, stop < further → further ≤ tokens.length → ∀ longer,
        ofTokens limit (tokens.take further) start ≠ .ok (longer, further) := by
  obtain ⟨window, _, stop_eq, bound, four, _⟩ := exists_window read
  refine ⟨⟨by omega, bound⟩, fun others => ofTokens_of_sameWindow read, ?_⟩
  intro further beyond _ longer readLonger
  -- Cut behind the token ahead, the list is read up to the same index as before.
  have readAgain : ofTokens limit (tokens.take further) start = .ok (query, stop) := by
    apply ofTokens_of_sameWindow read
    · intro index _ inside
      exact List.getElem?_take_of_lt (by omega)
    · exact .inr (List.getElem?_take_of_lt beyond)
  rw [readAgain, Except.ok.injEq, Prod.mk.injEq] at readLonger
  omega

/-- A source with an alias ends before a further name, and no list with that name
behind the alias is read differently. -/
theorem ofTokens_isLocal_alias :
    ∃ query,
      ofTokens 1 [⟨.comma, ","⟩, ⟨.clause .columns, "SELECT"⟩, ⟨.unknown, "a"⟩,
        ⟨.clause .source, "FROM"⟩, ⟨.unknown, "t"⟩, ⟨.unknown, "x"⟩, ⟨.unknown, "y"⟩,
        ⟨.rightParen, ")"⟩] 1 = .ok (query, 6) ∧
      ofTokens 1 [⟨.empty, ""⟩, ⟨.clause .columns, "SELECT"⟩, ⟨.unknown, "a"⟩,
        ⟨.clause .source, "FROM"⟩, ⟨.unknown, "t"⟩, ⟨.unknown, "x"⟩, ⟨.unknown, "y"⟩,
        ⟨.unknown, "UNION"⟩, ⟨.clause .order, "ORDER BY"⟩] 1 = .ok (query, 6) ∧
      ∀ longer,
        ofTokens 1 [⟨.comma, ","⟩, ⟨.clause .columns, "SELECT"⟩, ⟨.unknown, "a"⟩,
          ⟨.clause .source, "FROM"⟩, ⟨.unknown, "t"⟩, ⟨.unknown, "x"⟩, ⟨.unknown, "y"⟩] 1 ≠
            .ok (longer, 7) := by
  have read : ofTokens 1 [⟨.comma, ","⟩, ⟨.clause .columns, "SELECT"⟩, ⟨.unknown, "a"⟩,
      ⟨.clause .source, "FROM"⟩, ⟨.unknown, "t"⟩, ⟨.unknown, "x"⟩, ⟨.unknown, "y"⟩,
      ⟨.rightParen, ")"⟩] 1 =
      .ok (.select ⟨[⟨.identifier "a", none⟩], ⟨"t", some "x"⟩, none⟩, 6) := by
    rw [← toOption_eq_some_iff]
    decide +kernel
  obtain ⟨_, sameWindow, longest⟩ := ofTokens_isLocal read
  refine ⟨_, read, sameWindow _ ?_ (.inr rfl), longest 7 (by decide) (by decide)⟩
  have window : ∀ index < 6, 1 ≤ index →
      [⟨.empty, ""⟩, ⟨.clause .columns, "SELECT"⟩, ⟨.unknown, "a"⟩, ⟨.clause .source, "FROM"⟩,
        ⟨.unknown, "t"⟩, ⟨.unknown, "x"⟩, ⟨.unknown, "y"⟩, ⟨.unknown, "UNION"⟩,
        (⟨.clause .order, "ORDER BY"⟩ : Token)][index]? =
      [⟨.comma, ","⟩, ⟨.clause .columns, "SELECT"⟩, ⟨.unknown, "a"⟩, ⟨.clause .source, "FROM"⟩,
        ⟨.unknown, "t"⟩, ⟨.unknown, "x"⟩, ⟨.unknown, "y"⟩, ⟨.rightParen, ")"⟩][index]? := by
    decide
  exact fun index low high => window index high low

end Query

end SelectQuery
