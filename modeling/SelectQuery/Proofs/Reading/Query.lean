import SelectQuery.Proofs.Reading.Column
import SelectQuery.Proofs.Reading.Condition

/-!
# Reading a query is exact

A list of lexemes is read as a query exactly if its tokens as a whole derive that
query, with at most as many selects as the limit says and with parentheses nested
at most that deep.

For lists that go on behind the query the two directions are kept apart.  What is
read is derived from the tokens taken up; what is derived is read if the tokens
behind it cannot continue it.
-/

namespace SelectQuery

/-! ## Sources -/

/-- A name that is read is the text of the token it takes up. -/
theorem exists_of_readName {expected : Expectation} {tokens rest : List Located} {name : String}
    (read : readName expected tokens = .ok (name, rest)) :
    ∃ token, tokens = token :: rest ∧ token.IsName ∧ name = token.text := by
  cases tokens with
  | nil => cases read
  | cons token tokens =>
      rw [readName] at read
      split at read
      · rename_i named
        cases read
        exact ⟨token, rfl, (Token.canName_iff _).mp named, rfl⟩
      · cases read

theorem readName_cons (expected : Expectation) {token : Token} (named : token.IsName)
    (position : Nat) (rest : List Located) :
    readName expected (⟨token, position⟩ :: rest) = .ok (token.text, rest) := by
  rw [readName, if_pos ((Token.canName_iff token).mpr named)]

/-- A source that is read is derived from the tokens it takes up. -/
theorem derivesSource_of_readSource {tokens rest : List Located} {source : Source}
    (read : readSource tokens = .ok (source, rest)) :
    ∃ used, tokens = used ++ rest ∧ DerivesSource (used.map Located.toToken) source := by
  obtain ⟨⟨name, afterName⟩, readTable, later⟩ := bind_eq_ok_iff.mp read
  obtain ⟨⟨alias?, afterAlias⟩, readAs, equal⟩ := bind_eq_ok_iff.mp later
  cases equal
  obtain ⟨table, rfl, named, rfl⟩ := exists_of_readName readTable
  cases afterName with
  | nil =>
      cases readAs
      exact ⟨[table], rfl, .plain named⟩
  | cons token afterName =>
      rw [readAlias] at readAs
      split at readAs
      · rename_i announces
        obtain ⟨⟨aliasName, afterAlias⟩, readAliasName, equal⟩ := bind_eq_ok_iff.mp readAs
        cases equal
        obtain ⟨aliasToken, rfl, aliased, rfl⟩ := exists_of_readName readAliasName
        exact ⟨[table, token, aliasToken], rfl, .announced named announces aliased⟩
      · split at readAs
        · rename_i aliased
          cases readAs
          exact ⟨[table, token], rfl, .short named ((Token.canName_iff _).mp aliased)⟩
        · cases readAs
          exact ⟨[table], rfl, .plain named⟩

/-- A token that is no alias of the source before it. -/
structure Token.EndsSource (token : Token) : Prop where
  noAnnouncer : token.spells "AS" = false
  noName : token.canName = false

/-- A derived source is read, if no alias follows. -/
theorem readSource_of_derivesSource {used : List Token} {source : Source}
    (derived : DerivesSource used source) (position : Nat) {rest : List Token}
    (ends : ∀ token ∈ rest.head?, token.EndsSource) :
    readSource (Located.number position (used ++ rest)) =
      .ok (source, Located.number (position + used.length) rest) := by
  cases derived with
  | plain named =>
      cases rest with
      | nil => simp [readSource, readName_cons, named, readAlias, bind, Except.bind]
      | cons token rest =>
          have stops := ends token rfl
          simp [readSource, readName_cons, named, readAlias, stops.noAnnouncer, stops.noName, bind,
            Except.bind]
  | announced named announces aliased =>
      simp [readSource, readName_cons, named, readAlias, announces, aliased, bind, Except.bind]
  | @short table name named aliased =>
      have announcesNothing : name.spells "AS" = false := aliased.unreserved "AS" (by decide)
      simp [readSource, readName_cons, named, readAlias, announcesNothing,
        (Token.canName_iff name).mpr aliased, bind, Except.bind]

/-! ## Selects -/

/-- A `SELECT` that is read is derived from the tokens it takes up, and its
parentheses nest up to the limit. -/
theorem derivesSelect_of_readSelect {limit : Nat} {tokens rest : List Located}
    {statement : Select} (read : readSelect limit tokens = .ok (statement, rest)) :
    ∃ used, tokens = used ++ rest ∧ DerivesSelect (used.map Located.toToken) statement ∧
      statement.NestsWithin limit := by
  cases tokens with
  | nil => cases read
  | cons keyword tokens =>
      rw [readSelect] at read
      split at read
      · rename_i opens
        obtain ⟨⟨columns, afterColumns⟩, readItems, later⟩ := bind_eq_ok_iff.mp read
        obtain ⟨⟨source, afterSource⟩, readNames, later⟩ := bind_eq_ok_iff.mp later
        obtain ⟨⟨filter, afterFilter⟩, readConditions, equal⟩ := bind_eq_ok_iff.mp later
        cases equal
        rcases derivesColumns_of_readColumns Column.Draft.holds_start readItems with
          ⟨items, sourceKeyword, rfl, sourced, projected, nested⟩
        obtain ⟨names, rfl, tables⟩ := derivesSource_of_readSource readNames
        obtain ⟨conditions, rfl, filtered⟩ := derivesFilter_of_readFilter readConditions
        refine ⟨keyword :: (items ++ sourceKeyword :: (names ++ conditions)), by simp, ?_, nested⟩
        simpa using DerivesSelect.select opens projected sourced tables filtered
      · cases read

/-- A token that cannot continue the `SELECT` before it. -/
structure Token.EndsSelect (token : Token) : Prop extends token.EndsSource where
  noFilter : token.role ≠ .clause .filter
  noConnective : ∀ connective, token.role ≠ .connective connective

/-- `WHERE` ends a source. -/
theorem Token.endsSource_of_role {token : Token} (role : token.role = .clause .filter) :
    token.EndsSource :=
  ⟨spells_eq_false_of_role_ne (by simp [role]) (by decide),
    canName_eq_false_of_role_ne (by simp [role])⟩

/-- A derived `SELECT` is read, if its parentheses nest up to the limit and the
tokens behind it cannot continue it. -/
theorem readSelect_of_derivesSelect {used : List Token} {statement : Select}
    (derived : DerivesSelect used statement) {limit : Nat}
    (within : statement.NestsWithin limit) (position : Nat) {rest : List Token}
    (ends : ∀ token ∈ rest.head?, token.EndsSelect) :
    readSelect limit (Located.number position (used ++ rest)) =
      .ok (statement, Located.number (position + used.length) rest) := by
  cases derived with
  | @select keyword items sourceKeyword names conditions columns source filter opens projected
      sourced tables filtered =>
      have endsSource : ∀ token ∈ (conditions ++ rest).head?, token.EndsSource := by
        intro token isHead
        cases filtered with
        | absent => exact (ends token isHead).toEndsSource
        | present role =>
            cases isHead
            exact Token.endsSource_of_role role
      have readItems := readColumns_of_derivesColumns projected within sourced (position + 1)
        (names ++ (conditions ++ rest))
      have readNames := readSource_of_derivesSource tables (position + 1 + items.length + 1)
        endsSource
      have readConditions := readFilter_of_derivesFilter filtered
        (position + 1 + items.length + 1 + names.length)
        (fun token isHead => (ends token isHead).noFilter)
        (fun token isHead => (ends token isHead).noConnective)
      simp only [List.cons_append, List.append_assoc, Located.number_cons, readSelect, opens,
        if_true, bind, Except.bind, readItems, readNames, readConditions]
      simp [Nat.add_assoc, Nat.add_comm, Nat.add_left_comm]

/-! ## Set operators -/

/-- A set operator that is read is derived from the words it takes up. -/
theorem derivesSetOperator_of_readSetOperator {tokens rest : List Located}
    {operator : SetOperator} (read : readSetOperator tokens = .ok (some operator, rest)) :
    ∃ words, tokens = words ++ rest ∧
      DerivesSetOperator (words.map Located.toToken) operator := by
  cases tokens with
  | nil => cases read
  | cons first tokens =>
      rw [readSetOperator] at read
      split at read
      · rename_i unites
        split at read
        · cases read
        · rename_i found next afterNext split
          split at read
          · cases read
            cases tokens with
            | nil => cases split
            | cons second tokens =>
                rw [unionOrUnionAll] at split
                split at split
                · rename_i all
                  cases split
                  exact ⟨[first, second], rfl, .unionAll unites all⟩
                · cases split
                  exact ⟨[first], rfl, .union unites⟩
          · cases read
      · cases read

/-- Where no set operator is read, no token is taken up. -/
theorem eq_of_readSetOperator_none {tokens rest : List Located}
    (read : readSetOperator tokens = .ok (none, rest)) : tokens = rest := by
  cases tokens with
  | nil =>
      cases read
      rfl
  | cons first tokens =>
      rw [readSetOperator] at read
      split at read
      · split at read
        · cases read
        · split at read <;> cases read
      · cases read
        rfl

/-- A derived set operator before `SELECT` is read. -/
theorem readSetOperator_of_derivesSetOperator {words : List Token} {operator : SetOperator}
    (derived : DerivesSetOperator words operator) (position : Nat) {keyword : Token}
    (opens : keyword.role = .clause .columns) (rest : List Token) :
    readSetOperator (Located.number position (words ++ keyword :: rest)) =
      .ok (some operator, Located.number (position + words.length) (keyword :: rest)) := by
  cases derived with
  | union unites =>
      have notAll : keyword.spells "ALL" = false :=
        Token.spells_eq_false_of_role_ne (by simp [opens]) (by decide)
      simp [readSetOperator, unites, unionOrUnionAll, notAll, opens]
  | unionAll unites all => simp [readSetOperator, unites, unionOrUnionAll, all, opens]

/-- The word `UNION` cannot continue a `SELECT`. -/
theorem Token.endsSelect_of_union {token : Token} (unites : token.spells "UNION" = true) :
    token.EndsSelect := by
  have role := role_eq_identifier_of_spells unites (by decide)
  have letters := ((spells_iff token "UNION").mp unites).2
  have noAnnouncer : token.spells "AS" = false := by
    rw [Bool.eq_false_iff, Ne, spells_iff, letters]
    exact fun announces => absurd announces.2 (by decide)
  have noName : token.canName = false := by
    rw [Bool.eq_false_iff, Ne, canName_iff]
    intro named
    simp [named.unreserved "UNION" (by decide)] at unites
  exact ⟨⟨noAnnouncer, noName⟩, by simp [role], by simp [role]⟩

/-! ## Queries -/

/-- A query that is read is derived from the tokens it takes up, and keeps to the
limits. -/
theorem derivesQuery_of_readQueryWithin {limit selects : Nat} {tokens rest : List Located}
    {query : Query} (read : readQueryWithin limit selects tokens = .ok (query, rest)) :
    ∃ used, tokens = used ++ rest ∧ DerivesQuery (used.map Located.toToken) query ∧
      query.leavesInOrder.length ≤ selects ∧
      ∀ statement ∈ query.leavesInOrder, statement.NestsWithin limit := by
  induction selects generalizing tokens query with
  | zero => cases read
  | succ selects inductionHypothesis =>
      obtain ⟨⟨statement, afterSelect⟩, readFirst, later⟩ := bind_eq_ok_iff.mp read
      obtain ⟨⟨operator?, afterOperator⟩, readOperator, later⟩ := bind_eq_ok_iff.mp later
      obtain ⟨used, rfl, first, nested⟩ := derivesSelect_of_readSelect readFirst
      cases operator? with
      | none =>
          cases later
          cases eq_of_readSetOperator_none readOperator
          exact ⟨used, rfl, .single first, Nat.succ_le_succ (Nat.zero_le selects),
            List.forall_mem_singleton.mpr nested⟩
      | some operator =>
          obtain ⟨⟨right, afterRight⟩, readRight, equal⟩ := bind_eq_ok_iff.mp later
          cases equal
          obtain ⟨words, rfl, combines⟩ := derivesSetOperator_of_readSetOperator readOperator
          obtain ⟨others, rfl, derived, count, nestedRight⟩ := inductionHypothesis readRight
          refine ⟨used ++ (words ++ others), by simp, ?_, Nat.succ_le_succ count,
            List.forall_mem_cons.mpr ⟨nested, nestedRight⟩⟩
          rw [List.map_append, List.map_append]
          exact .combined first combines derived

theorem DerivesSelect.exists_keyword {tokens : List Token} {statement : Select}
    (derived : DerivesSelect tokens statement) :
    ∃ keyword others, tokens = keyword :: others ∧ keyword.role = .clause .columns := by
  cases derived with
  | select opens => exact ⟨_, _, rfl, opens⟩

/-- A derived query begins with `SELECT`. -/
theorem DerivesQuery.exists_keyword {tokens : List Token} {query : Query}
    (derived : DerivesQuery tokens query) :
    ∃ keyword others, tokens = keyword :: others ∧ keyword.role = .clause .columns := by
  cases derived with
  | single only => exact only.exists_keyword
  | combined first _ _ =>
      obtain ⟨keyword, others, rfl, opens⟩ := first.exists_keyword
      exact ⟨keyword, _, rfl, opens⟩

/-- A token that cannot continue the query before it. -/
structure Token.EndsQuery (token : Token) : Prop extends token.EndsSelect where
  noUnion : token.spells "UNION" = false

/-- A derived query that keeps to the limits is read, if the tokens behind it
cannot continue it. -/
theorem readQueryWithin_of_derivesQuery {used : List Token} {query : Query}
    (derived : DerivesQuery used query) {limit selects : Nat}
    (count : query.leavesInOrder.length ≤ selects)
    (within : ∀ statement ∈ query.leavesInOrder, statement.NestsWithin limit)
    (position : Nat) {rest : List Token} (ends : ∀ token ∈ rest.head?, token.EndsQuery) :
    readQueryWithin limit selects (Located.number position (used ++ rest)) =
      .ok (query, Located.number (position + used.length) rest) := by
  induction derived generalizing selects position with
  | @single tokens statement only =>
      obtain ⟨spare, rfl⟩ := Nat.exists_eq_add_of_le' count
      have readOnly := readSelect_of_derivesSelect only
        (within statement (List.mem_singleton_self statement)) position
        fun token isHead => (ends token isHead).toEndsSelect
      have noOperator : readSetOperator (Located.number (position + tokens.length) rest) =
          .ok (none, Located.number (position + tokens.length) rest) := by
        cases rest with
        | nil => rfl
        | cons token rest => simp [readSetOperator, (ends token rfl).noUnion]
      rw [Query.leavesInOrder, List.length_singleton, readQueryWithin, readOnly]
      simp only [bind, Except.bind, noOperator]
  | @combined tokens words others statement operator right first combines later
      inductionHypothesis =>
      rw [Query.leavesInOrder, Query.leavesInOrder, List.singleton_append, List.forall_mem_cons]
        at within
      rw [Query.leavesInOrder, Query.leavesInOrder, List.singleton_append, List.length_cons]
        at count
      obtain ⟨keyword, items, rfl, opens⟩ := later.exists_keyword
      obtain ⟨spare, rfl⟩ := Nat.exists_eq_add_of_le' (Nat.le_of_add_left_le count)
      have endsSelect : ∀ token ∈ (words ++ (keyword :: items ++ rest)).head?,
          token.EndsSelect := by
        intro token isHead
        cases combines with
        | union unites | unionAll unites _ =>
            cases isHead
            exact Token.endsSelect_of_union unites
      have readFirst := readSelect_of_derivesSelect first within.1 position endsSelect
      have readOperator := readSetOperator_of_derivesSetOperator combines
        (position + tokens.length) opens (items ++ rest)
      have readRight := inductionHypothesis (Nat.le_of_succ_le_succ count) within.2
        (position + tokens.length + words.length)
      rw [List.append_assoc, List.append_assoc, readQueryWithin, readFirst]
      simp only [bind, Except.bind, List.cons_append] at readOperator readRight ⊢
      simp only [readOperator, readRight]
      simp [Nat.add_assoc]

namespace Query

/-- What is read from end to end is derived from all the tokens, within the
limit. -/
theorem derivesQuery_of_ofLexemes {limit : Nat} {lexemes : List String} {query : Query}
    (read : ofLexemes limit lexemes = .ok query) :
    DerivesQuery (tokensOfLexemes lexemes) query ∧ query.Within limit := by
  obtain ⟨⟨found, rest⟩, readAll, equal⟩ := bind_eq_ok_iff.mp read
  cases rest with
  | cons => cases equal
  | nil =>
      cases equal
      obtain ⟨used, equal, derived, count, nested⟩ := derivesQuery_of_readQueryWithin readAll
      rw [List.append_nil, Located.tokensFrom, List.drop_zero] at equal
      rw [← equal, Located.map_toToken_number] at derived
      exact ⟨derived, count, nested⟩

/-- What all the tokens derive within the limit is read from end to end. -/
theorem ofLexemes_of_derivesQuery {limit : Nat} {lexemes : List String} {query : Query}
    (derived : DerivesQuery (tokensOfLexemes lexemes) query) (within : query.Within limit) :
    ofLexemes limit lexemes = .ok query := by
  have noneFollows : ∀ token ∈ ([] : List Token).head?, token.EndsQuery := by simp
  have readAll := readQueryWithin_of_derivesQuery derived within.selects within.nesting 0
    noneFollows
  rw [List.append_nil] at readAll
  rw [ofLexemes, readQuery, Located.tokensFrom, List.drop_zero, readAll]
  rfl

/-- The reader accepts exactly the grammar: lexemes are read as a query if and only
if their tokens as a whole derive it within the limit. -/
theorem ofLexemes_eq_ok_iff_derivesQuery (limit : Nat) (lexemes : List String) (query : Query) :
    ofLexemes limit lexemes = .ok query ↔
      DerivesQuery (tokensOfLexemes lexemes) query ∧ query.Within limit :=
  ⟨derivesQuery_of_ofLexemes, fun derived => ofLexemes_of_derivesQuery derived.1 derived.2⟩

end Query

end SelectQuery
