import SelectQuery.Proofs.LetterCase
import SelectQuery.Proofs.Limit

/-!
# Queries joined by a set operator

Two lists of lexemes that are each read as a query can be joined by `UNION` or
`UNION ALL`.  The list is then read as the chain of all their selects, with the set
operators between them in order, unless together they exceed the limit.

How the first list ends does not matter: the grammar has no lookahead, and no
operator word can continue a `SELECT`.  What is shown of the trees is therefore
about derivations; the limit is added at the end.
-/

namespace SelectQuery

namespace Query

/-! ## Chains -/

/-- A query whose set operators group to the right: each of them has a single
`SELECT` on its left. -/
inductive RightNested : Query → Prop
  | select (statement : Select) : RightNested (.select statement)
  | combined (operator : SetOperator) (statement : Select) {right : Query}
      (later : RightNested right) : RightNested (.combined operator (.select statement) right)

/-- A query with a set operator and a further query behind it, grouped to the right
where the first query is. -/
def followedBy : Query → SetOperator → Query → Query
  | .select statement, operator, others => .combined operator (.select statement) others
  | .combined inner left right, operator, others =>
      .combined inner left (right.followedBy operator others)

theorem leavesInOrder_followedBy (query : Query) (operator : SetOperator) (others : Query) :
    (query.followedBy operator others).leavesInOrder =
      query.leavesInOrder ++ others.leavesInOrder := by
  induction query with
  | select statement => rfl
  | combined inner left right _ orderRight =>
      rw [followedBy, leavesInOrder, orderRight, leavesInOrder, List.append_assoc]

theorem operatorsInOrder_followedBy (query : Query) (operator : SetOperator) (others : Query) :
    (query.followedBy operator others).operatorsInOrder =
      query.operatorsInOrder ++ operator :: others.operatorsInOrder := by
  induction query with
  | select statement => rfl
  | combined inner left right _ orderRight =>
      rw [followedBy, operatorsInOrder, orderRight, operatorsInOrder, List.append_assoc,
        List.cons_append]

end Query

/-- A derived query groups to the right. -/
theorem DerivesQuery.rightNested {tokens : List Token} {query : Query}
    (derived : DerivesQuery tokens query) : query.RightNested := by
  induction derived with
  | single only => exact .select _
  | combined first combines later inductionHypothesis => exact .combined _ _ inductionHypothesis

/-- Derivations can be joined by a set operator. -/
theorem DerivesQuery.followedBy {tokens words others : List Token} {left right : Query}
    {operator : SetOperator} (first : DerivesQuery tokens left)
    (combines : DerivesSetOperator words operator) (later : DerivesQuery others right) :
    DerivesQuery (tokens ++ (words ++ others)) (left.followedBy operator right) := by
  induction first with
  | single only => exact .combined only combines later
  | combined only inner _ inductionHypothesis =>
      rw [List.append_assoc, List.append_assoc]
      exact .combined only inner inductionHypothesis

/-! ## The words of a set operator -/

/-- A lexeme spells a word of capitals from which it differs only in case, if the
word is no keyword. -/
theorem Token.spells_ofLexeme {lexeme word : String} (letters : Text.upper lexeme = word)
    (unknown : (ofLexeme word).kind = .unknown) (capitals : Text.upper word = word) :
    (ofLexeme lexeme).spells word = true := by
  have kind : (ofLexeme lexeme).kind = .unknown := by
    rw [← letters, ofLexeme_upper] at unknown
    exact unknown
  have text : (ofLexeme lexeme).text = lexeme := ofLexeme_text_of_kind_ne (by simp [kind])
  rw [spells_iff, text, letters, capitals]
  exact ⟨kind, rfl⟩

/-- The words of a set operator derive it in any case. -/
theorem Query.derivesSetOperator_of_upper_eq {words : List String} {operator : SetOperator}
    (spelled : words.map Text.upper = operator.words) :
    DerivesSetOperator (tokensOfLexemes words) operator := by
  have spells : ∀ lexeme, ∀ word ∈ ["UNION", "ALL"], Text.upper lexeme = word →
      lexeme ≠ "" ∧ (Token.ofLexeme lexeme).spells word = true := by
    intro lexeme word listed letters
    have unknown : ∀ word ∈ ["UNION", "ALL"], (Token.ofLexeme word).kind = .unknown := by decide
    have capitals : ∀ word ∈ ["UNION", "ALL"], Text.upper word = word := by decide
    refine ⟨?_, Token.spells_ofLexeme letters (unknown word listed) (capitals word listed)⟩
    rintro rfl
    rw [← letters] at listed
    exact absurd listed (by decide)
  cases operator with
  | union =>
      obtain ⟨first, later, rfl, letters, noMore⟩ := List.map_eq_cons_iff.mp spelled
      obtain rfl := List.map_eq_nil_iff.mp noMore
      obtain ⟨nonempty, unites⟩ := spells first "UNION" (by simp) letters
      rw [tokensOfLexemes_cons nonempty]
      exact .union unites
  | unionAll =>
      obtain ⟨first, later, rfl, letters, spelledLater⟩ := List.map_eq_cons_iff.mp spelled
      obtain ⟨second, later, rfl, lettersAll, noMore⟩ := List.map_eq_cons_iff.mp spelledLater
      obtain rfl := List.map_eq_nil_iff.mp noMore
      obtain ⟨nonempty, unites⟩ := spells first "UNION" (by simp) letters
      obtain ⟨nonemptyAll, all⟩ := spells second "ALL" (by simp) lettersAll
      rw [tokensOfLexemes_cons nonempty, tokensOfLexemes_cons nonemptyAll]
      exact .unionAll unites all

/-! ## Joined lists -/

namespace Query

/-- Two queries that are read keep to a limit together if their selects do. -/
theorem within_followedBy_iff {limit : Nat} {left right : Query} (leftWithin : left.Within limit)
    (rightWithin : right.Within limit) (operator : SetOperator) :
    (left.followedBy operator right).Within limit ↔
      left.leaves.length + right.leaves.length ≤ limit := by
  have order := leavesInOrder_followedBy left operator right
  rw [leaves_eq_leavesInOrder, leaves_eq_leavesInOrder, ← List.length_append, ← order]
  refine ⟨fun within => within.selects, fun selects => ⟨selects, ?_⟩⟩
  rw [order, List.forall_mem_append]
  exact ⟨leftWithin.nesting, rightWithin.nesting⟩

/-- Two lists that are read as queries, with a set operator in any case between
them, are read as the right-nested chain of all their selects, if these are not more
than the limit, and exceed the limit otherwise. -/
theorem ofLexemes_append_union {limit : Nat} {lexemes words others : List String}
    {left right : Query} {operator : SetOperator} (readLeft : ofLexemes limit lexemes = .ok left)
    (spelled : words.map Text.upper = operator.words)
    (readRight : ofLexemes limit others = .ok right) :
    ∃ chain : Query, chain.RightNested ∧
      chain.leaves = left.leaves ++ right.leaves ∧
      chain.operatorsInOrder = left.operatorsInOrder ++ operator :: right.operatorsInOrder ∧
      ofLexemes limit (lexemes ++ words ++ others) =
        if left.leaves.length + right.leaves.length ≤ limit then .ok chain
        else .error (.nestingTooDeep limit) := by
  have first := derivesQuery_of_ofLexemes readLeft
  have later := derivesQuery_of_ofLexemes readRight
  have derived := first.1.followedBy (derivesSetOperator_of_upper_eq spelled) later.1
  have bounded := within_followedBy_iff first.2 later.2 operator
  rw [← tokensOfLexemes_append, ← tokensOfLexemes_append, ← List.append_assoc] at derived
  refine ⟨left.followedBy operator right, derived.rightNested, ?_,
    operatorsInOrder_followedBy left operator right, ?_⟩
  · simp only [leaves_eq_leavesInOrder, leavesInOrder_followedBy]
  · split
    · rename_i fits
      exact ofLexemes_of_derivesQuery derived (bounded.mpr fits)
    · rename_i exceeds
      exact ofLexemes_of_not_within derived (mt bounded.mp exceeds)

/-- A chain whose last condition ends with a split literal is continued by a further
`SELECT` behind a `UNION ALL` in mixed case. -/
theorem ofLexemes_append_union_split_literal :
    ∃ left right,
      ofLexemes 3 ["SELECT", "a", "FROM", "t", "x", "UNION", "SELECT", "b", "FROM", "u",
        "WHERE", "c", "=", "'New", "York'"] = .ok left ∧
      ["Union", "aLL"].map Text.upper = SetOperator.unionAll.words ∧
      ofLexemes 3 ["SELECT", "*", "FROM", "v"] = .ok right ∧
      ∃ chain : Query, chain.RightNested ∧ chain.leaves = left.leaves ++ right.leaves ∧
        chain.operatorsInOrder = [.union, .unionAll] ∧
        ofLexemes 3 (["SELECT", "a", "FROM", "t", "x", "UNION", "SELECT", "b", "FROM", "u",
          "WHERE", "c", "=", "'New", "York'"] ++ ["Union", "aLL"] ++
          ["SELECT", "*", "FROM", "v"]) = .ok chain := by
  have readLeft : ofLexemes 3 ["SELECT", "a", "FROM", "t", "x", "UNION", "SELECT", "b", "FROM",
      "u", "WHERE", "c", "=", "'New", "York'"] =
      .ok (.combined .union
        (.select ⟨[⟨.identifier "a", none⟩], ⟨"t", some "x"⟩, none⟩)
        (.select ⟨[⟨.identifier "b", none⟩], ⟨"u", none⟩,
          some (.comparison .equal (.identifier "c") (.stringLiteral "New York"))⟩)) := by
    rw [← toOption_eq_some_iff]
    decide +kernel
  have spelled : ["Union", "aLL"].map Text.upper = SetOperator.unionAll.words := by decide
  have readRight : ofLexemes 3 ["SELECT", "*", "FROM", "v"] =
      .ok (.select ⟨[⟨.asterisk, none⟩], ⟨"v", none⟩, none⟩) := by
    rw [← toOption_eq_some_iff]
    decide +kernel
  obtain ⟨chain, nested, leaves, operators, read⟩ :=
    ofLexemes_append_union readLeft spelled readRight
  refine ⟨_, _, readLeft, spelled, readRight, chain, nested, leaves, operators, ?_⟩
  rw [read, leaves_eq_leavesInOrder, leaves_eq_leavesInOrder]
  exact if_pos (by decide)

end Query

end SelectQuery
