import SelectQuery.Proofs.Limit
import SelectQuery.Proofs.Reading.Window
import SelectQuery.Proofs.Union
import SelectQuery.Proofs.Written.Legible

/-!
# What is read is well-formed

The types of the tree admit more trees than a reader gives.  The well-formed ones have
a column in every `SELECT`, several parts in every concatenation, and operators that
group to the right; no name of theirs begins or ends with a quote.

That a tree which is read is well-formed depends on no classification.  The tokens may
be any, with kinds that no lexeme of their text has: each of the three trees, of the
query, of a condition and of an expression, is well-formed because the grammar derives
it.
-/

namespace SelectQuery

/-! ## Expressions -/

/-- A text with no quote at either end. -/
structure Text.IsBare (text : String) : Prop where
  noOpening : opensQuote text = false
  noClosing : closesQuote text = false

namespace Expression

/-- A well-formed expression of a column.  Its names are bare; a concatenation has
several parts, none of them a concatenation itself. -/
inductive WellFormed : Expression → Prop
  | identifier {name} (bare : Text.IsBare name) : WellFormed (.identifier name)
  | stringLiteral (text : String) : WellFormed (.stringLiteral text)
  | asterisk : WellFormed .asterisk
  | functionCall (name : String) (arguments : List String) :
      WellFormed (.functionCall name arguments)
  | concatenation {parts} (several : 2 ≤ parts.length) (flat : ∀ part ∈ parts, part.IsGroup)
      (wellFormed : ∀ part ∈ parts, WellFormed part) : WellFormed (.concatenation parts)
  | parenthesized {inner} (wellFormed : WellFormed inner) : WellFormed (.parenthesized inner)

/-- An operand of a comparison: a name that opens no quote, a literal or a call. -/
inductive IsOperand : Expression → Prop
  | identifier {name} (noOpening : Text.opensQuote name = false) : IsOperand (.identifier name)
  | stringLiteral (text : String) : IsOperand (.stringLiteral text)
  | functionCall (name : String) (arguments : List String) :
      IsOperand (.functionCall name arguments)

/-- Well-formed groups make up a well-formed expression. -/
theorem WellFormed.ofParts {parts : List Expression} (nonempty : parts ≠ [])
    (groups : ∀ part ∈ parts, part.IsGroup ∧ part.WellFormed) : (ofParts parts).WellFormed :=
  ofParts_of_groups nonempty groups .concatenation

end Expression

/-! ## Clauses -/

/-- A well-formed expression under a bare name, if it is given one. -/
structure Column.WellFormed (column : Column) : Prop where
  expression : column.expression.WellFormed
  aliased : ∀ name ∈ column.alias?, Text.IsBare name

/-- A source with bare names. -/
structure Source.WellFormed (source : Source) : Prop where
  named : Text.IsBare source.name
  aliased : ∀ name ∈ source.alias?, Text.IsBare name

/-- A condition between operands in which the left side of each connective is a
comparison. -/
inductive Condition.WellFormed : Condition → Prop
  | comparison {comparator left right} (first : left.IsOperand) (second : right.IsOperand) :
      WellFormed (.comparison comparator left right)
  | logical {connective comparator left right others}
      (first : WellFormed (.comparison comparator left right)) (later : WellFormed others) :
      WellFormed (.logical connective (.comparison comparator left right) others)

/-- A `SELECT` with at least one column, all of whose clauses are well-formed. -/
structure Select.WellFormed (statement : Select) : Prop where
  nonempty : statement.columns ≠ []
  columns : ∀ column ∈ statement.columns, column.WellFormed
  source : statement.source.WellFormed
  filter : ∀ condition ∈ statement.filter, condition.WellFormed

/-! ## What is derived is well-formed -/

theorem Token.IsPlainWord.isBare {token : Token} (plain : token.IsPlainWord) :
    Text.IsBare token.text :=
  ⟨plain.noOpening, plain.noClosing⟩

theorem DerivesLeaf.wellFormed {place : Place} {token : Token} {expression : Expression}
    (leaf : DerivesLeaf place token expression) : expression.WellFormed := by
  cases leaf with
  | asterisk => exact .asterisk
  | literal => exact .stringLiteral token.text
  | call _ read =>
      rcases Expression.exists_of_ofCall read with ⟨name, arguments, rfl⟩
      exact .functionCall name arguments
  | word plain _ => exact .identifier plain.isBare

namespace DerivesGroups

variable {place : Place} {tokens : List Token} {parts : List Expression}

theorem wellFormed (groups : DerivesGroups place tokens parts) :
    ∀ part ∈ parts, part.IsGroup ∧ part.WellFormed := by
  induction groups with
  | leaf leaf =>
      rw [List.forall_mem_singleton]
      exact ⟨leaf.isGroup, leaf.wellFormed⟩
  | parenthesized _ inner _ wellFormedInner =>
      rw [List.forall_mem_singleton]
      constructor
      · rintro parts ⟨⟩
      · exact .parenthesized (.ofParts inner.parts_ne_nil wellFormedInner)
  | joined _ _ _ wellFormedFirst wellFormedLater =>
      rw [List.forall_mem_cons]
      exact ⟨wellFormedFirst _ (List.mem_singleton_self _), wellFormedLater⟩

theorem wellFormed_ofParts (groups : DerivesGroups place tokens parts) :
    (Expression.ofParts parts).WellFormed :=
  .ofParts groups.parts_ne_nil groups.wellFormed

end DerivesGroups

theorem DerivesColumn.wellFormed {tokens : List Token} {column : Column}
    (derived : DerivesColumn tokens column) : column.WellFormed := by
  cases derived with
  | plain groups =>
      constructor
      · exact groups.wellFormed_ofParts
      · rintro name ⟨⟩
  | announced groups _ named =>
      constructor
      · exact groups.wellFormed_ofParts
      · rintro name ⟨⟩
        exact named.isBare
  | short groups _ named =>
      constructor
      · exact groups.wellFormed_ofParts
      · rintro name ⟨⟩
        exact named.isBare

theorem DerivesColumns.wellFormed {tokens : List Token} {columns : List Column}
    (derived : DerivesColumns tokens columns) :
    columns ≠ [] ∧ ∀ column ∈ columns, column.WellFormed := by
  induction derived with
  | one only =>
      constructor
      · simp
      · rw [List.forall_mem_singleton]
        exact only.wellFormed
  | more first _ _ inductionHypothesis =>
      constructor
      · simp
      · rw [List.forall_mem_cons]
        exact ⟨first.wellFormed, inductionHypothesis.2⟩

theorem DerivesSource.wellFormed {tokens : List Token} {source : Source}
    (derived : DerivesSource tokens source) : source.WellFormed := by
  cases derived with
  | plain named =>
      constructor
      · exact named.isBare
      · rintro name ⟨⟩
  | announced named _ aliased =>
      constructor
      · exact named.isBare
      · rintro name ⟨⟩
        exact aliased.isBare
  | short named aliased =>
      constructor
      · exact named.isBare
      · rintro name ⟨⟩
        exact aliased.isBare

theorem DerivesOperand.isOperand {tokens : List Token} {operand : Expression}
    (derived : DerivesOperand tokens operand) : operand.IsOperand := by
  cases derived with
  | word _ noOpening => exact .identifier noOpening
  | literal => exact .stringLiteral _
  | call _ read =>
      rcases Expression.exists_of_ofCall read with ⟨name, arguments, rfl⟩
      exact .functionCall name arguments
  | split => exact .stringLiteral _

/-- The left side of a connective is a comparison by the rule for chains. -/
theorem DerivesCondition.wellFormed {tokens : List Token} {condition : Condition}
    (derived : DerivesCondition tokens condition) : condition.WellFormed := by
  induction derived with
  | single only =>
      cases only with
      | comparison first _ second => exact .comparison first.isOperand second.isOperand
  | logical only _ _ inductionHypothesis =>
      cases only with
      | comparison first _ second =>
          exact .logical (.comparison first.isOperand second.isOperand) inductionHypothesis

theorem DerivesSelect.wellFormed {tokens : List Token} {statement : Select}
    (derived : DerivesSelect tokens statement) : statement.WellFormed := by
  cases derived with
  | select _ projected _ tables filtered =>
      constructor
      · exact projected.wellFormed.1
      · exact projected.wellFormed.2
      · exact tables.wellFormed
      · intro condition member
        cases filtered with
        | absent => cases member
        | present _ derived =>
            cases member
            exact derived.wellFormed

theorem DerivesQuery.wellFormed {tokens : List Token} {query : Query}
    (derived : DerivesQuery tokens query) :
    ∀ statement ∈ query.leavesInOrder, statement.WellFormed := by
  induction derived with
  | single only =>
      rw [Query.leavesInOrder, List.forall_mem_singleton]
      exact only.wellFormed
  | combined first _ _ inductionHypothesis =>
      rw [Query.leavesInOrder, Query.leavesInOrder, List.singleton_append, List.forall_mem_cons]
      exact ⟨first.wellFormed, inductionHypothesis⟩

/-! ## What is read is derived -/

namespace Query

/-- A query that is read from an index is derived from some of the tokens, and keeps
to the limit. -/
theorem exists_derivesQuery_of_ofTokens {limit start stop : Nat} {tokens : List Token}
    {query : Query} (read : ofTokens limit tokens start = .ok (query, stop)) :
    ∃ used, DerivesQuery used query ∧ query.Within limit := by
  rcases bind_eq_ok_iff.mp read with ⟨⟨found, rest⟩, readAll, equal⟩
  cases equal
  rcases derivesQuery_of_readQueryWithin readAll with ⟨used, _, derived, count, nested⟩
  exact ⟨used.map Located.toToken, derived, ⟨count, nested⟩⟩

/-- Whatever the tokens are, a query that is read from them has at least one `SELECT`
and no more than the limit, its parentheses nest no deeper than the limit, its set
operators group to the right, and each `SELECT` is well-formed. -/
theorem wellFormed_of_ofTokens {limit start stop : Nat} {tokens : List Token} {query : Query}
    (read : ofTokens limit tokens start = .ok (query, stop)) :
    query.RightNested ∧ (1 ≤ query.leaves.length ∧ query.leaves.length ≤ limit) ∧
      query.nesting ≤ limit ∧ ∀ statement ∈ query.leaves, statement.WellFormed := by
  rcases exists_derivesQuery_of_ofTokens read with ⟨used, derived, within⟩
  have bounds := (within_iff limit query).mp within
  have some : 1 ≤ query.leaves.length := by
    rw [leaves_eq_leavesInOrder, length_leavesInOrder]
    exact Nat.le_add_left 1 _
  refine ⟨derived.rightNested, ⟨some, bounds.1⟩, bounds.2, ?_⟩
  rw [leaves_eq_leavesInOrder]
  exact derived.wellFormed

/-- Tokens that no lexemes have: words of the syntax as identifiers, a call without a name,
and kinds that the texts do not fit. -/
theorem wellFormed_of_ofTokens_unclassified :
    let tokens : List Token :=
      [⟨.comma, ","⟩, ⟨.clause .columns, ""⟩, ⟨.leftParen, ""⟩, ⟨.identifier, "AS"⟩,
        ⟨.rightParen, ""⟩, ⟨.concat, ""⟩, ⟨.functionCall, "(,')')"⟩, ⟨.identifier, "UNION"⟩,
        ⟨.clause .source, ""⟩, ⟨.identifier, ""⟩, ⟨.clause .filter, ""⟩, ⟨.stringLiteral, "x'"⟩,
        ⟨.comparator .like, ""⟩, ⟨.identifier, "x'"⟩, ⟨.connective .or, ""⟩,
        ⟨.functionCall, "f()"⟩, ⟨.comparator .equal, ""⟩, ⟨.unknown, "'a"⟩, ⟨.unknown, "b'"⟩,
        ⟨.empty, ""⟩]
    let query : Query := .select
      ⟨[⟨.concatenation [.parenthesized (.identifier "AS"), .functionCall "" ["", "')'"]],
          some "UNION"⟩],
        ⟨"", none⟩,
        some (.logical .or (.comparison .like (.stringLiteral "x'") (.identifier "x'"))
          (.comparison .equal (.functionCall "f" []) (.stringLiteral "a b")))⟩
    ofTokens 2 tokens 1 = .ok (query, 19) ∧ query.RightNested ∧
      (1 ≤ query.leaves.length ∧ query.leaves.length ≤ 2) ∧ query.nesting ≤ 2 ∧
        ∀ statement ∈ query.leaves, statement.WellFormed := by
  intro tokens query
  have read : ofTokens 2 tokens 1 = .ok (query, 19) := by
    rw [← toOption_eq_some_iff]
    decide +kernel
  exact ⟨read, wellFormed_of_ofTokens read⟩

end Query

end SelectQuery
