import SelectQuery.Proofs.Reading.Query
import SelectQuery.Proofs.Written.Legible

/-!
# Writing and reading back

A tree comes back unchanged from its lexemes exactly if it is legible and keeps to
the limit.  Both directions go through the grammar and are stated for each of its
symbols: the lexemes of a legible tree derive it, and whatever tokens of lexemes
derive is legible.  The second direction makes every tree that was ever read
legible, so that reading again changes nothing.
-/

namespace SelectQuery

open Query (tokensOfLexemes tokensOfLexemes_append tokensOfLexemes_cons tokensOfLexemes_keyword)

/-! ## Legible trees are derived from their lexemes -/

/-- Items that are written with a separator between them are derived, if each of
them is and the separator joins them. -/
theorem derives_intercalate {β : Type} {derives : List Token → List β → Prop}
    {lexemes : β → List String} {separator : String} (kind : Kind)
    (listed : (separator, kind) ∈ Token.keywords)
    (joins : ∀ tokens others item items, derives tokens [item] → derives others items →
      derives (tokens ++ ⟨kind, separator⟩ :: others) (item :: items))
    {items : List β} (nonempty : items ≠ [])
    (derived : ∀ item ∈ items, derives (tokensOfLexemes (lexemes item)) [item]) :
    derives (tokensOfLexemes ([separator].intercalate (items.map lexemes))) items := by
  induction items with
  | nil => contradiction
  | cons first others inductionHypothesis =>
      rw [List.forall_mem_cons] at derived
      cases others with
      | nil =>
          rw [List.map_singleton, List.intercalate_singleton]
          exact derived.1
      | cons second others =>
          have later := inductionHypothesis (List.cons_ne_nil second others) derived.2
          rw [List.map_cons, List.map_cons, List.intercalate_cons_cons, List.append_assoc,
            tokensOfLexemes_append, List.singleton_append, tokensOfLexemes_keyword kind listed]
          exact joins _ _ _ _ derived.1 later

namespace Expression

/-- The lexeme of a string literal is a leaf. -/
theorem derivesLeaf_quoted (place : Place) (text : String) :
    DerivesLeaf place (Token.ofLexeme (Text.quoted text)) (.stringLiteral text) := by
  rw [Token.ofLexeme_quoted]
  exact .literal rfl

end Expression

/-- The lexeme of a word is a leaf. -/
theorem LegiblePlainWord.derivesLeaf {name : String} (plain : LegiblePlainWord name)
    {place : Place} (free : place = .outside → Text.upper name ≠ "AS") :
    DerivesLeaf place (Token.ofLexeme name) (.identifier name) := by
  have leaf : DerivesLeaf place (Token.ofLexeme name) (.identifier (Token.ofLexeme name).text) := by
    apply DerivesLeaf.word ((legiblePlainWord_iff name).mp plain)
    intro outside
    rw [Bool.eq_false_iff, Ne, plain.spells_iff]
    exact free outside
  rwa [plain.ofLexeme_text] at leaf

/-- The lexeme of a call is a leaf. -/
theorem LegibleCall.derivesLeaf {name : String} {arguments : List String}
    (call : LegibleCall name arguments) (place : Place) :
    DerivesLeaf place (Token.ofLexeme (Expression.callLexeme name arguments))
      (.functionCall name arguments) := by
  rw [call.ofLexeme_callLexeme]
  exact .call rfl call.ofCall_callLexeme

/-- The lexemes of a legible expression derive its parts. -/
theorem Expression.Legible.derivesGroups {place : Place} {expression : Expression}
    (legible : expression.Legible place) :
    DerivesGroups place (tokensOfLexemes expression.lexemes) expression.parts := by
  induction legible with
  | identifier plain free =>
      rw [Expression.lexemes, tokensOfLexemes_cons plain.nonempty]
      exact .leaf (plain.derivesLeaf free)
  | stringLiteral text =>
      rw [Expression.lexemes, tokensOfLexemes_cons (Text.quoted_ne_empty text)]
      exact .leaf (derivesLeaf_quoted _ text)
  | asterisk =>
      rw [Expression.lexemes, tokensOfLexemes_keyword .asterisk (by simp [Token.keywords])]
      exact .leaf (.asterisk rfl)
  | functionCall call =>
      rw [Expression.lexemes, tokensOfLexemes_cons (callLexeme_ne_empty _ _)]
      exact .leaf (call.derivesLeaf _)
  | @concatenation place parts several flat _ inductionHypothesis =>
      rw [Expression.lexemes_concatenation]
      apply derives_intercalate .concat (by simp [Token.keywords])
      · intro tokens others item items first later
        exact .joined first rfl later
      · exact List.ne_nil_of_length_pos (Nat.lt_of_lt_of_le Nat.zero_lt_two several)
      · intro part member
        have group := inductionHypothesis part member
        rwa [parts_of_isGroup (flat part member)] at group
  | @parenthesized place inner legible inductionHypothesis =>
      have group : DerivesGroups place
          (⟨.leftParen, "("⟩ :: (tokensOfLexemes inner.lexemes ++ [⟨.rightParen, ")"⟩]))
          [.parenthesized (.ofParts inner.parts)] :=
        .parenthesized rfl inductionHypothesis rfl
      rw [legible.ofParts_parts] at group
      rw [Expression.lexemes, tokensOfLexemes_keyword .leftParen (by simp [Token.keywords]),
        tokensOfLexemes_append, tokensOfLexemes_keyword .rightParen (by simp [Token.keywords])]
      exact group

/-! ## Legible clauses are derived from their lexemes -/

/-- The lexemes of a legible column derive it; its alias is announced by `AS`. -/
theorem Column.Legible.derivesColumn {column : Column} (legible : column.Legible) :
    DerivesColumn (tokensOfLexemes column.lexemes) column := by
  rcases column with ⟨expression, alias?⟩
  have groups := legible.expression.derivesGroups
  have whole := legible.expression.ofParts_parts
  cases alias? with
  | none =>
      have plain := DerivesColumn.plain groups
      rw [whole] at plain
      rwa [Column.lexemes, aliasLexemes, List.append_nil]
  | some name =>
      have named := legible.aliased name rfl
      have announced := DerivesColumn.announced groups
        (show (Token.ofLexeme "AS").spells "AS" = true by decide) ((legibleName_iff name).mp named)
      rw [whole, named.ofLexeme_text] at announced
      rwa [Column.lexemes, aliasLexemes, tokensOfLexemes_append, tokensOfLexemes_cons (by decide),
        tokensOfLexemes_cons named.nonempty]

/-- The lexemes of legible columns derive them. -/
theorem derivesColumns_of_legible {columns : List Column} (nonempty : columns ≠ [])
    (legible : ∀ column ∈ columns, column.Legible) :
    DerivesColumns (tokensOfLexemes ([","].intercalate (columns.map Column.lexemes))) columns := by
  apply derives_intercalate .comma (by simp [Token.keywords])
  · intro tokens others column columns first later
    cases first with
    | one only => exact .more only rfl later
    | more _ _ absent => cases absent
  · exact nonempty
  · intro column member
    exact .one (legible column member).derivesColumn

/-- The lexemes of a legible source derive it. -/
theorem Source.Legible.derivesSource {source : Source} (legible : source.Legible) :
    DerivesSource (tokensOfLexemes source.lexemes) source := by
  rcases source with ⟨table, alias?⟩
  have named := legible.named
  cases alias? with
  | none =>
      have plain := DerivesSource.plain ((legibleName_iff table).mp named)
      rw [named.ofLexeme_text] at plain
      rwa [Source.lexemes, aliasLexemes, tokensOfLexemes_cons named.nonempty]
  | some name =>
      have aliased := legible.aliased name rfl
      have announced := DerivesSource.announced ((legibleName_iff table).mp named)
        (show (Token.ofLexeme "AS").spells "AS" = true by decide)
        ((legibleName_iff name).mp aliased)
      rw [named.ofLexeme_text, aliased.ofLexeme_text] at announced
      rwa [Source.lexemes, aliasLexemes, tokensOfLexemes_cons named.nonempty,
        tokensOfLexemes_cons (by decide), tokensOfLexemes_cons aliased.nonempty]

/-- The lexeme of a legible operand derives it. -/
theorem Expression.LegibleOperand.derivesOperand {operand : Expression}
    (legible : operand.LegibleOperand) :
    DerivesOperand (tokensOfLexemes operand.lexemes) operand := by
  cases legible with
  | @identifier name word noOpening =>
      have leaf := DerivesOperand.word word.identifier
      rw [word.ofLexeme_text] at leaf
      rw [Expression.lexemes, tokensOfLexemes_cons word.nonempty]
      exact leaf noOpening
  | stringLiteral text =>
      rw [Expression.lexemes, tokensOfLexemes_cons (Text.quoted_ne_empty text),
        Token.ofLexeme_quoted]
      exact .literal rfl
  | functionCall call =>
      rw [Expression.lexemes, tokensOfLexemes_cons (callLexeme_ne_empty _ _),
        call.ofLexeme_callLexeme]
      exact .call rfl call.ofCall_callLexeme

/-- The symbol of a comparator is read as it. -/
theorem Comparator.role_symbol (comparator : Comparator) :
    (Token.ofLexeme comparator.symbol).role = .comparator comparator := by
  have unknown : Token.ofLexeme comparator.symbol = ⟨.unknown, comparator.symbol⟩ := by
    cases comparator <;> decide
  rw [unknown, Token.role, Comparator.ofText?_symbol]

/-- The symbol of a connective is read as it. -/
theorem Connective.role_symbol (connective : Connective) :
    (Token.ofLexeme connective.symbol).role = .connective connective := by
  have unknown : Token.ofLexeme connective.symbol = ⟨.unknown, connective.symbol⟩ := by
    cases connective <;> decide
  have noComparator : Comparator.ofText? connective.symbol = none := by
    cases connective <;> decide
  rw [unknown, Token.role, noComparator, Connective.ofText?_symbol]

/-- The lexemes of legible operands with a comparator between them derive a
comparison. -/
theorem derivesComparison_of_legible {left right : Expression} (first : left.LegibleOperand)
    (second : right.LegibleOperand) (comparator : Comparator) :
    DerivesComparison (tokensOfLexemes (Condition.comparison comparator left right).lexemes)
      (.comparison comparator left right) := by
  have nonempty : comparator.symbol ≠ "" := by cases comparator <;> decide
  rw [Condition.lexemes, tokensOfLexemes_append, tokensOfLexemes_cons nonempty]
  exact .comparison first.derivesOperand comparator.role_symbol second.derivesOperand

/-- The lexemes of a legible condition derive it. -/
theorem Condition.Legible.derivesCondition {condition : Condition} (legible : condition.Legible) :
    DerivesCondition (tokensOfLexemes condition.lexemes) condition := by
  induction legible with
  | comparison first second => exact .single (derivesComparison_of_legible first second _)
  | @logical connective comparator left right others first later _ inductionHypothesis =>
      have nonempty : connective.symbol ≠ "" := by cases connective <;> decide
      rw [Condition.lexemes, tokensOfLexemes_append, tokensOfLexemes_cons nonempty]
      cases first with
      | comparison first second =>
          exact .logical (derivesComparison_of_legible first second _) connective.role_symbol
            inductionHypothesis

/-- The lexemes of a legible filter derive it. -/
theorem derivesFilter_of_legible {filter : Option Condition}
    (legible : ∀ condition ∈ filter, condition.Legible) :
    DerivesFilter (tokensOfLexemes (filterLexemes filter)) filter := by
  cases filter with
  | none => exact .absent
  | some condition =>
      rw [filterLexemes, tokensOfLexemes_keyword (.clause .filter) (by simp [Token.keywords])]
      exact .present rfl (legible condition rfl).derivesCondition

/-- The lexemes of a legible `SELECT` derive it. -/
theorem Select.Legible.derivesSelect {statement : Select} (legible : statement.Legible) :
    DerivesSelect (tokensOfLexemes statement.lexemes) statement := by
  rw [Select.lexemes, tokensOfLexemes_keyword (.clause .columns) (by simp [Token.keywords]),
    tokensOfLexemes_append, tokensOfLexemes_keyword (.clause .source) (by simp [Token.keywords]),
    tokensOfLexemes_append]
  exact .select rfl (derivesColumns_of_legible legible.nonempty legible.columns) rfl
    legible.source.derivesSource (derivesFilter_of_legible legible.filter)

/-- The words of a set operator derive it. -/
theorem SetOperator.derivesSetOperator (operator : SetOperator) :
    DerivesSetOperator (tokensOfLexemes operator.words) operator := by
  cases operator with
  | union => exact .union (by decide)
  | unionAll => exact .unionAll (by decide) (by decide)

/-- The lexemes of a legible query derive it. -/
theorem Query.Legible.derivesQuery {query : Query} (legible : query.Legible) :
    DerivesQuery (tokensOfLexemes query.lexemes) query := by
  induction legible with
  | select only => exact .single only.derivesSelect
  | @combined operator statement right first _ inductionHypothesis =>
      rw [Query.lexemes, tokensOfLexemes_append, tokensOfLexemes_append]
      exact .combined first.derivesSelect operator.derivesSetOperator inductionHypothesis

/-! ## What lexemes derive is legible -/

/-- A token that some lexeme has. -/
def Token.IsWritten (token : Token) : Prop :=
  ∃ lexeme, ofLexeme lexeme = token

/-- The text of a written token that is no literal is its lexeme. -/
theorem Token.IsWritten.ofLexeme_text {token : Token} (written : token.IsWritten)
    (noLiteral : token.role ≠ .stringLiteral) : ofLexeme token.text = token := by
  rcases written with ⟨lexeme, rfl⟩
  rw [Ne, role_eq_stringLiteral_iff] at noLiteral
  rw [ofLexeme_text_of_kind_ne noLiteral]

namespace Token.IsWritten

variable {token : Token}

theorem legibleWord (written : token.IsWritten) (role : token.role = .identifier) :
    LegibleWord token.text := by
  apply legibleWord_of_role
  rwa [written.ofLexeme_text (by simp [role])]

theorem legiblePlainWord (written : token.IsWritten) (plain : token.IsPlainWord) :
    LegiblePlainWord token.text := by
  rw [legiblePlainWord_iff, written.ofLexeme_text (by simp [plain.identifier])]
  exact plain

theorem legibleName (written : token.IsWritten) (named : token.IsName) :
    LegibleName token.text := by
  rw [legibleName_iff, written.ofLexeme_text (by simp [named.identifier])]
  exact named

/-- The call that a written token stands for is legible. -/
theorem legibleCall (written : token.IsWritten) (role : token.role = .functionCall)
    {expression : Expression} (read : Expression.ofCall token.text = .ok expression) :
    ∃ name arguments, expression = .functionCall name arguments ∧
      LegibleCall name arguments := by
  have lexeme := written.ofLexeme_text (by simp [role])
  have known : token.kind ≠ .unknown := by
    intro unknown
    rcases Token.role_of_kind_eq_unknown unknown with ⟨_, other⟩ | ⟨_, other⟩ | other <;>
      simp [role] at other
  rw [Token.role_of_kind_ne_unknown known] at role
  apply legibleCall_of_ofCall _ read
  apply Token.isCallShape_of_ofLexeme
  rw [lexeme, role]

end Token.IsWritten

/-- A written leaf is legible. -/
theorem DerivesLeaf.legible {place : Place} {token : Token} {expression : Expression}
    (leaf : DerivesLeaf place token expression) (written : token.IsWritten) :
    expression.Legible place := by
  cases leaf with
  | asterisk => exact .asterisk
  | literal => exact .stringLiteral token.text
  | call role read =>
      obtain ⟨name, arguments, rfl, call⟩ := written.legibleCall role read
      exact .functionCall call
  | word plain free =>
      have legible := written.legiblePlainWord plain
      have lexeme := written.ofLexeme_text (by simp [plain.identifier])
      apply Expression.Legible.identifier legible
      intro outside spelled
      have noAlias := free outside
      rw [← lexeme, Bool.eq_false_iff, Ne, legible.spells_iff] at noAlias
      exact noAlias spelled

/-- Written groups are legible. -/
theorem DerivesGroups.legible {place : Place} {tokens : List Token} {parts : List Expression}
    (groups : DerivesGroups place tokens parts) (written : ∀ token ∈ tokens, token.IsWritten) :
    ∀ part ∈ parts, part.IsGroup ∧ part.Legible place := by
  induction groups with
  | leaf leaf =>
      rw [List.forall_mem_singleton] at written ⊢
      exact ⟨leaf.isGroup, leaf.legible written⟩
  | parenthesized _ inner _ inductionHypothesis =>
      rw [List.forall_mem_cons, List.forall_mem_append] at written
      have legible := inductionHypothesis written.2.1
      rw [List.forall_mem_singleton]
      constructor
      · rintro parts ⟨⟩
      · exact .parenthesized (Expression.Legible.ofParts inner.parts_ne_nil legible)
  | joined _ _ _ legibleFirst legibleLater =>
      rw [List.forall_mem_append, List.forall_mem_cons] at written
      rw [List.forall_mem_cons]
      exact ⟨legibleFirst written.1 _ (List.mem_singleton_self _), legibleLater written.2.2⟩

/-- The expression of written groups is legible. -/
theorem DerivesGroups.legible_ofParts {place : Place} {tokens : List Token}
    {parts : List Expression} (groups : DerivesGroups place tokens parts)
    (written : ∀ token ∈ tokens, token.IsWritten) : (Expression.ofParts parts).Legible place :=
  Expression.Legible.ofParts groups.parts_ne_nil (groups.legible written)

/-- A written column is legible. -/
theorem DerivesColumn.legible {tokens : List Token} {column : Column}
    (derived : DerivesColumn tokens column) (written : ∀ token ∈ tokens, token.IsWritten) :
    column.Legible := by
  cases derived with
  | plain groups =>
      constructor
      · exact groups.legible_ofParts written
      · rintro name ⟨⟩
  | announced groups _ named =>
      rw [List.forall_mem_append, List.forall_mem_cons, List.forall_mem_singleton] at written
      constructor
      · exact groups.legible_ofParts written.1
      · rintro name ⟨⟩
        exact written.2.2.legibleName named
  | short groups _ named =>
      rw [List.forall_mem_append, List.forall_mem_singleton] at written
      constructor
      · exact groups.legible_ofParts written.1
      · rintro name ⟨⟩
        exact written.2.legibleName named

/-- Written columns are legible. -/
theorem DerivesColumns.legible {tokens : List Token} {columns : List Column}
    (derived : DerivesColumns tokens columns) (written : ∀ token ∈ tokens, token.IsWritten) :
    columns ≠ [] ∧ ∀ column ∈ columns, column.Legible := by
  induction derived with
  | one only =>
      exact ⟨List.cons_ne_nil _ _, List.forall_mem_singleton.mpr (only.legible written)⟩
  | more first _ _ inductionHypothesis =>
      rw [List.forall_mem_append, List.forall_mem_cons] at written
      exact ⟨List.cons_ne_nil _ _, List.forall_mem_cons.mpr
        ⟨first.legible written.1, (inductionHypothesis written.2.2).2⟩⟩

/-- A written source is legible. -/
theorem DerivesSource.legible {tokens : List Token} {source : Source}
    (derived : DerivesSource tokens source) (written : ∀ token ∈ tokens, token.IsWritten) :
    source.Legible := by
  cases derived with
  | plain named =>
      rw [List.forall_mem_singleton] at written
      constructor
      · exact written.legibleName named
      · rintro name ⟨⟩
  | announced named _ aliased =>
      simp only [List.forall_mem_cons] at written
      constructor
      · exact written.1.legibleName named
      · rintro name ⟨⟩
        exact written.2.2.1.legibleName aliased
  | short named aliased =>
      simp only [List.forall_mem_cons] at written
      constructor
      · exact written.1.legibleName named
      · rintro name ⟨⟩
        exact written.2.1.legibleName aliased

/-- A written operand is legible; one that was split is a literal now. -/
theorem DerivesOperand.legible {tokens : List Token} {operand : Expression}
    (derived : DerivesOperand tokens operand) (written : ∀ token ∈ tokens, token.IsWritten) :
    operand.LegibleOperand := by
  cases derived with
  | word role noOpening =>
      rw [List.forall_mem_singleton] at written
      exact .identifier (written.legibleWord role) noOpening
  | literal => exact .stringLiteral _
  | call role read =>
      rw [List.forall_mem_singleton] at written
      obtain ⟨name, arguments, rfl, call⟩ := written.legibleCall role read
      exact .functionCall call
  | split => exact .stringLiteral _

/-- A written comparison is legible, and it is a comparison. -/
theorem DerivesComparison.legible {tokens : List Token} {condition : Condition}
    (derived : DerivesComparison tokens condition)
    (written : ∀ token ∈ tokens, token.IsWritten) :
    ∃ comparator left right, condition = .comparison comparator left right ∧
      condition.Legible := by
  cases derived with
  | comparison first _ second =>
      rw [List.forall_mem_append, List.forall_mem_cons] at written
      exact ⟨_, _, _, rfl, .comparison (first.legible written.1) (second.legible written.2.2)⟩

/-- A written condition is legible. -/
theorem DerivesCondition.legible {tokens : List Token} {condition : Condition}
    (derived : DerivesCondition tokens condition)
    (written : ∀ token ∈ tokens, token.IsWritten) : condition.Legible := by
  induction derived with
  | single only =>
      obtain ⟨_, _, _, _, legible⟩ := only.legible written
      exact legible
  | logical first _ _ inductionHypothesis =>
      rw [List.forall_mem_append, List.forall_mem_cons] at written
      obtain ⟨comparator, left, right, rfl, legible⟩ := first.legible written.1
      exact .logical legible (inductionHypothesis written.2.2)

/-- A written `SELECT` is legible. -/
theorem DerivesSelect.legible {tokens : List Token} {statement : Select}
    (derived : DerivesSelect tokens statement) (written : ∀ token ∈ tokens, token.IsWritten) :
    statement.Legible := by
  cases derived with
  | select _ projected _ tables filtered =>
      simp only [List.forall_mem_cons, List.forall_mem_append] at written
      rcases written with ⟨_, writtenItems, _, writtenNames, writtenConditions⟩
      have columns := projected.legible writtenItems
      constructor
      · exact columns.1
      · exact columns.2
      · exact tables.legible writtenNames
      · rintro condition ⟨⟩
        cases filtered with
        | present _ derived =>
            rw [List.forall_mem_cons] at writtenConditions
            exact derived.legible writtenConditions.2

/-- A written query is legible. -/
theorem DerivesQuery.legible {tokens : List Token} {query : Query}
    (derived : DerivesQuery tokens query) (written : ∀ token ∈ tokens, token.IsWritten) :
    query.Legible := by
  induction derived with
  | single only => exact .select (only.legible written)
  | combined first _ _ inductionHypothesis =>
      rw [List.forall_mem_append, List.forall_mem_append] at written
      exact .combined (first.legible written.1) (inductionHypothesis written.2.2)

namespace Query

/-! ## The round trip -/

/-- Every query that is read from lexemes is legible. -/
theorem legible_of_ofLexemes {limit : Nat} {lexemes : List String} {query : Query}
    (read : ofLexemes limit lexemes = .ok query) : query.Legible :=
  (derivesQuery_of_ofLexemes read).1.legible fun _ => exists_of_mem_tokensOfLexemes

/-- A legible query within the limit is read from its lexemes. -/
theorem Legible.ofLexemes_lexemes {query : Query} (legible : query.Legible) {limit : Nat}
    (within : query.Within limit) : ofLexemes limit query.lexemes = .ok query :=
  ofLexemes_of_derivesQuery legible.derivesQuery within

/-- Which trees come back unchanged: the legible ones within the limit, and no
other. -/
theorem ofLexemes_lexemes_eq_self_iff (query : Query) (limit : Nat) :
    ofLexemes limit query.lexemes = .ok query ↔ query.Legible ∧ query.Within limit := by
  constructor
  · intro read
    exact ⟨legible_of_ofLexemes read, (derivesQuery_of_ofLexemes read).2⟩
  · rintro ⟨legible, within⟩
    exact legible.ofLexemes_lexemes within

/-- What was read is read again from its own lexemes, under the same limit and
without change. -/
theorem ofLexemes_lexemes_of_ofLexemes {limit : Nat} {lexemes : List String} {query : Query}
    (read : ofLexemes limit lexemes = .ok query) :
    ofLexemes limit query.lexemes = .ok query := by
  have legible := legible_of_ofLexemes read
  have within := (derivesQuery_of_ofLexemes read).2
  exact legible.ofLexemes_lexemes within

/-- A call with blanks, a short alias, another spelling of an operator and a split
literal are written in another way than they were read. -/
theorem ofLexemes_lexemes_of_split_literal :
    ∃ query,
      ofLexemes 1 ["select", "coalesce( a , 'x,y' )", "b", "", "from", "t", "where",
        "n", "<>", "'New", "York'"] = .ok query ∧
      query.lexemes = ["SELECT", "coalesce(a,'x,y')", "AS", "b", "FROM", "t", "WHERE",
        "n", "!=", "'New York'"] ∧
      ofLexemes 1 query.lexemes = .ok query := by
  have read : ofLexemes 1 ["select", "coalesce( a , 'x,y' )", "b", "", "from", "t", "where",
      "n", "<>", "'New", "York'"] =
      .ok (.select ⟨[⟨.functionCall "coalesce" ["a", "'x,y'"], some "b"⟩], ⟨"t", none⟩,
        some (.comparison .notEqual (.identifier "n") (.stringLiteral "New York"))⟩) := by
    rw [← toOption_eq_some_iff]
    decide +kernel
  exact ⟨_, read, by decide, ofLexemes_lexemes_of_ofLexemes read⟩

end Query

end SelectQuery
