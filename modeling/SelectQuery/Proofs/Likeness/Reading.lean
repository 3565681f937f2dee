import SelectQuery.Proofs.Likeness.Basic

/-!
# Like tokens are read alike

Each reader gives outcomes that look the same for corresponding tokens.  The lemmas
follow the readers: the expression and the columns, the source, the condition, and
the query as a whole.
-/

namespace SelectQuery

namespace Likeness

variable {like : Likeness} {t t' : Token}

/-! ## Expressions -/

theorem agrees_ofToken (alike : like.token t t') :
    like.Agrees (like.Same View.expression) (Expression.ofToken t) (Expression.ofToken t') := by
  rw [Expression.ofToken, Expression.ofToken, like.role alike]
  split
  · exact .ok rfl
  · rename_i role
    exact .ok (congrArg Expression.stringLiteral (like.literal alike role))
  · rename_i role
    exact like.call alike role
  · rename_i role
    rw [like.opensQuote alike role, like.closesQuote alike (by simp [role])]
    split
    · exact .error (congrArg (fun text => Error.unsupportedColumn (.looseQuote text))
        (like.found alike))
    · exact .ok (congrArg Expression.identifier (like.name alike role))
  · exact .error (congrArg Error.unmatchedParenthesis (like.found alike))
  · exact .error (congrArg Error.unmatchedParenthesis (like.found alike))
  · exact .error (congrArg (fun text => Error.unsupportedColumn (.unknownShape text))
      (like.found alike))

theorem any_role_eq (role : Kind) {tokens tokens' : List Token}
    (corresponding : List.Forall₂ like.token tokens tokens') :
    (tokens'.any fun token => token.role = role) = tokens.any fun token => token.role = role := by
  induction corresponding with
  | nil => rfl
  | cons alike _ inductionHypothesis =>
      rw [List.any_cons, List.any_cons, like.role alike, inductionHypothesis]

theorem agrees_ofPiece {ofInner ofInner' : List Token → Except Error Expression}
    (inner : ∀ tokens tokens', List.Forall₂ like.token tokens tokens' →
      like.Agrees (like.Same View.expression) (ofInner tokens) (ofInner' tokens'))
    {piece piece' : List Token} (corresponding : List.Forall₂ like.token piece piece') :
    like.Agrees (like.Same View.expression) (Expression.ofPiece ofInner piece)
      (Expression.ofPiece ofInner' piece') := by
  have joined := like.joined corresponding
  have closes := any_role_eq .rightParen corresponding
  cases corresponding with
  | nil => exact .error rfl
  | cons alike later =>
      cases later with
      | nil => exact agrees_ofToken alike
      | cons alike' others =>
          have enclosed := Nesting.forall₂_enclosed? mark_eq (.cons alike' others) .inside
          unfold Expression.ofPiece
          dsimp only
          rw [like.role alike, closes]
          split
          · generalize Nesting.enclosed? Token.mark .inside (_ :: _) = found at enclosed ⊢
            generalize Nesting.enclosed? Token.mark .inside (_ :: _) = found' at enclosed ⊢
            cases enclosed with
            | none => exact .error (congrArg Error.unmatchedParenthesis joined)
            | @some found found' parts =>
                rcases found with ⟨within, rest⟩
                rcases found' with ⟨within', rest'⟩
                rcases parts with ⟨correspondingInner, correspondingRest⟩
                cases correspondingRest with
                | cons =>
                    exact .error (congrArg
                      (fun text => Error.unsupportedColumn (.afterParenthesis text)) joined)
                | nil =>
                    cases correspondingInner with
                    | nil => exact .error rfl
                    | cons first later =>
                        exact (inner _ _ (.cons first later)).map fun _ _ same =>
                          congrArg Expression.parenthesized same
          · split
            · exact .error (congrArg Error.unmatchedParenthesis joined)
            · exact .error (congrArg (fun text => Error.unsupportedColumn (.unknownShape text))
                joined)

/-- Items that are read alike one by one are read alike in turn. -/
theorem agrees_mapM {read read' : List Token → Except Error Expression}
    (item : ∀ tokens tokens', List.Forall₂ like.token tokens tokens' →
      like.Agrees (like.Same View.expression) (read tokens) (read' tokens'))
    {pieces pieces' : List (List Token)}
    (corresponding : List.Forall₂ (List.Forall₂ like.token) pieces pieces') :
    like.Agrees (like.Same fun view => List.map view.expression) (pieces.mapM read)
      (pieces'.mapM read') := by
  induction corresponding with
  | nil => exact .ok rfl
  | cons first _ inductionHypothesis =>
      rw [List.mapM_cons, List.mapM_cons]
      refine (item _ _ first).bind fun part part' samePart => ?_
      refine inductionHypothesis.bind fun parts parts' sameParts => .ok ?_
      simp only [Same, List.map_cons, samePart, sameParts]

theorem agrees_ofTokensWithin (limit levels : Nat) {tokens tokens' : List Token}
    (corresponding : List.Forall₂ like.token tokens tokens') :
    like.Agrees (like.Same View.expression) (Expression.ofTokensWithin limit levels tokens)
      (Expression.ofTokensWithin limit levels tokens') := by
  induction levels generalizing tokens tokens' with
  | zero => exact .error rfl
  | succ levels inductionHypothesis =>
      have pieces := Nesting.forall₂_pieces mark_eq corresponding .outer
      rw [Expression.ofTokensWithin_succ, Expression.ofTokensWithin_succ]
      have parts := agrees_mapM (fun _ _ => agrees_ofPiece fun _ _ => inductionHypothesis)
        (.cons pieces.1 pieces.2)
      refine parts.map fun parts parts' same => ?_
      rw [Same, View.expression_ofParts, View.expression_ofParts]
      exact congrArg Expression.ofParts same

/-! ## Columns -/

/-- Drafts of corresponding tokens, in the same phase on the same level. -/
structure Drafts (like : Likeness) (draft draft' : Column.Draft) : Prop where
  tokens : List.Forall₂ like.token draft.tokens draft'.tokens
  level : draft.level = draft'.level
  phase : like.Same View.phase draft.phase draft'.phase

/-- Steps that do the same to drafts that correspond. -/
inductive Steps (like : Likeness) : Column.Step → Column.Step → Prop
  | extended {draft draft'} (drafts : like.Drafts draft draft') :
      Steps like (.extended draft) (.extended draft')
  | columnEnds : Steps like .columnEnds .columnEnds
  | listEnds : Steps like .listEnds .listEnds

theorem Drafts.start : like.Drafts .start .start :=
  ⟨.nil, rfl, rfl⟩

/-- Corresponding tokens are added alike. -/
theorem Drafts.add {draft draft' : Column.Draft} (drafts : like.Drafts draft draft')
    (alike : like.token t t') : like.Drafts (draft.add t) (draft'.add t') := by
  obtain ⟨tokens, level, phase⟩ := draft
  obtain ⟨tokens', level', phase'⟩ := draft'
  obtain ⟨corresponding, sameLevel, samePhase⟩ := drafts
  dsimp only at corresponding sameLevel samePhase
  subst sameLevel
  have announces := like.spells alike "AS" (by decide)
  have ends : tokens'.head?.any Token.canEndOperand = tokens.head?.any Token.canEndOperand := by
    cases corresponding with
    | nil => rfl
    | cons last _ => exact canEndOperand_eq last
  unfold Column.Draft.add
  dsimp only
  rw [announces, canName_eq alike, ends]
  split
  · exact ⟨corresponding, rfl, rfl⟩
  · split
    · rename_i named
      simp only [Bool.and_eq_true] at named
      exact ⟨corresponding, rfl, congrArg Column.Phase.aliased (name_of_canName alike named.1.2)⟩
    · exact ⟨.cons alike corresponding, by rw [mark_eq _ _ alike], samePhase⟩

/-- A token that is not what is needed is reported alike. -/
theorem unexpectedToken {t t' : Located} (alike : like.Corresponds t t') {expected : Expectation}
    (same : like.Same View.expectation expected expected) :
    like.Same View.error (.unexpectedToken expected t.text t.position)
      (.unexpectedToken expected t'.text t'.position) := by
  rw [Same, View.error, View.error, same, like.found alike.token, alike.position]

/-- A token that may not follow an alias is reported alike. -/
theorem afterAlias (alike : like.token t t') {name name' : String}
    (same : like.left.name name = like.right.name name') :
    like.Same View.error (.unsupportedColumn (.afterAlias t.text name))
      (.unsupportedColumn (.afterAlias t'.text name')) := by
  rw [Same, View.error, View.error, View.columnFault, View.columnFault, like.found alike,
    like.foundName same]

/-- Corresponding tokens do the same to drafts that correspond. -/
theorem Drafts.step {draft draft' : Column.Draft} (drafts : like.Drafts draft draft')
    {t t' : Located} (alike : like.Corresponds t t') :
    like.Agrees like.Steps (draft.step t) (draft'.step t') := by
  have added := drafts.add alike.token
  obtain ⟨tokens, level, phase⟩ := draft
  obtain ⟨tokens', level', phase'⟩ := draft'
  obtain ⟨corresponding, sameLevel, samePhase⟩ := drafts
  dsimp only at corresponding sameLevel samePhase
  subst sameLevel
  have laterClause : like.Same View.error (.missingSource (.laterClause t.text t.position))
      (.missingSource (.laterClause t'.text t'.position)) := by
    rw [Same, View.error, View.error, View.sourceFault, View.sourceFault, like.found alike.token,
      alike.position]
  unfold Column.Draft.step
  dsimp only
  rw [like.role alike.token, canName_eq alike.token]
  -- Only equal phases look the same, up to the alias that they hold.
  cases phase <;> cases phase' <;>
    simp only [Same, View.phase, Column.Phase.aliased.injEq, reduceCtorEq] at samePhase
  case expression.expression =>
    split
    · contradiction
    · exact .ok .listEnds
    · exact .error laterClause
    · exact .error laterClause
    · exact .error laterClause
    · split
      · exact .ok .columnEnds
      · exact .ok (.extended added)
  case awaitingAlias.awaitingAlias =>
    dsimp only
    split
    · rename_i named
      exact .ok (.extended ⟨corresponding, rfl,
        congrArg Column.Phase.aliased (name_of_canName alike.token named)⟩)
    · exact .error (unexpectedToken alike rfl)
  case aliased.aliased =>
    generalize t.role = role
    cases role with
    | clause opened =>
        cases opened with
        | columns => exact .error (afterAlias alike.token samePhase)
        | source => exact .ok .listEnds
        | filter | order | limit => exact .error laterClause
    | comma =>
        dsimp only
        split
        · exact .ok .columnEnds
        · exact .error (afterAlias alike.token samePhase)
    | _ => exact .error (afterAlias alike.token samePhase)

/-- Lists that end within drafts that correspond end alike. -/
theorem Drafts.errorAtEnd {draft draft' : Column.Draft} (drafts : like.Drafts draft draft') :
    like.Same View.error draft.errorAtEnd draft'.errorAtEnd := by
  have samePhase := drafts.phase
  unfold Column.Draft.errorAtEnd
  generalize draft.phase = phase at samePhase ⊢
  generalize draft'.phase = phase' at samePhase ⊢
  cases phase <;> cases phase' <;> first | rfl | cases samePhase

/-- Drafts that correspond hold aliases that look the same. -/
theorem Drafts.alias? {draft draft' : Column.Draft} (drafts : like.Drafts draft draft') :
    like.Same (fun view => Option.map view.name) draft.phase.alias? draft'.phase.alias? := by
  have same := congrArg Column.Phase.alias? drafts.phase
  rwa [View.alias?_phase, View.alias?_phase] at same

/-- The columns of drafts that correspond look the same. -/
theorem Drafts.toColumn {draft draft' : Column.Draft} (drafts : like.Drafts draft draft')
    (limit : Nat) {position position' : Nat} (same : like.Same View.position position position') :
    like.Agrees (like.Same View.column) (draft.toColumn limit position)
      (draft'.toColumn limit position') := by
  have empty : draft'.tokens.isEmpty = draft.tokens.isEmpty := by
    rw [Bool.eq_iff_iff, List.isEmpty_iff_length_eq_zero, List.isEmpty_iff_length_eq_zero,
      drafts.tokens.length_eq]
  unfold Column.Draft.toColumn
  rw [empty]
  split
  · exact .error (congrArg (fun position => Error.unsupportedColumn (.noTokens position)) same)
  · have expressions := agrees_ofTokensWithin limit (limit + 1)
      (List.forall₂_reverse_iff.mpr drafts.tokens)
    exact expressions.map fun _ _ same => congrArg₂ Column.mk same drafts.alias?

theorem reads_readColumns (limit : Nat) {draft draft' : Column.Draft}
    (drafts : like.Drafts draft draft') :
    like.Reads (like.Same fun view => List.map view.column) (readColumns limit draft)
      (readColumns limit draft') := by
  intro tokens tokens' corresponding
  induction corresponding generalizing draft draft' with
  | nil => exact .error drafts.errorAtEnd
  | @cons token token' _ _ alike later inductionHypothesis =>
      rw [readColumns, readColumns]
      have step := drafts.step alike
      generalize draft.step token = outcome at step ⊢
      generalize draft'.step token' = outcome' at step ⊢
      cases step with
      | error related => exact .error related
      | ok related =>
          cases related with
          | extended extendedDrafts => exact inductionHypothesis extendedDrafts
          | columnEnds =>
              refine (drafts.toColumn limit alike.position).bind fun column column' same => ?_
              refine (inductionHypothesis .start).bind fun result result' related => ?_
              exact .ok ⟨by simp only [Same, List.map_cons, same, related.1], related.2⟩
          | listEnds =>
              refine (drafts.toColumn limit alike.position).bind fun column column' same => ?_
              exact .ok ⟨by simp only [Same, List.map_cons, List.map_nil, same], later⟩

/-! ## Names and sources -/

theorem reads_readName (expected : Expectation)
    (same : like.Same View.expectation expected expected) :
    like.Reads (like.Same View.name) (readName expected) (readName expected) := by
  intro tokens tokens' corresponding
  cases corresponding with
  | nil => exact .error (congrArg Error.endOfInput same)
  | cons alike later =>
      rw [readName, readName, canName_eq alike.token]
      split
      · rename_i named
        exact .ok ⟨name_of_canName alike.token named, later⟩
      · exact .error (unexpectedToken alike same)

theorem reads_readAlias :
    like.Reads (like.Same fun view => Option.map view.name) readAlias readAlias := by
  intro tokens tokens' corresponding
  cases corresponding with
  | nil => exact .ok ⟨rfl, .nil⟩
  | cons alike later =>
      rw [readAlias, readAlias, like.spells alike.token "AS" (by decide), canName_eq alike.token]
      split
      · refine (reads_readName .aliasName rfl _ _ later).bind fun result result' related => ?_
        exact .ok ⟨congrArg some related.1, related.2⟩
      · split
        · rename_i named
          exact .ok ⟨congrArg some (name_of_canName alike.token named), later⟩
        · exact .ok ⟨rfl, .cons alike later⟩

theorem reads_readSource : like.Reads (like.Same View.source) readSource readSource :=
  (reads_readName .sourceName rfl).bind fun name name' sameName =>
    reads_readAlias.bind fun alias? alias?' sameAlias =>
      .pure (show like.Same View.source ⟨name, alias?⟩ ⟨name', alias?'⟩ from
        congrArg₂ Source.mk sameName sameAlias)

/-! ## Conditions -/

/-- What follows the first tokens of two split literals whose tokens correspond. -/
inductive LiteralRests (like : Likeness) : String → String → Prop
  | intro {between between' : List Token} {last last' : Token}
      (corresponding : List.Forall₂ like.token between between')
      (alike : like.token last last') :
      LiteralRests like (Token.literalRest between last) (Token.literalRest between' last')

theorem LiteralRests.cons (alike : like.token t t') {later later' : String}
    (rests : like.LiteralRests later later') :
    like.LiteralRests (" " ++ t.lexeme ++ later) (" " ++ t'.lexeme ++ later') := by
  cases rests with
  | intro corresponding ends => exact .intro (.cons alike corresponding) ends

theorem reads_readLiteralRest {opening opening' : String}
    (same : like.left.found opening = like.right.found opening') :
    like.Reads like.LiteralRests (readLiteralRest opening) (readLiteralRest opening') := by
  intro tokens tokens' corresponding
  induction corresponding with
  | nil => exact .error (congrArg (fun text => Error.endOfInput (.closingQuote text)) same)
  | @cons t t' _ _ alike later inductionHypothesis =>
      have closing : (t.role ≠ .stringLiteral ∧ Text.closesQuote t'.text = true) ↔
          (t.role ≠ .stringLiteral ∧ Text.closesQuote t.text = true) :=
        and_congr_right fun noLiteral => by rw [like.closesQuote alike.token noLiteral]
      rw [readLiteralRest, readLiteralRest, like.role alike.token]
      simp only [closing]
      split
      · exact .ok ⟨.intro .nil alike.token, later⟩
      · refine inductionHypothesis.bind fun result result' related => ?_
        exact .ok ⟨related.1.cons alike.token, related.2⟩

theorem reads_readOperand (expected : Expectation)
    (same : like.Same View.expectation expected expected) :
    like.Reads (like.Same View.expression) (readOperand expected) (readOperand expected) := by
  intro tokens tokens' corresponding
  cases corresponding with
  | nil => exact .error (congrArg Error.endOfInput same)
  | cons alike later =>
      rw [readOperand, readOperand, like.role alike.token]
      split
      · rename_i role
        rw [like.opensQuote alike.token role]
        split
        · rename_i opening
          have rests := reads_readLiteralRest (like.found alike.token) _ _ later
          refine rests.bind fun result result' related => .ok ⟨?_, related.2⟩
          obtain ⟨text, rest⟩ := result
          obtain ⟨text', rest'⟩ := result'
          cases related.1 with
          | intro between last =>
              exact congrArg Expression.stringLiteral
                (like.split alike.token between last role opening)
        · exact .ok ⟨congrArg Expression.identifier (like.name alike.token role), later⟩
      · rename_i role
        exact .ok ⟨congrArg Expression.stringLiteral (like.literal alike.token role), later⟩
      · rename_i role
        exact (like.call alike.token role).bind fun call call' sameCall => .ok ⟨sameCall, later⟩
      · exact .error (unexpectedToken alike same)

theorem reads_readComparator : like.Reads Eq readComparator readComparator := by
  intro tokens tokens' corresponding
  cases corresponding with
  | nil => exact .error rfl
  | cons alike later =>
      rw [readComparator, readComparator, like.role alike.token]
      split
      · exact .ok ⟨rfl, later⟩
      · exact .error (unexpectedToken alike rfl)

theorem reads_readComparison :
    like.Reads (like.Same View.condition) readComparison readComparison :=
  (reads_readOperand .operand rfl).bind fun left left' sameLeft =>
    reads_readComparator.bind_eq fun comparator =>
      (reads_readOperand (.operandAfter comparator) rfl).bind fun right right' sameRight =>
        .pure (show like.Same View.condition (.comparison comparator left right)
            (.comparison comparator left' right') from
          congrArg₂ (Condition.comparison comparator) sameLeft sameRight)

/-- Corresponding tokens begin with the same connective or with none. -/
theorem rel_connective? {tokens tokens' : List Located}
    (corresponding : List.Forall₂ like.Corresponds tokens tokens') :
    Option.Rel (fun found found' =>
      found.1 = found'.1 ∧ List.Forall₂ like.Corresponds found.2 found'.2)
      (connective? tokens) (connective? tokens') := by
  cases corresponding with
  | nil => exact .none
  | cons alike later =>
      rw [connective?, connective?, like.role alike.token]
      split
      · exact .some ⟨rfl, later⟩
      · exact .none

theorem reads_readConditionBehind {pending pending' : List (Condition × Connective)}
    (same : like.Same View.pending pending pending') :
    like.Reads (like.Same View.condition) (readConditionBehind pending)
      (readConditionBehind pending') := by
  intro tokens tokens' corresponding
  have first := reads_readComparison _ _ corresponding
  rw [readConditionBehind_eq pending']
  fun_induction readConditionBehind pending tokens generalizing pending' tokens' with
  | case1 pending tokens error readFirst =>
      rw [readFirst] at first
      obtain ⟨error', readFirst', related⟩ := first.exists_of_error
      rw [readFirst']
      exact .error related
  | case2 pending tokens comparison rest readFirst stops =>
      rw [readFirst] at first
      obtain ⟨⟨comparison', rest'⟩, readFirst', sameComparison, later⟩ := first.exists_of_ok
      have found := rel_connective? later
      rw [stops] at found
      simp only [readFirst', bind, Except.bind]
      generalize connective? rest' = next at found ⊢
      cases found
      refine .ok ⟨?_, later⟩
      rw [Same, View.condition_behind, View.condition_behind, sameComparison, same]
  | case3 pending tokens comparison rest readFirst connective afterConnective goesOn
      inductionHypothesis =>
      rw [readFirst] at first
      obtain ⟨⟨comparison', rest'⟩, readFirst', sameComparison, later⟩ := first.exists_of_ok
      have found := rel_connective? later
      rw [goesOn] at found
      simp only [readFirst', bind, Except.bind]
      generalize connective? rest' = next at found ⊢
      cases found with
      | @some _ next related =>
          obtain ⟨connective', afterConnective'⟩ := next
          obtain ⟨sameConnective, later⟩ := related
          dsimp only at sameConnective later ⊢
          subst sameConnective
          have samePending : like.Same View.pending ((comparison, connective) :: pending)
              ((comparison', connective) :: pending') :=
            congrArg₂ (fun comparison later => (comparison, connective) :: later) sameComparison
              same
          rw [readConditionBehind_eq (_ :: pending')]
          exact inductionHypothesis samePending _ later (reads_readComparison _ _ later)

theorem reads_readFilter :
    like.Reads (like.Same fun view => Option.map view.condition) readFilter readFilter := by
  intro tokens tokens' corresponding
  cases corresponding with
  | nil => exact .ok ⟨rfl, .nil⟩
  | cons alike later =>
      rw [readFilter, readFilter, like.role alike.token]
      split
      · have condition : like.Reads (like.Same View.condition) readCondition readCondition :=
          reads_readConditionBehind rfl
        refine (condition _ _ later).bind fun result result' related => ?_
        exact .ok ⟨congrArg some related.1, related.2⟩
      · exact .ok ⟨rfl, .cons alike later⟩

/-! ## Queries -/

/-- A `SELECT` looks the same if its clauses do. -/
theorem same_select {columns columns' : List Column} {source source' : Source}
    {filter filter' : Option Condition}
    (sameColumns : like.Same (fun view => List.map view.column) columns columns')
    (sameSource : like.Same View.source source source')
    (sameFilter : like.Same (fun view => Option.map view.condition) filter filter') :
    like.Same View.select ⟨columns, source, filter⟩ ⟨columns', source', filter'⟩ := by
  rw [Same, View.select, View.select, Select.mk.injEq]
  exact ⟨sameColumns, sameSource, sameFilter⟩

theorem reads_readSelect (limit : Nat) :
    like.Reads (like.Same View.select) (readSelect limit) (readSelect limit) := by
  intro tokens tokens' corresponding
  cases corresponding with
  | nil => exact .error rfl
  | cons alike later =>
      rw [readSelect, readSelect, like.role alike.token]
      split
      · have clauses : like.Reads (like.Same View.select) _ _ :=
          (reads_readColumns limit .start).bind fun columns columns' sameColumns =>
            reads_readSource.bind fun source source' sameSource =>
              reads_readFilter.bind fun filter filter' sameFilter =>
                .pure (same_select sameColumns sameSource sameFilter)
        exact clauses _ _ later
      · exact .error (unexpectedToken alike rfl)

/-- Behind the word `UNION` corresponding tokens begin alike. -/
theorem forall₂_unionOrUnionAll {tokens tokens' : List Located}
    (corresponding : List.Forall₂ like.Corresponds tokens tokens') :
    (unionOrUnionAll tokens).1 = (unionOrUnionAll tokens').1 ∧
      List.Forall₂ like.Corresponds (unionOrUnionAll tokens).2 (unionOrUnionAll tokens').2 := by
  cases corresponding with
  | nil => exact ⟨rfl, .nil⟩
  | cons alike later =>
      rw [unionOrUnionAll, unionOrUnionAll, like.spells alike.token "ALL" (by decide)]
      split
      · exact ⟨rfl, later⟩
      · exact ⟨rfl, .cons alike later⟩

theorem reads_readSetOperator : like.Reads Eq readSetOperator readSetOperator := by
  intro tokens tokens' corresponding
  cases corresponding with
  | nil => exact .ok ⟨rfl, .nil⟩
  | @cons token token' rest rest' alike later =>
      rw [readSetOperator, readSetOperator, like.spells alike.token "UNION" (by decide)]
      split
      · have split := forall₂_unionOrUnionAll later
        generalize unionOrUnionAll rest = parts at split ⊢
        generalize unionOrUnionAll rest' = parts' at split ⊢
        obtain ⟨operator, rest⟩ := parts
        obtain ⟨operator', rest'⟩ := parts'
        obtain ⟨same, later⟩ := split
        dsimp only at same later
        subst same
        cases later with
        | nil =>
            exact .error (congrArg (fun position => Error.unionWithoutSelect operator position none)
              alike.position)
        | cons next others =>
            dsimp only
            rw [like.role next.token]
            split
            · exact .ok ⟨rfl, .cons next others⟩
            · exact .error (congrArg₂
                (fun position found => Error.unionWithoutSelect operator position (some found))
                alike.position (like.found next.token))
      · exact .ok ⟨rfl, .cons alike later⟩

theorem reads_readQueryWithin (limit selects : Nat) :
    like.Reads (like.Same View.query) (readQueryWithin limit selects)
      (readQueryWithin limit selects) := by
  induction selects with
  | zero => exact fun _ _ _ => .error rfl
  | succ selects inductionHypothesis =>
      intro tokens tokens' corresponding
      rw [readQueryWithin, readQueryWithin]
      refine (reads_readSelect limit _ _ corresponding).bind fun result result' related => ?_
      obtain ⟨statement, rest⟩ := result
      obtain ⟨statement', rest'⟩ := result'
      obtain ⟨sameStatement, correspondingRest⟩ := related
      dsimp only
      refine (reads_readSetOperator _ _ correspondingRest).bind fun result result' related => ?_
      obtain ⟨operator?, afterOperator⟩ := result
      obtain ⟨operator?', afterOperator'⟩ := result'
      obtain ⟨sameOperator, correspondingLater⟩ := related
      dsimp only at sameOperator correspondingLater ⊢
      subst sameOperator
      cases operator? with
      | none => exact .ok ⟨congrArg Query.select sameStatement, correspondingLater⟩
      | some operator =>
          refine (inductionHypothesis _ _ correspondingLater).bind fun result result' related => ?_
          exact .ok ⟨congrArg₂ (Query.combined operator) (congrArg Query.select sameStatement)
            related.1, related.2⟩

/-- Tokens that correspond still do with their numbers, if the positions that look
the same do. -/
theorem forall₂_number {tokens tokens' : List Token}
    (corresponding : List.Forall₂ like.token tokens tokens') {position position' : Nat}
    (same : ∀ index, like.Same View.position (position + index) (position' + index)) :
    List.Forall₂ like.Corresponds (Located.number position tokens)
      (Located.number position' tokens') := by
  induction corresponding generalizing position position' with
  | nil => exact .nil
  | cons alike _ inductionHypothesis =>
      refine .cons ⟨alike, same 0⟩ (inductionHypothesis fun index => ?_)
      rw [Nat.add_assoc, Nat.add_assoc, Nat.add_comm 1]
      exact same (index + 1)

/-- Tokens that correspond from two indexes on are read alike from there, and as many
tokens of one list are left as of the other. -/
theorem agrees_ofTokens (limit : Nat) {start start' : Nat} {tokens tokens' : List Token}
    (corresponding : List.Forall₂ like.token (tokens.drop start) (tokens'.drop start'))
    (same : ∀ index, like.Same View.position (start + index) (start' + index)) :
    like.Agrees (fun result result' => like.Same View.query result.1 result'.1 ∧
        ∃ left, result.2 + left = tokens.length ∧ result'.2 + left = tokens'.length)
      (Query.ofTokens limit tokens start) (Query.ofTokens limit tokens' start') := by
  have reads := reads_readQueryWithin limit limit _ _ (forall₂_number corresponding same)
  rw [Query.ofTokens, Query.ofTokens, readQuery, readQuery, Located.tokensFrom, Located.tokensFrom]
  cases readFirst : readQueryWithin limit limit (Located.number start (tokens.drop start)) with
  | error error =>
      rw [readFirst] at reads
      obtain ⟨error', readSecond, sameError⟩ := reads.exists_of_error
      rw [readSecond]
      exact .error sameError
  | ok result =>
      rw [readFirst] at reads
      obtain ⟨result', readSecond, sameQuery, rests⟩ := reads.exists_of_ok
      rw [readSecond]
      obtain ⟨used, split, _⟩ := derivesQuery_of_readQueryWithin readFirst
      have total := congrArg List.length split
      have sameTotal := corresponding.length_eq
      have sameLeft := rests.length_eq
      simp only [Located.length_number, List.length_append, List.length_drop] at total sameTotal
      exact .ok ⟨sameQuery, result.2.length, by dsimp only; omega, by dsimp only; omega⟩

/-- The tokens of lexemes correspond one by one, if empty lexemes stand in the same
places of both lists. -/
theorem forall₂_tokensOfLexemes {related : String → String → Prop}
    (empty : ∀ lexeme lexeme', related lexeme lexeme' → (lexeme' = "" ↔ lexeme = ""))
    (tokens : ∀ lexeme lexeme', related lexeme lexeme' →
      like.token (Token.ofLexeme lexeme) (Token.ofLexeme lexeme'))
    {lexemes lexemes' : List String} (corresponding : List.Forall₂ related lexemes lexemes') :
    List.Forall₂ like.token (Query.tokensOfLexemes lexemes) (Query.tokensOfLexemes lexemes') := by
  induction corresponding with
  | nil => exact .nil
  | @cons lexeme lexeme' _ _ first _ inductionHypothesis =>
      by_cases nothing : lexeme = ""
      · subst nothing
        obtain rfl := (empty _ _ first).mpr rfl
        exact inductionHypothesis
      · have kept := mt (empty _ _ first).mp nothing
        rw [Query.tokensOfLexemes_cons nothing, Query.tokensOfLexemes_cons kept]
        exact .cons (tokens _ _ first) inductionHypothesis

/-- Lists of lexemes whose tokens correspond are read alike. -/
theorem agrees_ofLexemes (limit : Nat) {lexemes lexemes' : List String}
    (corresponding : List.Forall₂ like.token (Query.tokensOfLexemes lexemes)
      (Query.tokensOfLexemes lexemes'))
    (positions : ∀ position, like.Same View.position position position) :
    like.Agrees (like.Same View.query) (Query.ofLexemes limit lexemes)
      (Query.ofLexemes limit lexemes') := by
  have numbered := forall₂_number corresponding fun index => positions (0 + index)
  refine (reads_readQueryWithin limit limit _ _ numbered).bind fun result result' related => ?_
  obtain ⟨query, rest⟩ := result
  obtain ⟨query', rest'⟩ := result'
  obtain ⟨same, correspondingRest⟩ := related
  cases correspondingRest with
  | nil => exact .ok same
  | cons alike _ =>
      exact .error (congrArg₂ Error.trailingToken (like.found alike.token) alike.position)

end Likeness

end SelectQuery
