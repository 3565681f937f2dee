import SelectQuery.Proofs.Reading.Window

/-!
# Errors are final

A reader fails because the tokens end where it needs one, or because of a token that
it has met.  Only in the first case can further tokens change the outcome.  In the
second the error is decided by the tokens up to the one that was met, and a token that
the error reports as out of place is that one.

`Final` says so of a reader.  It is kept by sequencing if the first of the two readers
looks one token ahead only: the token at which the second one fails is among those
that the first one may have looked at, and stays where it is.
-/

namespace SelectQuery

namespace Error

/-- The tokens end where one is needed, be it the `FROM` of a column list or the
`SELECT` behind a set operator. -/
def isAtEnd : Error → Bool
  | .endOfInput _ | .missingSource .endOfInput | .unionWithoutSelect _ _ none => true
  | _ => false

/-- The text and the position of the token that an error reports as out of place. -/
def reported? : Error → Option (String × Nat)
  | .unexpectedToken _ text position | .trailingToken text position => some (text, position)
  | _ => none

/-- An error reports no other token than a given one. -/
def ReportsOnly (error : Error) (token : Located) : Prop :=
  error.reported? = none ∨ error.reported? = some (token.text, token.position)

end Error

/-! ## Final readers -/

/-- What comes behind a token is not looked at by one who looks up to that token. -/
theorem sameAhead_token (before : List Located) (token : Located) (rest others : List Located) :
    SameAhead (before ++ token :: rest) (before ++ token :: others) := by
  have ahead : SameAhead (token :: rest) (token :: others) := .inr rfl
  exact ahead.append before

/-- A reading fails at a token, with certain tokens before it and whatever behind it. -/
structure FailsAt {α : Type} (read : List Located → Except Error (α × List Located))
    (error : Error) (before : List Located) (token : Located) : Prop where
  fails : ∀ others, read (before ++ token :: others) = .error error
  reports : error.ReportsOnly token

/-- A reader that fails at a token unless the tokens end where it needs one. -/
def Final {α : Type} (read : List Located → Except Error (α × List Located)) : Prop :=
  ∀ tokens error, read tokens = .error error → error.isAtEnd = false →
    ∃ before token rest, tokens = before ++ token :: rest ∧ FailsAt read error before token

namespace FailsAt

variable {α β : Type} {read read' : List Located → Except Error (α × List Located)}
  {error : Error} {before : List Located} {first token : Located}

/-- A reader fails where its first part does. -/
theorem bind (fails : FailsAt read error before token)
    (next : α × List Located → Except Error (β × List Located)) :
    FailsAt (fun tokens => read tokens >>= next) error before token where
  fails others := by
    rw [fails.fails]
    rfl
  reports := fails.reports

/-- A reader that goes on behind its first token fails where the reader that it goes
on with does. -/
theorem cons (goesOn : ∀ tokens, read (first :: tokens) = read' tokens)
    (fails : FailsAt read' error before token) : FailsAt read error (first :: before) token where
  fails others := by rw [List.cons_append, goesOn, fails.fails]
  reports := fails.reports

/-- Behind a reader that reads the same whatever comes behind the token, a further reader
fails where it does by itself. -/
theorem behind {first : List Located → Except Error (α × List Located)}
    {next : α × List Located → Except Error (β × List Located)} {value : α}
    {used : List Located}
    (again : ∀ others,
      first (used ++ (before ++ token :: others)) = .ok (value, before ++ token :: others))
    (fails : FailsAt (fun tokens => next (value, tokens)) error before token) :
    FailsAt (fun tokens => first tokens >>= next) error (used ++ before) token where
  fails others := by
    rw [List.append_assoc, again]
    exact fails.fails others
  reports := fails.reports

end FailsAt

namespace Final

variable {α β : Type}

/-- Taking up nothing does not fail. -/
theorem pure (value : α) : Final fun tokens => .ok (value, tokens) := by
  intro tokens error failed
  cases failed

/-- Behind a reader that looks one token ahead, a further reader fails where it does
by itself. -/
theorem bind {first : List Located → Except Error (α × List Located)}
    {next : α → List Located → Except Error (β × List Located)} (looksAhead : Local first)
    (final₁ : Final first) (final₂ : ∀ value, Final (next value)) :
    Final fun tokens => first tokens >>= fun (value, rest) => next value rest := by
  intro tokens error failed later
  rcases bind_eq_error_iff.mp failed with failedFirst | ⟨⟨value, middle⟩, readFirst, failedNext⟩
  · rcases final₁ tokens error failedFirst later with ⟨before, token, rest, split, fails⟩
    exact ⟨before, token, rest, split, fails.bind _⟩
  · rcases final₂ value middle error failedNext later with ⟨before, token, rest, rfl, fails⟩
    rcases looksAhead tokens value _ readFirst with ⟨used, rfl, again⟩
    refine ⟨used ++ before, token, rest, by simp, ?_⟩
    apply FailsAt.behind
    · intro others
      exact again _ (sameAhead_token before token rest others)
    · exact fails

end Final

/-! ## Errors of expressions -/

/-- The errors that the tokens of an expression can give. -/
def Error.concernsExpression : Error → Bool
  | .unsupportedColumn _ | .unmatchedParenthesis _ | .nestingTooDeep _ => true
  | _ => false

/-- An error of an expression reports no token. -/
theorem Error.reportsOnly_of_concernsExpression {error : Error}
    (concerns : error.concernsExpression = true) (token : Located) : error.ReportsOnly token := by
  cases error with
  | unsupportedColumn | unmatchedParenthesis | nestingTooDeep => exact .inl rfl
  | _ => cases concerns

/-- Reading the items of a list in turn fails as one of them does. -/
theorem exists_mem_of_mapM_eq_error {ε α β : Type} {read : α → Except ε β} {xs : List α}
    {error : ε} (failed : xs.mapM read = .error error) : ∃ x ∈ xs, read x = .error error := by
  induction xs with
  | nil => cases failed
  | cons x xs inductionHypothesis =>
      rw [List.mapM_cons] at failed
      rcases bind_eq_error_iff.mp failed with failedFirst | ⟨first, _, failedLater⟩
      · exact ⟨x, List.mem_cons_self, failedFirst⟩
      · rcases bind_eq_error_iff.mp failedLater with failedOthers | ⟨others, _, failedEnd⟩
        · rcases inductionHypothesis failedOthers with ⟨item, member, failedItem⟩
          exact ⟨item, List.mem_cons_of_mem x member, failedItem⟩
        · cases failedEnd

namespace Expression

theorem concernsExpression_of_ofCall {text : String} {error : Error}
    (failed : ofCall text = .error error) : error.concernsExpression = true := by
  unfold ofCall at failed
  split at failed
  · cases failed
    rfl
  · split at failed
    · cases failed
      rfl
    · cases failed
    · cases failed
      rfl

theorem concernsExpression_of_ofToken {token : Token} {error : Error}
    (failed : ofToken token = .error error) : error.concernsExpression = true := by
  unfold ofToken at failed
  split at failed
  · cases failed
  · cases failed
  · exact concernsExpression_of_ofCall failed
  · split at failed
    · cases failed
      rfl
    · cases failed
  · cases failed
    rfl
  · cases failed
    rfl
  · cases failed
    rfl

theorem concernsExpression_of_ofPiece {ofInner : List Token → Except Error Expression}
    (inner : ∀ tokens error, ofInner tokens = .error error → error.concernsExpression = true)
    {piece : List Token} {error : Error} (failed : ofPiece ofInner piece = .error error) :
    error.concernsExpression = true := by
  match piece with
  | [] =>
      cases failed
      rfl
  | [token] => exact concernsExpression_of_ofToken failed
  | first :: second :: others =>
      unfold ofPiece at failed
      dsimp only at failed
      split at failed
      · split at failed
        · cases failed
          rfl
        · cases failed
          rfl
        · cases failed
          rfl
        · exact inner _ _ (map_eq_error_iff.mp failed)
      · split at failed
        · cases failed
          rfl
        · cases failed
          rfl

theorem concernsExpression_of_ofTokensWithin {limit levels : Nat} {tokens : List Token}
    {error : Error} (failed : ofTokensWithin limit levels tokens = .error error) :
    error.concernsExpression = true := by
  induction levels generalizing tokens error with
  | zero =>
      cases failed
      rfl
  | succ levels inductionHypothesis =>
      rw [ofTokensWithin_succ, map_eq_error_iff] at failed
      rcases exists_mem_of_mapM_eq_error failed with ⟨piece, _, failedPiece⟩
      exact concernsExpression_of_ofPiece (fun _ _ => inductionHypothesis) failedPiece

end Expression

/-! ## Names and sources -/

/-- The errors of a name. -/
theorem readName_eq_error_cases {expected : Expectation} {tokens : List Located} {error : Error}
    (failed : readName expected tokens = .error error) :
    error = .endOfInput expected ∨
      ∃ token ∈ tokens, error = .unexpectedToken expected token.text token.position := by
  cases tokens with
  | nil =>
      cases failed
      exact .inl rfl
  | cons token tokens =>
      rw [readName] at failed
      split at failed
      · cases failed
      · cases failed
        exact .inr ⟨token, List.mem_cons_self, rfl⟩

theorem final_readName (expected : Expectation) : Final (readName expected) := by
  intro tokens error failed later
  cases tokens with
  | nil =>
      cases failed
      cases later
  | cons token tokens =>
      rw [readName] at failed
      split at failed
      · cases failed
      · rename_i noName
        cases failed
        refine ⟨[], token, tokens, rfl, ⟨fun others => ?_, .inr rfl⟩⟩
        rw [List.nil_append, readName, if_neg noName]

theorem final_readAlias : Final readAlias := by
  intro tokens error failed later
  cases tokens with
  | nil => cases failed
  | cons announcer tokens =>
      rw [readAlias] at failed
      split at failed
      · rename_i announces
        have announced := Final.bind (local_readName .aliasName) (final_readName .aliasName)
          fun name => Final.pure (some name)
        rcases announced tokens error failed later with ⟨before, token, rest, rfl, fails⟩
        refine ⟨announcer :: before, token, rest, rfl, fails.cons fun tokens => ?_⟩
        rw [readAlias, if_pos announces]
      · split at failed <;> cases failed

theorem final_readSource : Final readSource :=
  (final_readName .sourceName).bind (local_readName .sourceName) fun _ =>
    final_readAlias.bind local_readAlias fun _ => .pure _

/-! ## Columns -/

namespace Column.Draft

/-- The errors of a step. -/
theorem step_eq_error_cases {draft : Draft} {token : Located} {error : Error}
    (failed : draft.step token = .error error) :
    error = .unexpectedToken .aliasName token.text token.position ∨
      error = .missingSource (.laterClause token.text token.position) ∨
      ∃ name, error = .unsupportedColumn (.afterAlias token.text name) := by
  unfold Draft.step at failed
  split at failed
  · split at failed
    · cases failed
    · cases failed
      exact .inl rfl
  · cases failed
  · cases failed
    exact .inr (.inl rfl)
  · cases failed
    exact .inr (.inl rfl)
  · cases failed
    exact .inr (.inl rfl)
  · split at failed
    · cases failed
    · split at failed
      · cases failed
        exact .inr (.inr ⟨_, rfl⟩)
      · cases failed

/-- A step fails because of its token. -/
theorem reportsOnly_of_step {draft : Draft} {token : Located} {error : Error}
    (failed : draft.step token = .error error) : error.ReportsOnly token := by
  rcases step_eq_error_cases failed with rfl | rfl | ⟨name, rfl⟩
  · exact .inr rfl
  · exact .inl rfl
  · exact .inl rfl

theorem isAtEnd_errorAtEnd (draft : Draft) : draft.errorAtEnd.isAtEnd = true := by
  unfold Draft.errorAtEnd
  split <;> rfl

theorem concernsExpression_of_toColumn {draft : Draft} {limit position : Nat} {error : Error}
    (failed : draft.toColumn limit position = .error error) :
    error.concernsExpression = true := by
  unfold Draft.toColumn at failed
  split at failed
  · cases failed
    rfl
  · exact Expression.concernsExpression_of_ofTokensWithin (map_eq_error_iff.mp failed)

end Column.Draft

/-- A column list fails at the token that ends a column which is none. -/
theorem failsAt_of_toColumn {limit : Nat} {draft : Column.Draft} {token : Located}
    {result : Column.Step} (step : draft.step token = .ok result)
    (ends : ∀ next, result ≠ .extended next) {error : Error}
    (failed : draft.toColumn limit token.position = .error error) :
    FailsAt (readColumns limit draft) error [] token where
  fails others := by
    rw [List.nil_append, readColumns, step]
    cases result with
    | extended next => exact absurd rfl (ends next)
    | columnEnds | listEnds => exact bind_eq_error_iff.mpr (.inl failed)
  reports := Error.reportsOnly_of_concernsExpression
    (Column.Draft.concernsExpression_of_toColumn failed) token

/-- A column list fails at a token that no column takes, or at the comma or the `FROM`
behind a column that is none. -/
theorem final_readColumns (limit : Nat) (draft : Column.Draft) :
    Final (readColumns limit draft) := by
  intro tokens error failed later
  induction tokens generalizing draft with
  | nil =>
      cases failed
      rw [draft.isAtEnd_errorAtEnd] at later
      cases later
  | cons token tokens inductionHypothesis =>
      rw [readColumns] at failed
      cases step : draft.step token with
      | error earlier =>
          rw [step] at failed
          cases failed
          refine ⟨[], token, tokens, rfl, ⟨fun others => ?_, Column.Draft.reportsOnly_of_step step⟩⟩
          rw [List.nil_append, readColumns, step]
      | ok result =>
          rw [step] at failed
          cases result with
          | extended next =>
              rcases inductionHypothesis next failed with ⟨before, last, rest, rfl, fails⟩
              refine ⟨token :: before, last, rest, rfl, fails.cons fun tokens => ?_⟩
              rw [readColumns, step]
          | columnEnds =>
              rcases bind_eq_error_iff.mp failed with
                failedColumn | ⟨column, readColumn, failedLater⟩
              · exact ⟨[], token, tokens, rfl, failsAt_of_toColumn step (by simp) failedColumn⟩
              · rcases bind_eq_error_iff.mp failedLater with failedOthers | ⟨_, _, failedEnd⟩
                · rcases inductionHypothesis .start failedOthers with
                    ⟨before, last, rest, rfl, fails⟩
                  have failsBehind := fails.bind fun others =>
                    .ok (column :: others.1, others.2)
                  refine ⟨token :: before, last, rest, rfl, failsBehind.cons fun tokens => ?_⟩
                  simp only [readColumns, step, readColumn, bind, Except.bind]
                · cases failedEnd
          | listEnds =>
              rcases bind_eq_error_iff.mp failed with failedColumn | ⟨_, _, failedEnd⟩
              · exact ⟨[], token, tokens, rfl, failsAt_of_toColumn step (by simp) failedColumn⟩
              · cases failedEnd

/-! ## Conditions -/

/-- Nothing but the end of the tokens is wrong within a split literal. -/
theorem isAtEnd_of_readLiteralRest {opening : String} {tokens : List Located} {error : Error}
    (failed : readLiteralRest opening tokens = .error error) : error.isAtEnd = true := by
  rw [(readLiteralRest_eq_error_iff.mp failed).1]
  rfl

/-- The errors of an operand: it has no token, its closing quote is missing, it is a call
that is not read, or its token is none of an operand. -/
theorem readOperand_eq_error_cases {expected : Expectation} {tokens : List Located} {error : Error}
    (failed : readOperand expected tokens = .error error) :
    (tokens = [] ∧ error = .endOfInput expected) ∨
      (∃ opening, error = .endOfInput (.closingQuote opening)) ∨
      (∃ token ∈ tokens, token.role = .functionCall ∧ Expression.ofCall token.text = .error error) ∨
      ∃ token ∈ tokens, error = .unexpectedToken expected token.text token.position := by
  cases tokens with
  | nil =>
      cases failed
      exact .inl ⟨rfl, rfl⟩
  | cons token tokens =>
      rw [readOperand] at failed
      split at failed
      · split at failed
        · rcases bind_eq_error_iff.mp failed with failedRest | ⟨_, _, failedEnd⟩
          · exact .inr (.inl ⟨_, (readLiteralRest_eq_error_iff.mp failedRest).1⟩)
          · cases failedEnd
        · cases failed
      · cases failed
      · rename_i role
        rcases bind_eq_error_iff.mp failed with failedCall | ⟨_, _, failedEnd⟩
        · exact .inr (.inr (.inl ⟨token, List.mem_cons_self, role, failedCall⟩))
        · cases failedEnd
      · cases failed
        exact .inr (.inr (.inr ⟨token, List.mem_cons_self, rfl⟩))

theorem final_readOperand (expected : Expectation) : Final (readOperand expected) := by
  intro tokens error failed later
  cases tokens with
  | nil =>
      cases failed
      cases later
  | cons token tokens =>
      rw [readOperand] at failed
      split at failed
      · split at failed
        · rcases bind_eq_error_iff.mp failed with failedRest | ⟨_, _, failedEnd⟩
          · rw [isAtEnd_of_readLiteralRest failedRest] at later
            cases later
          · cases failedEnd
        · cases failed
      · cases failed
      · rename_i role
        rcases bind_eq_error_iff.mp failed with failedCall | ⟨_, _, failedEnd⟩
        · have concerns := Expression.concernsExpression_of_ofCall failedCall
          refine ⟨[], token, tokens, rfl, ⟨fun others => ?_,
            Error.reportsOnly_of_concernsExpression concerns token⟩⟩
          simp only [List.nil_append, readOperand, role, failedCall, bind, Except.bind]
        · cases failedEnd
      · rename_i noIdentifier noLiteral noCall
        cases failed
        refine ⟨[], token, tokens, rfl, ⟨fun others => ?_, .inr rfl⟩⟩
        rw [List.nil_append, readOperand]
        split <;> first | contradiction | rfl

/-- The errors of a comparator. -/
theorem readComparator_eq_error_cases {tokens : List Located} {error : Error}
    (failed : readComparator tokens = .error error) :
    error = .endOfInput .comparator ∨
      ∃ token ∈ tokens, error = .unexpectedToken .comparator token.text token.position := by
  cases tokens with
  | nil =>
      cases failed
      exact .inl rfl
  | cons token tokens =>
      rw [readComparator] at failed
      split at failed
      · cases failed
      · cases failed
        exact .inr ⟨token, List.mem_cons_self, rfl⟩

theorem final_readComparator : Final readComparator := by
  intro tokens error failed later
  cases tokens with
  | nil =>
      cases failed
      cases later
  | cons token tokens =>
      rw [readComparator] at failed
      split at failed
      · cases failed
      · rename_i noComparator
        cases failed
        refine ⟨[], token, tokens, rfl, ⟨fun others => ?_, .inr rfl⟩⟩
        rw [List.nil_append, readComparator]
        split
        · rename_i role
          exact absurd role (noComparator _)
        · rfl

theorem final_readComparison : Final readComparison :=
  .bind (local_readOperand .operand) (final_readOperand .operand) fun left =>
    .bind local_readComparator final_readComparator fun comparator =>
      .bind (local_readOperand (.operandAfter comparator))
        (final_readOperand (.operandAfter comparator)) fun right =>
          .pure (Condition.comparison comparator left right)

/-- A chain of comparisons fails where the first of its comparisons does that is none. -/
theorem final_readConditionBehind (pending : List (Condition × Connective)) :
    Final (readConditionBehind pending) := by
  intro tokens error failed later
  fun_induction readConditionBehind pending tokens with
  | case1 pending tokens earlier failedFirst =>
      cases failed
      rcases final_readComparison tokens error failedFirst later with
        ⟨before, token, rest, rfl, fails⟩
      refine ⟨before, token, rest, rfl, ⟨fun others => ?_, fails.reports⟩⟩
      rw [readConditionBehind_eq, fails.fails]
      rfl
  | case2 => cases failed
  | case3 pending tokens comparison afterFirst readFirst connective afterConnective goesOn
      inductionHypothesis =>
      rcases inductionHypothesis failed with ⟨before, token, rest, rfl, fails⟩
      rcases local_readComparison _ _ _ readFirst with ⟨first, rfl, again⟩
      rcases connective?_eq_some_iff.mp goesOn with ⟨joint, rfl, role⟩
      refine ⟨first ++ joint :: before, token, rest, by simp, ⟨fun others => ?_, fails.reports⟩⟩
      have found : connective? (joint :: (before ++ token :: others)) =
          some (connective, before ++ token :: others) :=
        connective?_eq_some_iff.mpr ⟨joint, rfl, role⟩
      have readAgain := again (joint :: (before ++ token :: others)) (.inr rfl)
      rw [List.append_assoc, List.cons_append, readConditionBehind_eq, readAgain]
      simp only [bind, Except.bind, found]
      exact fails.fails others

theorem final_readFilter : Final readFilter := by
  intro tokens error failed later
  cases tokens with
  | nil => cases failed
  | cons keyword tokens =>
      rw [readFilter] at failed
      split at failed
      · rename_i role
        have present := Final.bind (local_readConditionBehind []) (final_readConditionBehind [])
          fun condition => Final.pure (some condition)
        rcases present tokens error failed later with ⟨before, token, rest, rfl, fails⟩
        refine ⟨keyword :: before, token, rest, rfl, fails.cons fun tokens => ?_⟩
        rw [readFilter, if_pos role]
        rfl
      · cases failed

/-! ## Queries -/

theorem final_readSelect (limit : Nat) : Final (readSelect limit) := by
  intro tokens error failed later
  cases tokens with
  | nil =>
      cases failed
      cases later
  | cons keyword tokens =>
      rw [readSelect] at failed
      split at failed
      · rename_i opens
        have clauses := Final.bind (local_readColumns limit .start) (final_readColumns limit .start)
          fun columns => Final.bind local_readSource final_readSource fun source =>
            Final.bind local_readFilter final_readFilter fun filter =>
              Final.pure (⟨columns, source, filter⟩ : Select)
        rcases clauses tokens error failed later with ⟨before, token, rest, rfl, fails⟩
        refine ⟨keyword :: before, token, rest, rfl, fails.cons fun tokens => ?_⟩
        rw [readSelect, if_pos opens]
      · rename_i noKeyword
        cases failed
        refine ⟨[], keyword, tokens, rfl, ⟨fun others => ?_, .inr rfl⟩⟩
        rw [List.nil_append, readSelect, if_neg noKeyword]

/-- The only error of a set operator is that no `SELECT` follows. -/
theorem exists_of_readSetOperator_eq_error {tokens : List Located} {error : Error}
    (failed : readSetOperator tokens = .error error) :
    ∃ operator position found, error = .unionWithoutSelect operator position found := by
  cases tokens with
  | nil => cases failed
  | cons token tokens =>
      rw [readSetOperator] at failed
      split at failed
      · split at failed
        · cases failed
          exact ⟨_, _, _, rfl⟩
        · split at failed
          · cases failed
          · cases failed
            exact ⟨_, _, _, rfl⟩
      · cases failed

/-- A set operator fails at the token that stands where its `SELECT` should. -/
theorem final_readSetOperator : Final readSetOperator := by
  intro tokens error failed later
  cases tokens with
  | nil => cases failed
  | cons first tokens =>
      rw [readSetOperator] at failed
      split at failed
      · rename_i unites
        split at failed
        · cases failed
          cases later
        · rename_i operator next rest split
          split at failed
          · cases failed
          · rename_i noKeyword
            cases failed
            cases tokens with
            | nil => cases split
            | cons second tokens =>
                rw [unionOrUnionAll] at split
                split at split
                · rename_i all
                  cases split
                  refine ⟨[first, second], next, rest, rfl, ⟨fun others => ?_, .inl rfl⟩⟩
                  simp [readSetOperator, unites, unionOrUnionAll, all, noKeyword]
                · rename_i notAll
                  cases split
                  refine ⟨[first], next, rest, rfl, ⟨fun others => ?_, .inl rfl⟩⟩
                  simp [readSetOperator, unites, unionOrUnionAll, notAll, noKeyword]
      · cases failed

/-- A set operator that is read leaves its `SELECT`. -/
theorem ne_nil_of_readSetOperator {tokens rest : List Located} {operator : SetOperator}
    (read : readSetOperator tokens = .ok (some operator, rest)) : rest ≠ [] := by
  cases tokens with
  | nil => cases read
  | cons first tokens =>
      rw [readSetOperator] at read
      split at read
      · split at read
        · cases read
        · split at read
          · cases read
            simp
          · cases read
      · cases read

/-- With any number of selects left, a query that begins with a token fails at a token
unless the tokens end: where no select is left, at its first one. -/
theorem final_readQueryWithin (limit selects : Nat) {tokens : List Located}
    (nonempty : selects = 0 → tokens ≠ []) {error : Error}
    (failed : readQueryWithin limit selects tokens = .error error)
    (later : error.isAtEnd = false) :
    ∃ before token rest, tokens = before ++ token :: rest ∧
      FailsAt (readQueryWithin limit selects) error before token := by
  induction selects generalizing tokens with
  | zero =>
      cases failed
      rcases List.exists_cons_of_ne_nil (nonempty rfl) with ⟨token, tokens, rfl⟩
      exact ⟨[], token, tokens, rfl, ⟨fun others => rfl, .inl rfl⟩⟩
  | succ selects inductionHypothesis =>
      rw [readQueryWithin] at failed
      rcases bind_eq_error_iff.mp failed with
        failedSelect | ⟨⟨statement, afterSelect⟩, readFirst, failedLater⟩
      · rcases final_readSelect limit tokens error failedSelect later with
          ⟨before, token, rest, rfl, fails⟩
        exact ⟨before, token, rest, rfl, fails.bind _⟩
      · rcases local_readSelect limit _ _ _ readFirst with ⟨used, rfl, again⟩
        rcases bind_eq_error_iff.mp failedLater with
          failedOperator | ⟨⟨operator?, afterOperator⟩, readOperator, failedRight⟩
        · rcases final_readSetOperator _ error failedOperator later with
            ⟨before, token, rest, rfl, fails⟩
          refine ⟨used ++ before, token, rest, by simp, ?_⟩
          apply FailsAt.behind
          · intro others
            exact again _ (sameAhead_token before token rest others)
          · exact fails.bind _
        · cases operator? with
          | none => cases failedRight
          | some operator =>
              rcases bind_eq_error_iff.mp failedRight with failedQuery | ⟨_, _, failedEnd⟩
              · rcases exists_words_of_readSetOperator readOperator with
                  ⟨words, rfl, againOperator⟩
                have opens := ne_nil_of_readSetOperator readOperator
                rcases inductionHypothesis (fun _ => opens) failedQuery with
                  ⟨before, token, rest, rfl, fails⟩
                refine ⟨used ++ (words ++ before), token, rest, by simp, ?_⟩
                apply FailsAt.behind
                · intro others
                  rw [List.append_assoc]
                  exact again _ ((sameAhead_token before token rest others).append words)
                · apply FailsAt.behind
                  · intro others
                    apply againOperator
                    cases before <;> rfl
                  · exact fails.bind _
              · cases failedEnd

end SelectQuery
