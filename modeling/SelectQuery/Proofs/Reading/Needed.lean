import SelectQuery.Proofs.Reading.Failure

/-!
# Where an operand is needed

An operand is needed behind certain tokens exactly if they are a query up to there: by
themselves they are refused because they end where an operand is needed.  Whatever
follows them, the query is then read as the operand is and, if that is read, goes on
behind it.

`NeedsOperand` says so of a reader.  It is kept by sequencing if the first of two readers
looks one token ahead and the second lacks no operand where there are no tokens.
-/

namespace SelectQuery

/-! ## Readers that need an operand -/

/-- What is needed is an operand of a condition. -/
inductive Expectation.IsOperand : Expectation → Prop
  | left : IsOperand .operand
  | right {comparator} : IsOperand (.operandAfter comparator)

/-- Behind certain tokens a reader reads an operand, and goes on with what it has read. -/
def ReadsOperandBehind {α : Type} (needed : Expectation) (seen : List Located)
    (read : List Located → Except Error (α × List Located)) : Prop :=
  ∃ next : Expression × List Located → Except Error (α × List Located),
    ∀ others, read (seen ++ others) = readOperand needed others >>= next

/-- A reader whose tokens end too early because it needs an operand reads the operand from
whatever follows them. -/
def NeedsOperand {α : Type} (needed : Expectation)
    (read : List Located → Except Error (α × List Located)) : Prop :=
  ∀ seen, read seen = .error (.endOfInput needed) → ReadsOperandBehind needed seen read

namespace ReadsOperandBehind

variable {α β : Type} {needed : Expectation} {seen : List Located}
  {read read' : List Located → Except Error (α × List Located)}

/-- A reader goes on with an operand as its first part does. -/
theorem bind (reads : ReadsOperandBehind needed seen read)
    (next : α × List Located → Except Error (β × List Located)) :
    ReadsOperandBehind needed seen fun tokens => read tokens >>= next := by
  rcases reads with ⟨goOn, equal⟩
  refine ⟨fun result => goOn result >>= next, fun others => ?_⟩
  dsimp only
  rw [equal, bind_assoc]

/-- Behind tokens from which it goes on as another reader, a reader goes on with an operand
as the other one does. -/
theorem behind {used : List Located} (reads : ReadsOperandBehind needed seen read')
    (goesOn : ∀ others, read (used ++ (seen ++ others)) = read' (seen ++ others)) :
    ReadsOperandBehind needed (used ++ seen) read := by
  rcases reads with ⟨goOn, equal⟩
  refine ⟨goOn, fun others => ?_⟩
  rw [List.append_assoc, goesOn, equal]

end ReadsOperandBehind

namespace NeedsOperand

variable {α β : Type} {needed : Expectation}

/-- A reader that never lacks an operand needs none. -/
theorem of_never {read : List Located → Except Error (α × List Located)}
    (never : ∀ seen, read seen ≠ .error (.endOfInput needed)) : NeedsOperand needed read :=
  fun seen failed => absurd failed (never seen)

theorem pure (value : α) : NeedsOperand needed fun tokens => .ok (value, tokens) :=
  of_never fun _ failed => by cases failed

/-- Two readers in sequence, the first of which looks one token ahead.  The second one may
lack no operand where there are no tokens, since the first one looks at what comes then. -/
theorem bind {first : List Located → Except Error (α × List Located)}
    {next : α → List Located → Except Error (β × List Located)} (looksAhead : Local first)
    (needs₁ : NeedsOperand needed first) (needs₂ : ∀ value, NeedsOperand needed (next value))
    (nothing : ∀ value, next value [] ≠ .error (.endOfInput needed)) :
    NeedsOperand needed fun tokens => first tokens >>= fun (value, rest) => next value rest := by
  intro seen failed
  rcases bind_eq_error_iff.mp failed with failedFirst | ⟨⟨value, middle⟩, readFirst, failedNext⟩
  · exact (needs₁ seen failedFirst).bind _
  · rcases looksAhead _ _ _ readFirst with ⟨used, rfl, again⟩
    apply (needs₂ value middle failedNext).behind
    intro others
    cases middle with
    | nil => exact absurd failedNext (nothing value)
    | cons token middle =>
        have readAgain := again (token :: (middle ++ others)) (.inr rfl)
        simp only [List.cons_append, readAgain]
        rfl

/-- A reader that goes on behind its first token lacks an operand as the reader does that
it goes on as. -/
theorem cons {read read' : List Located → Except Error (α × List Located)} {token : Located}
    {seen : List Located} (needs : NeedsOperand needed read')
    (goesOn : ∀ tokens, read (token :: tokens) = read' tokens)
    (failed : read (token :: seen) = .error (.endOfInput needed)) :
    ReadsOperandBehind needed (token :: seen) read := by
  rw [goesOn] at failed
  have reads := needs seen failed
  rw [← List.singleton_append]
  exact reads.behind fun others => goesOn (seen ++ others)

end NeedsOperand

section Readers

variable {needed : Expectation} (operand : needed.IsOperand)
include operand

/-! ## Columns and sources -/

theorem needsOperand_readName {expected : Expectation} (other : ¬ expected.IsOperand) :
    NeedsOperand needed (readName expected) := by
  apply NeedsOperand.of_never
  intro seen failed
  rcases readName_eq_error_cases failed with equal | ⟨_, _, equal⟩
  · cases equal
    exact other operand
  · cases equal

theorem needsOperand_readAlias : NeedsOperand needed readAlias := by
  intro seen failed
  cases seen with
  | nil => cases failed
  | cons token seen =>
      by_cases announces : token.spells "AS" = true
      · have announced := NeedsOperand.bind (local_readName .aliasName)
          (needsOperand_readName operand (by rintro ⟨⟩)) (fun name => .pure (some name))
          (fun _ nothing => by cases nothing)
        apply announced.cons _ failed
        intro tokens
        rw [readAlias, if_pos announces]
      · rw [readAlias, if_neg announces] at failed
        split at failed <;> cases failed

theorem needsOperand_readSource : NeedsOperand needed readSource :=
  .bind (local_readName .sourceName) (needsOperand_readName operand (by rintro ⟨⟩))
    (fun name => .bind local_readAlias (needsOperand_readAlias operand)
      (fun alias? => .pure (⟨name, alias?⟩ : Source)) (fun _ nothing => by cases nothing))
    (fun _ nothing => by cases nothing)

/-- A column list ends too early where an alias is needed, or its `FROM`. -/
theorem needsOperand_readColumns (limit : Nat) (draft : Column.Draft) :
    NeedsOperand needed (readColumns limit draft) := by
  apply NeedsOperand.of_never
  intro seen failed
  induction seen generalizing draft with
  | nil =>
      rw [readColumns, Column.Draft.errorAtEnd] at failed
      split at failed
      · cases failed
        cases operand
      · cases failed
      · cases failed
  | cons token seen inductionHypothesis =>
      have noColumn : draft.toColumn limit token.position ≠ .error (.endOfInput needed) := by
        intro failedColumn
        cases Column.Draft.concernsExpression_of_toColumn failedColumn
      rw [readColumns] at failed
      split at failed
      · rename_i error step
        cases failed
        rcases Column.Draft.step_eq_error_cases step with equal | equal | ⟨_, equal⟩ <;> cases equal
      · exact inductionHypothesis _ failed
      · rcases bind_eq_error_iff.mp failed with failedColumn | ⟨_, _, failedLater⟩
        · exact noColumn failedColumn
        · rcases bind_eq_error_iff.mp failedLater with failedOthers | ⟨_, _, failedEnd⟩
          · exact inductionHypothesis _ failedOthers
          · cases failedEnd
      · rcases bind_eq_error_iff.mp failed with failedColumn | ⟨_, _, failedEnd⟩
        · exact noColumn failedColumn
        · cases failedEnd

/-! ## Conditions -/

/-- An operand is needed where it should begin, and only there. -/
theorem needsOperand_readOperand (expected : Expectation) :
    NeedsOperand needed (readOperand expected) := by
  intro seen failed
  rcases readOperand_eq_error_cases failed with
    ⟨rfl, equal⟩ | ⟨_, equal⟩ | ⟨_, _, _, failedCall⟩ | ⟨_, _, equal⟩
  · cases equal
    exact ⟨.ok, fun others => (bind_pure (readOperand needed others)).symm⟩
  · cases equal
    cases operand
  · cases Expression.concernsExpression_of_ofCall failedCall
  · cases equal

theorem needsOperand_readComparator : NeedsOperand needed readComparator := by
  apply NeedsOperand.of_never
  intro seen failed
  rcases readComparator_eq_error_cases failed with equal | ⟨_, _, equal⟩
  · cases equal
    cases operand
  · cases equal

/-- A comparison lacks an operand on one of its sides. -/
theorem needsOperand_readComparison : NeedsOperand needed readComparison := by
  have right : ∀ left, NeedsOperand needed fun tokens =>
      readComparator tokens >>= fun first =>
        readOperand (.operandAfter first.1) first.2 >>= fun right =>
          .ok (Condition.comparison first.1 left right.1, right.2) := by
    -- The right operand may be needed where the tokens end, but a comparator has none ahead.
    intro left seen failed
    rcases bind_eq_error_iff.mp failed with
      failedFirst | ⟨⟨comparator, middle⟩, readFirst, failedNext⟩
    · exact (needsOperand_readComparator operand seen failedFirst).bind _
    · rcases exists_of_readComparator readFirst with ⟨token, rfl, role⟩
      have rightOperand := NeedsOperand.bind (local_readOperand (.operandAfter comparator))
        (needsOperand_readOperand operand _)
        (fun right => .pure (Condition.comparison comparator left right))
        (fun _ nothing => by cases nothing)
      have reads := rightOperand middle failedNext
      rw [← List.singleton_append]
      apply reads.behind
      intro others
      simp only [List.singleton_append, readComparator, role]
      rfl
  exact .bind (local_readOperand .operand) (needsOperand_readOperand operand .operand) right
    (fun _ nothing => by cases nothing; cases operand)

/-- A chain of comparisons lacks an operand where one of them does. -/
theorem needsOperand_readConditionBehind (pending : List (Condition × Connective)) :
    NeedsOperand needed (readConditionBehind pending) := by
  intro seen failed
  fun_induction readConditionBehind pending seen with
  | case1 pending seen error failedFirst =>
      cases failed
      rw [funext (readConditionBehind_eq pending)]
      exact (needsOperand_readComparison operand seen failedFirst).bind _
  | case2 => cases failed
  | case3 pending seen comparison afterFirst readFirst connective afterConnective goesOn
      inductionHypothesis =>
      rcases local_readComparison _ _ _ readFirst with ⟨first, rfl, again⟩
      rcases connective?_eq_some_iff.mp goesOn with ⟨joint, rfl, role⟩
      rw [List.append_cons]
      apply (inductionHypothesis failed).behind
      intro others
      have found : connective? (joint :: (afterConnective ++ others)) =
          some (connective, afterConnective ++ others) :=
        connective?_eq_some_iff.mpr ⟨joint, rfl, role⟩
      have readAgain := again (joint :: (afterConnective ++ others)) (.inr rfl)
      rw [List.append_assoc, List.singleton_append, readConditionBehind_eq, readAgain]
      simp only [bind, Except.bind, found]

theorem needsOperand_readFilter : NeedsOperand needed readFilter := by
  intro seen failed
  cases seen with
  | nil => cases failed
  | cons keyword seen =>
      by_cases role : keyword.role = .clause .filter
      · have present := NeedsOperand.bind (local_readConditionBehind [])
          (needsOperand_readConditionBehind operand []) (fun condition => .pure (some condition))
          (fun _ nothing => by cases nothing)
        apply present.cons _ failed
        intro tokens
        rw [readFilter, if_pos role, readCondition]
      · rw [readFilter, if_neg role] at failed
        cases failed

/-! ## Queries -/

theorem needsOperand_readSelect (limit : Nat) : NeedsOperand needed (readSelect limit) := by
  intro seen failed
  cases seen with
  | nil =>
      cases failed
      cases operand
  | cons keyword seen =>
      by_cases opens : keyword.role = .clause .columns
      · have clauses := NeedsOperand.bind (local_readColumns limit .start)
          (needsOperand_readColumns operand limit .start)
          (fun columns => .bind local_readSource (needsOperand_readSource operand)
            (fun source => .bind local_readFilter (needsOperand_readFilter operand)
              (fun filter => .pure (⟨columns, source, filter⟩ : Select))
              (fun _ nothing => by cases nothing))
            (fun _ nothing => by cases nothing))
          (fun _ nothing => by cases nothing; cases operand)
        apply clauses.cons _ failed
        intro tokens
        rw [readSelect, if_pos opens]
      · rw [readSelect, if_neg opens] at failed
        cases failed

/-- A query lacks an operand where one of its conditions does. -/
theorem needsOperand_readQueryWithin (limit selects : Nat) :
    NeedsOperand needed (readQueryWithin limit selects) := by
  induction selects with
  | zero => exact .of_never fun _ failed => by cases failed
  | succ selects inductionHypothesis =>
      intro seen failed
      rw [readQueryWithin] at failed
      rcases bind_eq_error_iff.mp failed with
        failedSelect | ⟨⟨statement, afterSelect⟩, readFirst, failedLater⟩
      · exact (needsOperand_readSelect operand limit seen failedSelect).bind _
      · rcases local_readSelect limit _ _ _ readFirst with ⟨used, rfl, again⟩
        rcases bind_eq_error_iff.mp failedLater with
          failedOperator | ⟨⟨operator?, afterOperator⟩, readOperator, failedRight⟩
        · rcases exists_of_readSetOperator_eq_error failedOperator with ⟨_, _, _, equal⟩
          cases equal
        · cases operator? with
          | none => cases failedRight
          | some operator =>
              rcases bind_eq_error_iff.mp failedRight with failedQuery | ⟨_, _, failedEnd⟩
              · rcases exists_words_of_readSetOperator readOperator with
                  ⟨words, rfl, againOperator⟩
                rcases List.exists_cons_of_ne_nil (ne_nil_of_readSetOperator readOperator) with
                  ⟨keyword, items, rfl⟩
                have reads := (inductionHypothesis _ failedQuery).bind fun right =>
                  .ok (Query.combined operator (.select statement) right.1, right.2)
                rw [← List.append_assoc]
                apply reads.behind
                intro others
                have readAgain := again (words ++ (keyword :: items ++ others))
                  (sameAhead_token words keyword items (items ++ others))
                have operatorAgain := againOperator (keyword :: items ++ others) rfl
                rw [List.append_assoc, readQueryWithin, readAgain]
                simp only [bind, Except.bind, operatorAgain]
              · cases failedEnd

/-- A query is refused because its tokens end where an operand is needed exactly if, behind
those tokens, it reads an operand from whatever follows. -/
theorem readQuery_eq_endOfInput_iff (limit : Nat) (seen : List Located) :
    readQuery limit seen = .error (.endOfInput needed) ↔
      ReadsOperandBehind needed seen (readQuery limit) := by
  constructor
  · intro failed
    exact needsOperand_readQueryWithin operand limit limit seen failed
  · rintro ⟨next, reads⟩
    have readNone := reads []
    rwa [List.append_nil] at readNone

end Readers

end SelectQuery
