import SelectQuery.Proofs.Reading.Failure
import SelectQuery.Proofs.Reading.Matched

/-!
# Which parentheses are reported

An unmatched parenthesis is reported for three reasons.  A function call has a first
parenthesis without partner; the parentheses between a `SELECT` and the next `FROM` do
not match; or they do, and a pair of them stands behind another token of its group.  In
the third case every parenthesis has its partner, and it is reported all the same.

`Explains` says of a reader that the tokens give one of the reasons for each of its
reports.  It is kept by sequencing.
-/

namespace SelectQuery

/-! ## Explained reports -/

/-- A report of a parenthesis is explained by the tokens: the parentheses between a `SELECT`
and the next `FROM` do not match, or it is one of those that are given though they do. -/
def Explained (tokens : List Token) (text : String) : Prop :=
  (∃ keyword after, keyword :: after <:+ tokens ∧ keyword.role = .clause .columns ∧
      ¬ ColumnsMatch after) ∨
    BlamesMatched tokens text

/-- What explains a report behind the first tokens explains it. -/
theorem Explained.behind {tokens : List Token} {text : String} (explained : Explained tokens text)
    (used : List Token) : Explained (used ++ tokens) text := by
  have part : tokens <:+ used ++ tokens := List.suffix_append _ _
  rcases explained with ⟨keyword, after, inner, opens, unmatched⟩ | blames
  · exact .inl ⟨keyword, after, inner.trans part, opens, unmatched⟩
  · exact .inr (blames.mono part.isInfix)

/-- A reader whose tokens explain each parenthesis that it reports. -/
def Explains {α : Type} (read : List Located → Except Error (α × List Located)) : Prop :=
  ∀ tokens text, read tokens = .error (.unmatchedParenthesis text) →
    Explained (tokens.map Located.toToken) text

namespace Explains

variable {α β : Type}

/-- A reader that reports no parenthesis has none to explain. -/
theorem of_never {read : List Located → Except Error (α × List Located)}
    (never : ∀ tokens text, read tokens ≠ .error (.unmatchedParenthesis text)) : Explains read :=
  fun tokens text failed => absurd failed (never tokens text)

theorem pure (value : α) : Explains fun tokens => .ok (value, tokens) :=
  of_never fun _ _ failed => by cases failed

/-- Two readers in sequence, the first of which leaves what it does not take up. -/
theorem bind {first : List Located → Except Error (α × List Located)}
    {next : α → List Located → Except Error (β × List Located)} (looksAhead : Local first)
    (explains₁ : Explains first) (explains₂ : ∀ value, Explains (next value)) :
    Explains fun tokens => first tokens >>= fun (value, rest) => next value rest := by
  intro tokens text failed
  rcases bind_eq_error_iff.mp failed with failedFirst | ⟨⟨value, rest⟩, readFirst, failedNext⟩
  · exact explains₁ tokens text failedFirst
  · rcases looksAhead _ _ _ readFirst with ⟨used, rfl, _⟩
    have explained := explains₂ value rest text failedNext
    rw [List.map_append]
    exact explained.behind _

/-- A reader that goes on behind its first token. -/
theorem cons {read read' : List Located → Except Error (α × List Located)} {token : Located}
    {tokens : List Located} (explains : Explains read')
    (goesOn : read (token :: tokens) = read' tokens) {text : String}
    (failed : read (token :: tokens) = .error (.unmatchedParenthesis text)) :
    Explained ((token :: tokens).map Located.toToken) text := by
  rw [goesOn] at failed
  exact (explains tokens text failed).behind [token.toToken]

end Explains

/-! ### Sources and conditions -/

theorem explains_readName (expected : Expectation) : Explains (readName expected) := by
  apply Explains.of_never
  intro tokens text failed
  rcases readName_eq_error_cases failed with equal | ⟨_, _, equal⟩ <;> cases equal

theorem explains_readAlias : Explains readAlias := by
  intro tokens text failed
  cases tokens with
  | nil => cases failed
  | cons token tokens =>
      by_cases announces : token.spells "AS" = true
      · have announced := Explains.bind (local_readName .aliasName) (explains_readName .aliasName)
          fun name => .pure (some name)
        apply announced.cons _ failed
        rw [readAlias, if_pos announces]
      · rw [readAlias, if_neg announces] at failed
        split at failed <;> cases failed

theorem explains_readSource : Explains readSource :=
  .bind (local_readName .sourceName) (explains_readName .sourceName) fun name =>
    .bind local_readAlias explains_readAlias fun alias? => .pure (⟨name, alias?⟩ : Source)

/-- An operand is reported if it is a call with a parenthesis that has no partner. -/
theorem explains_readOperand (expected : Expectation) : Explains (readOperand expected) := by
  intro tokens text failed
  rcases readOperand_eq_error_cases failed with
    ⟨_, equal⟩ | ⟨_, equal⟩ | ⟨token, member, role, failedCall⟩ | ⟨_, _, equal⟩
  · cases equal
  · cases equal
  · rcases Expression.ofCall_eq_unmatched failedCall with ⟨rfl, opens⟩
    exact .inr (.call (List.mem_map_of_mem member) role opens)
  · cases equal

theorem explains_readComparator : Explains readComparator := by
  apply Explains.of_never
  intro tokens text failed
  rcases readComparator_eq_error_cases failed with equal | ⟨_, _, equal⟩ <;> cases equal

theorem explains_readComparison : Explains readComparison :=
  .bind (local_readOperand .operand) (explains_readOperand .operand) fun left =>
    .bind local_readComparator explains_readComparator fun comparator =>
      .bind (local_readOperand (.operandAfter comparator))
        (explains_readOperand (.operandAfter comparator)) fun right =>
          .pure (Condition.comparison comparator left right)

theorem explains_readConditionBehind (pending : List (Condition × Connective)) :
    Explains (readConditionBehind pending) := by
  intro tokens text failed
  fun_induction readConditionBehind pending tokens with
  | case1 pending tokens error failedFirst =>
      cases failed
      exact explains_readComparison tokens text failedFirst
  | case2 => cases failed
  | case3 pending tokens comparison afterFirst readFirst connective afterConnective goesOn
      inductionHypothesis =>
      rcases local_readComparison _ _ _ readFirst with ⟨first, rfl, _⟩
      rcases connective?_eq_some_iff.mp goesOn with ⟨joint, rfl, _⟩
      have explained := (inductionHypothesis failed).behind ((first ++ [joint]).map Located.toToken)
      rw [← List.map_append, List.append_assoc] at explained
      exact explained

theorem explains_readFilter : Explains readFilter := by
  intro tokens text failed
  cases tokens with
  | nil => cases failed
  | cons keyword tokens =>
      by_cases role : keyword.role = .clause .filter
      · have present := Explains.bind (local_readConditionBehind [])
          (explains_readConditionBehind []) fun condition => .pure (some condition)
        apply present.cons _ failed
        rw [readFilter, if_pos role, readCondition]
      · rw [readFilter, if_neg role] at failed
        cases failed

/-! ### Queries -/

/-- A `SELECT` is reported for its column list or for its condition. -/
theorem explains_readSelect (limit : Nat) : Explains (readSelect limit) := by
  intro tokens text failed
  cases tokens with
  | nil => cases failed
  | cons keyword tokens =>
      by_cases opens : keyword.role = .clause .columns
      · by_cases columnsMatch : ColumnsMatch (tokens.map Located.toToken)
        · rw [readSelect, if_pos opens] at failed
          have explained : Explained (tokens.map Located.toToken) text := by
            rcases bind_eq_error_iff.mp failed with
              failedColumns | ⟨⟨columns, afterColumns⟩, readItems, failedLater⟩
            · exact .inr (blamesMatched_of_readColumns Column.Draft.holds_start rfl
                columnsMatch.settlesFrom failedColumns)
            · have behindColumns := Explains.bind local_readSource explains_readSource
                fun source => .bind local_readFilter explains_readFilter fun filter =>
                  .pure (⟨columns, source, filter⟩ : Select)
              rcases local_readColumns limit .start _ _ _ readItems with ⟨items, rfl, _⟩
              rw [List.map_append]
              exact (behindColumns afterColumns text failedLater).behind _
          exact explained.behind [keyword.toToken]
        · exact .inl ⟨keyword.toToken, _, List.suffix_rfl, opens, columnsMatch⟩
      · rw [readSelect, if_neg opens] at failed
        cases failed

theorem explains_readSetOperator : Explains readSetOperator := by
  apply Explains.of_never
  intro tokens text failed
  rcases exists_of_readSetOperator_eq_error failed with ⟨_, _, _, equal⟩
  cases equal

theorem explains_readQueryWithin (limit selects : Nat) :
    Explains (readQueryWithin limit selects) := by
  induction selects with
  | zero => exact .of_never fun _ _ failed => by cases failed
  | succ selects inductionHypothesis =>
      intro tokens text failed
      rw [readQueryWithin] at failed
      rcases bind_eq_error_iff.mp failed with
        failedSelect | ⟨⟨statement, afterSelect⟩, readFirst, failedLater⟩
      · exact explains_readSelect limit tokens text failedSelect
      · rcases local_readSelect limit _ _ _ readFirst with ⟨used, rfl, _⟩
        rw [List.map_append]
        apply Explained.behind
        rcases bind_eq_error_iff.mp failedLater with
          failedOperator | ⟨⟨operator?, afterOperator⟩, readOperator, failedRight⟩
        · exact explains_readSetOperator afterSelect text failedOperator
        · cases operator? with
          | none => cases failedRight
          | some operator =>
              rcases bind_eq_error_iff.mp failedRight with failedQuery | ⟨_, _, failedEnd⟩
              · rcases exists_words_of_readSetOperator readOperator with ⟨words, rfl, _⟩
                rw [List.map_append]
                exact (inductionHypothesis afterOperator text failedQuery).behind _
              · cases failedEnd

namespace Query

/-- A parenthesis is reported for one of three reasons.  A function call has a first
parenthesis without partner; the parentheses between a `SELECT` and the next `FROM` do not
match; or the text is a group whose parentheses match, with a pair of them behind another
token.  A group of the last kind is always reported, though none of its parentheses is
without partner. -/
theorem unmatchedParenthesis_reported (limit start : Nat) (tokens : List Token) (text : String) :
    (ofTokens limit tokens start = .error (.unmatchedParenthesis text) →
        (∃ token ∈ tokens, token.role = .functionCall ∧ token.text = text ∧ OpensUnmatched text) ∨
          (∃ keyword after, keyword :: after <:+ tokens ∧ keyword.role = .clause .columns ∧
            ¬ ColumnsMatch after) ∨
          ∃ group, group <:+: tokens ∧ Token.joinedText group = text ∧ ParenthesesBehind group) ∧
      ∀ group, ParenthesesBehind group →
        Expression.ofTokens limit group =
          .error (.unmatchedParenthesis (Token.joinedText group)) := by
  constructor
  · intro failed
    rw [ofTokens_eq_error_iff] at failed
    have explained := explains_readQueryWithin limit limit _ text failed
    rw [Located.tokensFrom, Located.map_toToken_number] at explained
    have whole := explained.behind (tokens.take start)
    rw [List.take_append_drop] at whole
    rcases whole with unmatched | ⟨member, role, opens⟩ | ⟨part, behind⟩
    · exact .inr (.inl unmatched)
    · exact .inl ⟨_, member, role, rfl, opens⟩
    · exact .inr (.inr ⟨_, part, rfl, behind⟩)
  · intro group behind
    exact Expression.ofTokens_of_parenthesesBehind behind limit

/-- Where only the first token is `SELECT`, its column list is the only one. -/
theorem eq_of_suffix_of_only {first keyword : Token} {tokens after : List Token}
    (only : ∀ token ∈ tokens, token.role ≠ .clause .columns)
    (part : keyword :: after <:+ first :: tokens) (opens : keyword.role = .clause .columns) :
    after = tokens := by
  rcases List.suffix_cons_iff.mp part with whole | later
  · exact (List.cons.inj whole).2
  · exact absurd opens (only keyword (later.subset List.mem_cons_self))

/-- A group within parentheses. -/
theorem unmatchedParenthesis_reported_nested :
    ∃ group, group <:+: [⟨.clause .columns, "SELECT"⟩, ⟨.leftParen, "("⟩, ⟨.unknown, "a"⟩,
        ⟨.leftParen, "("⟩, ⟨.unknown, "b"⟩, ⟨.rightParen, ")"⟩, ⟨.rightParen, ")"⟩,
        ⟨.clause .source, "FROM"⟩, ⟨.unknown, "t"⟩] ∧
      Token.joinedText group = "a ( b )" ∧ ParenthesesBehind group := by
  rcases (unmatchedParenthesis_reported 1 0 [⟨.clause .columns, "SELECT"⟩, ⟨.leftParen, "("⟩,
      ⟨.unknown, "a"⟩, ⟨.leftParen, "("⟩, ⟨.unknown, "b"⟩, ⟨.rightParen, ")"⟩, ⟨.rightParen, ")"⟩,
      ⟨.clause .source, "FROM"⟩, ⟨.unknown, "t"⟩] "a ( b )").1 rfl with
    ⟨token, member, role, _⟩ | ⟨keyword, after, part, opens, unmatched⟩ | behind
  · simp only [List.mem_cons, List.not_mem_nil, or_false] at member
    rcases member with rfl | rfl | rfl | rfl | rfl | rfl | rfl | rfl | rfl <;> cases role
  · rw [eq_of_suffix_of_only (by decide) part opens] at unmatched
    exact (unmatched (columnsMatch_of_balanced rfl)).elim
  · exact behind

/-- A name before a pair of parentheses, as in a call that was split at its blanks. -/
theorem unmatchedParenthesis_of_split_call :
    (∀ keyword after, keyword :: after <:+ [⟨.clause .columns, "SELECT"⟩, ⟨.unknown, "COUNT"⟩,
        ⟨.leftParen, "("⟩, ⟨.asterisk, "*"⟩, ⟨.rightParen, ")"⟩, ⟨.clause .source, "FROM"⟩,
        ⟨.unknown, "t"⟩] → keyword.role = .clause .columns → ColumnsMatch after) ∧
      (∀ token ∈ [⟨.clause .columns, "SELECT"⟩, ⟨.unknown, "COUNT"⟩, ⟨.leftParen, "("⟩,
        ⟨.asterisk, "*"⟩, ⟨.rightParen, ")"⟩, ⟨.clause .source, "FROM"⟩, (⟨.unknown, "t"⟩ : Token)],
        token.role = .functionCall → Nesting.Balanced callMark token.text.toList) ∧
      ofTokens defaultLimit [⟨.clause .columns, "SELECT"⟩, ⟨.unknown, "COUNT"⟩, ⟨.leftParen, "("⟩,
        ⟨.asterisk, "*"⟩, ⟨.rightParen, ")"⟩, ⟨.clause .source, "FROM"⟩, ⟨.unknown, "t"⟩] 0 =
        .error (.unmatchedParenthesis "COUNT ( * )") := by
  constructor
  · intro keyword after part opens
    rw [eq_of_suffix_of_only (by decide) part opens]
    exact columnsMatch_of_balanced rfl
  · constructor
    · intro token member role
      simp only [List.mem_cons, List.not_mem_nil, or_false] at member
      rcases member with rfl | rfl | rfl | rfl | rfl | rfl | rfl <;> cases role
    · rfl

end Query

end SelectQuery
