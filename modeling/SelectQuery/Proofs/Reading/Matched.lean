import SelectQuery.Proofs.Reading.Call
import SelectQuery.Proofs.Reading.Final

/-!
# Columns whose parentheses match

Where the parentheses of a column list match, so do those of every group that is cut out
of it: a column ends, and `||` cuts, where the tokens before are balanced.  A parenthesis
is reported all the same if a function call has one without partner in its text, or if a
pair of them stands behind another token of its group.

The matching of a column list is stated by counting.  The reader of columns goes by the
level that it has reached, and `SettlesFrom` says of the tokens that are left that they
match from there on.
-/

namespace SelectQuery

/-! ## Parentheses that match -/

/-- The tokens of a column list: those up to the next `FROM`, or all if there is none. -/
def columnList (tokens : List Token) : List Token :=
  tokens.takeWhile fun token => token.role ≠ .clause .source

/-- The parentheses of a column list match.  No beginning of it closes more than it opens
and, if `FROM` follows, as many are closed as are opened. -/
structure ColumnsMatch (tokens : List Token) : Prop where
  kept : Nesting.Keeps Token.mark 0 (columnList tokens)
  total : (∃ token ∈ tokens, token.role = .clause .source) →
    Nesting.closed Token.mark (columnList tokens) = Nesting.opened Token.mark (columnList tokens)

/-- The parentheses of a group match, and a pair of them stands behind another token; no
`||` stands outside them. -/
structure ParenthesesBehind (group : List Token) : Prop where
  balanced : Nesting.Balanced Token.mark group
  uncut : Nesting.Uncut Token.mark group
  first : ∀ token ∈ group.head?, token.role ≠ .leftParen
  closes : ∃ token ∈ group, token.role = .rightParen

/-- What is reported although the parentheses of the tokens match: a call with a parenthesis
that has no partner in its text, or a group with a pair behind another token. -/
inductive BlamesMatched (tokens : List Token) : String → Prop
  | call {token} (member : token ∈ tokens) (role : token.role = .functionCall)
      (opens : OpensUnmatched token.text) : BlamesMatched tokens token.text
  | behind {group} (part : group <:+: tokens) (behind : ParenthesesBehind group) :
      BlamesMatched tokens (Token.joinedText group)

/-- What is reported of a part is reported of the whole. -/
theorem BlamesMatched.mono {tokens others : List Token} (part : tokens <:+: others) {text : String}
    (blames : BlamesMatched tokens text) : BlamesMatched others text := by
  cases blames with
  | call member role opens => exact .call (part.subset member) role opens
  | behind inner behind => exact .behind (inner.trans part) behind

theorem Token.mark_ne_quotes (token : Token) : token.mark ≠ .quotes := by
  unfold mark
  split <;> simp

/-! ## Expressions -/

namespace Expression

theorem ofCall_eq_unmatched {text reported : String}
    (failed : ofCall text = .error (.unmatchedParenthesis reported)) :
    reported = text ∧ OpensUnmatched text := by
  have same : reported = text := by
    have unfolded := failed
    unfold ofCall at unfolded
    split at unfolded
    · cases unfolded
    · split at unfolded <;> cases unfolded
      rfl
  rw [same] at failed
  exact ⟨same, ofCall_eq_unmatchedParenthesis_iff.mp failed⟩

/-- A single token whose parentheses match is reported only if it is a call. -/
theorem blamesMatched_of_ofToken {token : Token} (balanced : Nesting.Balanced Token.mark [token])
    {text : String} (failed : ofToken token = .error (.unmatchedParenthesis text)) :
    BlamesMatched [token] text := by
  unfold ofToken at failed
  split at failed
  · cases failed
  · cases failed
  · rename_i role
    rcases ofCall_eq_unmatched failed with ⟨rfl, opens⟩
    exact .call (List.mem_singleton_self token) role opens
  · split at failed <;> cases failed
  · rename_i opens
    rw [Nesting.Balanced, Nesting.settle?_cons,
      (Token.mark_eq_opens_iff token).mpr opens] at balanced
    cases balanced
  · rename_i closes
    rw [Nesting.Balanced, Nesting.settle?_cons, (Token.mark_eq_closes_iff token).mpr closes]
      at balanced
    cases balanced
  · cases failed

/-- A group whose parentheses match is reported for a pair behind another token, or for
what is reported between the pair in front. -/
theorem blamesMatched_of_ofPiece {ofInner : List Token → Except Error Expression}
    (inner : ∀ tokens text, Nesting.Balanced Token.mark tokens →
      ofInner tokens = .error (.unmatchedParenthesis text) → BlamesMatched tokens text)
    {piece : List Token} (balanced : Nesting.Balanced Token.mark piece)
    (uncut : Nesting.Uncut Token.mark piece) {text : String}
    (failed : ofPiece ofInner piece = .error (.unmatchedParenthesis text)) :
    BlamesMatched piece text := by
  match piece with
  | [] => cases failed
  | [token] => exact blamesMatched_of_ofToken balanced failed
  | first :: second :: others =>
      unfold ofPiece at failed
      dsimp only at failed
      by_cases opens : first.role = .leftParen
      · rw [if_pos opens] at failed
        have closedLater : Nesting.settle? Token.mark (Nesting.Level.outer.raise 1)
            (second :: others) = some .outer := by
          rw [Nesting.Balanced, Nesting.settle?_cons, (Token.mark_eq_opens_iff first).mpr opens]
            at balanced
          exact balanced
        have partner := Nesting.enclosed?_ne_none_of_settle? closedLater
        rw [Nesting.Level.raise_outer_one] at partner
        split at failed
        · contradiction
        · cases failed
        · cases failed
        · rename_i between _ found
          rw [map_eq_error_iff] at failed
          rcases Nesting.enclosed?_inside_eq_some_iff.mp found with
            ⟨closing, _, equal, balancedInner⟩
          have part : between <:+: first :: second :: others := by
            rw [equal]
            exact ⟨[first], [closing], by simp⟩
          exact (inner between text balancedInner failed).mono part
      · rw [if_neg opens] at failed
        by_cases closes : ((first :: second :: others).any fun token =>
            token.role = .rightParen) = true
        · rw [if_pos closes] at failed
          cases failed
          have behind : ParenthesesBehind (first :: second :: others) := by
            constructor
            · exact balanced
            · exact uncut
            · rintro token ⟨⟩
              exact opens
            · simpa only [List.any_eq_true, decide_eq_true_eq] using closes
          exact .behind List.infix_rfl behind
        · rw [if_neg closes] at failed
          cases failed

/-- An expression whose parentheses match is reported for one of its groups. -/
theorem blamesMatched_of_ofTokensWithin {limit levels : Nat} {tokens : List Token} {text : String}
    (balanced : Nesting.Balanced Token.mark tokens)
    (failed : ofTokensWithin limit levels tokens = .error (.unmatchedParenthesis text)) :
    BlamesMatched tokens text := by
  induction levels generalizing tokens text with
  | zero => cases failed
  | succ levels inductionHypothesis =>
      rw [ofTokensWithin_succ, map_eq_error_iff] at failed
      rcases exists_mem_of_mapM_eq_error failed with ⟨piece, isPiece, failedPiece⟩
      have cut := Nesting.balanced_of_mem_pieces balanced rfl piece isPiece
      have part := Nesting.isInfix_of_mem_pieces rfl piece isPiece
      have inner : ∀ tokens text, Nesting.Balanced Token.mark tokens →
          ofTokensWithin limit levels tokens = .error (.unmatchedParenthesis text) →
          BlamesMatched tokens text :=
        fun _ _ => inductionHypothesis
      exact (blamesMatched_of_ofPiece inner cut.1 cut.2 failedPiece).mono part

/-- A group with a pair of parentheses behind another token is always reported. -/
theorem ofTokens_of_parenthesesBehind {group : List Token} (behind : ParenthesesBehind group)
    (limit : Nat) :
    ofTokens limit group = .error (.unmatchedParenthesis (Token.joinedText group)) := by
  have single := Nesting.pieces_eq_of_uncut behind.balanced behind.uncut
  rcases behind with ⟨balanced, _, first, closes⟩
  rw [ofTokens, ofTokensWithin, single]
  rcases group with _ | ⟨token, _ | ⟨second, others⟩⟩
  · simp at closes
  · rcases closes with ⟨closing, member, role⟩
    rw [List.mem_singleton.mp member] at role
    rw [Nesting.Balanced, Nesting.settle?_cons, (Token.mark_eq_closes_iff token).mpr role]
      at balanced
    cases balanced
  · have noOpening : token.role ≠ .leftParen := first token rfl
    have closesLater : ((token :: second :: others).any fun token =>
        token.role = .rightParen) = true := by
      simpa only [List.any_eq_true, decide_eq_true_eq] using closes
    dsimp only
    rw [ofPiece, if_neg noOpening, if_pos closesLater]
    simp

end Expression

/-! ## Column lists -/

/-- From a level on, the column list that tokens begin with closes no level that is not
open and, if `FROM` follows it, ends outside parentheses. -/
def SettlesFrom (level : Nesting.Level) (tokens : List Token) : Prop :=
  ∃ final, Nesting.settle? Token.mark level (columnList tokens) = some final ∧
    ((∃ token ∈ tokens, token.role = .clause .source) → final = .outer)

/-- Parentheses that match settle from the outer level. -/
theorem ColumnsMatch.settlesFrom {tokens : List Token} (columnsMatch : ColumnsMatch tokens) :
    SettlesFrom .outer tokens := by
  have noQuotes : ∀ token ∈ columnList tokens, token.mark ≠ .quotes :=
    fun token _ => token.mark_ne_quotes
  obtain ⟨final, count⟩ := Nat.exists_eq_add_of_le' (columnsMatch.kept _ List.prefix_rfl)
  have settled := (Nesting.settle?_eq_some_iff_counts noQuotes 0 final).mpr
    ⟨columnsMatch.kept, count.symm⟩
  refine ⟨⟨final, false⟩, settled, fun ends => ?_⟩
  have total := columnsMatch.total ends
  have nothing : final = 0 := by omega
  rw [nothing]
  rfl

/-- The parentheses of a balanced column list match. -/
theorem columnsMatch_of_balanced {tokens : List Token}
    (balanced : Nesting.Balanced Token.mark (columnList tokens)) : ColumnsMatch tokens := by
  have noQuotes : ∀ token ∈ columnList tokens, token.mark ≠ .quotes :=
    fun token _ => token.mark_ne_quotes
  have counts := (Nesting.settle?_eq_some_iff_counts noQuotes 0 0).mp balanced
  exact ⟨counts.1, fun _ => by simpa using counts.2⟩

namespace SettlesFrom

variable {level : Nesting.Level} {token : Token} {tokens : List Token}

/-- `FROM` stands outside parentheses. -/
theorem eq_outer (settles : SettlesFrom level (token :: tokens))
    (ends : token.role = .clause .source) : level = .outer := by
  rcases settles with ⟨final, settled, outer⟩
  rw [columnList, List.takeWhile_cons_of_neg (by simpa using ends), Nesting.settle?_nil,
    Option.some.injEq] at settled
  rw [settled]
  exact outer ⟨token, List.mem_cons_self, ends⟩

/-- Behind any other token the list settles from the level after it. -/
theorem exists_after (settles : SettlesFrom level (token :: tokens))
    (goesOn : token.role ≠ .clause .source) :
    ∃ next, level.after? token.mark = some next ∧ SettlesFrom next tokens := by
  rcases settles with ⟨final, settled, outer⟩
  rw [columnList, List.takeWhile_cons_of_pos (by simpa using goesOn), Nesting.settle?_cons]
    at settled
  rcases Option.bind_eq_some_iff.mp settled with ⟨next, step, later⟩
  refine ⟨next, step, final, later, ?_⟩
  rintro ⟨keyword, member, ends⟩
  exact outer ⟨keyword, List.mem_cons_of_mem token member, ends⟩

end SettlesFrom

namespace Column.Draft

/-- The tokens of a draft are among those taken up for its column. -/
theorem Holds.isPrefix {used : List Token} {draft : Draft} (holds : draft.Holds used) :
    draft.tokens.reverse <+: used := by
  cases holds with
  | expression | awaiting | announced | short => simp

/-- The tokens of a draft settle to its level. -/
def Settled (draft : Draft) : Prop :=
  Nesting.settle? Token.mark .outer draft.tokens.reverse = some draft.level

/-- Outside parentheses the tokens of a draft are balanced. -/
theorem Settled.balanced {draft : Draft} (settled : draft.Settled) (outer : draft.level = .outer) :
    Nesting.Balanced Token.mark draft.tokens.reverse := by
  rw [Settled, outer] at settled
  exact settled

/-- A token that is added to a draft leads to the level after it. -/
theorem Settled.add {draft : Draft} (settled : draft.Settled) {token : Token}
    {level : Nesting.Level} (after : draft.level.after? token.mark = some level) :
    (draft.add token).Settled ∧ (draft.add token).level = level := by
  have level_eq : (draft.add token).level = level :=
    (draft.level_add token).trans (Nesting.Level.after_eq_of_after? after)
  refine ⟨?_, level_eq⟩
  rw [Settled, level_eq]
  rcases draft.add_cases token with ⟨kept, _⟩ | ⟨dropped, _, identifier⟩
  · rw [kept, List.reverse_cons, Nesting.settle?_append, settled, Option.bind_some,
      Nesting.settle?_cons, after]
    rfl
  · rw [Token.mark_of_identifier identifier] at after
    rw [dropped, settled]
    exact after

/-- A step to a further draft leads to the level after its token. -/
theorem Settled.step {draft next : Draft} (settled : draft.Settled) {token : Located}
    {level : Nesting.Level} (after : draft.level.after? token.mark = some level)
    (step : draft.step token = .ok (.extended next)) :
    next.Settled ∧ next.level = level := by
  rcases (step_eq_ok_iff draft token _).mp step with
    ⟨_, named, equal⟩ | ⟨_, _, equal⟩ | ⟨_, _, _, equal⟩ | ⟨_, _, equal⟩
  · cases equal
    rw [Token.mark_of_identifier named.identifier] at after
    exact ⟨settled, Option.some.inj after⟩
  · cases equal
  · cases equal
  · cases equal
    exact settled.add after

/-- `FROM` extends no column. -/
theorem role_ne_source_of_extended {draft next : Draft} {token : Located}
    (step : draft.step token = .ok (.extended next)) : token.role ≠ .clause .source := by
  rcases (step_eq_ok_iff draft token _).mp step with
    ⟨_, named, _⟩ | ⟨_, _, equal⟩ | ⟨_, _, _, equal⟩ | ⟨_, takes, _⟩
  · simp [named.identifier]
  · cases equal
  · cases equal
  · exact takes.noClause .source (by simp)

theorem blamesMatched_of_toColumn {draft : Draft} (settled : draft.Settled)
    (outer : draft.level = .outer) {limit position : Nat} {text : String}
    (failed : draft.toColumn limit position = .error (.unmatchedParenthesis text)) :
    BlamesMatched draft.tokens.reverse text := by
  unfold Draft.toColumn at failed
  split at failed
  · cases failed
  · exact Expression.blamesMatched_of_ofTokensWithin (settled.balanced outer)
      (map_eq_error_iff.mp failed)

end Column.Draft

open Column in
/-- A column list whose parentheses match is reported for one of its groups. -/
theorem blamesMatched_of_readColumns {limit : Nat} {used : List Token} {draft : Draft}
    (holds : draft.Holds used) (settled : draft.Settled) {tokens : List Located}
    (settles : SettlesFrom draft.level (tokens.map Located.toToken)) {text : String}
    (failed : readColumns limit draft tokens = .error (.unmatchedParenthesis text)) :
    BlamesMatched (used ++ tokens.map Located.toToken) text := by
  induction tokens generalizing used draft with
  | nil =>
      rw [readColumns, Draft.errorAtEnd] at failed
      split at failed <;> cases failed
  | cons token tokens inductionHypothesis =>
      have part : draft.tokens.reverse <:+: used ++ (token :: tokens).map Located.toToken :=
        (holds.isPrefix.trans (List.prefix_append _ _)).isInfix
      rw [readColumns] at failed
      cases step : draft.step token with
      | error error =>
          rw [step] at failed
          cases failed
          rcases Draft.step_eq_error_cases step with equal | equal | ⟨_, equal⟩ <;> cases equal
      | ok result =>
          rw [step] at failed
          cases result with
          | extended next =>
              rcases settles.exists_after (Draft.role_ne_source_of_extended step) with
                ⟨level, after, settlesNext⟩
              rcases settled.step after step with ⟨settledNext, rfl⟩
              have blames := inductionHypothesis (holds.step step) settledNext settlesNext failed
              rw [List.append_assoc] at blames
              exact blames
          | columnEnds =>
              have ends := (Draft.step_eq_ok_iff draft token _).mp step
              simp only [reduceCtorEq, and_false, and_true, false_or, or_false] at ends
              have outer := (Nesting.Level.isOuter_iff _).mp ends.2.2
              rcases bind_eq_error_iff.mp failed with failedColumn | ⟨_, _, failedLater⟩
              · exact (Draft.blamesMatched_of_toColumn settled outer failedColumn).mono part
              · rcases bind_eq_error_iff.mp failedLater with failedOthers | ⟨_, _, failedEnd⟩
                · have plain : token.mark = .plain := by
                    apply Token.mark_eq_plain <;> simp [ends.2.1]
                  rcases settles.exists_after (by simp [ends.2.1]) with ⟨level, after, settlesNext⟩
                  rw [plain, outer] at after
                  cases after
                  have blames := inductionHypothesis Draft.holds_start rfl settlesNext failedOthers
                  have later : tokens.map Located.toToken <:+
                      used ++ (token :: tokens).map Located.toToken :=
                    (List.suffix_cons _ _).trans (List.suffix_append _ _)
                  exact blames.mono later.isInfix
                · cases failedEnd
          | listEnds =>
              have ends := (Draft.step_eq_ok_iff draft token _).mp step
              simp only [reduceCtorEq, and_false, and_true, false_or, or_false] at ends
              rcases bind_eq_error_iff.mp failed with failedColumn | ⟨_, _, failedEnd⟩
              · exact (Draft.blamesMatched_of_toColumn settled (settles.eq_outer ends.2)
                  failedColumn).mono part
              · cases failedEnd

end SelectQuery
