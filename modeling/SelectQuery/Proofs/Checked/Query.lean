import SelectQuery.Proofs.Checked.Expression
import SelectQuery.Proofs.Reading.Query

/-!
# Checked reading of queries

Every reader above expressions has its checked form here, and gives what the reader does.  Few
of them take an operation of their own that may be undefined: a split literal is cut behind its
opening quote, a lexeme between quotes is cut at both of them, and the number of open selects is
lowered where one ends.

Reading a list of tokens or of lexemes is thus defined whatever they are, from any index on and
under any limit, and its outcome is a query or an error.
-/

namespace SelectQuery

open Checked (op total Gives)

/-! ## Lexemes -/

namespace Text

/-- A quote is a single byte, so a text that begins with one is cut behind it. -/
theorem cut?_of_opensQuote {text : String} (opens : opensQuote text = true) :
    cut? text 1 text.utf8ByteSize = some (withoutFirst text) := by
  rcases List.head?_eq_some_iff.mp (beq_iff_eq.mp opens) with ⟨rest, written⟩
  obtain rfl : text = String.ofList (quote :: rest) := by
    rw [← written, String.ofList_toList]
  have cut := Nesting.cuts_cut? (quote :: rest) [quote] rest [] (by simp)
  rw [Nesting.span_utf8Size, Nesting.span_utf8Size] at cut
  rw [withoutFirst, written, List.tail_cons]
  exact cut

theorem utf8ByteSize_quoted (inner : String) :
    (quoted inner).utf8ByteSize = inner.utf8ByteSize + 1 + 1 := by
  have oneByte : quote.utf8Size = 1 := rfl
  rw [quoted, ← Nesting.span_utf8Size, Nesting.span_cons, Nesting.span_append, Nesting.span_cons,
    Nesting.span_nil, Nesting.span_utf8Size, String.ofList_toList, oneByte, Nat.add_comm]

/-- The texts between quotes are those of at least two bytes with a quote at both ends. -/
theorem exists_eq_quoted_iff (text : String) :
    (∃ inner, text = quoted inner) ↔
      2 ≤ text.utf8ByteSize ∧ opensQuote text = true ∧ closesQuote text = true := by
  constructor
  · rintro ⟨inner, rfl⟩
    rw [utf8ByteSize_quoted]
    exact ⟨Nat.le_add_left _ _, opensQuote_quoted inner, closesQuote_quoted inner⟩
  · rintro ⟨long, opens, closes⟩
    rcases List.head?_eq_some_iff.mp (beq_iff_eq.mp opens) with ⟨rest, written⟩
    have last := beq_iff_eq.mp closes
    obtain rfl : text = String.ofList (quote :: rest) := by
      rw [← written, String.ofList_toList]
    cases rest with
    | nil => exact absurd long (by decide)
    | cons c rest =>
        rw [written, List.getLast?_cons_cons] at last
        rcases List.getLast?_eq_some_iff.mp last with ⟨between, equal⟩
        rw [equal]
        exact ⟨String.ofList between, by rw [quoted, String.toList_ofList]⟩

/-- Quotes are single bytes, so the text between them is cut between characters. -/
theorem cut?_quoted (inner : String) :
    cut? (quoted inner) 1 (inner.utf8ByteSize + 1) = some inner := by
  have cut := Nesting.cuts_cut? (quote :: (inner.toList ++ [quote])) [quote] inner.toList [quote]
    rfl
  have stop : Nesting.span Char.utf8Size ([quote] ++ inner.toList) = inner.utf8ByteSize + 1 := by
    rw [Nesting.span_append, Nesting.span_utf8Size inner.toList, String.ofList_toList, Nat.add_comm]
    rfl
  rw [stop, String.ofList_toList] at cut
  exact cut

end Text

namespace Token

/-- The token of a lexeme.  A lexeme between quotes is cut behind its first byte and before its
last. -/
def ofLexeme? (lexeme : String) : Option Token :=
  if lexeme = "" then some ⟨.empty, lexeme⟩
  else if 2 ≤ lexeme.utf8ByteSize ∧ Text.opensQuote lexeme ∧ Text.closesQuote lexeme then do
    let last ← lexeme.utf8ByteSize.ppred
    let text ← Text.cut? lexeme 1 last
    some ⟨.stringLiteral, text⟩
  else if isCallShape lexeme.toList then some ⟨.functionCall, lexeme⟩
  else some ⟨(keyword? lexeme).getD .unknown, lexeme⟩

/-- Every lexeme is classified. -/
theorem ofLexeme?_eq (lexeme : String) : ofLexeme? lexeme = some (ofLexeme lexeme) := by
  by_cases nothing : lexeme = ""
  · rw [ofLexeme?, ofLexeme, if_pos nothing, if_pos nothing]
  · rw [ofLexeme?, if_neg nothing]
    by_cases between : ∃ inner, lexeme = Text.quoted inner
    · rw [if_pos ((Text.exists_eq_quoted_iff lexeme).mp between)]
      rcases between with ⟨inner, rfl⟩
      rw [Text.utf8ByteSize_quoted, Nat.ppred_succ, Option.bind_eq_bind, Option.bind_some,
        Text.cut?_quoted, ofLexeme_quoted]
      rfl
    · have unquoted : Text.unquoted? lexeme = none := by
        rw [Option.eq_none_iff_forall_ne_some]
        intro inner read
        exact between ⟨inner, Text.unquoted?_eq_some_iff.mp read⟩
      rw [if_neg (mt (Text.exists_eq_quoted_iff lexeme).mpr between), ofLexeme, if_neg nothing,
        unquoted]
      split <;> rfl

end Token

/-! ## Columns -/

/-- The column of a draft that ends before the token at a position. -/
def Column.Draft.toColumn? (draft : Draft) (limit position : Nat) : Checked Column :=
  if draft.tokens.isEmpty then total (.error (.unsupportedColumn (.noTokens position)))
  else do
    let expression ← Expression.ofTokensAt? limit 0 draft.tokens.reverse
    total (.ok ⟨expression, draft.phase.alias?⟩)

theorem Column.Draft.gives_toColumn (draft : Draft) (limit position : Nat) :
    Gives (draft.toColumn? limit position) (draft.toColumn limit position) := by
  unfold toColumn? toColumn
  split
  · exact .total _
  · exact (Expression.gives_ofTokensAt rfl _).map _

open Column in
/-- Read the columns up to `FROM`, the first of them begun in a draft. -/
def readColumns? (limit : Nat) (draft : Draft) :
    List Located → Checked (List Column × List Located)
  | [] => total (.error draft.errorAtEnd)
  | token :: rest =>
      match draft.step token with
      | .error error => total (.error error)
      | .ok (.extended draft) => readColumns? limit draft rest
      | .ok .columnEnds => do
          let column ← draft.toColumn? limit token.position
          let (columns, rest) ← readColumns? limit .start rest
          total (.ok (column :: columns, rest))
      | .ok .listEnds => do
          let column ← draft.toColumn? limit token.position
          total (.ok ([column], rest))

theorem gives_readColumns (limit : Nat) (draft : Column.Draft) (tokens : List Located) :
    Gives (readColumns? limit draft tokens) (readColumns limit draft tokens) := by
  induction tokens generalizing draft with
  | nil => exact .total _
  | cons token tokens inductionHypothesis =>
      rw [readColumns?, readColumns]
      rcases draft.step token with error | next | _ | _
      · exact .total _
      · exact inductionHypothesis next
      · apply (draft.gives_toColumn limit token.position).bind
        intro column _
        exact (inductionHypothesis .start).bind fun others _ => .total _
      · exact (draft.gives_toColumn limit token.position).bind fun column _ => .total _

/-! ## Conditions -/

/-- Read one side of a comparison.  A split literal is cut behind its first byte. -/
def readOperand? (expected : Expectation) :
    List Located → Checked (Expression × List Located)
  | [] => total (.error (.endOfInput expected))
  | token :: rest =>
      match token.role with
      | .identifier =>
          if Text.opensQuote token.text then do
            let first ← op (Text.cut? token.text 1 token.text.utf8ByteSize)
            let (later, rest) ← total (readLiteralRest token.text rest)
            total (.ok (.stringLiteral (first ++ later), rest))
          else total (.ok (.identifier token.text, rest))
      | .stringLiteral => total (.ok (.stringLiteral token.text, rest))
      | .functionCall => do
          let call ← Expression.ofCall? token.text
          total (.ok (call, rest))
      | _ => total (.error (.unexpectedToken expected token.text token.position))

theorem gives_readOperand (expected : Expectation) (tokens : List Located) :
    Gives (readOperand? expected tokens) (readOperand expected tokens) := by
  cases tokens with
  | nil => exact .total _
  | cons token tokens =>
      rw [readOperand?, readOperand]
      cases token.role with
      | identifier =>
          dsimp only
          by_cases opens : Text.opensQuote token.text = true
          · rw [if_pos opens, if_pos opens]
            apply Gives.op_bind (Text.cut?_of_opensQuote opens)
            exact (Gives.total _).bind fun literal _ => .total _
          · rw [if_neg opens, if_neg opens]
            exact .total _
      | functionCall => exact (Expression.gives_ofCall token.text).bind fun call _ => .total _
      | _ => exact .total _

/-- Read an operand, a comparator and an operand. -/
def readComparison? (tokens : List Located) : Checked (Condition × List Located) := do
  let (left, rest) ← readOperand? .operand tokens
  let (comparator, rest) ← total (readComparator rest)
  let (right, rest) ← readOperand? (.operandAfter comparator) rest
  total (.ok (.comparison comparator left right, rest))

theorem gives_readComparison (tokens : List Located) :
    Gives (readComparison? tokens) (readComparison tokens) := by
  apply (gives_readOperand _ tokens).bind
  intro left _
  apply (Gives.total (readComparator left.2)).bind
  intro comparator _
  exact (gives_readOperand _ comparator.2).bind fun right _ => .total _

/-- A comparison takes up at least three tokens. -/
theorem length_lt_of_readComparison? {condition : Condition} {tokens rest : List Located}
    (success : (readComparison? tokens).run = some (.ok (condition, rest))) :
    rest.length + 2 < tokens.length := by
  rw [gives_readComparison tokens, Option.some.injEq] at success
  exact length_lt_of_readComparison success

/-- Read comparisons as long as connectives follow, with those already read pending. -/
def readConditionBehind? (pending : List (Condition × Connective)) (tokens : List Located) :
    Checked (Condition × List Located) :=
  match _ : (readComparison? tokens).run with
  | none => op none
  | some (.error error) => total (.error error)
  | some (.ok (comparison, rest)) =>
      match _ : connective? rest with
      | none => total (.ok (comparison.behind pending, rest))
      | some (connective, rest) =>
          readConditionBehind? ((comparison, connective) :: pending) rest
termination_by tokens.length
decreasing_by
  have comparisonShorter := length_lt_of_readComparison? (by assumption)
  have connectiveShorter := length_of_connective? (by assumption)
  omega

/-- The loop without its proof of termination. -/
theorem readConditionBehind?_eq (pending : List (Condition × Connective))
    (tokens : List Located) :
    readConditionBehind? pending tokens =
      readComparison? tokens >>= fun (comparison, rest) =>
        match connective? rest with
        | none => total (.ok (comparison.behind pending, rest))
        | some (connective, rest) =>
            readConditionBehind? ((comparison, connective) :: pending) rest := by
  rw [readConditionBehind?]
  apply ExceptT.ext
  rw [ExceptT.run_bind]
  split
  · rename_i undefined
    rw [undefined]
    rfl
  · rename_i failed
    rw [failed]
    rfl
  · rename_i read
    rw [read]
    dsimp only [Option.bind_eq_bind, Option.bind_some]
    split <;> simp only [*]

/-- The loop gives what the loop does. -/
theorem gives_readConditionBehind (pending : List (Condition × Connective))
    (tokens : List Located) :
    Gives (readConditionBehind? pending tokens) (readConditionBehind pending tokens) := by
  rw [readConditionBehind?_eq, readConditionBehind_eq]
  apply (gives_readComparison tokens).bind
  rintro ⟨comparison, rest⟩ read
  dsimp only
  cases found : connective? rest with
  | none => exact .total _
  | some next =>
      have comparisonShorter := length_lt_of_readComparison read
      have connectiveShorter := length_of_connective? found
      exact gives_readConditionBehind ((comparison, next.1) :: pending) next.2
termination_by tokens.length

/-- Read the condition after `WHERE`, if there is one. -/
def readFilter? : List Located → Checked (Option Condition × List Located)
  | [] => total (.ok (none, []))
  | token :: rest =>
      if token.role = .clause .filter then do
        let (condition, rest) ← readConditionBehind? [] rest
        total (.ok (some condition, rest))
      else total (.ok (none, token :: rest))

theorem gives_readFilter (tokens : List Located) :
    Gives (readFilter? tokens) (readFilter tokens) := by
  cases tokens with
  | nil => exact .total _
  | cons token tokens =>
      rw [readFilter?, readFilter]
      split
      · exact (gives_readConditionBehind [] tokens).bind fun condition _ => .total _
      · exact .total _

/-! ## Queries -/

/-- Read one `SELECT`. -/
def readSelect? (limit : Nat) : List Located → Checked (Select × List Located)
  | [] => total (.error (.endOfInput .selectKeyword))
  | token :: rest =>
      if token.role = .clause .columns then do
        let (columns, rest) ← readColumns? limit .start rest
        let (source, rest) ← total (readSource rest)
        let (filter, rest) ← readFilter? rest
        total (.ok (⟨columns, source, filter⟩, rest))
      else total (.error (.unexpectedToken .selectKeyword token.text token.position))

theorem gives_readSelect (limit : Nat) (tokens : List Located) :
    Gives (readSelect? limit tokens) (readSelect limit tokens) := by
  cases tokens with
  | nil => exact .total _
  | cons token tokens =>
      rw [readSelect?, readSelect]
      split
      · apply (gives_readColumns limit .start tokens).bind
        intro columns _
        apply (Gives.total (readSource columns.2)).bind
        intro source _
        exact (gives_readFilter source.2).bind fun filter _ => .total _
      · exact .total _

/-- Read a query with a number of selects open.  The number is raised before the first `SELECT`
of the query, and lowered behind its last. -/
def readQueryFrom? (limit opened : Nat) (tokens : List Located) :
    Checked (Query × List Located × Nat) :=
  if limit < opened + 1 then total (.error (.nestingTooDeep limit))
  else do
    let (statement, rest) ← readSelect? limit tokens
    let (operator?, rest) ← total (readSetOperator rest)
    match operator? with
    | none => do
        let left ← op (opened + 1).ppred
        total (.ok (.select statement, rest, left))
    | some operator => do
        let (right, rest, opened) ← readQueryFrom? limit (opened + 1) rest
        let left ← op opened.ppred
        total (.ok (.combined operator (.select statement) right, rest, left))
termination_by limit - opened

/-- A query leaves as many selects open as it found. -/
theorem gives_readQueryFrom {limit opened selects : Nat} (left : limit - opened = selects)
    (tokens : List Located) :
    Gives (readQueryFrom? limit opened tokens)
      (readQueryWithin limit selects tokens >>= fun read => .ok (read.1, read.2, opened)) := by
  induction selects generalizing opened tokens with
  | zero =>
      rw [readQueryFrom?, if_pos (by omega)]
      exact .total _
  | succ selects inductionHypothesis =>
      rw [readQueryFrom?, if_neg (by omega), readQueryWithin, bind_assoc]
      apply (gives_readSelect limit tokens).bind
      rintro ⟨statement, rest⟩ _
      dsimp only
      rw [bind_assoc]
      apply (Gives.total (readSetOperator rest)).bind
      rintro ⟨operator?, rest⟩ _
      cases operator? with
      | none => exact .op_bind Nat.ppred_succ (.total _)
      | some operator =>
          have deeper := inductionHypothesis (show limit - (opened + 1) = selects by omega) rest
          dsimp only
          rw [bind_assoc]
          exact deeper.bind_of_map fun right _ => .op_bind Nat.ppred_succ (.total _)

namespace Query

/-- Read the query that begins at an index of a list of tokens. -/
def ofTokens? (limit : Nat) (tokens : List Token) (start : Nat) : Checked (Query × Nat) := do
  let (query, rest, _) ← readQueryFrom? limit 0 (Located.tokensFrom start tokens)
  let stop ← op (tokens.length.psub rest.length)
  total (.ok (query, stop))

/-- Read a list of lexemes that is one query from end to end. -/
def ofLexemes? (limit : Nat) (lexemes : List String) : Checked Query := do
  let tokens ← op (lexemes.mapM Token.ofLexeme?)
  let (query, rest, _) ← readQueryFrom? limit 0
    (Located.tokensFrom 0 (tokens.filter fun token => token.kind ≠ .empty))
  match rest with
  | [] => total (.ok query)
  | token :: _ => total (.error (.trailingToken token.text token.position))

theorem gives_ofTokens (limit : Nat) (tokens : List Token) (start : Nat) :
    Gives (ofTokens? limit tokens start) (ofTokens limit tokens start) := by
  apply (gives_readQueryFrom rfl (Located.tokensFrom start tokens)).bind_of_map
  intro found read
  rcases derivesQuery_of_readQueryWithin read with ⟨used, split, _⟩
  have within : found.2.length ≤ tokens.length := by
    have lengths := congrArg List.length split
    rw [Located.tokensFrom, Located.length_number, List.length_drop, List.length_append] at lengths
    omega
  exact .op_bind (Nat.psub_eq_sub within) (.total _)

theorem gives_ofLexemes (limit : Nat) (lexemes : List String) :
    Gives (ofLexemes? limit lexemes) (ofLexemes limit lexemes) := by
  have classified : lexemes.mapM Token.ofLexeme? = some (lexemes.map Token.ofLexeme) := by
    rw [funext Token.ofLexeme?_eq]
    exact List.mapM_pure
  apply Gives.op_bind classified
  apply (gives_readQueryFrom rfl _).bind_of_map
  rintro ⟨query, rest⟩ _
  cases rest with
  | nil => exact .total _
  | cons token rest => exact .total _

/-- No tokens and no lexemes lead a reading to an operation that is undefined.  Whatever their
kinds and texts are, from every index on and under every limit, no counter falls below zero, no
part is cut outside its list or within a character, and the outcome is that of the reading: a
query or an error. -/
theorem checked_readings_are_defined :
    (∀ limit tokens start,
        (ofTokens? limit tokens start).run = some (ofTokens limit tokens start)) ∧
      ∀ limit lexemes, (ofLexemes? limit lexemes).run = some (ofLexemes limit lexemes) :=
  ⟨gives_ofTokens, gives_ofLexemes⟩

end Query

end SelectQuery
