import SelectQuery.Query.Basic
import SelectQuery.Reader.Call
import SelectQuery.Token.Basic

/-!
# Reading a condition

After `WHERE` come comparisons with connectives between them.  A comparison has an
operand on each side of its comparator.  An operand may be a literal that was split
at its blanks: it begins at a token that opens a quote and goes on to the next one
that closes it.

The chain of comparisons is read in a loop that keeps the comparisons already read,
each with the connective after it; `readNestedCondition` is the same reading by
recursion.  In both the connectives group to the right.
-/

namespace SelectQuery

/-! ## Operands -/

/-- Read the rest of a split literal that began with a given text: the text after
it, with a space before each further token, up to the quote that closes it. -/
def readLiteralRest (opening : String) : List Located → Except Error (String × List Located)
  | [] => .error (.endOfInput (.closingQuote opening))
  | token :: rest =>
      if token.role ≠ .stringLiteral ∧ Text.closesQuote token.text then
        .ok (" " ++ Text.withoutLast token.text, rest)
      else do
        let (later, rest) ← readLiteralRest opening rest
        .ok (" " ++ token.lexeme ++ later, rest)

/-- Read one side of a comparison. -/
def readOperand (expected : Expectation) :
    List Located → Except Error (Expression × List Located)
  | [] => .error (.endOfInput expected)
  | token :: rest =>
      match token.role with
      | .identifier =>
          if Text.opensQuote token.text then do
            let (later, rest) ← readLiteralRest token.text rest
            .ok (.stringLiteral (Text.withoutFirst token.text ++ later), rest)
          else .ok (.identifier token.text, rest)
      | .stringLiteral => .ok (.stringLiteral token.text, rest)
      | .functionCall => do
          let call ← Expression.ofCall token.text
          .ok (call, rest)
      | _ => .error (.unexpectedToken expected token.text token.position)

/-! ## Comparisons -/

/-- Read a comparator. -/
def readComparator : List Located → Except Error (Comparator × List Located)
  | [] => .error (.endOfInput .comparator)
  | token :: rest =>
      match token.role with
      | .comparator comparator => .ok (comparator, rest)
      | _ => .error (.unexpectedToken .comparator token.text token.position)

/-- Read an operand, a comparator and an operand. -/
def readComparison (tokens : List Located) : Except Error (Condition × List Located) := do
  let (left, rest) ← readOperand .operand tokens
  let (comparator, rest) ← readComparator rest
  let (right, rest) ← readOperand (.operandAfter comparator) rest
  .ok (.comparison comparator left right, rest)

/-! ## Progress -/

/-- The rest of a literal takes up at least one token. -/
theorem length_lt_of_readLiteralRest {opening text : String} {tokens rest : List Located}
    (success : readLiteralRest opening tokens = .ok (text, rest)) :
    rest.length < tokens.length := by
  induction tokens generalizing text with
  | nil => cases success
  | cons token tokens inductionHypothesis =>
      rw [readLiteralRest] at success
      split at success
      · cases success
        simp
      · rcases bind_eq_ok_iff.mp success with ⟨⟨later, laterRest⟩, laterSuccess, equal⟩
        cases equal
        exact Nat.lt_succ_of_lt (inductionHypothesis laterSuccess)

/-- An operand takes up at least one token. -/
theorem length_lt_of_readOperand {expected : Expectation} {operand : Expression}
    {tokens rest : List Located} (success : readOperand expected tokens = .ok (operand, rest)) :
    rest.length < tokens.length := by
  cases tokens with
  | nil => cases success
  | cons token tokens =>
      rw [readOperand] at success
      split at success
      · split at success
        · rcases bind_eq_ok_iff.mp success with ⟨⟨later, laterRest⟩, laterSuccess, equal⟩
          cases equal
          exact Nat.lt_succ_of_lt (length_lt_of_readLiteralRest laterSuccess)
        · cases success
          simp
      · cases success
        simp
      · rcases bind_eq_ok_iff.mp success with ⟨call, _, equal⟩
        cases equal
        simp
      · cases success

/-- A comparator takes up one token. -/
theorem length_of_readComparator {comparator : Comparator} {tokens rest : List Located}
    (success : readComparator tokens = .ok (comparator, rest)) :
    tokens.length = rest.length + 1 := by
  cases tokens with
  | nil => cases success
  | cons token tokens =>
      rw [readComparator] at success
      split at success
      · cases success
        simp
      · cases success

/-- A comparison takes up at least three tokens. -/
theorem length_lt_of_readComparison {condition : Condition} {tokens rest : List Located}
    (success : readComparison tokens = .ok (condition, rest)) :
    rest.length + 2 < tokens.length := by
  rcases bind_eq_ok_iff.mp success with ⟨⟨left, afterLeft⟩, leftSuccess, success⟩
  rcases bind_eq_ok_iff.mp success with ⟨⟨comparator, afterComparator⟩, comparatorSuccess, success⟩
  rcases bind_eq_ok_iff.mp success with ⟨⟨right, afterRight⟩, rightSuccess, equal⟩
  cases equal
  have leftShorter := length_lt_of_readOperand leftSuccess
  have comparatorShorter := length_of_readComparator comparatorSuccess
  have rightShorter := length_lt_of_readOperand rightSuccess
  omega

/-! ## Chains of comparisons -/

/-- The connective that a list begins with, and the tokens after it. -/
def connective? : List Located → Option (Connective × List Located)
  | [] => none
  | token :: rest =>
      match token.role with
      | .connective connective => some (connective, rest)
      | _ => none

/-- A connective takes up one token. -/
theorem length_of_connective? {connective : Connective} {tokens rest : List Located}
    (found : connective? tokens = some (connective, rest)) :
    tokens.length = rest.length + 1 := by
  cases tokens with
  | nil => cases found
  | cons token tokens =>
      rw [connective?] at found
      split at found
      · cases found
        simp
      · cases found

/-- Put a condition behind the comparisons read before it, the latest of them
first, each with the connective after it. -/
def Condition.behind (last : Condition) (pending : List (Condition × Connective)) : Condition :=
  pending.foldl (fun right left => .logical left.2 left.1 right) last

@[simp]
theorem Condition.behind_nil (last : Condition) : last.behind [] = last :=
  rfl

@[simp]
theorem Condition.behind_cons (last : Condition) (comparison : Condition)
    (connective : Connective) (pending : List (Condition × Connective)) :
    last.behind ((comparison, connective) :: pending) =
      (logical connective comparison last).behind pending :=
  rfl

/-- Read comparisons as long as connectives follow, with those already read
pending. -/
def readConditionBehind (pending : List (Condition × Connective)) (tokens : List Located) :
    Except Error (Condition × List Located) :=
  match _ : readComparison tokens with
  | .error error => .error error
  | .ok (comparison, rest) =>
      match _ : connective? rest with
      | none => .ok (comparison.behind pending, rest)
      | some (connective, rest) =>
          readConditionBehind ((comparison, connective) :: pending) rest
termination_by tokens.length
decreasing_by
  have comparisonShorter := length_lt_of_readComparison (by assumption)
  have connectiveShorter := length_of_connective? (by assumption)
  omega

/-- The loop without its proof of termination. -/
theorem readConditionBehind_eq (pending : List (Condition × Connective))
    (tokens : List Located) :
    readConditionBehind pending tokens =
      readComparison tokens >>= fun (comparison, rest) =>
        match connective? rest with
        | none => .ok (comparison.behind pending, rest)
        | some (connective, rest) =>
            readConditionBehind ((comparison, connective) :: pending) rest := by
  rw [readConditionBehind]
  split
  · simp [*, bind, Except.bind]
  · split <;> simp [*, bind, Except.bind]

/-- Read a condition. -/
def readCondition (tokens : List Located) : Except Error (Condition × List Located) :=
  readConditionBehind [] tokens

/-- Read a condition by recursion: a comparison and, after a connective, the
condition to its right. -/
def readNestedCondition (tokens : List Located) : Except Error (Condition × List Located) :=
  match _ : readComparison tokens with
  | .error error => .error error
  | .ok (comparison, rest) =>
      match _ : connective? rest with
      | none => .ok (comparison, rest)
      | some (connective, rest) => do
          let (right, rest) ← readNestedCondition rest
          .ok (.logical connective comparison right, rest)
termination_by tokens.length
decreasing_by
  have comparisonShorter := length_lt_of_readComparison (by assumption)
  have connectiveShorter := length_of_connective? (by assumption)
  omega

/-- The recursion without its proof of termination. -/
theorem readNestedCondition_eq (tokens : List Located) :
    readNestedCondition tokens =
      readComparison tokens >>= fun (comparison, rest) =>
        match connective? rest with
        | none => .ok (comparison, rest)
        | some (connective, rest) =>
            readNestedCondition rest >>= fun (right, rest) =>
              .ok (.logical connective comparison right, rest) := by
  rw [readNestedCondition]
  split
  · simp [*, bind, Except.bind]
  · split <;> simp [*, bind, Except.bind]

/-! ## The filter -/

/-- Read the condition after `WHERE`, if there is one. -/
def readFilter : List Located → Except Error (Option Condition × List Located)
  | [] => .ok (none, [])
  | token :: rest =>
      if token.role = .clause .filter then do
        let (condition, rest) ← readCondition rest
        .ok (some condition, rest)
      else .ok (none, token :: rest)

end SelectQuery
