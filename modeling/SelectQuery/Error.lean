import SelectQuery.Operator

/-!
# Errors

Why a list of tokens is not a query.  An error holds its cause: what was expected
or found, and the position of the token concerned.  `Error.message` is the only
place where causes become words.
-/

namespace SelectQuery

/-- What a reader needs next. -/
inductive Expectation
  | selectKeyword
  | sourceName
  | aliasName
  | operand
  | comparator
  | operandAfter (operator : Comparator)
  | closingQuote (opening : String)
  deriving DecidableEq

/-- Why no `FROM` follows a column list. -/
inductive SourceFault
  /-- The tokens end first. -/
  | endOfInput
  /-- A later clause comes first. -/
  | laterClause (text : String) (position : Nat)
  deriving DecidableEq

/-- Why the tokens of a column are not an expression with an optional alias. -/
inductive ColumnFault
  /-- There are none before the token at a position. -/
  | noTokens (position : Nat)
  /-- A token follows the alias. -/
  | afterAlias (text aliasName : String)
  /-- A `||` has nothing on one side. -/
  | noOperand
  /-- Tokens follow the parenthesis that closes the first one. -/
  | afterParenthesis (text : String)
  /-- A pair of parentheses encloses nothing. -/
  | emptyParentheses
  /-- A name begins or ends with a quote. -/
  | looseQuote (text : String)
  /-- Text follows the arguments of a function call. -/
  | afterArguments (text : String)
  /-- The tokens have no known shape. -/
  | unknownShape (text : String)
  deriving DecidableEq

/-- Why tokens are not a query. -/
inductive Error
  /-- `UNION` or `UNION ALL` is not followed by `SELECT` but by another token or
  by nothing. -/
  | unionWithoutSelect (operator : SetOperator) (position : Nat) (found : Option String)
  /-- A column has no expression. -/
  | unsupportedColumn (fault : ColumnFault)
  /-- The tokens end where one is needed. -/
  | endOfInput (expected : Expectation)
  /-- A column list is not followed by `FROM`. -/
  | missingSource (fault : SourceFault)
  /-- A parenthesis has no partner. -/
  | unmatchedParenthesis (text : String)
  /-- A token is not what is needed where it stands. -/
  | unexpectedToken (expected : Expectation) (found : String) (position : Nat)
  /-- A token follows a complete query. -/
  | trailingToken (text : String) (position : Nat)
  /-- Parentheses nest, or selects follow each other, beyond the limit. -/
  | nestingTooDeep (limit : Nat)
  deriving DecidableEq

/-! ## Wording -/

/-- The words for what is needed. -/
def Expectation.wording : Expectation → String
  | .selectKeyword => "SELECT"
  | .sourceName => "table name after FROM"
  | .aliasName => "alias after AS"
  | .operand => "operand in WHERE"
  | .comparator => "comparison operator in WHERE"
  | .operandAfter operator => "operand after '" ++ operator.symbol ++ "'"
  | .closingQuote opening => "closing quote for " ++ opening

/-- The words for a missing `FROM`. -/
def SourceFault.wording : SourceFault → String
  | .endOfInput => "SELECT reached end of input without FROM"
  | .laterClause text position =>
      "'" ++ text ++ "' at position " ++ position.repr ++ " appears before FROM"

/-- The words for a column that is not supported. -/
def ColumnFault.wording : ColumnFault → String
  | .noTokens position => "empty column before position " ++ position.repr
  | .afterAlias text aliasName => "'" ++ text ++ "' follows the alias '" ++ aliasName ++ "'"
  | .noOperand => "'||' is missing an operand"
  | .afterParenthesis text => "unexpected tokens after ')' in '" ++ text ++ "'"
  | .emptyParentheses => "empty parentheses"
  | .looseQuote text => "unbalanced quote in " ++ text
  | .afterArguments text => "unexpected text after the argument list in '" ++ text ++ "'"
  | .unknownShape text => text

namespace Error

/-- The message of an error. -/
def message : Error → String
  | unionWithoutSelect operator position found =>
      "Malformed set operation: " ++ operator.name ++ " at position " ++ position.repr ++
        match found with
        | some text => " is followed by '" ++ text ++ "' instead of SELECT"
        | none => " is not followed by a SELECT"
  | unsupportedColumn fault => "Unsupported column shape: " ++ fault.wording
  | endOfInput expected => "Unexpected end of input: expected " ++ expected.wording
  | missingSource fault => "Missing required clause: " ++ fault.wording
  | unmatchedParenthesis text => "Unmatched parenthesis in '" ++ text ++ "'"
  | unexpectedToken expected found position =>
      "Unexpected token '" ++ found ++ "' at position " ++ position.repr ++ ": expected " ++
        expected.wording
  | trailingToken text position =>
      "Unexpected token '" ++ text ++ "' after statement at position " ++ position.repr
  | nestingTooDeep limit => "Nesting exceeds the configured limit of " ++ limit.repr

end Error

/-! ## Sequencing -/

/-- Two readings in sequence succeed exactly if the first does, and the second
does after it. -/
theorem bind_eq_ok_iff {ε α β : Type} {first : Except ε α} {next : α → Except ε β} {result : β} :
    (first >>= next) = .ok result ↔ ∃ value, first = .ok value ∧ next value = .ok result := by
  cases first <;> simp [bind, Except.bind]

/-- Two readings in sequence fail exactly if the first does, or the second does after
it. -/
theorem bind_eq_error_iff {ε α β : Type} {first : Except ε α} {next : α → Except ε β} {error : ε} :
    (first >>= next) = .error error ↔
      first = .error error ∨ ∃ value, first = .ok value ∧ next value = .error error := by
  cases first <;> simp [bind, Except.bind]

/-- A reading is known by the value that is kept when its error is forgotten. -/
theorem toOption_eq_some_iff {ε α : Type} {read : Except ε α} {result : α} :
    read.toOption = some result ↔ read = .ok result := by
  cases read <;> simp [Except.toOption]

end SelectQuery
