import SelectQuery.Query.Basic
import SelectQuery.Reader.Expression

/-!
# Reading a column list

The column list is read one token at a time, with the tokens of the current column
in a draft.  A comma outside parentheses ends the column, and `FROM` ends the list
wherever it stands.  Outside parentheses, `AS` announces an alias, and a name right
after an operand is one.  The tokens of a column are read as an expression when the
column ends.
-/

namespace SelectQuery

namespace Column

/-- How far the draft of a column has come. -/
inductive Phase
  /-- Its expression is being read. -/
  | expression
  /-- An alias must follow. -/
  | awaitingAlias
  /-- It has its alias. -/
  | aliased (name : String)
  deriving DecidableEq

/-- The alias that a phase holds. -/
def Phase.alias? : Phase → Option String
  | .aliased name => some name
  | .expression | .awaitingAlias => none

/-- A column whose end has not been met: the tokens of its expression, the latest
first, and how deep in parentheses the next one stands. -/
structure Draft where
  tokens : List Token
  level : Nesting.Level
  phase : Phase
  deriving DecidableEq

/-- What a token does to the draft of a column. -/
inductive Step
  /-- The column goes on. -/
  | extended (draft : Draft)
  /-- The column ends, and another one follows. -/
  | columnEnds
  /-- The column ends, and the list with it. -/
  | listEnds
  deriving DecidableEq

namespace Draft

/-- The draft of a column before its first token. -/
def start : Draft :=
  ⟨[], .outer, .expression⟩

/-- Add a token to a draft without alias.  Outside parentheses `AS` announces an
alias, and a name after an operand is one; any other token belongs to the
expression. -/
def add (draft : Draft) (token : Token) : Draft :=
  if draft.level.isOuter && token.spells "AS" then
    { draft with phase := .awaitingAlias }
  else if draft.level.isOuter && token.canName && draft.tokens.head?.any Token.canEndOperand then
    { draft with phase := .aliased token.text }
  else
    { draft with
      tokens := token :: draft.tokens
      level := draft.level.after token.mark }

/-- What a token does to a draft.  Where an alias must follow, only a name will do.
Elsewhere `FROM` ends the list, a later clause comes too early, and a comma outside
parentheses ends the column; any other token may not follow an alias. -/
def step (draft : Draft) (token : Located) : Except Error Step :=
  match draft.phase, token.role with
  | .awaitingAlias, _ =>
      if token.canName then .ok (.extended { draft with phase := .aliased token.text })
      else .error (.unexpectedToken .aliasName token.text token.position)
  | _, .clause .source => .ok .listEnds
  | _, .clause .filter | _, .clause .order | _, .clause .limit =>
      .error (.missingSource (.laterClause token.text token.position))
  | phase, role =>
      if role = .comma ∧ draft.level.isOuter then .ok .columnEnds
      else
        match phase with
        | .aliased name => .error (.unsupportedColumn (.afterAlias token.text name))
        | _ => .ok (.extended (draft.add token.toToken))

/-- The error of a list that ends within a draft. -/
def errorAtEnd (draft : Draft) : Error :=
  match draft.phase with
  | .awaitingAlias => .endOfInput .aliasName
  | .expression | .aliased _ => .missingSource .endOfInput

/-- The column of a draft that ends before the token at a position. -/
def toColumn (draft : Draft) (limit position : Nat) : Except Error Column :=
  if draft.tokens.isEmpty then .error (.unsupportedColumn (.noTokens position))
  else
    (Expression.ofTokens limit draft.tokens.reverse).map fun expression =>
      ⟨expression, draft.phase.alias?⟩

end Draft

end Column

open Column in
/-- Read the columns up to `FROM`, the first of them begun in a draft; `FROM` is
read too.  Parentheses may nest up to a limit. -/
def readColumns (limit : Nat) (draft : Draft) :
    List Located → Except Error (List Column × List Located)
  | [] => .error draft.errorAtEnd
  | token :: rest =>
      match draft.step token with
      | .error error => .error error
      | .ok (.extended draft) => readColumns limit draft rest
      | .ok .columnEnds => do
          let column ← draft.toColumn limit token.position
          let (columns, rest) ← readColumns limit .start rest
          .ok (column :: columns, rest)
      | .ok .listEnds => do
          let column ← draft.toColumn limit token.position
          .ok ([column], rest)

end SelectQuery
