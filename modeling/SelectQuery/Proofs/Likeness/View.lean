import SelectQuery.Proofs.Grammar
import SelectQuery.Reader.Column

/-!
# Views of trees and errors

A view shows a result with its texts and positions replaced, each through a function
of its own.  It keeps every constructor and every operator, so that two results that
look the same under a view can differ in nothing but what the view hides.

A view that hides the texts of errors still shows their outline: which error it is,
and where the token stands that is not what was needed.
-/

namespace SelectQuery

/-- What is shown of the texts and positions of a result. -/
structure View where
  /-- Shown of identifiers, sources, aliases, functions and their arguments. -/
  name : String → String
  /-- Shown of string literals. -/
  literal : String → String
  /-- Shown of the texts in an error. -/
  found : String → String
  /-- Shown of the positions in an error. -/
  position : Nat → Nat

namespace View

variable (view : View)

/-! ## Trees -/

mutual

/-- An expression as a view shows it. -/
def expression : Expression → Expression
  | .identifier name => .identifier (view.name name)
  | .stringLiteral text => .stringLiteral (view.literal text)
  | .asterisk => .asterisk
  | .functionCall name arguments =>
      .functionCall (view.name name) (arguments.map view.name)
  | .concatenation parts => .concatenation (expressions parts)
  | .parenthesized inner => .parenthesized (expression inner)

/-- The expressions of a list as a view shows them. -/
def expressions : List Expression → List Expression
  | [] => []
  | part :: parts => expression part :: expressions parts

end

@[simp]
theorem expressions_eq_map (parts : List Expression) :
    view.expressions parts = parts.map view.expression := by
  induction parts with
  | nil => rfl
  | cons part parts inductionHypothesis =>
      rw [expressions, inductionHypothesis, List.map_cons]

/-- A view shows groups one by one. -/
theorem expression_ofParts (parts : List Expression) :
    view.expression (.ofParts parts) = .ofParts (parts.map view.expression) := by
  match parts with
  | [] => rfl
  | [part] => rfl
  | first :: second :: others =>
      simp only [Expression.ofParts, expression, expressions_eq_map, List.map_cons]

/-- A column as a view shows it. -/
def column (column : Column) : Column :=
  ⟨view.expression column.expression, column.alias?.map view.name⟩

/-- A source as a view shows it. -/
def source (source : Source) : Source :=
  ⟨view.name source.name, source.alias?.map view.name⟩

/-- A condition as a view shows it. -/
def condition : Condition → Condition
  | .comparison comparator left right =>
      .comparison comparator (view.expression left) (view.expression right)
  | .logical connective left right =>
      .logical connective (condition left) (condition right)

/-- Pending comparisons as a view shows them. -/
def pending (pending : List (Condition × Connective)) : List (Condition × Connective) :=
  pending.map fun entry => (view.condition entry.1, entry.2)

/-- A view shows the comparisons of a chain one by one. -/
theorem condition_behind (last : Condition) (pending : List (Condition × Connective)) :
    view.condition (last.behind pending) = (view.condition last).behind (view.pending pending) := by
  induction pending generalizing last with
  | nil => rfl
  | cons entry pending inductionHypothesis =>
      rw [Condition.behind_cons, inductionHypothesis, condition]
      rfl

/-- A `SELECT` as a view shows it. -/
def select (statement : Select) : Select :=
  ⟨statement.columns.map view.column, view.source statement.source,
    statement.filter.map view.condition⟩

/-- A query as a view shows it. -/
def query : Query → Query
  | .select statement => .select (view.select statement)
  | .combined operator left right => .combined operator (query left) (query right)

/-- The phase of a draft as a view shows it. -/
def phase : Column.Phase → Column.Phase
  | .expression => .expression
  | .awaitingAlias => .awaitingAlias
  | .aliased name => .aliased (view.name name)

/-- A view shows the alias that a phase holds. -/
theorem alias?_phase (phase : Column.Phase) :
    (view.phase phase).alias? = phase.alias?.map view.name := by
  cases phase <;> rfl

/-! ## Errors -/

/-- What is needed, as a view shows it. -/
def expectation : Expectation → Expectation
  | .closingQuote opening => .closingQuote (view.found opening)
  | expected => expected

/-- A missing `FROM` as a view shows it. -/
def sourceFault : SourceFault → SourceFault
  | .endOfInput => .endOfInput
  | .laterClause text position => .laterClause (view.found text) (view.position position)

/-- A fault of a column as a view shows it. -/
def columnFault : ColumnFault → ColumnFault
  | .noTokens position => .noTokens (view.position position)
  | .afterAlias text aliasName => .afterAlias (view.found text) (view.found aliasName)
  | .noOperand => .noOperand
  | .afterParenthesis text => .afterParenthesis (view.found text)
  | .emptyParentheses => .emptyParentheses
  | .looseQuote text => .looseQuote (view.found text)
  | .afterArguments text => .afterArguments (view.found text)
  | .unknownShape text => .unknownShape (view.found text)

/-- An error as a view shows it. -/
def error : Error → Error
  | .unionWithoutSelect operator position found =>
      .unionWithoutSelect operator (view.position position) (found.map view.found)
  | .unsupportedColumn fault => .unsupportedColumn (view.columnFault fault)
  | .endOfInput expected => .endOfInput (view.expectation expected)
  | .missingSource fault => .missingSource (view.sourceFault fault)
  | .unmatchedParenthesis text => .unmatchedParenthesis (view.found text)
  | .unexpectedToken expected found position =>
      .unexpectedToken (view.expectation expected) (view.found found) (view.position position)
  | .trailingToken text position => .trailingToken (view.found text) (view.position position)
  | .nestingTooDeep limit => .nestingTooDeep limit

/-! ## Views that hide nothing -/

section Identity

variable {view} (names : view.name = id) (literals : view.literal = id)

include names literals

theorem expression_eq_self (expression : Expression) : view.expression expression = expression := by
  induction expression using Expression.inductionOn with
  | identifier | functionCall => simp [View.expression, names]
  | stringLiteral => simp [View.expression, literals]
  | asterisk => rfl
  | concatenation parts inductionHypothesis =>
      rw [View.expression, expressions_eq_map, List.map_congr_left inductionHypothesis,
        List.map_id']
  | parenthesized inner inductionHypothesis => rw [View.expression, inductionHypothesis]

theorem column_eq_self (column : Column) : view.column column = column := by
  rw [View.column, expression_eq_self names literals, names, Option.map_id, id]

omit literals in
theorem source_eq_self (source : Source) : view.source source = source := by
  rw [View.source, names, Option.map_id, id, id]

theorem condition_eq_self (condition : Condition) : view.condition condition = condition := by
  induction condition with
  | comparison comparator left right =>
      rw [View.condition, expression_eq_self names literals, expression_eq_self names literals]
  | logical connective left right sameLeft sameRight =>
      rw [View.condition, sameLeft, sameRight]

theorem select_eq_self (statement : Select) : view.select statement = statement := by
  rw [View.select, source_eq_self names, funext (column_eq_self names literals),
    funext (condition_eq_self names literals), List.map_id', Option.map_id']

/-- A view that shows names and literals as they are shows a query as it is. -/
theorem query_eq_self (query : Query) : view.query query = query := by
  induction query with
  | select statement => rw [View.query, select_eq_self names literals]
  | combined operator left right sameLeft sameRight => rw [View.query, sameLeft, sameRight]

end Identity

/-- A view that shows texts and positions as they are shows an error as it is. -/
theorem error_eq_self {view : View} (found : view.found = id) (positions : view.position = id)
    (error : Error) : view.error error = error := by
  cases error with
  | unionWithoutSelect operator position found? =>
      rw [View.error, found, positions, Option.map_id]
      rfl
  | unsupportedColumn fault => cases fault <;> simp [View.error, columnFault, found, positions]
  | endOfInput expected => cases expected <;> simp [View.error, expectation, found]
  | missingSource fault => cases fault <;> simp [View.error, sourceFault, found, positions]
  | unexpectedToken expected =>
      cases expected <;> simp [View.error, expectation, found, positions]
  | unmatchedParenthesis | trailingToken | nestingTooDeep =>
      simp [View.error, found, positions]

/-- Shows everything as it is. -/
def plain : View :=
  ⟨id, id, id, id⟩

theorem plain_expression (expression : Expression) : plain.expression expression = expression :=
  expression_eq_self rfl rfl expression

theorem plain_query (query : Query) : plain.query query = query :=
  query_eq_self rfl rfl query

theorem plain_error (error : Error) : plain.error error = error :=
  error_eq_self rfl rfl error

end View

/-! ## Outlines of errors -/

/-- Which error it is, and the position of a token that is not what is needed. -/
inductive Error.Outline
  | unionWithoutSelect
  | unsupportedColumn
  | endOfInput
  | missingSource
  | unmatchedParenthesis
  | unexpectedToken (position : Nat)
  | trailingToken (position : Nat)
  | nestingTooDeep
  deriving DecidableEq

/-- The outline of an error. -/
def Error.outline : Error → Error.Outline
  | .unionWithoutSelect _ _ _ => .unionWithoutSelect
  | .unsupportedColumn _ => .unsupportedColumn
  | .endOfInput _ => .endOfInput
  | .missingSource _ => .missingSource
  | .unmatchedParenthesis _ => .unmatchedParenthesis
  | .unexpectedToken _ _ position => .unexpectedToken position
  | .trailingToken _ position => .trailingToken position
  | .nestingTooDeep _ => .nestingTooDeep

/-- A view that shows positions as they are shows the outline of an error. -/
theorem View.outline_error {view : View} (positions : view.position = id) (error : Error) :
    (view.error error).outline = error.outline := by
  cases error <;> simp [View.error, Error.outline, positions]

/-- Errors that look the same, with their positions shown, have the same outline. -/
theorem View.outline_eq {left right : View} (leftPositions : left.position = id)
    (rightPositions : right.position = id) {error other : Error}
    (same : left.error error = right.error other) : error.outline = other.outline := by
  rw [← View.outline_error leftPositions, same, View.outline_error rightPositions]

end SelectQuery
