import SelectQuery.Query.Basic
import SelectQuery.Text.Quotation

/-!
# The written form of a query

Every tree has one canonical list of lexemes: keywords in upper case, aliases
introduced by `AS`, operators by their symbols, one lexeme for each string literal
and function call.  Neither set operators nor connectives write parentheses, so
the list shows the order of their operands and not how they were grouped.
-/

namespace SelectQuery

/-! ## Expressions -/

namespace Expression

/-- The lexeme of a function call: its arguments stand in parentheses, with a comma
and no space between them. -/
def callLexeme (name : String) (arguments : List String) : String :=
  String.ofList
    (name.toList ++ '(' :: ([','].intercalate (arguments.map String.toList) ++ [')']))

mutual

/-- The lexemes of an expression. -/
def lexemes : Expression → List String
  | .identifier name => [name]
  | .stringLiteral text => [Text.quoted text]
  | .asterisk => ["*"]
  | .functionCall name arguments => [callLexeme name arguments]
  | .concatenation parts => ["||"].intercalate (lexemesOfAll parts)
  | .parenthesized inner => "(" :: (inner.lexemes ++ [")"])

/-- The lexemes of each expression of a list. -/
def lexemesOfAll : List Expression → List (List String)
  | [] => []
  | part :: parts => part.lexemes :: lexemesOfAll parts

end

@[simp]
theorem lexemesOfAll_eq_map (parts : List Expression) :
    lexemesOfAll parts = parts.map lexemes := by
  induction parts with
  | nil => rfl
  | cons part parts inductionHypothesis =>
      rw [lexemesOfAll, inductionHypothesis, List.map_cons]

/-- The parts of a concatenation are written with `||` between them. -/
theorem lexemes_concatenation (parts : List Expression) :
    (concatenation parts).lexemes = ["||"].intercalate (parts.map lexemes) := by
  rw [lexemes, lexemesOfAll_eq_map]

end Expression

/-! ## Clauses -/

/-- The lexemes of an alias, where there is one. -/
def aliasLexemes : Option String → List String
  | none => []
  | some name => ["AS", name]

/-- The lexemes of a column. -/
def Column.lexemes (column : Column) : List String :=
  column.expression.lexemes ++ aliasLexemes column.alias?

/-- The lexemes of a source. -/
def Source.lexemes (source : Source) : List String :=
  source.name :: aliasLexemes source.alias?

/-- The lexemes of a condition. -/
def Condition.lexemes : Condition → List String
  | .comparison comparator left right => left.lexemes ++ comparator.symbol :: right.lexemes
  | .logical connective left right => left.lexemes ++ connective.symbol :: right.lexemes

/-- The lexemes of a filter, where there is one. -/
def filterLexemes : Option Condition → List String
  | none => []
  | some condition => "WHERE" :: condition.lexemes

/-- The lexemes of a `SELECT`. -/
def Select.lexemes (select : Select) : List String :=
  "SELECT" :: ([","].intercalate (select.columns.map Column.lexemes) ++
    "FROM" :: (select.source.lexemes ++ filterLexemes select.filter))

/-! ## Queries -/

/-- The lexemes of a query. -/
def Query.lexemes : Query → List String
  | .select statement => statement.lexemes
  | .combined operator left right => left.lexemes ++ (operator.words ++ right.lexemes)

end SelectQuery
