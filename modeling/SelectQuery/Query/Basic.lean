import SelectQuery.Operator
import SelectQuery.Query.Expression

/-!
# Queries

A query is one `SELECT` or several of them combined by set operators.  The types
admit every tree: a combination may nest to the left, a `SELECT` may lack
columns, and a name may be any text.
-/

namespace SelectQuery

/-- One item of a column list: an expression and the name it is given, if any. -/
structure Column where
  expression : Expression
  alias? : Option String
  deriving DecidableEq

/-- The table that a `SELECT` reads, and the name it is given, if any. -/
structure Source where
  name : String
  alias? : Option String
  deriving DecidableEq

/-- A condition on rows. -/
inductive Condition
  /-- Two operands with a comparator between them. -/
  | comparison (comparator : Comparator) (left right : Expression)
  /-- Two conditions with a connective between them. -/
  | logical (connective : Connective) (left right : Condition)
  deriving DecidableEq

/-- One `SELECT`. -/
structure Select where
  columns : List Column
  source : Source
  filter : Option Condition
  deriving DecidableEq

/-- A query. -/
inductive Query
  /-- A single `SELECT`. -/
  | select (select : Select)
  /-- Two queries with a set operator between them. -/
  | combined (operator : SetOperator) (left right : Query)
  deriving DecidableEq

end SelectQuery
