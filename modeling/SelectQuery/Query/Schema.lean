import SelectQuery.Json
import SelectQuery.Query.Basic

/-!
# The schema of a query

Every type of the tree has a written form as a JSON value.  A structure is the
object of its fields, and an alternative is an object whose single field is the tag
of the alternative, or the bare tag if the alternative holds nothing.

Writing states every field, with null for what is absent.  Reading is more lenient
in three places: an absent alias or filter may be left out, fields of a structure
that are not known are passed over, and a bare tag may be an object in which null
stands for the content.
-/

namespace SelectQuery

/-! ## Operators -/

namespace Comparator

/-- The tag of each comparator. -/
def tags : List (String × Comparator) :=
  [("equal", .equal), ("not_equal", .notEqual), ("less_than", .lessThan),
    ("less_equal", .lessEqual), ("greater_than", .greaterThan),
    ("greater_equal", .greaterEqual), ("like", .like)]

/-- The tag of a comparator. -/
def tag : Comparator → String
  | equal => "equal"
  | notEqual => "not_equal"
  | lessThan => "less_than"
  | lessEqual => "less_equal"
  | greaterThan => "greater_than"
  | greaterEqual => "greater_equal"
  | like => "like"

/-- Write a comparator. -/
def toJson (comparator : Comparator) : Json :=
  .string comparator.tag

/-- Read a comparator. -/
def ofJson? (json : Json) : Option Comparator :=
  json.bareTag?.bind fun tag => tags.lookup tag

end Comparator

namespace Connective

/-- The tag of each connective. -/
def tags : List (String × Connective) :=
  [("and", .and), ("or", .or)]

/-- The tag of a connective. -/
def tag : Connective → String
  | and => "and"
  | or => "or"

/-- Write a connective. -/
def toJson (connective : Connective) : Json :=
  .string connective.tag

/-- Read a connective. -/
def ofJson? (json : Json) : Option Connective :=
  json.bareTag?.bind fun tag => tags.lookup tag

end Connective

namespace SetOperator

/-- The tag of each set operator. -/
def tags : List (String × SetOperator) :=
  [("union", .union), ("union_all", .unionAll)]

/-- The tag of a set operator. -/
def tag : SetOperator → String
  | union => "union"
  | unionAll => "union_all"

/-- Write a set operator. -/
def toJson (operator : SetOperator) : Json :=
  .string operator.tag

/-- Read a set operator. -/
def ofJson? (json : Json) : Option SetOperator :=
  json.bareTag?.bind fun tag => tags.lookup tag

end SetOperator

/-! ## Expressions -/

namespace Expression

mutual

/-- Write an expression. -/
def toJson : Expression → Json
  | .identifier name => .tagged "identifier" (.string name)
  | .stringLiteral text => .tagged "string_literal" (.string text)
  | .asterisk => .string "asterisk"
  | .functionCall name arguments =>
      .tagged "function_call"
        (.object [("name", .string name), ("arguments", .ofStrings arguments)])
  | .concatenation parts =>
      .tagged "concatenation" (.object [("parts", .array (toJsonAll parts))])
  | .parenthesized inner =>
      .tagged "parenthesized" (.object [("inner", inner.toJson)])

/-- Write each expression of a list. -/
def toJsonAll : List Expression → List Json
  | [] => []
  | part :: parts => part.toJson :: toJsonAll parts

end

@[simp]
theorem toJsonAll_eq_map (parts : List Expression) : toJsonAll parts = parts.map toJson := by
  induction parts with
  | nil => rfl
  | cons part parts inductionHypothesis =>
      rw [toJsonAll, inductionHypothesis, List.map_cons]

/-- Read an expression. -/
def ofJson? (json : Json) : Option Expression :=
  match json.bareTag? with
  | some tag => if tag = "asterisk" then some .asterisk else none
  | none => do
      let ⟨tag, content, _⟩ ← json.tagged?
      if tag = "identifier" then
        let name ← content.string?
        some (.identifier name)
      else if tag = "string_literal" then
        let text ← content.string?
        some (.stringLiteral text)
      else if tag = "function_call" then
        let ⟨name, _⟩ ← content.field? "name"
        let name ← name.string?
        let ⟨arguments, _⟩ ← content.field? "arguments"
        let arguments ← arguments.strings?
        some (.functionCall name arguments)
      else if tag = "concatenation" then
        let ⟨parts, _⟩ ← content.field? "parts"
        let items ← parts.items?
        let parts ← items.mapM fun ⟨item, _⟩ => ofJson? item
        some (.concatenation parts)
      else if tag = "parenthesized" then
        let ⟨inner, _⟩ ← content.field? "inner"
        let inner ← ofJson? inner
        some (.parenthesized inner)
      else none
termination_by sizeOf json

end Expression

/-! ## Clauses -/

namespace Column

/-- Write a column. -/
def toJson (column : Column) : Json :=
  .object
    [("expression", column.expression.toJson),
      ("alias", .ofOption .string column.alias?)]

/-- Read a column. -/
def ofJson? (json : Json) : Option Column := do
  let ⟨expression, _⟩ ← json.field? "expression"
  let expression ← Expression.ofJson? expression
  let alias? ← json.optionalField? "alias" Json.string?
  some ⟨expression, alias?⟩

end Column

namespace Source

/-- Write a source. -/
def toJson (source : Source) : Json :=
  .object
    [("source", .string source.name),
      ("alias", .ofOption .string source.alias?)]

/-- Read a source. -/
def ofJson? (json : Json) : Option Source := do
  let ⟨name, _⟩ ← json.field? "source"
  let name ← name.string?
  let alias? ← json.optionalField? "alias" Json.string?
  some ⟨name, alias?⟩

end Source

namespace Condition

/-- Write a condition. -/
def toJson : Condition → Json
  | .comparison comparator left right =>
      .tagged "comparison"
        (.object
          [("operator", comparator.toJson),
            ("left", left.toJson),
            ("right", right.toJson)])
  | .logical connective left right =>
      .tagged "logical"
        (.object
          [("operator", connective.toJson),
            ("left", left.toJson),
            ("right", right.toJson)])

/-- Read a condition. -/
def ofJson? (json : Json) : Option Condition := do
  let ⟨tag, content, _⟩ ← json.tagged?
  let ⟨operator, _⟩ ← content.field? "operator"
  let ⟨left, _⟩ ← content.field? "left"
  let ⟨right, _⟩ ← content.field? "right"
  if tag = "comparison" then
    let comparator ← Comparator.ofJson? operator
    let left ← Expression.ofJson? left
    let right ← Expression.ofJson? right
    some (.comparison comparator left right)
  else if tag = "logical" then
    let connective ← Connective.ofJson? operator
    let left ← ofJson? left
    let right ← ofJson? right
    some (.logical connective left right)
  else none
termination_by sizeOf json

end Condition

namespace Select

/-- Write a `SELECT`. -/
def toJson (select : Select) : Json :=
  .object
    [("columns", .array (select.columns.map Column.toJson)),
      ("from", select.source.toJson),
      ("where", .ofOption Condition.toJson select.filter)]

/-- Read a `SELECT`. -/
def ofJson? (json : Json) : Option Select := do
  let ⟨columns, _⟩ ← json.field? "columns"
  let items ← columns.items?
  let columns ← items.mapM fun item => Column.ofJson? item.1
  let ⟨source, _⟩ ← json.field? "from"
  let source ← Source.ofJson? source
  let filter ← json.optionalField? "where" Condition.ofJson?
  some ⟨columns, source, filter⟩

end Select

/-! ## Queries -/

namespace Query

/-- Write a query. -/
def toJson : Query → Json
  | .select statement => .tagged "select" statement.toJson
  | .combined operator left right =>
      .tagged "set_operation"
        (.object
          [("kind", operator.toJson),
            ("left", left.toJson),
            ("right", right.toJson)])

/-- Read a query. -/
def ofJson? (json : Json) : Option Query := do
  let ⟨tag, content, _⟩ ← json.tagged?
  if tag = "select" then
    let statement ← Select.ofJson? content
    some (.select statement)
  else if tag = "set_operation" then
    let ⟨kind, _⟩ ← content.field? "kind"
    let operator ← SetOperator.ofJson? kind
    let ⟨left, _⟩ ← content.field? "left"
    let left ← ofJson? left
    let ⟨right, _⟩ ← content.field? "right"
    let right ← ofJson? right
    some (.combined operator left right)
  else none
termination_by sizeOf json

end Query

end SelectQuery
