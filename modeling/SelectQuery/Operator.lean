import SelectQuery.Text.LetterCase

/-!
# Operators

Three kinds of operator occur in a query: comparators between two operands,
connectives between two conditions, and set operators between two queries.

Comparators and connectives are read through their tables of spellings, which
hold upper-case words, so that ASCII case does not matter.  Each operator also
has one canonical `symbol`, which is among its spellings.
-/

namespace SelectQuery

open Text (upper)

/-! ## Comparators -/

/-- How the two sides of a comparison relate. -/
inductive Comparator
  | equal
  | notEqual
  | lessThan
  | lessEqual
  | greaterThan
  | greaterEqual
  | like
  deriving DecidableEq

namespace Comparator

/-- Every spelling of a comparator, in upper case. -/
def spellings : List (String × Comparator) :=
  [("=", .equal), ("==", .equal), ("!=", .notEqual), ("<>", .notEqual),
    ("<", .lessThan), ("<=", .lessEqual), (">", .greaterThan), (">=", .greaterEqual),
    ("LIKE", .like)]

/-- The comparator that a text spells, without regard to ASCII case. -/
def ofText? (text : String) : Option Comparator :=
  spellings.lookup (upper text)

/-- The canonical spelling. -/
def symbol : Comparator → String
  | equal => "="
  | notEqual => "!="
  | lessThan => "<"
  | lessEqual => "<="
  | greaterThan => ">"
  | greaterEqual => ">="
  | like => "LIKE"

/-- The canonical spelling reads back. -/
@[simp]
theorem ofText?_symbol (comparator : Comparator) :
    ofText? comparator.symbol = some comparator := by
  cases comparator <;> decide

/-- Only the upper-case form of a text decides which comparator it spells. -/
theorem ofText?_congr {text other : String} (same : upper text = upper other) :
    ofText? text = ofText? other := by
  rw [ofText?, same, ofText?]

end Comparator

/-! ## Connectives -/

/-- How two conditions combine. -/
inductive Connective
  | and
  | or
  deriving DecidableEq

namespace Connective

/-- The word of each connective, in upper case. -/
def spellings : List (String × Connective) :=
  [("AND", .and), ("OR", .or)]

/-- The connective that a word names, without regard to ASCII case. -/
def ofText? (text : String) : Option Connective :=
  spellings.lookup (upper text)

/-- The canonical spelling. -/
def symbol : Connective → String
  | and => "AND"
  | or => "OR"

/-- The canonical spelling reads back. -/
@[simp]
theorem ofText?_symbol (connective : Connective) :
    ofText? connective.symbol = some connective := by
  cases connective <;> decide

/-- Only the upper-case form of a text decides which connective it names. -/
theorem ofText?_congr {text other : String} (same : upper text = upper other) :
    ofText? text = ofText? other := by
  rw [ofText?, same, ofText?]

end Connective

/-! ## Set operators -/

/-- How two queries combine. -/
inductive SetOperator
  | union
  | unionAll
  deriving DecidableEq

namespace SetOperator

/-- The name of the operator. -/
def name : SetOperator → String
  | union => "UNION"
  | unionAll => "UNION ALL"

/-- The words that are written for the operator. -/
def words : SetOperator → List String
  | union => ["UNION"]
  | unionAll => ["UNION", "ALL"]

end SetOperator

end SelectQuery
