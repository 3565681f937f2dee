import SelectQuery.Proofs.Written.Legible

/-!
# Regrouping

Lexemes show the leaves of a tree and the operators between them, but not how the
tree groups them.  The `regrouped` form of a tree is the one grouping that readers
give: set operators and connectives are grouped to the right, each concatenation is
on one level, and a concatenation of a single part is replaced by that part.

Regrouping keeps the leaves and the operators in order, it does not exceed a limit,
and it leaves legible trees as they are.
-/

namespace SelectQuery

/-! ## Concatenations on one level -/

namespace Expression

mutual

/-- The groups of an expression: a concatenation gives way to its parts, at any
depth outside parentheses. -/
def flatParts : Expression → List Expression
  | .identifier name => [.identifier name]
  | .stringLiteral text => [.stringLiteral text]
  | .asterisk => [.asterisk]
  | .functionCall name arguments => [.functionCall name arguments]
  | .concatenation parts => flatPartsOfAll parts
  | .parenthesized inner => [.parenthesized (ofParts inner.flatParts)]

/-- The groups of the expressions of a list. -/
def flatPartsOfAll : List Expression → List Expression
  | [] => []
  | part :: parts => part.flatParts ++ flatPartsOfAll parts

end

@[simp]
theorem flatPartsOfAll_eq_flatMap (parts : List Expression) :
    flatPartsOfAll parts = parts.flatMap flatParts := by
  induction parts with
  | nil => rfl
  | cons part parts inductionHypothesis =>
      rw [flatPartsOfAll, inductionHypothesis, List.flatMap_cons]

/-- The expression with each concatenation on one level. -/
def flattened (expression : Expression) : Expression :=
  ofParts expression.flatParts

/-- A concatenation of a single part gives way to that part. -/
theorem flattened_single (operand : Expression) :
    (concatenation [operand]).flattened = operand.flattened := by
  rw [flattened, flatParts, flatPartsOfAll, flatPartsOfAll, List.append_nil, flattened]

/-- Flattening does not change how deep parentheses nest. -/
theorem nesting_flatParts_le_iff (expression : Expression) (bound : Nat) :
    (∀ part ∈ expression.flatParts, part.nesting ≤ bound) ↔ expression.nesting ≤ bound := by
  induction expression using inductionOn generalizing bound with
  | identifier | stringLiteral | asterisk | functionCall =>
      simp only [flatParts, List.forall_mem_singleton]
  | concatenation parts inductionHypothesis =>
      rw [flatParts, flatPartsOfAll_eq_flatMap, nesting, nestingOfAll_le_iff]
      simp only [List.mem_flatMap, forall_exists_index, and_imp]
      constructor
      · intro bounded part member
        exact (inductionHypothesis part member bound).mp fun group isGroup =>
          bounded group part member isGroup
      · intro bounded group part member isGroup
        exact (inductionHypothesis part member bound).mpr (bounded part member) group isGroup
  | parenthesized inner inductionHypothesis =>
      rw [flatParts, List.forall_mem_singleton, nesting, nesting]
      cases bound with
      | zero => simp
      | succ bound =>
          rw [Nat.succ_le_succ_iff, Nat.succ_le_succ_iff, nesting_ofParts_le_iff,
            inductionHypothesis]

theorem nesting_flattened_le_iff (expression : Expression) (bound : Nat) :
    expression.flattened.nesting ≤ bound ↔ expression.nesting ≤ bound := by
  rw [flattened, nesting_ofParts_le_iff, nesting_flatParts_le_iff]

end Expression

/-! ## Regrouped trees -/

namespace Condition

/-- A condition with a connective and a further condition behind it, its own
comparisons grouped to the right. -/
def regroupedBefore : Condition → Connective → Condition → Condition
  | .comparison comparator left right, connective, others =>
      .logical connective (.comparison comparator left.flattened right.flattened) others
  | .logical inner left right, connective, others =>
      left.regroupedBefore inner (right.regroupedBefore connective others)

/-- The condition with its comparisons grouped to the right. -/
def regrouped : Condition → Condition
  | .comparison comparator left right =>
      .comparison comparator left.flattened right.flattened
  | .logical connective left right => left.regroupedBefore connective right.regrouped

/-- The comparisons of a condition, from left to right. -/
def comparisonsInOrder : Condition → List Condition
  | .comparison comparator left right => [.comparison comparator left right]
  | .logical _ left right => left.comparisonsInOrder ++ right.comparisonsInOrder

/-- The connectives of a condition, from left to right. -/
def connectivesInOrder : Condition → List Connective
  | .comparison _ _ _ => []
  | .logical connective left right =>
      left.connectivesInOrder ++ connective :: right.connectivesInOrder

end Condition

/-- The column with its expression flattened. -/
def Column.regrouped (column : Column) : Column :=
  ⟨column.expression.flattened, column.alias?⟩

/-- The `SELECT` with its columns flattened and its condition regrouped. -/
def Select.regrouped (statement : Select) : Select :=
  ⟨statement.columns.map Column.regrouped, statement.source,
    statement.filter.map Condition.regrouped⟩

namespace Query

/-- A query with a set operator and a further query behind it, its own selects
grouped to the right. -/
def regroupedBefore : Query → SetOperator → Query → Query
  | .select statement, operator, others => .combined operator (.select statement.regrouped) others
  | .combined inner left right, operator, others =>
      left.regroupedBefore inner (right.regroupedBefore operator others)

/-- The query with its selects grouped to the right. -/
def regrouped : Query → Query
  | .select statement => .select statement.regrouped
  | .combined operator left right => left.regroupedBefore operator right.regrouped

end Query

/-! ## The order of leaves and operators -/

namespace Condition

theorem comparisonsInOrder_regroupedBefore (condition : Condition) (connective : Connective)
    (others : Condition) :
    (condition.regroupedBefore connective others).comparisonsInOrder =
      condition.comparisonsInOrder.map regrouped ++ others.comparisonsInOrder := by
  induction condition generalizing connective others with
  | comparison comparator left right => rfl
  | logical inner left right orderLeft orderRight =>
      rw [regroupedBefore, orderLeft, orderRight, comparisonsInOrder, List.map_append,
        List.append_assoc]

/-- Regrouping keeps the comparisons in order. -/
theorem comparisonsInOrder_regrouped (condition : Condition) :
    condition.regrouped.comparisonsInOrder = condition.comparisonsInOrder.map regrouped := by
  induction condition with
  | comparison comparator left right => rfl
  | logical connective left right _ orderRight =>
      rw [regrouped, comparisonsInOrder_regroupedBefore, orderRight, comparisonsInOrder,
        List.map_append]

theorem connectivesInOrder_regroupedBefore (condition : Condition) (connective : Connective)
    (others : Condition) :
    (condition.regroupedBefore connective others).connectivesInOrder =
      condition.connectivesInOrder ++ connective :: others.connectivesInOrder := by
  induction condition generalizing connective others with
  | comparison comparator left right => rfl
  | logical inner left right orderLeft orderRight =>
      rw [regroupedBefore, orderLeft, orderRight, connectivesInOrder, List.append_assoc,
        List.cons_append]

/-- Regrouping keeps the connectives in order. -/
theorem connectivesInOrder_regrouped (condition : Condition) :
    condition.regrouped.connectivesInOrder = condition.connectivesInOrder := by
  induction condition with
  | comparison comparator left right => rfl
  | logical connective left right _ orderRight =>
      rw [regrouped, connectivesInOrder_regroupedBefore, orderRight, connectivesInOrder]

end Condition

namespace Query

theorem leavesInOrder_regroupedBefore (query : Query) (operator : SetOperator) (others : Query) :
    (query.regroupedBefore operator others).leavesInOrder =
      query.leavesInOrder.map Select.regrouped ++ others.leavesInOrder := by
  induction query generalizing operator others with
  | select statement => rfl
  | combined inner left right orderLeft orderRight =>
      rw [regroupedBefore, orderLeft, orderRight, leavesInOrder, List.map_append,
        List.append_assoc]

/-- Regrouping keeps the selects in order. -/
theorem leavesInOrder_regrouped (query : Query) :
    query.regrouped.leavesInOrder = query.leavesInOrder.map Select.regrouped := by
  induction query with
  | select statement => rfl
  | combined operator left right _ orderRight =>
      rw [regrouped, leavesInOrder_regroupedBefore, orderRight, leavesInOrder, List.map_append]

theorem operatorsInOrder_regroupedBefore (query : Query) (operator : SetOperator)
    (others : Query) :
    (query.regroupedBefore operator others).operatorsInOrder =
      query.operatorsInOrder ++ operator :: others.operatorsInOrder := by
  induction query generalizing operator others with
  | select statement => rfl
  | combined inner left right orderLeft orderRight =>
      rw [regroupedBefore, orderLeft, orderRight, operatorsInOrder, List.append_assoc,
        List.cons_append]

/-- Regrouping keeps the set operators in order. -/
theorem operatorsInOrder_regrouped (query : Query) :
    query.regrouped.operatorsInOrder = query.operatorsInOrder := by
  induction query with
  | select statement => rfl
  | combined operator left right _ orderRight =>
      rw [regrouped, operatorsInOrder_regroupedBefore, orderRight, operatorsInOrder]

/-- Regrouping does not exceed a limit. -/
theorem Within.regrouped {limit : Nat} {query : Query} (within : query.Within limit) :
    query.regrouped.Within limit := by
  constructor
  · rw [leavesInOrder_regrouped, List.length_map]
    exact within.selects
  · rw [leavesInOrder_regrouped, List.forall_mem_map]
    intro statement member
    rw [Select.NestsWithin, Select.regrouped, List.forall_mem_map]
    intro column isColumn
    rw [Column.regrouped, Expression.nesting_flattened_le_iff]
    exact within.nesting statement member column isColumn

end Query

/-! ## Legible trees are their own regrouped form -/

namespace Expression

/-- The groups of a legible expression are its parts. -/
theorem Legible.flatParts_eq {place : Place} {expression : Expression}
    (legible : expression.Legible place) : expression.flatParts = expression.parts := by
  induction legible with
  | identifier | stringLiteral | asterisk | functionCall => rfl
  | @concatenation place parts several flat _ inductionHypothesis =>
      have single : ∀ part ∈ parts, part.flatParts = [part] := by
        intro part member
        rw [inductionHypothesis part member, parts_of_isGroup (flat part member)]
      rw [flatParts, flatPartsOfAll_eq_flatMap, List.flatMap_def, List.map_congr_left single,
        ← List.flatMap_def, List.flatMap_singleton', Expression.parts]
  | parenthesized legible inductionHypothesis =>
      rw [flatParts, inductionHypothesis, legible.ofParts_parts]
      rfl

theorem Legible.flattened_eq {place : Place} {expression : Expression}
    (legible : expression.Legible place) : expression.flattened = expression := by
  rw [flattened, legible.flatParts_eq, legible.ofParts_parts]

theorem LegibleOperand.flattened_eq {operand : Expression} (legible : operand.LegibleOperand) :
    operand.flattened = operand := by
  cases legible <;> rfl

end Expression

theorem Condition.Legible.regrouped_eq {condition : Condition} (legible : condition.Legible) :
    condition.regrouped = condition := by
  induction legible with
  | comparison first second => rw [regrouped, first.flattened_eq, second.flattened_eq]
  | logical first _ _ inductionHypothesis =>
      cases first with
      | comparison first second =>
          rw [regrouped, regroupedBefore, first.flattened_eq, second.flattened_eq,
            inductionHypothesis]

theorem Select.Legible.regrouped_eq {statement : Select} (legible : statement.Legible) :
    statement.regrouped = statement := by
  rcases statement with ⟨columns, source, filter⟩
  have sameColumn : ∀ column ∈ columns, column.regrouped = id column := by
    intro column member
    rw [Column.regrouped, (legible.columns column member).expression.flattened_eq]
    rfl
  have sameFilter : filter.map Condition.regrouped = filter := by
    cases filter with
    | none => rfl
    | some condition => rw [Option.map_some, (legible.filter condition rfl).regrouped_eq]
  rw [regrouped, List.map_congr_left sameColumn, List.map_id, sameFilter]

/-- Regrouping changes no legible query. -/
theorem Query.Legible.regrouped_eq {query : Query} (legible : query.Legible) :
    query.regrouped = query := by
  induction legible with
  | select only => rw [regrouped, only.regrouped_eq]
  | combined first _ inductionHypothesis =>
      rw [regrouped, regroupedBefore, first.regrouped_eq, inductionHypothesis]

end SelectQuery
