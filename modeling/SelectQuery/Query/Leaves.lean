import SelectQuery.Query.Basic

/-!
# The selects of a query

`Query.leaves` lists every `SELECT` of a query from left to right.  It keeps the
queries still to visit on a stack, so that its depth does not grow with the
nesting of the tree; `Query.leavesInOrder` is the same list by recursion.
-/

namespace SelectQuery.Query

/-- The number of nodes of a query. -/
def size : Query → Nat
  | .select _ => 1
  | .combined _ left right => left.size + right.size + 1

/-- The number of nodes of the queries on a stack. -/
def sizeOfStack : List Query → Nat
  | [] => 0
  | query :: stack => query.size + sizeOfStack stack

/-- The selects of the queries on a stack, the top of the stack first.  A
combination on top gives way to its two sides, the left one above the right. -/
def leavesOfStack : List Query → List Select
  | [] => []
  | .select statement :: stack => statement :: leavesOfStack stack
  | .combined _ left right :: stack => leavesOfStack (left :: right :: stack)
termination_by stack => sizeOfStack stack
decreasing_by
  · simp only [sizeOfStack, size]
    omega
  · simp only [sizeOfStack, size]
    omega

/-- Every `SELECT` of a query, from left to right. -/
def leaves (query : Query) : List Select :=
  leavesOfStack [query]

/-- The selects of a query by recursion on the tree. -/
def leavesInOrder : Query → List Select
  | .select statement => [statement]
  | .combined _ left right => left.leavesInOrder ++ right.leavesInOrder

/-- The set operators of a query, from left to right. -/
def operatorsInOrder : Query → List SetOperator
  | .select _ => []
  | .combined operator left right =>
      left.operatorsInOrder ++ operator :: right.operatorsInOrder

/-- There is one `SELECT` more than there are set operators. -/
theorem length_leavesInOrder (query : Query) :
    query.leavesInOrder.length = query.operatorsInOrder.length + 1 := by
  induction query with
  | select statement => rfl
  | combined operator left right leftLength rightLength =>
      simp only [leavesInOrder, operatorsInOrder, List.length_append, List.length_cons,
        leftLength, rightLength]
      omega

/-- The stack is worked off in order. -/
theorem leavesOfStack_eq_flatMap (stack : List Query) :
    leavesOfStack stack = stack.flatMap leavesInOrder := by
  fun_induction leavesOfStack stack with
  | case1 => rfl
  | case2 statement stack inductionHypothesis =>
      simp [inductionHypothesis, leavesInOrder]
  | case3 operator left right stack inductionHypothesis =>
      simp [inductionHypothesis, leavesInOrder]

/-- Both ways list the same selects. -/
theorem leaves_eq_leavesInOrder (query : Query) : query.leaves = query.leavesInOrder := by
  rw [leaves, leavesOfStack_eq_flatMap, List.flatMap_singleton]

end SelectQuery.Query
