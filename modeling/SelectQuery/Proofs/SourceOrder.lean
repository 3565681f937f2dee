import SelectQuery.Proofs.Nesting
import SelectQuery.Query.Leaves
import SelectQuery.Query.Lexemes

/-!
# Selects in source order

The selects of a query are listed by a traversal with a stack, and its lexemes are written
by recursion.  Both go through the tree from left to right, however it is nested: the
lexemes are those of the selects that the traversal finds, in the same order, with the words
of the set operators between them.

The traversal is followed round by round.  A round changes neither the selects found
together with those that the stack still holds, nor anything but one node of the stack, so
that a query of `size` nodes is worked off in as many rounds.
-/

namespace SelectQuery

/-- A traversal of queries under way: those still to visit, the top of the stack first, and
the selects found so far, in the order in which they were found. -/
structure Traversal where
  stack : List Query
  found : List Select

namespace Traversal

/-- A traversal before its first round. -/
def start (query : Query) : Traversal :=
  ⟨[query], []⟩

/-- One round, in which the query on top of the stack is taken off: a `SELECT` is found, and
of a combination the right side is put back and the left side above it.  There is no round
with an empty stack. -/
def round? : Traversal → Option Traversal
  | ⟨[], _⟩ => none
  | ⟨.select statement :: stack, found⟩ => some ⟨stack, found ++ [statement]⟩
  | ⟨.combined _ left right :: stack, found⟩ => some ⟨left :: right :: stack, found⟩

/-- The traversal after a number of rounds, undefined if it ends before. -/
def rounds? : Nat → Traversal → Option Traversal
  | 0, traversal => some traversal
  | count + 1, traversal => traversal.round?.bind (rounds? count)

@[simp]
theorem rounds?_zero (traversal : Traversal) : rounds? 0 traversal = some traversal :=
  rfl

theorem rounds?_succ (count : Nat) (traversal : Traversal) :
    rounds? (count + 1) traversal = traversal.round?.bind (rounds? count) :=
  rfl

/-- The selects found and those still to be found. -/
def listed (traversal : Traversal) : List Select :=
  traversal.found ++ Query.leavesOfStack traversal.stack

/-- A traversal ends where its stack is empty. -/
theorem round?_eq_none_iff (traversal : Traversal) :
    traversal.round? = none ↔ traversal.stack = [] := by
  rcases traversal with ⟨stack, found⟩
  rcases stack with _ | ⟨_ | _, stack⟩ <;> simp [round?]

/-- A round keeps the selects in order and takes one node off the stack. -/
theorem listed_of_round? {traversal next : Traversal} (step : traversal.round? = some next) :
    next.listed = traversal.listed ∧
      Query.sizeOfStack traversal.stack = Query.sizeOfStack next.stack + 1 := by
  rcases traversal with ⟨stack, found⟩
  match stack with
  | [] => cases step
  | .select statement :: stack =>
      cases step
      constructor
      · simp only [listed, Query.leavesOfStack, List.append_assoc, List.singleton_append]
      · simp only [Query.sizeOfStack, Query.size]
        omega
  | .combined operator left right :: stack =>
      cases step
      constructor
      · simp only [listed, Query.leavesOfStack]
      · simp only [Query.sizeOfStack, Query.size]
        omega

/-- Every query has a node. -/
theorem eq_nil_of_sizeOfStack {stack : List Query} (nothing : Query.sizeOfStack stack = 0) :
    stack = [] := by
  match stack with
  | [] => rfl
  | .select statement :: stack | .combined operator left right :: stack =>
      simp only [Query.sizeOfStack, Query.size] at nothing
      omega

/-- A traversal has as many rounds as its stack has nodes, and has found all selects in
order at its end. -/
theorem rounds?_sizeOfStack (traversal : Traversal) :
    rounds? (Query.sizeOfStack traversal.stack) traversal = some ⟨[], traversal.listed⟩ := by
  generalize size : Query.sizeOfStack traversal.stack = count
  induction count generalizing traversal with
  | zero =>
      have ended := eq_nil_of_sizeOfStack size
      rcases traversal with ⟨stack, found⟩
      dsimp only at ended
      subst ended
      simp [listed, Query.leavesOfStack]
  | succ count inductionHypothesis =>
      cases step : traversal.round? with
      | none =>
          rw [(round?_eq_none_iff traversal).mp step] at size
          cases size
      | some next =>
          rcases listed_of_round? step with ⟨sameList, oneLess⟩
          have remaining : Query.sizeOfStack next.stack = count := by omega
          rw [rounds?_succ, step, Option.bind_some, inductionHypothesis next remaining, sameList]

end Traversal

/-- The second word is written for `UNION ALL` alone. -/
theorem SetOperator.words_eq_ite :
    words = fun operator => if operator = .unionAll then ["UNION", "ALL"] else ["UNION"] := by
  funext operator
  cases operator <;> rfl

namespace Query

/-- A query is written as its selects with the words of its set operators between them. -/
theorem lexemes_eq_interlaced (query : Query) :
    query.lexemes =
      Nesting.interlaced (query.leavesInOrder.map Select.lexemes)
        (query.operatorsInOrder.map SetOperator.words) := by
  induction query with
  | select statement => simp [lexemes, leavesInOrder, operatorsInOrder, Nesting.interlaced]
  | combined operator left right writtenLeft writtenRight =>
      have fit : (left.leavesInOrder.map Select.lexemes).length =
          (left.operatorsInOrder.map SetOperator.words).length + 1 := by
        rw [List.length_map, List.length_map, length_leavesInOrder]
      rw [lexemes, leavesInOrder, operatorsInOrder, List.map_append, List.map_append, List.map_cons,
        Nesting.interlaced_append fit, ← writtenLeft, ← writtenRight]

/-- Traversal and writing agree on the order of a query, whatever its shape.  The traversal
ends after one round for each node and has then found exactly the selects of the tree from
left to right.  The lexemes of the query are those of these selects in turn, with `UNION` or
`UNION` and `ALL` between them, as the set operators from left to right say. -/
theorem leaves_and_lexemes_in_order (query : Query) :
    Traversal.rounds? query.size (.start query) = some ⟨[], query.leaves⟩ ∧
      query.leaves = query.leavesInOrder ∧
      query.leaves.length = query.operatorsInOrder.length + 1 ∧
      query.lexemes =
        Nesting.interlaced (query.leaves.map Select.lexemes)
          (query.operatorsInOrder.map fun operator =>
            if operator = .unionAll then ["UNION", "ALL"] else ["UNION"]) := by
  have ends : Traversal.rounds? query.size (.start query) = some ⟨[], query.leaves⟩ := by
    have run := Traversal.rounds?_sizeOfStack (.start query)
    simpa only [Traversal.start, Traversal.listed, sizeOfStack, Nat.add_zero, List.nil_append,
      leaves] using run
  have written := lexemes_eq_interlaced query
  rw [SetOperator.words_eq_ite] at written
  rw [leaves_eq_leavesInOrder] at ends ⊢
  exact ⟨ends, rfl, length_leavesInOrder query, written⟩

end Query

end SelectQuery
