/-!
# Nesting

A list whose items may open a level, close one, separate pieces or toggle a
quotation can be read in two ways that this file supplies: `pieces` cuts it at
the separators that stand on the outer level, and `enclosed?` looks for the item
that closes a level already open.

Both are used at two scales, for the tokens of a column, where parentheses open
and close and `||` separates, and for the characters of a function call, where a
comma separates and a quotation hides everything within it.

A closing item that has no partner leaves the depth at zero.  `Level.after` is
that forgiving step; `Level.after?` is the strict one, which refuses such an
item, and `Balanced` is stated by it.
-/

namespace SelectQuery.Nesting

/-- What an item does to the nesting. -/
inductive Mark
  /-- The item opens a level. -/
  | opens
  /-- The item closes a level. -/
  | closes
  /-- The item separates two pieces, if it stands on the outer level. -/
  | separates
  /-- The item begins or ends a quotation. -/
  | quotes
  /-- The item is content. -/
  | plain
  deriving DecidableEq

/-- How deep a place in a list lies, and whether a quotation is open there. -/
structure Level where
  depth : Nat
  quoted : Bool
  deriving DecidableEq

namespace Level

/-- Nothing is open. -/
def outer : Level :=
  ⟨0, false⟩

/-- One level is open. -/
def inside : Level :=
  ⟨1, false⟩

/-- Whether nothing is open. -/
def isOuter (level : Level) : Bool :=
  level.depth == 0 && !level.quoted

theorem isOuter_iff (level : Level) : level.isOuter = true ↔ level = outer := by
  cases level
  simp [isOuter, outer]

@[simp]
theorem isOuter_outer : isOuter outer = true :=
  rfl

/-- The level after an item; a closing item without partner is passed over. -/
def after (level : Level) : Mark → Level
  | .opens => if level.quoted then level else { level with depth := level.depth + 1 }
  | .closes => if level.quoted then level else { level with depth := level.depth - 1 }
  | .quotes => { level with quoted := !level.quoted }
  | .separates => level
  | .plain => level

/-- The level after an item, undefined for a closing item without partner. -/
def after? (level : Level) : Mark → Option Level
  | .closes => if !level.quoted && level.depth == 0 then none else some (level.after .closes)
  | mark => some (level.after mark)

/-- Where the strict step is defined, the forgiving one agrees with it. -/
theorem after_eq_of_after? {level next : Level} {mark : Mark}
    (step : level.after? mark = some next) : level.after mark = next := by
  cases mark with
  | closes =>
      simp only [after?] at step
      split at step
      · cases step
      · exact Option.some.inj step
  | opens | separates | quotes | plain => exact Option.some.inj step

/-- The strict step is undefined exactly at a closing item outside quotations
with no level open. -/
theorem after?_eq_none_iff (level : Level) (mark : Mark) :
    level.after? mark = none ↔ mark = .closes ∧ level = outer := by
  cases mark <;> cases level <;> simp [after?, outer, and_comm]

end Level

variable {α : Type}

/-- The level that a list leads to from a given one, undefined if a closing item
has no partner. -/
def settle? (mark : α → Mark) : Level → List α → Option Level
  | level, [] => some level
  | level, x :: xs => (level.after? (mark x)).bind fun next => settle? mark next xs

@[simp]
theorem settle?_nil (mark : α → Mark) (level : Level) :
    settle? mark level [] = some level :=
  rfl

theorem settle?_cons (mark : α → Mark) (level : Level) (x : α) (xs : List α) :
    settle? mark level (x :: xs) =
      (level.after? (mark x)).bind fun next => settle? mark next xs :=
  rfl

/-- Settling splits at a concatenation. -/
theorem settle?_append (mark : α → Mark) (level : Level) (xs ys : List α) :
    settle? mark level (xs ++ ys) =
      (settle? mark level xs).bind fun next => settle? mark next ys := by
  induction xs generalizing level with
  | nil => rfl
  | cons x xs inductionHypothesis =>
      simp only [List.cons_append, settle?_cons, Option.bind_assoc, inductionHypothesis]

/-- Every opening item has its closing partner and the other way round, and every
quotation is closed. -/
def Balanced (mark : α → Mark) (xs : List α) : Prop :=
  settle? mark .outer xs = some .outer

instance (mark : α → Mark) (xs : List α) : Decidable (Balanced mark xs) :=
  inferInstanceAs (Decidable (_ = _))

/-! ## Pieces -/

/-- Cut a list at the separators on the outer level, starting at a given level:
the first piece, and the pieces after it. -/
def pieces (mark : α → Mark) : Level → List α → List α × List (List α)
  | _, [] => ([], [])
  | level, x :: xs =>
      if mark x = .separates ∧ level.isOuter then
        let (piece, later) := pieces mark level xs
        ([], piece :: later)
      else
        let (piece, later) := pieces mark (level.after (mark x)) xs
        (x :: piece, later)

@[simp]
theorem pieces_nil (mark : α → Mark) (level : Level) :
    pieces mark level [] = ([], []) :=
  rfl

/-- A separator on the outer level ends a piece. -/
theorem pieces_cons_of_cut {mark : α → Mark} {level : Level} {x : α} (xs : List α)
    (separator : mark x = .separates) (outside : level.isOuter = true) :
    pieces mark level (x :: xs) =
      ([], (pieces mark level xs).1 :: (pieces mark level xs).2) := by
  rw [pieces, if_pos ⟨separator, outside⟩]

/-- Any other item belongs to the piece it stands in. -/
theorem pieces_cons_of_keep {mark : α → Mark} {level : Level} {x : α} (xs : List α)
    (content : ¬ (mark x = .separates ∧ level.isOuter = true)) :
    pieces mark level (x :: xs) =
      (x :: (pieces mark (level.after (mark x)) xs).1,
        (pieces mark (level.after (mark x)) xs).2) := by
  rw [pieces, if_neg content]

/-! ## The closing partner -/

/-- With a level open, the items up to the one that closes the last open level,
and the items after it; undefined if nothing closes it. -/
def enclosed? (mark : α → Mark) : Level → List α → Option (List α × List α)
  | _, [] => none
  | level, x :: xs =>
      if mark x = .closes ∧ level = .inside then
        some ([], xs)
      else
        (enclosed? mark (level.after (mark x)) xs).map fun (inner, rest) =>
          (x :: inner, rest)

/-- The items found, the closing item and the rest make up the list. -/
theorem eq_append_of_enclosed? {mark : α → Mark} {level : Level} {xs inner rest : List α}
    (found : enclosed? mark level xs = some (inner, rest)) :
    ∃ closing, mark closing = .closes ∧ xs = inner ++ closing :: rest := by
  induction xs generalizing level inner with
  | nil => cases found
  | cons x xs inductionHypothesis =>
      rw [enclosed?] at found
      split at found
      · rename_i here
        cases found
        exact ⟨x, here.1, rfl⟩
      · rcases Option.map_eq_some_iff.mp found with ⟨⟨inner, rest⟩, later, equal⟩
        cases equal
        rcases inductionHypothesis later with ⟨closing, closes, rfl⟩
        exact ⟨closing, closes, rfl⟩

end SelectQuery.Nesting
