import SelectQuery.Nesting

/-!
# Cutting and matching in balanced lists

Where a list is balanced, `enclosed?` and `pieces` can be said without their
loops.  The partner of an opening item is found right after the balanced list
that follows it, and a separator cuts exactly if what stands before it is
balanced.

The bridge is `Level.raise`: a list that settles from one level to another does
the same any number of levels deeper, where no item of it can close what was
open before, and no separator of it stands on the outer level.
-/

namespace SelectQuery.Nesting

/-! ## Raised levels -/

namespace Level

/-- The same place a number of levels deeper. -/
def raise (level : Level) (height : Nat) : Level :=
  { level with depth := level.depth + height }

theorem raise_outer_one : outer.raise 1 = inside :=
  rfl

@[simp]
theorem isOuter_raise_succ (level : Level) (more : Nat) :
    (level.raise (more + 1)).isOuter = false := by
  simp [raise, isOuter]

/-- One level deeper, the last open level is reached exactly from the outer one. -/
theorem raise_one_eq_inside_iff (level : Level) : level.raise 1 = inside ↔ level = outer := by
  cases level
  simp [raise, inside, outer]

/-- A strict step is the same step at any depth. -/
theorem after?_raise {level next : Level} {mark : Mark} (more : Nat)
    (step : level.after? mark = some next) :
    (level.raise more).after? mark = some (next.raise more) := by
  rcases level with ⟨depth, quoted⟩
  cases mark with
  | opens =>
      cases step
      cases quoted <;> simp [after?, after, raise, Nat.add_right_comm]
  | separates | quotes | plain =>
      cases step
      rfl
  | closes =>
      cases quoted with
      | true =>
          cases step
          simp [after?, after, raise]
      | false =>
          cases depth with
          | zero => cases step
          | succ depth =>
              cases step
              simp [after?, after, raise, Nat.add_right_comm]

end Level

variable {α : Type} {mark : α → Mark}

/-- What a list settles to, it settles to at any depth. -/
theorem settle?_raise {level next : Level} {xs : List α} (more : Nat)
    (settled : settle? mark level xs = some next) :
    settle? mark (level.raise more) xs = some (next.raise more) := by
  induction xs generalizing level with
  | nil =>
      cases settled
      rfl
  | cons x xs inductionHypothesis =>
      rcases Option.bind_eq_some_iff.mp settled with ⟨middle, step, later⟩
      rw [settle?_cons, Level.after?_raise more step]
      exact inductionHypothesis later

/-! ## Where a list leads -/

/-- The level that a list leads to, closing items without partner passed over. -/
def reach (mark : α → Mark) (level : Level) (xs : List α) : Level :=
  xs.foldl (fun level x => level.after (mark x)) level

@[simp]
theorem reach_nil (mark : α → Mark) (level : Level) : reach mark level [] = level :=
  rfl

@[simp]
theorem reach_cons (mark : α → Mark) (level : Level) (x : α) (xs : List α) :
    reach mark level (x :: xs) = reach mark (level.after (mark x)) xs :=
  rfl

theorem reach_append (mark : α → Mark) (level : Level) (xs ys : List α) :
    reach mark level (xs ++ ys) = reach mark (reach mark level xs) ys :=
  List.foldl_append

/-- Where a list settles, it leads there. -/
theorem reach_eq_of_settle? {level next : Level} {xs : List α}
    (settled : settle? mark level xs = some next) : reach mark level xs = next := by
  induction xs generalizing level with
  | nil => exact Option.some.inj settled
  | cons x xs inductionHypothesis =>
      rcases Option.bind_eq_some_iff.mp settled with ⟨middle, step, later⟩
      rw [reach_cons, Level.after_eq_of_after? step]
      exact inductionHypothesis later

/-- Every item on the outer level has a property. -/
def HoldsOuter (mark : α → Mark) (property : α → Prop) : Level → List α → Prop
  | _, [] => True
  | level, x :: xs =>
      (level = .outer → property x) ∧ HoldsOuter mark property (level.after (mark x)) xs

instance decidableHoldsOuter (mark : α → Mark) (property : α → Prop) [DecidablePred property] :
    (level : Level) → (xs : List α) → Decidable (HoldsOuter mark property level xs)
  | _, [] => .isTrue trivial
  | level, x :: xs =>
      have : Decidable (HoldsOuter mark property (level.after (mark x)) xs) :=
        decidableHoldsOuter mark property (level.after (mark x)) xs
      inferInstanceAs (Decidable (_ ∧ _))

theorem holdsOuter_append (mark : α → Mark) (property : α → Prop) (level : Level)
    (xs ys : List α) :
    HoldsOuter mark property level (xs ++ ys) ↔
      HoldsOuter mark property level xs ∧ HoldsOuter mark property (reach mark level xs) ys := by
  induction xs generalizing level with
  | nil => simp [HoldsOuter]
  | cons x xs inductionHypothesis =>
      simp only [List.cons_append, HoldsOuter, reach_cons, inductionHypothesis, and_assoc]

/-! ## The closing partner -/

/-- What follows a settled list closes the levels that were open before it. -/
theorem enclosed?_append_of_settle? {level next : Level} {xs : List α}
    (settled : settle? mark level xs = some next) (ys : List α) :
    enclosed? mark (level.raise 1) (xs ++ ys) =
      (enclosed? mark (next.raise 1) ys).map fun (inner, rest) => (xs ++ inner, rest) := by
  induction xs generalizing level with
  | nil =>
      cases settled
      simp
  | cons x xs inductionHypothesis =>
      rcases Option.bind_eq_some_iff.mp settled with ⟨middle, step, later⟩
      have staysOpen : ¬ (mark x = .closes ∧ level.raise 1 = .inside) := by
        rw [Level.raise_one_eq_inside_iff, ← Level.after?_eq_none_iff, step]
        exact Option.some_ne_none middle
      rw [List.cons_append, enclosed?, if_neg staysOpen,
        Level.after_eq_of_after? (Level.after?_raise 1 step), inductionHypothesis later,
        Option.map_map]
      rfl

/-- The partner of an opening item stands right after a balanced list. -/
theorem enclosed?_append_of_balanced {inner : List α} {closing : α}
    (balanced : Balanced mark inner) (closes : mark closing = .closes) (rest : List α) :
    enclosed? mark .inside (inner ++ closing :: rest) = some (inner, rest) := by
  have found := enclosed?_append_of_settle? balanced (closing :: rest)
  rw [Level.raise_outer_one] at found
  rw [found, enclosed?, if_pos ⟨closes, rfl⟩]
  simp

/-- What stands before the partner of an opening item settles to the outer level. -/
theorem settle?_of_enclosed? {level : Level} {xs inner rest : List α}
    (found : enclosed? mark (level.raise 1) xs = some (inner, rest)) :
    ∃ closing, mark closing = .closes ∧ xs = inner ++ closing :: rest ∧
      settle? mark level inner = some .outer := by
  induction xs generalizing level inner with
  | nil => cases found
  | cons x xs inductionHypothesis =>
      rw [enclosed?] at found
      by_cases here : mark x = .closes ∧ level.raise 1 = .inside
      · rw [if_pos here] at found
        cases found
        have outside := (Level.raise_one_eq_inside_iff level).mp here.2
        exact ⟨x, here.1, rfl, by rw [outside, settle?_nil]⟩
      · rw [if_neg here] at found
        rw [Level.raise_one_eq_inside_iff, ← Level.after?_eq_none_iff] at here
        rcases Option.ne_none_iff_exists'.mp here with ⟨middle, step⟩
        rw [Level.after_eq_of_after? (Level.after?_raise 1 step)] at found
        rcases Option.map_eq_some_iff.mp found with ⟨⟨inner, rest⟩, later, equal⟩
        cases equal
        rcases inductionHypothesis later with ⟨closing, closes, rfl, settled⟩
        exact ⟨closing, closes, rfl, by rw [settle?_cons, step]; exact settled⟩

/-- The partner of an opening item is the closing item behind a balanced list. -/
theorem enclosed?_inside_eq_some_iff {xs inner rest : List α} :
    enclosed? mark .inside xs = some (inner, rest) ↔
      ∃ closing, mark closing = .closes ∧ xs = inner ++ closing :: rest ∧ Balanced mark inner := by
  constructor
  · intro found
    rw [← Level.raise_outer_one] at found
    exact settle?_of_enclosed? found
  · rintro ⟨closing, closes, rfl, balanced⟩
    exact enclosed?_append_of_balanced balanced closes rest

/-- An opening item has no partner exactly if no closing item stands behind a balanced
list. -/
theorem enclosed?_inside_eq_none_iff {xs : List α} :
    enclosed? mark .inside xs = none ↔
      ∀ inner closing rest, xs = inner ++ closing :: rest → mark closing = .closes →
        ¬ Balanced mark inner := by
  rw [Option.eq_none_iff_forall_ne_some]
  constructor
  · intro noPartner inner closing rest equal closes balanced
    exact noPartner (inner, rest)
      (enclosed?_inside_eq_some_iff.mpr ⟨closing, closes, equal, balanced⟩)
  · rintro noPartner ⟨inner, rest⟩ found
    rcases enclosed?_inside_eq_some_iff.mp found with ⟨closing, closes, equal, balanced⟩
    exact noPartner inner closing rest equal closes balanced

/-- A list that settles to the outer level closes the levels open before it. -/
theorem enclosed?_ne_none_of_settle? {level : Level} {xs : List α}
    (settled : settle? mark (level.raise 1) xs = some .outer) :
    enclosed? mark (level.raise 1) xs ≠ none := by
  induction xs generalizing level with
  | nil =>
      rw [settle?_nil, Option.some.injEq] at settled
      have outside := Level.isOuter_raise_succ level 0
      rw [settled, Level.isOuter_outer] at outside
      cases outside
  | cons x xs inductionHypothesis =>
      by_cases here : mark x = .closes ∧ level = .outer
      · rw [enclosed?, if_pos ⟨here.1, (Level.raise_one_eq_inside_iff level).mpr here.2⟩]
        exact Option.some_ne_none _
      · rcases Option.ne_none_iff_exists'.mp (mt (Level.after?_eq_none_iff level _).mp here) with
          ⟨middle, step⟩
        have raised := Level.after?_raise 1 step
        rw [settle?_cons, raised, Option.bind_some] at settled
        rw [enclosed?, if_neg (by rwa [Level.raise_one_eq_inside_iff]),
          Level.after_eq_of_after? raised, Ne, Option.map_eq_none_iff]
        exact inductionHypothesis settled

/-! ## Cuts -/

/-- A list that is not cut goes whole into the piece that it begins. -/
theorem pieces_append_of_uncut {level : Level} {xs : List α}
    (uncut : pieces mark level xs = (xs, [])) (ys : List α) :
    pieces mark level (xs ++ ys) =
      (xs ++ (pieces mark (reach mark level xs) ys).1,
        (pieces mark (reach mark level xs) ys).2) := by
  induction xs generalizing level with
  | nil => rfl
  | cons x xs inductionHypothesis =>
      by_cases cut : mark x = .separates ∧ level.isOuter = true
      · rw [pieces_cons_of_cut xs cut.1 cut.2] at uncut
        simp at uncut
      · rw [pieces_cons_of_keep xs cut, Prod.mk.injEq, List.cons.injEq] at uncut
        have uncutRest : pieces mark (level.after (mark x)) xs = (xs, []) :=
          Prod.ext uncut.1.2 uncut.2
        rw [List.cons_append, pieces_cons_of_keep _ cut, inductionHypothesis uncutRest, reach_cons]
        rfl

/-- A separator behind a balanced list that is not cut ends its piece. -/
theorem pieces_append_separator {xs : List α} {separator : α}
    (uncut : pieces mark .outer xs = (xs, [])) (balanced : Balanced mark xs)
    (separates : mark separator = .separates) (ys : List α) :
    pieces mark .outer (xs ++ separator :: ys) =
      (xs, (pieces mark .outer ys).1 :: (pieces mark .outer ys).2) := by
  rw [pieces_append_of_uncut uncut, reach_eq_of_settle? balanced,
    pieces_cons_of_cut ys separates Level.isOuter_outer, List.append_nil]

/-- Within an open level a settled list is not cut. -/
theorem pieces_of_settle?_raise {level next : Level} {xs : List α} (more : Nat)
    (settled : settle? mark level xs = some next) :
    pieces mark (level.raise (more + 1)) xs = (xs, []) := by
  induction xs generalizing level with
  | nil => rfl
  | cons x xs inductionHypothesis =>
      rcases Option.bind_eq_some_iff.mp settled with ⟨middle, step, later⟩
      rw [pieces_cons_of_keep xs (by simp),
        Level.after_eq_of_after? (Level.after?_raise (more + 1) step), inductionHypothesis later]

/-- A list between two partners is not cut, and it is balanced if what the
partners enclose is. -/
theorem pieces_partners {opening closing : α} {xs : List α} (opens : mark opening = .opens)
    (balanced : Balanced mark xs) (closes : mark closing = .closes) :
    pieces mark .outer (opening :: (xs ++ [closing])) = (opening :: (xs ++ [closing]), []) := by
  have inner := pieces_of_settle?_raise 0 balanced
  have content : ¬ (mark opening = .separates ∧ Level.outer.isOuter = true) := by
    simp [opens]
  rw [pieces_cons_of_keep _ content, opens,
    show Level.outer.after .opens = Level.outer.raise (0 + 1) from rfl,
    pieces_append_of_uncut inner, pieces_cons_of_keep _ (by simp [closes])]
  simp

theorem balanced_partners {opening closing : α} {xs : List α} (opens : mark opening = .opens)
    (balanced : Balanced mark xs) (closes : mark closing = .closes) :
    Balanced mark (opening :: (xs ++ [closing])) := by
  have inner := settle?_raise 1 balanced
  rw [Balanced, settle?_cons, opens,
    show Level.outer.after? .opens = some (Level.outer.raise 1) from rfl, Option.bind_some,
    settle?_append, inner, Option.bind_some, settle?_cons, closes]
  rfl

theorem balanced_append_separator {xs ys : List α} {separator : α} (left : Balanced mark xs)
    (separates : mark separator = .separates) (right : Balanced mark ys) :
    Balanced mark (xs ++ separator :: ys) := by
  rw [Balanced, settle?_append, left, Option.bind_some, settle?_cons, separates]
  exact right

/-- A list that is not cut is its only piece. -/
theorem eq_of_pieces_eq_nil {level : Level} {xs piece : List α}
    (uncut : pieces mark level xs = (piece, [])) : xs = piece := by
  induction xs generalizing level piece with
  | nil =>
      cases uncut
      rfl
  | cons x xs inductionHypothesis =>
      by_cases cut : mark x = .separates ∧ level.isOuter = true
      · rw [pieces_cons_of_cut xs cut.1 cut.2] at uncut
        simp at uncut
      · rw [pieces_cons_of_keep xs cut, Prod.mk.injEq] at uncut
        rw [← uncut.1]
        exact congrArg (x :: ·) (inductionHypothesis (Prod.ext rfl uncut.2))

/-- A list that is cut is its first piece, which is not cut again, a separator on
the outer level, and the list of which the later pieces are cut. -/
theorem eq_append_of_pieces_eq_cons {level : Level} {xs piece next : List α}
    {later : List (List α)} (cut : pieces mark level xs = (piece, next :: later)) :
    ∃ separator rest, mark separator = .separates ∧ xs = piece ++ separator :: rest ∧
      pieces mark level piece = (piece, []) ∧ reach mark level piece = .outer ∧
      pieces mark .outer rest = (next, later) := by
  induction xs generalizing level piece with
  | nil => cases cut
  | cons x xs inductionHypothesis =>
      by_cases here : mark x = .separates ∧ level.isOuter = true
      · rw [pieces_cons_of_cut xs here.1 here.2, Prod.mk.injEq, List.cons.injEq] at cut
        rcases cut with ⟨rfl, first, others⟩
        have outside := (Level.isOuter_iff level).mp here.2
        exact ⟨x, xs, here.1, rfl, rfl, outside, by rw [← outside]; exact Prod.ext first others⟩
      · rw [pieces_cons_of_keep xs here, Prod.mk.injEq] at cut
        rcases cut with ⟨rfl, others⟩
        rcases inductionHypothesis (Prod.ext rfl others) with
          ⟨separator, rest, separates, equal, uncut, outside, cutRest⟩
        refine ⟨separator, rest, separates, by rw [List.cons_append, ← equal], ?_, outside, cutRest⟩
        rw [pieces_cons_of_keep _ here, uncut]

/-! ## Separators on the outer level -/

/-- No separator stands on the outer level: before none of them is the list
balanced. -/
def Uncut (mark : α → Mark) (xs : List α) : Prop :=
  ∀ before separator after, xs = before ++ separator :: after → mark separator = .separates →
    ¬ Balanced mark before

/-- A separator on the outer level cuts. -/
theorem pieces_ne_nil_of_reach {level : Level} {before : List α} {separator : α}
    (outside : reach mark level before = .outer) (separates : mark separator = .separates)
    (after : List α) : (pieces mark level (before ++ separator :: after)).2 ≠ [] := by
  induction before generalizing level with
  | nil =>
      rw [List.nil_append,
        pieces_cons_of_cut after separates ((Level.isOuter_iff level).mpr outside)]
      exact List.cons_ne_nil _ _
  | cons x before inductionHypothesis =>
      by_cases cut : mark x = .separates ∧ level.isOuter = true
      · rw [List.cons_append, pieces_cons_of_cut _ cut.1 cut.2]
        exact List.cons_ne_nil _ _
      · rw [List.cons_append, pieces_cons_of_keep _ cut]
        exact inductionHypothesis outside

/-- A list with a single piece has no separator on the outer level. -/
theorem uncut_of_pieces_eq {xs piece : List α} (single : pieces mark .outer xs = (piece, [])) :
    Uncut mark xs := by
  intro before separator after equal separates balanced
  have cut := pieces_ne_nil_of_reach (reach_eq_of_settle? balanced) separates after
  rw [← equal, single] at cut
  exact cut rfl

/-- What stands before a place of a balanced list settles. -/
theorem settle?_eq_reach_of_balanced {before after : List α}
    (balanced : Balanced mark (before ++ after)) :
    settle? mark .outer before = some (reach mark .outer before) := by
  rw [Balanced, settle?_append] at balanced
  rcases Option.bind_eq_some_iff.mp balanced with ⟨middle, settled, _⟩
  rw [settled, reach_eq_of_settle? settled]

/-- A balanced list without separator on the outer level is its only piece. -/
theorem pieces_eq_of_uncut {xs : List α} (balanced : Balanced mark xs) (uncut : Uncut mark xs) :
    pieces mark .outer xs = (xs, []) := by
  generalize cut : pieces mark .outer xs = result
  rcases result with ⟨piece, later⟩
  cases later with
  | nil => rw [eq_of_pieces_eq_nil cut]
  | cons next later =>
      rcases eq_append_of_pieces_eq_cons cut with ⟨separator, rest, separates, rfl, _, outside, _⟩
      have settled := settle?_eq_reach_of_balanced balanced
      rw [outside] at settled
      exact absurd settled (uncut piece separator rest rfl separates)

/-- The pieces of a balanced list are balanced and not cut again. -/
theorem balanced_of_mem_pieces {xs piece : List α} {later : List (List α)}
    (balanced : Balanced mark xs) (cut : pieces mark .outer xs = (piece, later)) :
    ∀ item ∈ piece :: later, Balanced mark item ∧ Uncut mark item := by
  induction later generalizing xs piece with
  | nil =>
      have whole := eq_of_pieces_eq_nil cut
      subst whole
      exact List.forall_mem_singleton.mpr ⟨balanced, uncut_of_pieces_eq cut⟩
  | cons next later inductionHypothesis =>
      rcases eq_append_of_pieces_eq_cons cut with
        ⟨separator, rest, separates, rfl, uncut, outside, cutRest⟩
      have settled := settle?_eq_reach_of_balanced balanced
      rw [outside] at settled
      have balancedRest : Balanced mark rest := by
        rw [Balanced, settle?_append, settled, Option.bind_some, settle?_cons,
          separates] at balanced
        exact balanced
      exact List.forall_mem_cons.mpr
        ⟨⟨settled, uncut_of_pieces_eq uncut⟩, inductionHypothesis balancedRest cutRest⟩

/-- Where there is only one separator, the pieces of a list with it between them are the
list. -/
theorem intercalate_pieces {separator : α} {level : Level} {xs piece : List α}
    {later : List (List α)} (only : ∀ x, mark x = .separates → x = separator)
    (cut : pieces mark level xs = (piece, later)) :
    [separator].intercalate (piece :: later) = xs := by
  induction later generalizing level xs piece with
  | nil => rw [List.intercalate_singleton, eq_of_pieces_eq_nil cut]
  | cons next later inductionHypothesis =>
      rcases eq_append_of_pieces_eq_cons cut with ⟨found, rest, separates, rfl, _, _, cutRest⟩
      rw [List.intercalate_cons_cons, inductionHypothesis cutRest, only found separates,
        List.append_assoc, List.singleton_append]

/-- A piece is a part of the list. -/
theorem isInfix_of_mem_pieces {level : Level} {xs piece : List α} {later : List (List α)}
    (cut : pieces mark level xs = (piece, later)) : ∀ item ∈ piece :: later, item <:+: xs := by
  induction later generalizing level xs piece with
  | nil =>
      obtain rfl := eq_of_pieces_eq_nil cut
      exact List.forall_mem_singleton.mpr List.infix_rfl
  | cons next later inductionHypothesis =>
      rcases eq_append_of_pieces_eq_cons cut with ⟨separator, rest, _, rfl, _, _, cutRest⟩
      rw [List.forall_mem_cons]
      constructor
      · exact (List.prefix_append _ _).isInfix
      · intro item isPiece
        have suffix : rest <:+ piece ++ separator :: rest :=
          (List.suffix_cons _ _).trans (List.suffix_append _ _)
        exact (inductionHypothesis cutRest item isPiece).trans suffix.isInfix

/-- Every item of a piece is an item of the list. -/
theorem mem_of_mem_pieces {level : Level} {xs piece : List α} {later : List (List α)}
    (cut : pieces mark level xs = (piece, later)) :
    ∀ item ∈ piece :: later, ∀ x ∈ item, x ∈ xs :=
  fun item isPiece _ member => (isInfix_of_mem_pieces cut item isPiece).subset member

/-- Balanced items with a separator between them are balanced. -/
theorem balanced_intercalate {separator : α} (separates : mark separator = .separates)
    {items : List (List α)} (balanced : ∀ item ∈ items, Balanced mark item) :
    Balanced mark ([separator].intercalate items) := by
  induction items with
  | nil => rfl
  | cons first others inductionHypothesis =>
      rw [List.forall_mem_cons] at balanced
      cases others with
      | nil =>
          rw [List.intercalate_singleton]
          exact balanced.1
      | cons second others =>
          rw [List.intercalate_cons_cons, List.append_assoc]
          exact balanced_append_separator balanced.1 separates (inductionHypothesis balanced.2)

/-- Balanced items that are not cut are the pieces of their list with a separator
between them. -/
theorem pieces_intercalate {separator : α} (separates : mark separator = .separates)
    {first : List α} {others : List (List α)}
    (balanced : ∀ item ∈ first :: others, Balanced mark item ∧ Uncut mark item) :
    pieces mark .outer ([separator].intercalate (first :: others)) = (first, others) := by
  induction others generalizing first with
  | nil =>
      rw [List.forall_mem_singleton] at balanced
      rw [List.intercalate_singleton]
      exact pieces_eq_of_uncut balanced.1 balanced.2
  | cons second others inductionHypothesis =>
      rw [List.forall_mem_cons] at balanced
      have single := pieces_eq_of_uncut balanced.1.1 balanced.1.2
      rw [List.intercalate_cons_cons, List.append_assoc, List.singleton_append,
        pieces_append_separator single balanced.1.1 separates, inductionHypothesis balanced.2]

/-! ## Parts and joints -/

/-- Parts in a row, with a joint between each two of them. -/
def interlaced : List (List α) → List (List α) → List α
  | part :: parts, joint :: joints => part ++ (joint ++ interlaced parts joints)
  | parts, _ => parts.flatten

/-- Two rows with a joint between them are one row. -/
theorem interlaced_append {parts joints : List (List α)} (fit : parts.length = joints.length + 1)
    (joint : List α) (otherParts otherJoints : List (List α)) :
    interlaced (parts ++ otherParts) (joints ++ joint :: otherJoints) =
      interlaced parts joints ++ (joint ++ interlaced otherParts otherJoints) := by
  induction joints generalizing parts with
  | nil =>
      obtain ⟨part, rfl⟩ := List.length_eq_one_iff.mp fit
      simp [interlaced]
  | cons first joints inductionHypothesis =>
      obtain ⟨part, others, rfl⟩ := List.exists_cons_of_length_eq_add_one fit
      rw [List.length_cons, List.length_cons, Nat.succ_inj] at fit
      simp only [List.cons_append, interlaced, inductionHypothesis fit, List.append_assoc]

/-! ## Padding -/

/-- Content leaves the level as it is. -/
theorem settle?_of_plain {xs : List α} (plain : ∀ x ∈ xs, mark x = .plain) (level : Level) :
    settle? mark level xs = some level := by
  induction xs with
  | nil => rfl
  | cons x xs inductionHypothesis =>
      rw [List.forall_mem_cons] at plain
      rw [settle?_cons, plain.1]
      exact inductionHypothesis plain.2

/-- Content before and behind a list does not matter to its balance. -/
theorem balanced_of_padded {before xs after : List α}
    (plainBefore : ∀ x ∈ before, mark x = .plain) (plainAfter : ∀ x ∈ after, mark x = .plain)
    (balanced : Balanced mark (before ++ (xs ++ after))) : Balanced mark xs := by
  rw [Balanced, settle?_append, settle?_of_plain plainBefore, Option.bind_some, settle?_append]
    at balanced
  rcases Option.bind_eq_some_iff.mp balanced with ⟨level, settled, stays⟩
  rw [settle?_of_plain plainAfter] at stays
  rw [Balanced, settled, stays]

theorem uncut_of_padded {before xs after : List α}
    (plainBefore : ∀ x ∈ before, mark x = .plain)
    (uncut : Uncut mark (before ++ (xs ++ after))) : Uncut mark xs := by
  rintro left separator right rfl separates balanced
  apply uncut (before ++ left) separator (right ++ after) (by simp) separates
  rw [Balanced, settle?_append, settle?_of_plain plainBefore]
  exact balanced

/-! ## Counting -/

/-- The number of opening items of a list. -/
def opened (mark : α → Mark) (xs : List α) : Nat :=
  xs.countP fun x => mark x = .opens

/-- The number of closing items of a list. -/
def closed (mark : α → Mark) (xs : List α) : Nat :=
  xs.countP fun x => mark x = .closes

@[simp]
theorem opened_nil (mark : α → Mark) : opened mark [] = 0 :=
  rfl

@[simp]
theorem closed_nil (mark : α → Mark) : closed mark [] = 0 :=
  rfl

theorem opened_cons (mark : α → Mark) (x : α) (xs : List α) :
    opened mark (x :: xs) = opened mark xs + if mark x = .opens then 1 else 0 := by
  simp [opened, List.countP_cons]

theorem closed_cons (mark : α → Mark) (x : α) (xs : List α) :
    closed mark (x :: xs) = closed mark xs + if mark x = .closes then 1 else 0 := by
  simp [closed, List.countP_cons]

/-- In no beginning of a list are more levels closed than were open before it and are
opened in it. -/
def Keeps (mark : α → Mark) (depth : Nat) (xs : List α) : Prop :=
  ∀ before, before <+: xs → closed mark before ≤ depth + opened mark before

theorem keeps_cons_iff {depth : Nat} {x : α} {xs : List α} :
    Keeps mark depth (x :: xs) ↔
      ∀ before, before <+: xs → closed mark (x :: before) ≤ depth + opened mark (x :: before) := by
  constructor
  · intro keeps before part
    exact keeps (x :: before) (List.cons_prefix_cons.mpr ⟨rfl, part⟩)
  · intro keeps before part
    cases before with
    | nil => exact Nat.zero_le _
    | cons y before =>
        rcases List.cons_prefix_cons.mp part with ⟨rfl, inner⟩
        exact keeps before inner

/-- Without quotations a list settles exactly if it closes no level that is not open, and
the levels open behind it are counted. -/
theorem settle?_eq_some_iff_counts {xs : List α} (noQuotes : ∀ x ∈ xs, mark x ≠ .quotes)
    (depth final : Nat) :
    settle? mark ⟨depth, false⟩ xs = some ⟨final, false⟩ ↔
      Keeps mark depth xs ∧ final + closed mark xs = depth + opened mark xs := by
  induction xs generalizing depth with
  | nil => simp [Keeps, eq_comm]
  | cons x xs inductionHypothesis =>
      rw [List.forall_mem_cons] at noQuotes
      have later := inductionHypothesis noQuotes.2
      unfold Keeps at later
      rw [settle?_cons, keeps_cons_iff]
      cases sign : mark x with
      | quotes => exact absurd sign noQuotes.1
      | separates | plain =>
          simpa [Level.after?, Level.after, opened_cons, closed_cons, sign] using later depth
      | opens =>
          have deeper := later (depth + 1)
          simp only [Nat.add_assoc, Nat.add_comm 1] at deeper
          simpa [Level.after?, Level.after, opened_cons, closed_cons, sign] using deeper
      | closes =>
          cases depth with
          | zero =>
              -- The item by itself is a beginning that closes too much.
              have tooMany : ¬ closed mark [x] ≤ 0 + opened mark [x] := by
                simp [opened_cons, closed_cons, sign]
              apply iff_of_false
              · simp [Level.after?]
              · exact fun keeps => tooMany (keeps.1 [] List.nil_prefix)
          | succ depth =>
              have higher := later depth
              simpa [Level.after?, Level.after, opened_cons, closed_cons, sign,
                Nat.add_right_comm depth 1, ← Nat.add_assoc] using higher

/-! ## Items replaced by others of the same mark -/

theorem pieces_map {f : α → α} (sameMark : ∀ x, mark (f x) = mark x) (level : Level)
    (xs : List α) :
    pieces mark level (xs.map f) =
      ((pieces mark level xs).1.map f, (pieces mark level xs).2.map (List.map f)) := by
  induction xs generalizing level with
  | nil => rfl
  | cons x xs inductionHypothesis =>
      rw [List.map_cons]
      by_cases cut : mark x = .separates ∧ level.isOuter = true
      · rw [pieces_cons_of_cut xs cut.1 cut.2,
          pieces_cons_of_cut (xs.map f) ((sameMark x).trans cut.1) cut.2, inductionHypothesis]
        rfl
      · rw [pieces_cons_of_keep xs cut, pieces_cons_of_keep (xs.map f) (by rwa [sameMark]),
          sameMark, inductionHypothesis]
        rfl

theorem enclosed?_map {f : α → α} (sameMark : ∀ x, mark (f x) = mark x) (level : Level)
    (xs : List α) :
    enclosed? mark level (xs.map f) =
      (enclosed? mark level xs).map fun found => (found.1.map f, found.2.map f) := by
  induction xs generalizing level with
  | nil => rfl
  | cons x xs inductionHypothesis =>
      rw [List.map_cons, enclosed?, enclosed?, sameMark]
      split
      · rfl
      · rw [inductionHypothesis, Option.map_map, Option.map_map]
        rfl

end SelectQuery.Nesting
