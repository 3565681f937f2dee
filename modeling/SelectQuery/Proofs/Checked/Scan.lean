import SelectQuery.Nesting
import SelectQuery.Proofs.Checked.Basic

/-!
# Scans by offset

`pieces` and `enclosed?` take a list apart.  The scans of this file go through it with an offset,
and the parts are cut out of the whole list or text between the offsets found.  Neither scan is
defined by itself.  `closing?` takes the predecessor of its counter, and there is none at zero;
`cutPieces?` has a counter that stops at zero, but cuts between any two offsets it has come to.

`closing?` is defined where a level is open, because it stops when it closes the last one.
`cutPieces?` is defined because what it has passed is always the beginning of the whole, and the
piece it is in is the end of that beginning.
-/

namespace SelectQuery.Nesting

variable {α β : Type} {mark : α → Mark} {width : α → Nat}

/-! ## Offsets -/

/-- The offset of the end of a list from its beginning. -/
def span (width : α → Nat) : List α → Nat
  | [] => 0
  | x :: xs => width x + span width xs

@[simp]
theorem span_nil (width : α → Nat) : span width [] = 0 :=
  rfl

@[simp]
theorem span_cons (width : α → Nat) (x : α) (xs : List α) :
    span width (x :: xs) = width x + span width xs :=
  rfl

@[simp]
theorem span_append (width : α → Nat) (xs ys : List α) :
    span width (xs ++ ys) = span width xs + span width ys := by
  induction xs with
  | nil => rw [List.nil_append, span_nil, Nat.zero_add]
  | cons x xs inductionHypothesis =>
      rw [List.cons_append, span_cons, inductionHypothesis, span_cons, Nat.add_assoc]

/-- Offsets in a list are indices. -/
theorem span_one (xs : List α) : span (fun _ => 1) xs = xs.length := by
  induction xs with
  | nil => rfl
  | cons x xs inductionHypothesis =>
      rw [span_cons, inductionHypothesis, List.length_cons, Nat.add_comm]

/-- Offsets in a text count bytes. -/
theorem span_utf8Size (cs : List Char) :
    span Char.utf8Size cs = (String.ofList cs).utf8ByteSize := by
  induction cs with
  | nil => rfl
  | cons c cs inductionHypothesis =>
      rw [span_cons, inductionHypothesis, String.ofList_cons, String.utf8ByteSize_append,
        String.utf8ByteSize_singleton]

/-! ## The closing partner -/

/-- The offset of the item that closes the last open level, if there is one.  Undefined if an
item would close a level although none is open. -/
def closing? (mark : α → Mark) (width : α → Nat) : Level → Nat → List α → Option (Option Nat)
  | _, _, [] => some none
  | level, offset, x :: xs =>
      if mark x = .closes ∧ level.quoted = false then do
        let depth ← level.depth.ppred
        if depth = 0 then some (some offset)
        else closing? mark width { level with depth } (offset + width x) xs
      else closing? mark width (level.after (mark x)) (offset + width x) xs

/-- A level stays open behind an item that does not close the last one. -/
theorem Level.depth_after_pos {level : Level} (opened : 0 < level.depth) {mark : Mark}
    (kept : ¬ (mark = .closes ∧ level.quoted = false)) : 0 < (level.after mark).depth := by
  cases mark with
  | opens =>
      rw [after]
      split
      · exact opened
      · exact Nat.succ_pos _
  | closes =>
      have quoted : level.quoted = true := by simpa using kept
      rwa [after, if_pos quoted]
  | separates | quotes | plain => exact opened

/-- With a level open, no counter falls below zero, and the item found is the one behind the
items enclosed. -/
theorem closing?_eq {level : Level} (opened : 0 < level.depth) (offset : Nat) (xs : List α) :
    closing? mark width level offset xs =
      some ((enclosed? mark level xs).map fun found => offset + span width found.1) := by
  induction xs generalizing level offset with
  | nil => rfl
  | cons x xs inductionHypothesis =>
      have passed (next : Level) :
          (enclosed? mark next xs).map (fun found => offset + width x + span width found.1) =
            ((enclosed? mark next xs).map fun found => (x :: found.1, found.2)).map
              fun found => offset + span width found.1 := by
        rw [Option.map_map]
        congr 1
        funext found
        simp [Nat.add_assoc]
      rw [closing?, enclosed?]
      by_cases closes : mark x = .closes ∧ level.quoted = false
      · rcases level with ⟨depth, quoted⟩
        rcases closes with ⟨closes, rfl⟩
        rcases Nat.exists_eq_succ_of_ne_zero (Nat.ne_of_gt opened) with ⟨outer, rfl⟩
        rw [if_pos ⟨closes, rfl⟩, Nat.ppred_succ, Option.bind_eq_bind, Option.bind_some]
        cases outer with
        | zero => simp [closes, Level.inside]
        | succ outer =>
            have notLast : ¬ (mark x = .closes ∧ (⟨outer + 2, false⟩ : Level) = .inside) := by
              simp [Level.inside]
            rw [if_neg (Nat.succ_ne_zero outer), if_neg notLast,
              inductionHypothesis (Nat.succ_pos outer), passed, closes]
            rfl
      · have notLast : ¬ (mark x = .closes ∧ level = .inside) := by
          rintro ⟨closing, rfl⟩
          exact closes ⟨closing, rfl⟩
        have stillOpened := Level.depth_after_pos opened closes
        rw [if_neg closes, if_neg notLast, inductionHypothesis stillOpened, passed]

/-- From an opening item on, too. -/
theorem closing?_of_opens {x : α} (opens : mark x = .opens) (xs : List α) (offset : Nat) :
    closing? mark width .outer offset (x :: xs) =
      some ((enclosed? mark .inside xs).map fun found =>
        offset + width x + span width found.1) := by
  have notClosing : ¬ (mark x = .closes ∧ Level.outer.quoted = false) := by
    simp [opens]
  rw [closing?, if_neg notClosing, opens]
  exact closing?_eq Nat.one_pos (offset + width x) xs

/-- Without an opening item the counter would fall below zero. -/
theorem closing?_of_closes {x : α} (closes : mark x = .closes) (xs : List α) (offset : Nat) :
    closing? mark width .outer offset (x :: xs) = none := by
  rw [closing?, if_pos ⟨closes, rfl⟩]
  rfl

/-! ## Pieces -/

/-- A cut between two offsets takes the items between them out of a whole. -/
def Cuts (width : α → Nat) (cut : Nat → Nat → Option β) (form : List α → β) (whole : List α) :
    Prop :=
  ∀ before part after, whole = before ++ (part ++ after) →
    cut (span width before) (span width (before ++ part)) = some (form part)

/-- A list is cut by index. -/
theorem cuts_slice? (xs : List α) : Cuts (fun _ => 1) (slice? xs) id xs := by
  rintro before part after rfl
  rw [span_one, span_one]
  exact slice?_append before part after

/-- A text is cut by byte. -/
theorem cuts_cut? (cs : List Char) :
    Cuts Char.utf8Size (Text.cut? (String.ofList cs)) String.ofList cs := by
  rintro before part after rfl
  rw [span_utf8Size, span_utf8Size, String.ofList_append, String.ofList_append,
    String.ofList_append]
  exact Text.cut?_append _ _ _

/-- Cut a whole at the separators on the outer level, with the offset of the current piece and of
the next item.  A separator takes up one place, so that the next piece begins behind it. -/
def cutPieces? (mark : α → Mark) (width : α → Nat) (cut : Nat → Nat → Option β) :
    Level → Nat → Nat → List α → Option (List β)
  | _, start, offset, [] => do
      let piece ← cut start offset
      some [piece]
  | level, start, offset, x :: xs =>
      if mark x = .separates ∧ level.isOuter then do
        let piece ← cut start offset
        let later ← cutPieces? mark width cut level (offset + 1) (offset + width x) xs
        some (piece :: later)
      else cutPieces? mark width cut (level.after (mark x)) start (offset + width x) xs

/-- Whatever the whole is, its pieces are cut within it. -/
theorem cutPieces?_eq {cut : Nat → Nat → Option β} {form : List α → β} {whole : List α}
    (cuts : Cuts width cut form whole) (single : ∀ x, mark x = .separates → width x = 1)
    {before current xs : List α} (equal : whole = before ++ (current ++ xs)) (level : Level) :
    cutPieces? mark width cut level (span width before) (span width (before ++ current)) xs =
      some (form (current ++ (pieces mark level xs).1) :: (pieces mark level xs).2.map form) := by
  induction xs generalizing before current level with
  | nil =>
      rw [cutPieces?, cuts before current [] equal, pieces_nil, List.append_nil]
      rfl
  | cons x xs inductionHypothesis =>
      rw [cutPieces?]
      by_cases separator : mark x = .separates ∧ level.isOuter = true
      · have next : whole = (before ++ current ++ [x]) ++ ([] ++ xs) := by
          simpa using equal
        have later := inductionHypothesis next level
        rw [List.append_nil, List.nil_append, span_append width (before ++ current), span_cons,
          span_nil, single x separator.1] at later
        rw [if_pos separator, cuts before current (x :: xs) equal, single x separator.1,
          pieces_cons_of_cut xs separator.1 separator.2, List.append_nil, List.map_cons]
        simp only [Option.bind_eq_bind, Option.bind_some]
        rw [later, Option.bind_some]
      · have next : whole = before ++ ((current ++ [x]) ++ xs) := by
          simpa using equal
        have later := inductionHypothesis next (level.after (mark x))
        rw [← List.append_assoc, span_append width (before ++ current), span_cons, span_nil,
          Nat.add_zero] at later
        rw [if_neg separator, pieces_cons_of_keep xs separator, later, List.append_assoc]
        rfl

/-- The pieces of a whole are cut from its beginning on. -/
theorem cutPieces?_whole {cut : Nat → Nat → Option β} {form : List α → β} {whole : List α}
    (cuts : Cuts width cut form whole) (single : ∀ x, mark x = .separates → width x = 1) :
    cutPieces? mark width cut .outer 0 0 whole =
      some (form (pieces mark .outer whole).1 :: (pieces mark .outer whole).2.map form) := by
  have fromStart : whole = [] ++ ([] ++ whole) := rfl
  exact cutPieces?_eq cuts single fromStart .outer

end SelectQuery.Nesting
