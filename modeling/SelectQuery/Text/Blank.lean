/-!
# Blank characters

Texts are read as lists of characters.  A character is blank when it has the
Unicode property White_Space: twenty-five characters, among them the no-break
spaces and the line and paragraph separators, but neither the zero-width space
nor the byte-order mark.

This file supplies the two operations on blanks that reading a query needs:
`trim`, which drops them at both ends, and `words`, which cuts a text at them.
-/

namespace SelectQuery.Text

/-- The code points with the property White_Space, as closed ranges in
increasing order. -/
def blankRanges : List (Nat × Nat) :=
  [(0x09, 0x0D), (0x20, 0x20), (0x85, 0x85), (0xA0, 0xA0), (0x1680, 0x1680),
    (0x2000, 0x200A), (0x2028, 0x2029), (0x202F, 0x202F), (0x205F, 0x205F),
    (0x3000, 0x3000)]

/-- Whether a character has the property White_Space. -/
def isBlank (c : Char) : Bool :=
  blankRanges.any fun range => range.1 ≤ c.toNat && c.toNat ≤ range.2

/-- A character is blank exactly when one of the ranges holds its code point. -/
theorem isBlank_iff (c : Char) :
    isBlank c = true ↔
      ∃ range ∈ blankRanges, range.1 ≤ c.toNat ∧ c.toNat ≤ range.2 := by
  simp [isBlank]

/-- Twenty-five code points are blank. -/
example : (blankRanges.map fun range => range.2 + 1 - range.1).foldl Nat.add 0 = 25 := by
  decide

/-! ## Trimming -/

/-- Drop the blanks at both ends of a text. -/
def trim (text : List Char) : List Char :=
  ((text.dropWhile isBlank).reverse.dropWhile isBlank).reverse

private theorem dropWhile_isBlank_eq_nil_iff (text : List Char) :
    text.dropWhile isBlank = [] ↔ ∀ c ∈ text, isBlank c = true := by
  induction text with
  | nil => simp
  | cons c text ih =>
      cases blank : isBlank c <;> simp [blank, ih]

/-- Trimming leaves nothing exactly of the texts that hold only blanks. -/
theorem trim_eq_nil_iff (text : List Char) :
    trim text = [] ↔ ∀ c ∈ text, isBlank c = true := by
  rw [trim, List.reverse_eq_nil_iff, dropWhile_isBlank_eq_nil_iff,
    ← dropWhile_isBlank_eq_nil_iff text]
  constructor
  · intro onlyBlanks
    cases kept : text.dropWhile isBlank with
    | nil => rfl
    | cons c rest =>
        have first : isBlank c = true := onlyBlanks c (by simp [kept])
        have stopped := List.head?_dropWhile_not isBlank text
        simp [kept, first] at stopped
  · intro nothing
    simp [nothing]

private theorem dropWhile_isBlank_eq_self {text : List Char}
    (stops : ∀ c ∈ text.head?, isBlank c = false) : text.dropWhile isBlank = text := by
  cases text with
  | nil => rfl
  | cons c rest => rw [List.dropWhile_cons_of_neg (by simp [stops c rfl])]

private theorem isBlank_head?_dropWhile (text : List Char) :
    ∀ c ∈ (text.dropWhile isBlank).head?, isBlank c = false := by
  intro c isHead
  have stopped := List.head?_dropWhile_not isBlank text
  rw [Option.mem_def] at isHead
  simpa [isHead] using stopped

private theorem exists_dropWhile_eq_trim_append (text : List Char) :
    ∃ after, text.dropWhile isBlank = trim text ++ after ∧ ∀ c ∈ after, isBlank c = true := by
  have split : (text.dropWhile isBlank).reverse.takeWhile isBlank ++
      (text.dropWhile isBlank).reverse.dropWhile isBlank = (text.dropWhile isBlank).reverse :=
    List.takeWhile_append_dropWhile
  refine ⟨((text.dropWhile isBlank).reverse.takeWhile isBlank).reverse, ?_, ?_⟩
  · rw [trim, ← List.reverse_append, split, List.reverse_reverse]
  · intro c member
    exact List.all_eq_true.mp List.all_takeWhile c (List.mem_reverse.mp member)

/-- What trimming drops at each end is blank. -/
theorem exists_eq_append_trim (text : List Char) :
    ∃ before after, text = before ++ (trim text ++ after) ∧
      (∀ c ∈ before, isBlank c = true) ∧ ∀ c ∈ after, isBlank c = true := by
  rcases exists_dropWhile_eq_trim_append text with ⟨after, split, blank⟩
  refine ⟨text.takeWhile isBlank, after, ?_, ?_, blank⟩
  · rw [← split, List.takeWhile_append_dropWhile]
  · exact List.all_eq_true.mp List.all_takeWhile

/-- Trimming a second time drops nothing. -/
@[simp]
theorem trim_trim (text : List Char) : trim (trim text) = trim text := by
  have noBlankFirst : ∀ c ∈ (trim text).head?, isBlank c = false := by
    intro c isHead
    rcases exists_dropWhile_eq_trim_append text with ⟨after, split, _⟩
    apply isBlank_head?_dropWhile text
    rw [Option.mem_def] at isHead ⊢
    rw [split, List.head?_append, isHead, Option.some_or]
  have noBlankLast : ∀ c ∈ (trim text).reverse.head?, isBlank c = false := by
    rw [trim, List.reverse_reverse]
    exact isBlank_head?_dropWhile _
  rw [trim, dropWhile_isBlank_eq_self noBlankFirst, dropWhile_isBlank_eq_self noBlankLast,
    List.reverse_reverse]

/-! ## Words -/

/-- The maximal runs of characters that are not blank, in order. -/
def words (text : List Char) : List (List Char) :=
  (text.splitOnP isBlank).filter fun word => !word.isEmpty

end SelectQuery.Text
