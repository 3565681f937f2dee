import Mathlib.Data.Nat.PSub
import SelectQuery.Error

/-!
# Checked operations

A reading may take operations that are undefined for some operands: a subtraction below
zero, a part of a list whose bounds lie outside it or in the wrong order, a part of a text
that begins or ends within a character.  `Checked` is the type of the readings that take such
operations as they are.  One of them is undefined as soon as one of its operations is, and
`Gives` says that this does not happen and what comes out.

Subtractions are `Nat.ppred` and `Nat.psub`.  The parts of a list and of a text are cut here,
by the index of an item and by the offset of a byte.
-/

namespace SelectQuery

/-- A reading whose operations may be undefined.  If they are all defined, it succeeds or fails
with an error, as any other reading does. -/
abbrev Checked (α : Type) :=
  ExceptT Error Option α

namespace Checked

variable {α β γ : Type}

/-- An operation that may be undefined. -/
def op (result : Option α) : Checked α :=
  ExceptT.lift result

/-- A reading without any operation that may be undefined. -/
def total (read : Except Error α) : Checked α :=
  ExceptT.mk (some read)

/-- All operations of a reading are defined, and it has the outcome of another one. -/
def Gives (checked : Checked α) (read : Except Error α) : Prop :=
  checked.run = some read

namespace Gives

theorem total (read : Except Error α) : Gives (total read) read :=
  rfl

/-- An operation that is defined is passed. -/
theorem op_bind {value : α} {result : Option α} {next : α → Checked β} {read : Except Error β}
    (defined : result = some value) (later : Gives (next value) read) :
    Gives (op result >>= next) read := by
  rw [defined]
  exact later

/-- What two readings give in sequence is what the readings given yield in sequence. -/
theorem bind {first : Checked α} {next : α → Checked β} {read : Except Error α}
    {readNext : α → Except Error β} (firstGives : Gives first read)
    (nextGives : ∀ value, read = .ok value → Gives (next value) (readNext value)) :
    Gives (first >>= next) (read >>= readNext) := by
  unfold Gives at firstGives ⊢
  rw [ExceptT.run_bind, firstGives]
  cases read with
  | error error => rfl
  | ok value => exact nextGives value rfl

/-- What the first reading gives may hold more than what is read. -/
theorem bind_of_map {first : Checked β} {next : β → Checked γ} {read : Except Error α}
    {readNext : α → Except Error γ} {f : α → β}
    (firstGives : Gives first (read >>= fun value => .ok (f value)))
    (nextGives : ∀ value, read = .ok value → Gives (next (f value)) (readNext value)) :
    Gives (first >>= next) (read >>= readNext) := by
  unfold Gives at firstGives ⊢
  rw [ExceptT.run_bind, firstGives]
  cases read with
  | error error => rfl
  | ok value => exact nextGives value rfl

theorem map {first : Checked α} {read : Except Error α} (firstGives : Gives first read)
    (f : α → β) : Gives (first >>= fun value => Checked.total (.ok (f value))) (read.map f) := by
  unfold Gives at firstGives ⊢
  rw [ExceptT.run_bind, firstGives]
  cases read <;> rfl

/-- A list is read item by item. -/
theorem mapM {checked : γ → Checked α} {read : γ → Except Error α}
    (item : ∀ x, Gives (checked x) (read x)) (xs : List γ) :
    Gives (xs.mapM checked) (xs.mapM read) := by
  induction xs with
  | nil => rfl
  | cons x xs inductionHypothesis =>
      rw [List.mapM_cons, List.mapM_cons]
      exact (item x).bind fun first _ => inductionHypothesis.bind fun others _ => rfl

end Gives

end Checked

/-! ## Parts of a list -/

/-- The items from one index to another, undefined unless the second is an index of the list or
its length, and the first not greater. -/
def slice? {α : Type} (xs : List α) (start stop : Nat) : Option (List α) :=
  if start ≤ stop ∧ stop ≤ xs.length then some (xs.extract start stop) else none

/-- Indices between two parts of a list are in order and within it. -/
theorem slice?_append {α : Type} (before part after : List α) :
    slice? (before ++ (part ++ after)) before.length (before ++ part).length = some part := by
  have bounds : before.length ≤ (before ++ part).length ∧
      (before ++ part).length ≤ (before ++ (part ++ after)).length := by
    simp only [List.length_append]
    omega
  rw [slice?, if_pos bounds, List.extract_eq_take_drop, List.length_append,
    Nat.add_sub_cancel_left, List.drop_left, List.take_left]

/-! ## Parts of a text -/

namespace Text

/-- The part of a text from one byte offset to another, undefined unless both stand between two
characters or at an end of the text, and the first is not greater. -/
def cut? (text : String) (start stop : Nat) : Option String :=
  if bounds : (⟨start⟩ : String.Pos.Raw).IsValid text ∧ (⟨stop⟩ : String.Pos.Raw).IsValid text ∧
      start ≤ stop then
    some (text.extract (text.pos ⟨start⟩ bounds.1) (text.pos ⟨stop⟩ bounds.2.1))
  else none

/-- Offsets between two parts of a text are in order and within no character. -/
theorem cut?_append (before part after : String) :
    cut? (before ++ (part ++ after)) before.utf8ByteSize (before ++ part).utf8ByteSize =
      some part := by
  have first : (⟨before.utf8ByteSize⟩ : String.Pos.Raw).IsValid (before ++ (part ++ after)) :=
    String.Pos.Raw.isValid_iff_exists_append.mpr ⟨before, part ++ after, rfl, rfl⟩
  have last : (⟨(before ++ part).utf8ByteSize⟩ : String.Pos.Raw).IsValid
      (before ++ (part ++ after)) :=
    String.Pos.Raw.isValid_iff_exists_append.mpr
      ⟨before ++ part, after, (String.append_assoc ..).symm, rfl⟩
  have ordered : before.utf8ByteSize ≤ (before ++ part).utf8ByteSize := by
    rw [String.utf8ByteSize_append]
    exact Nat.le_add_right _ _
  have shifted := ByteArray.extract_append_size_add (a := before.toByteArray)
    (b := part.toByteArray ++ after.toByteArray) (i := 0) (j := part.toByteArray.size)
  rw [Nat.add_zero] at shifted
  rw [cut?, dif_pos ⟨first, last, ordered⟩, Option.some.injEq, ← String.toByteArray_inj,
    String.toByteArray_extract, String.offset_pos, String.offset_pos, String.toByteArray_append,
    String.toByteArray_append, String.utf8ByteSize_append, ← String.size_toByteArray,
    ← String.size_toByteArray, shifted, ByteArray.extract_append_eq_left rfl]

/-- A text can be cut nowhere else: the two offsets divide it into three texts, and the second of
them is the part. -/
theorem cut?_eq_some_iff {text part : String} {start stop : Nat} :
    cut? text start stop = some part ↔
      ∃ before after, text = before ++ (part ++ after) ∧ start = before.utf8ByteSize ∧
        stop = (before ++ part).utf8ByteSize := by
  constructor
  · intro cut
    have bounds := cut
    rw [cut?] at bounds
    split at bounds
    · rename_i valid
      rcases valid with ⟨first, last, ordered⟩
      have fromFirst := (text.pos ⟨start⟩ first).splits
      have fromLast := (text.pos ⟨stop⟩ last).splits
      rcases (fromFirst.le_iff_exists_eq_append fromLast).mp ordered with ⟨between, before, after⟩
      have startOffset := congrArg String.Pos.Raw.byteIdx fromFirst.offset_eq_rawEndPos
      have stopOffset := congrArg String.Pos.Raw.byteIdx fromLast.offset_eq_rawEndPos
      have whole := fromFirst.eq_append
      rw [String.offset_pos, String.byteIdx_rawEndPos] at startOffset stopOffset
      rw [before] at stopOffset
      rw [after] at whole
      have same := cut?_append (text.sliceTo (text.pos ⟨start⟩ first)).copy between
        (text.sliceFrom (text.pos ⟨stop⟩ last)).copy
      rw [← whole, ← startOffset, ← stopOffset, cut, Option.some.injEq] at same
      subst same
      exact ⟨_, _, whole, startOffset, stopOffset⟩
    · cases bounds
  · rintro ⟨before, after, rfl, rfl, rfl⟩
    exact cut?_append before part after

/-- An offset within a character cuts nothing. -/
example : cut? "é" 1 2 = none := by
  decide

end Text

end SelectQuery
