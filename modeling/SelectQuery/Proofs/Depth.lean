import SelectQuery.Proofs.Reading.Matched

/-!
# Depth by counting

How deep a place in a list lies can be told by counting: the levels opened before it, less
those closed.  The count knows no lower bound, whereas the reader of an expression passes
over a closing parenthesis without partner.  On lists that even out, of which no beginning
closes more than it opens, the two are the same.

The partner of a parenthesis stands where the count is back at zero for the first time, so
the tokens between the two even out.  Such a list is cut exactly at the `||` where the count
is zero, and its pieces even out in their turn.  An expression is therefore read at its true
depth on every level but the outermost: `Expression.ofTokensAtTrueDepth` cuts where the count
says, and there it gives the same results as `Expression.ofTokensWithin`.
-/

namespace SelectQuery

namespace Nesting

variable {α : Type} {mark : α → Mark}

/-! ## Surplus -/

/-- How many more levels a list opens than it closes. -/
def surplus (mark : α → Mark) (xs : List α) : Int :=
  opened mark xs - closed mark xs

@[simp]
theorem surplus_nil (mark : α → Mark) : surplus mark [] = 0 :=
  rfl

theorem surplus_append (mark : α → Mark) (xs ys : List α) :
    surplus mark (xs ++ ys) = surplus mark xs + surplus mark ys := by
  simp only [surplus, opened, closed, List.countP_append]
  omega

theorem surplus_cons (mark : α → Mark) (x : α) (xs : List α) :
    surplus mark (x :: xs) = surplus mark [x] + surplus mark xs :=
  surplus_append mark [x] xs

theorem surplus_of_opens {x : α} (opens : mark x = .opens) : surplus mark [x] = 1 := by
  simp [surplus, opened_cons, closed_cons, opens]

theorem surplus_of_closes {x : α} (closes : mark x = .closes) : surplus mark [x] = -1 := by
  simp [surplus, opened_cons, closed_cons, closes]

theorem surplus_of_separates {x : α} (separates : mark x = .separates) :
    surplus mark [x] = 0 := by
  simp [surplus, opened_cons, closed_cons, separates]

/-- Only a closing item lowers the surplus, and by one. -/
theorem surplus_singleton_cases (mark : α → Mark) (x : α) :
    mark x = .closes ∧ surplus mark [x] = -1 ∨ 0 ≤ surplus mark [x] := by
  by_cases closes : mark x = .closes
  · exact .inl ⟨closes, surplus_of_closes closes⟩
  · right
    simp only [surplus, opened_cons, closed_cons, closes, opened_nil, closed_nil, if_false]
    omega

/-! ## Lists that even out -/

/-- No beginning of a list closes more levels than it opens, and the whole list closes as
many as it opens. -/
structure EvensOut (mark : α → Mark) (xs : List α) : Prop where
  kept : ∀ before, before <+: xs → 0 ≤ surplus mark before
  total : surplus mark xs = 0

/-- A beginning of a list that evens out does so too, if it closes what it opens. -/
theorem EvensOut.of_isPrefix {before xs : List α} (even : EvensOut mark xs)
    (part : before <+: xs) (total : surplus mark before = 0) : EvensOut mark before :=
  ⟨fun _ earlier => even.kept _ (earlier.trans part), total⟩

/-- What stands behind such a beginning and a separator evens out. -/
theorem EvensOut.of_separated {before rest : List α} {separator : α}
    (even : EvensOut mark (before ++ separator :: rest)) (total : surplus mark before = 0)
    (separates : mark separator = .separates) : EvensOut mark rest := by
  have behind : ∀ xs, surplus mark (before ++ separator :: xs) = surplus mark xs := by
    intro xs
    rw [surplus_append, total, surplus_cons, surplus_of_separates separates, Int.zero_add,
      Int.zero_add]
  constructor
  · intro earlier part
    rw [← behind]
    exact even.kept _ ((List.prefix_append_right_inj before).mpr
      (List.cons_prefix_cons.mpr ⟨rfl, part⟩))
  · rw [← behind]
    exact even.total

/-- Without quotations the lists that even out are the balanced ones. -/
theorem evensOut_iff_balanced {xs : List α} (noQuotes : ∀ x ∈ xs, mark x ≠ .quotes) :
    EvensOut mark xs ↔ Balanced mark xs := by
  have counts := settle?_eq_some_iff_counts noQuotes 0 0
  rw [Balanced, show Level.outer = ⟨0, false⟩ from rfl, counts]
  constructor
  · rintro ⟨kept, total⟩
    constructor
    · intro before part
      have nonnegative := kept before part
      rw [surplus] at nonnegative
      omega
    · rw [surplus] at total
      omega
  · rintro ⟨kept, total⟩
    constructor
    · intro before part
      have enough := kept before part
      rw [surplus]
      omega
    · rw [surplus]
      omega

/-- A beginning of a list that evens out settles to the level that its surplus tells. -/
theorem EvensOut.exists_settle? {before xs : List α} (even : EvensOut mark xs)
    (noQuotes : ∀ x ∈ xs, mark x ≠ .quotes) (part : before <+: xs) :
    ∃ depth : Nat, settle? mark .outer before = some ⟨depth, false⟩ ∧
      (depth : Int) = surplus mark before := by
  have noQuotesBefore : ∀ x ∈ before, mark x ≠ .quotes :=
    fun x member => noQuotes x (part.subset member)
  obtain ⟨depth, equal⟩ := Int.eq_ofNat_of_zero_le (even.kept before part)
  have counts := settle?_eq_some_iff_counts noQuotesBefore 0 depth
  refine ⟨depth, counts.mpr ⟨fun earlier inner => ?_, ?_⟩, equal.symm⟩
  · have nonnegative := even.kept earlier (inner.trans part)
    rw [surplus] at nonnegative
    omega
  · rw [surplus] at equal
    omega

/-- In a list that evens out the forgiving depth is the surplus. -/
theorem EvensOut.depth_reach {before xs : List α} (even : EvensOut mark xs)
    (noQuotes : ∀ x ∈ xs, mark x ≠ .quotes) (part : before <+: xs) :
    ((reach mark .outer before).depth : Int) = surplus mark before := by
  obtain ⟨depth, settled, equal⟩ := even.exists_settle? noQuotes part
  rw [reach_eq_of_settle? settled]
  exact equal

/-- In a list that evens out no closing item is passed over. -/
theorem EvensOut.after?_ne_none {before after xs : List α} {x : α} (even : EvensOut mark xs)
    (noQuotes : ∀ x ∈ xs, mark x ≠ .quotes) (equal : xs = before ++ x :: after) :
    (reach mark .outer before).after? (mark x) ≠ none := by
  have balanced := (evensOut_iff_balanced noQuotes).mp even
  rw [equal] at balanced
  have settled := settle?_eq_reach_of_balanced balanced
  rw [Balanced, settle?_append, settled, Option.bind_some, settle?_cons] at balanced
  rcases Option.bind_eq_some_iff.mp balanced with ⟨next, step, _⟩
  rw [step]
  exact Option.some_ne_none next

/-! ## The partner by its index -/

/-- The index of the partner of the item that a list begins with. -/
def partnerIndex? (mark : α → Mark) : List α → Option Nat
  | [] => none
  | _ :: xs => (enclosed? mark .inside xs).map fun found => found.1.length + 1

/-- At an index of a list the surplus is back at zero for the first time. -/
structure ReturnsFirstAt (mark : α → Mark) (xs : List α) (index : Nat) : Prop where
  inside : index < xs.length
  returns : surplus mark (xs.take (index + 1)) = 0
  first : ∀ earlier, earlier < index → surplus mark (xs.take (earlier + 1)) ≠ 0

section Partner

variable {opening : α} {xs : List α} (opens : mark opening = .opens)
include opens

theorem surplus_take_succ (index : Nat) :
    surplus mark ((opening :: xs).take (index + 1)) = 1 + surplus mark (xs.take index) := by
  rw [List.take_succ_cons, surplus_cons, surplus_of_opens opens]

/-- A closing item behind a list that evens out brings the surplus back to zero. -/
theorem returnsFirstAt_of_evensOut {inner rest : List α} {closing : α}
    (even : EvensOut mark inner) (closes : mark closing = .closes) :
    ReturnsFirstAt mark (opening :: (inner ++ closing :: rest)) (inner.length + 1) where
  inside := by simp
  returns := by
    have upTo : (inner ++ closing :: rest).take (inner.length + 1) = inner ++ [closing] := by
      simp [List.take_append, List.take_of_length_le]
    rw [surplus_take_succ opens, upTo, surplus_append, even.total, surplus_of_closes closes]
    rfl
  first := by
    intro earlier before
    have part : (inner ++ closing :: rest).take earlier <+: inner := by
      rw [List.take_append_of_le_length (Nat.le_of_lt_succ before)]
      exact List.take_prefix earlier inner
    have nonnegative := even.kept _ part
    rw [surplus_take_succ opens]
    omega

/-- Before the surplus of an opening item and what follows it returns to zero, what follows
closes no more than it opens. -/
theorem ReturnsFirstAt.surplus_nonneg {index : Nat}
    (returns : ReturnsFirstAt mark (opening :: xs) index) (count : Nat) (before : count < index) :
    0 ≤ surplus mark (xs.take count) := by
  induction count with
  | zero => simp
  | succ count inductionHypothesis =>
      have enough := inductionHypothesis (Nat.lt_of_succ_lt before)
      have noReturn := returns.first (count + 1) before
      have inside : count < xs.length := by
        have shorter := returns.inside
        rw [List.length_cons] at shorter
        omega
      rw [surplus_take_succ opens] at noReturn
      rw [List.take_succ_eq_append_getElem inside, surplus_append] at noReturn ⊢
      -- One item changes the surplus by at most one, and it does not come to minus one.
      rcases surplus_singleton_cases mark xs[count] with ⟨_, lowered⟩ | raised <;> omega

/-- Where the surplus is back at zero for the first time, a closing item stands behind a list
that evens out. -/
theorem ReturnsFirstAt.exists_cut {index : Nat}
    (returns : ReturnsFirstAt mark (opening :: xs) index) :
    ∃ inner closing rest, xs = inner ++ closing :: rest ∧ mark closing = .closes ∧
      EvensOut mark inner ∧ index = inner.length + 1 := by
  have notFirst : index ≠ 0 := by
    rintro rfl
    have back := returns.returns
    rw [surplus_take_succ opens, List.take_zero, surplus_nil] at back
    omega
  obtain ⟨length, rfl⟩ := Nat.exists_eq_succ_of_ne_zero notFirst
  have inside : length < xs.length := by simpa using returns.inside
  have enough := returns.surplus_nonneg opens length (Nat.lt_succ_self length)
  have back := returns.returns
  rw [surplus_take_succ opens, List.take_succ_eq_append_getElem inside, surplus_append] at back
  have cut : xs = xs.take length ++ xs[length] :: xs.drop (length + 1) := by
    rw [← List.drop_eq_getElem_cons inside, List.take_append_drop]
  have kept : ∀ before, before <+: xs.take length → 0 ≤ surplus mark before := by
    intro before part
    have shorter := part.length_le
    rw [List.length_take] at shorter
    rw [List.prefix_iff_eq_take.mp (part.trans (List.take_prefix length xs))]
    exact returns.surplus_nonneg opens before.length (by omega)
  have count : length + 1 = (xs.take length).length + 1 := by
    rw [List.length_take_of_le (Nat.le_of_lt inside)]
  rcases surplus_singleton_cases mark xs[length] with ⟨closes, lowered⟩ | raised
  · exact ⟨_, _, _, cut, closes, ⟨kept, by omega⟩, count⟩
  · omega

/-- The partner stands where the surplus is back at zero for the first time. -/
theorem partnerIndex?_eq_some_iff (noQuotes : ∀ x ∈ xs, mark x ≠ .quotes) (index : Nat) :
    partnerIndex? mark (opening :: xs) = some index ↔
      ReturnsFirstAt mark (opening :: xs) index := by
  rw [partnerIndex?, Option.map_eq_some_iff]
  constructor
  · rintro ⟨⟨inner, rest⟩, found, rfl⟩
    rcases enclosed?_inside_eq_some_iff.mp found with ⟨closing, closes, rfl, balanced⟩
    have noQuotesInner : ∀ x ∈ inner, mark x ≠ .quotes :=
      fun x member => noQuotes x (List.mem_append_left _ member)
    exact returnsFirstAt_of_evensOut opens ((evensOut_iff_balanced noQuotesInner).mpr balanced)
      closes
  · intro returns
    rcases returns.exists_cut opens with ⟨inner, closing, rest, rfl, closes, even, rfl⟩
    have noQuotesInner : ∀ x ∈ inner, mark x ≠ .quotes :=
      fun x member => noQuotes x (List.mem_append_left _ member)
    exact ⟨(inner, rest), enclosed?_append_of_balanced
      ((evensOut_iff_balanced noQuotesInner).mp even) closes rest, rfl⟩

/-- The items up to the partner even out, and they are the ones enclosed. -/
theorem ReturnsFirstAt.enclosed (noQuotes : ∀ x ∈ xs, mark x ≠ .quotes) {index : Nat}
    (returns : ReturnsFirstAt mark (opening :: xs) index) :
    EvensOut mark (((opening :: xs).take index).drop 1) ∧
      enclosed? mark .inside xs =
        some (((opening :: xs).take index).drop 1, (opening :: xs).drop (index + 1)) := by
  rcases returns.exists_cut opens with ⟨inner, closing, rest, rfl, closes, even, rfl⟩
  have noQuotesInner : ∀ x ∈ inner, mark x ≠ .quotes :=
    fun x member => noQuotes x (List.mem_append_left _ member)
  have between : ((opening :: (inner ++ closing :: rest)).take (inner.length + 1)).drop 1 =
      inner := by
    simp
  have behind : (opening :: (inner ++ closing :: rest)).drop (inner.length + 1 + 1) = rest := by
    simp [List.drop_append]
  rw [between, behind]
  exact ⟨even, enclosed?_append_of_balanced ((evensOut_iff_balanced noQuotesInner).mp even)
    closes rest⟩

end Partner

/-! ## Cuts by their indices -/

/-- The indices of the separators of a list at which the surplus is zero. -/
def joints (mark : α → Mark) (xs : List α) : List Nat :=
  (List.range xs.length).filter fun index =>
    xs[index]?.any (fun x => mark x = .separates) && surplus mark (xs.take index) = 0

/-- The parts of a list from an index on, before, between and behind the items at further
indices. -/
def segments (xs : List α) : Nat → List Nat → List (List α)
  | start, [] => [xs.drop start]
  | start, stop :: stops => (xs.take stop).drop start :: segments xs (stop + 1) stops

theorem mem_joints_iff {xs : List α} {index : Nat} :
    index ∈ joints mark xs ↔
      ∃ x, xs[index]? = some x ∧ mark x = .separates ∧ surplus mark (xs.take index) = 0 := by
  simp only [joints, List.mem_filter, List.mem_range, Bool.and_eq_true, Option.any_eq_true,
    decide_eq_true_eq]
  constructor
  · rintro ⟨_, ⟨x, found, separates⟩, zero⟩
    exact ⟨x, found, separates, zero⟩
  · rintro ⟨x, found, separates, zero⟩
    exact ⟨(List.getElem?_eq_some_iff.mp found).1, ⟨x, found, separates⟩, zero⟩

/-- Behind a list that closes what it opens the joints are those of the rest. -/
theorem joints_append {xs : List α} (total : surplus mark xs = 0) (ys : List α) :
    joints mark (xs ++ ys) = joints mark xs ++ (joints mark ys).map (xs.length + ·) := by
  rw [joints, List.length_append, List.range_add, List.filter_append, List.filter_map]
  congr 1
  · apply List.filter_congr
    intro index inside
    rw [List.mem_range] at inside
    rw [List.getElem?_append_left inside, List.take_append_of_le_length (Nat.le_of_lt inside)]
  · congr 1
    apply List.filter_congr
    intro index _
    simp [List.getElem?_append_right, List.take_append, List.take_of_length_le, surplus_append,
      total]

/-- A separator has a joint at its index. -/
theorem joints_separator {separator : α} (separates : mark separator = .separates) :
    joints mark [separator] = [0] := by
  simp [joints, separates]

/-- A list that evens out and has no separator outside its levels has no joints. -/
theorem joints_eq_nil {xs : List α} (even : EvensOut mark xs)
    (noQuotes : ∀ x ∈ xs, mark x ≠ .quotes) (uncut : Uncut mark xs) : joints mark xs = [] := by
  rw [List.eq_nil_iff_forall_not_mem]
  intro index isJoint
  rcases mem_joints_iff.mp isJoint with ⟨x, found, separates, zero⟩
  rcases List.getElem?_eq_some_iff.mp found with ⟨inside, rfl⟩
  have cut : xs = xs.take index ++ xs[index] :: xs.drop (index + 1) := by
    rw [← List.drop_eq_getElem_cons inside, List.take_append_drop]
  have part : xs.take index <+: xs := List.take_prefix index xs
  have noQuotesBefore : ∀ x ∈ xs.take index, mark x ≠ .quotes :=
    fun x member => noQuotes x (part.subset member)
  exact uncut _ _ _ cut separates
    ((evensOut_iff_balanced noQuotesBefore).mp (even.of_isPrefix part zero))

/-- The parts of a list do not depend on what stands before it. -/
theorem segments_append (before xs : List α) (start : Nat) (stops : List Nat) :
    segments (before ++ xs) (before.length + start) (stops.map (before.length + ·)) =
      segments xs start stops := by
  induction stops generalizing start with
  | nil => simp [segments, List.drop_append]
  | cons stop stops inductionHypothesis =>
      rw [List.map_cons, segments, Nat.add_assoc, inductionHypothesis, segments]
      simp [List.take_append, List.take_of_length_le, List.drop_append]

/-- The first joint of a list stands behind a piece that evens out and is not cut again. -/
theorem joints_of_cut {piece rest : List α} {separator : α} (even : EvensOut mark piece)
    (noQuotes : ∀ x ∈ piece, mark x ≠ .quotes) (uncut : Uncut mark piece)
    (separates : mark separator = .separates) :
    joints mark (piece ++ separator :: rest) =
      piece.length :: (joints mark rest).map (piece.length + 1 + ·) := by
  have total : surplus mark (piece ++ [separator]) = 0 := by
    rw [surplus_append, even.total, surplus_of_separates separates, Int.add_zero]
  rw [List.append_cons, joints_append total, joints_append even.total,
    joints_eq_nil even noQuotes uncut, joints_separator separates, List.length_append,
    List.length_singleton]
  rfl

/-- The pieces of a list that evens out are the parts between its joints, and with the items at
the joints between them they are the list again. -/
theorem pieces_eq_segments {xs piece : List α} {later : List (List α)} (even : EvensOut mark xs)
    (noQuotes : ∀ x ∈ xs, mark x ≠ .quotes) (cut : pieces mark .outer xs = (piece, later)) :
    piece :: later = segments xs 0 (joints mark xs) ∧
      later.length = (joints mark xs).length ∧
      interlaced (piece :: later) ((joints mark xs).map fun index => xs[index]?.toList) = xs := by
  -- The induction is on the pieces after the first, each of which begins a shorter list.
  induction later generalizing xs piece with
  | nil =>
      have whole := eq_of_pieces_eq_nil cut
      subst whole
      rw [joints_eq_nil even noQuotes (uncut_of_pieces_eq cut)]
      simp [segments, interlaced]
  | cons next later inductionHypothesis =>
      rcases eq_append_of_pieces_eq_cons cut with
        ⟨separator, rest, separates, rfl, uncut, outside, cutRest⟩
      have part : piece <+: piece ++ separator :: rest := List.prefix_append _ _
      have total : surplus mark piece = 0 := by
        rw [← even.depth_reach noQuotes part, outside]
        rfl
      have evenPiece := even.of_isPrefix part total
      have evenRest := even.of_separated total separates
      have noQuotesPiece : ∀ x ∈ piece, mark x ≠ .quotes :=
        fun x member => noQuotes x (part.subset member)
      have noQuotesRest : ∀ x ∈ rest, mark x ≠ .quotes :=
        fun x member => noQuotes x (List.mem_append_right _ (List.mem_cons_of_mem _ member))
      rcases inductionHypothesis evenRest noQuotesRest cutRest with ⟨parts, count, joined⟩
      rw [joints_of_cut evenPiece noQuotesPiece (uncut_of_pieces_eq uncut) separates]
      have behind : segments (piece ++ separator :: rest) (piece.length + 1)
          ((joints mark rest).map (piece.length + 1 + ·)) = segments rest 0 (joints mark rest) := by
        have shifted := segments_append (piece ++ [separator]) rest 0 (joints mark rest)
        rwa [← List.append_cons, List.length_append, List.length_singleton] at shifted
      have items : ((joints mark rest).map (piece.length + 1 + ·)).map
          (fun index => (piece ++ separator :: rest)[index]?.toList) =
            (joints mark rest).map fun index => rest[index]?.toList := by
        rw [List.map_map]
        apply List.map_congr_left
        intro index _
        rw [Function.comp_apply, Nat.add_assoc, List.getElem?_append_right (Nat.le_add_right _ _),
          Nat.add_sub_cancel_left, Nat.add_comm 1, List.getElem?_cons_succ]
      constructor
      · rw [segments, behind, ← parts, List.take_left, List.drop_zero]
      · constructor
        · rw [List.length_cons, List.length_cons, List.length_map, count]
        · rw [List.map_cons, items, interlaced, joined]
          simp

/-- A list is cut where its levels say.  The forgiving depth is everywhere the surplus, and no
closing item is passed over.  The pieces are the parts between the joints, one more than there
are joints; they even out, and with the items at the joints between them they are the list
again. -/
structure CutAtJoints (mark : α → Mark) (xs : List α) : Prop where
  depth : ∀ before, before <+: xs →
    ((reach mark .outer before).depth : Int) = surplus mark before
  unclamped : ∀ before x after, xs = before ++ x :: after →
    (reach mark .outer before).after? (mark x) ≠ none
  parts : (pieces mark .outer xs).1 :: (pieces mark .outer xs).2 = segments xs 0 (joints mark xs)
  count : ((pieces mark .outer xs).1 :: (pieces mark .outer xs).2).length =
    (joints mark xs).length + 1
  even : ∀ piece ∈ (pieces mark .outer xs).1 :: (pieces mark .outer xs).2, EvensOut mark piece
  joined : interlaced ((pieces mark .outer xs).1 :: (pieces mark .outer xs).2)
    ((joints mark xs).map fun index => xs[index]?.toList) = xs

/-- A list that evens out is cut where its levels say. -/
theorem EvensOut.cutAtJoints {xs : List α} (even : EvensOut mark xs)
    (noQuotes : ∀ x ∈ xs, mark x ≠ .quotes) : CutAtJoints mark xs := by
  rcases pieces_eq_segments even noQuotes rfl with ⟨parts, count, joined⟩
  have balanced := (evensOut_iff_balanced noQuotes).mp even
  constructor
  · exact fun before part => even.depth_reach noQuotes part
  · exact fun before x after equal => even.after?_ne_none noQuotes equal
  · exact parts
  · rw [List.length_cons, count]
  · intro piece isPiece
    have noQuotesPiece : ∀ x ∈ piece, mark x ≠ .quotes :=
      fun x member => noQuotes x (mem_of_mem_pieces rfl piece isPiece x member)
    exact (evensOut_iff_balanced noQuotesPiece).mpr
      (balanced_of_mem_pieces balanced rfl piece isPiece).1
  · exact joined

end Nesting

/-! ## Expressions on every level -/

namespace Expression

/-- The partner of a parenthesis stands where as many are closed as opened for the first time,
and what it encloses evens out. -/
theorem partner_of_leftParen {opening : Token} {others : List Token}
    (role : opening.role = .leftParen) (index : Nat) :
    (Nesting.partnerIndex? Token.mark (opening :: others) = some index ↔
        Nesting.ReturnsFirstAt Token.mark (opening :: others) index) ∧
      (Nesting.partnerIndex? Token.mark (opening :: others) = some index →
        Nesting.EvensOut Token.mark (((opening :: others).take index).drop 1) ∧
          Nesting.enclosed? Token.mark .inside others =
            some (((opening :: others).take index).drop 1,
              (opening :: others).drop (index + 1))) := by
  have opens := (Token.mark_eq_opens_iff opening).mpr role
  have noQuotes : ∀ token ∈ others, token.mark ≠ .quotes := fun token _ => token.mark_ne_quotes
  have partner := Nesting.partnerIndex?_eq_some_iff opens noQuotes index
  exact ⟨partner, fun found => (partner.mp found).enclosed opens noQuotes⟩

/-- Tokens that even out are cut where their levels say. -/
theorem cutAtJoints {tokens : List Token} (even : Nesting.EvensOut Token.mark tokens) :
    Nesting.CutAtJoints Token.mark tokens :=
  even.cutAtJoints fun token _ => token.mark_ne_quotes

/-- A group consists of a pair of parentheses with tokens between them. -/
def Encloses (group inner : List Token) : Prop :=
  ∃ opening others, group = opening :: others ∧ opening.role = .leftParen ∧
    Nesting.enclosed? Token.mark .inside others = some (inner, []) ∧ inner ≠ []

/-- The lists that are read as expressions in reading one, each with its level: the list itself,
and on the next level what a group of a list encloses. -/
inductive ReadAtLevel (tokens : List Token) : Nat → List Token → Prop
  | whole : ReadAtLevel tokens 0 tokens
  | enclosed {level outer group inner} (above : ReadAtLevel tokens level outer)
      (isGroup : group ∈ piecesOf outer) (encloses : Encloses group inner) :
      ReadAtLevel tokens (level + 1) inner

/-- The reader of a group asks its inner reader only for what the group encloses. -/
theorem ofPiece_congr {ofInner other : List Token → Except Error Expression}
    {group : List Token}
    (same : ∀ inner, Encloses group inner → ofInner inner = other inner) :
    ofPiece ofInner group = ofPiece other group := by
  match group with
  | [] => rfl
  | [token] => rfl
  | first :: second :: others =>
      unfold ofPiece
      dsimp only
      by_cases opens : first.role = .leftParen
      · rw [if_pos opens, if_pos opens]
        split
        · rfl
        · rfl
        · rfl
        · rename_i inner nonempty found
          have notEmpty : inner ≠ [] := by
            rintro rfl
            exact nonempty rfl
          rw [same inner ⟨first, second :: others, rfl, opens, found, notEmpty⟩]
      · rw [if_neg opens, if_neg opens]

/-- The tokens between two partners even out. -/
theorem Encloses.evensOut {group inner : List Token} (encloses : Encloses group inner) :
    Nesting.EvensOut Token.mark inner := by
  rcases encloses with ⟨_, _, _, _, found, _⟩
  rcases Nesting.enclosed?_inside_eq_some_iff.mp found with ⟨_, _, _, balanced⟩
  exact (Nesting.evensOut_iff_balanced fun token _ => token.mark_ne_quotes).mpr balanced

/-- Below the outermost level only lists that even out are read. -/
theorem ReadAtLevel.evensOut {tokens inner : List Token} {level : Nat}
    (reads : ReadAtLevel tokens (level + 1) inner) : Nesting.EvensOut Token.mark inner := by
  cases reads with
  | enclosed _ _ encloses => exact encloses.evensOut

/-- Readers that agree on the lists that even out read every group alike. -/
theorem ofPiece_eq_of_evensOut {ofInner other : List Token → Except Error Expression}
    (same : ∀ inner, Nesting.EvensOut Token.mark inner → ofInner inner = other inner) :
    ofPiece ofInner = ofPiece other :=
  funext fun _ => ofPiece_congr fun inner encloses => same inner encloses.evensOut

/-- Read the tokens of an expression with a number of levels left, each list cut at the `||`
where as many parentheses are closed as opened. -/
def ofTokensAtTrueDepth (limit : Nat) : Nat → List Token → Except Error Expression
  | 0, _ => .error (.nestingTooDeep limit)
  | levels + 1, tokens =>
      ((Nesting.segments tokens 0 (Nesting.joints Token.mark tokens)).mapM
        (ofPiece (ofTokensAtTrueDepth limit levels))).map ofParts

theorem ofTokensAtTrueDepth_succ (limit levels : Nat) (tokens : List Token) :
    ofTokensAtTrueDepth limit (levels + 1) tokens =
      ((Nesting.segments tokens 0 (Nesting.joints Token.mark tokens)).mapM
        (ofPiece (ofTokensAtTrueDepth limit levels))).map ofParts :=
  rfl

/-- A list that evens out is read at its true depth. -/
theorem ofTokensWithin_eq_ofTokensAtTrueDepth (limit levels : Nat) {tokens : List Token}
    (even : Nesting.EvensOut Token.mark tokens) :
    ofTokensWithin limit levels tokens = ofTokensAtTrueDepth limit levels tokens := by
  induction levels generalizing tokens with
  | zero => rfl
  | succ levels inductionHypothesis =>
      have parts : piecesOf tokens =
          Nesting.segments tokens 0 (Nesting.joints Token.mark tokens) := (cutAtJoints even).parts
      have groups : ofPiece (ofTokensWithin limit levels) =
          ofPiece (ofTokensAtTrueDepth limit levels) :=
        ofPiece_eq_of_evensOut fun _ inner => inductionHypothesis inner
      rw [ofTokensWithin_succ, ofTokensAtTrueDepth_succ, parts, groups]

/-- Whatever the tokens are, all levels but the outermost are read at their true depth. -/
theorem ofTokensWithin_succ_eq_atTrueDepth (limit levels : Nat) (tokens : List Token) :
    ofTokensWithin limit (levels + 1) tokens =
      ((piecesOf tokens).mapM (ofPiece (ofTokensAtTrueDepth limit levels))).map ofParts := by
  have groups : ofPiece (ofTokensWithin limit levels) =
      ofPiece (ofTokensAtTrueDepth limit levels) :=
    ofPiece_eq_of_evensOut fun _ even => ofTokensWithin_eq_ofTokensAtTrueDepth limit levels even
  rw [ofTokensWithin_succ, groups]

/-- Parentheses are matched and expressions are cut by the same depth.  The partner of a
parenthesis is the first place at which as many are closed as opened, and the tokens between
the two even out.  A list that evens out is cut exactly at the `||` where as many are closed
as opened, with no parenthesis passed over, into pieces that even out and that the `||` put
together again.  Each list that is read below the outermost level of an expression is such a
list, and the reader of a group asks for no others.  The reader of expressions is therefore
the one that cuts by the count, on lists that even out altogether, and on other lists from
the level below the outermost on. -/
theorem partners_and_cuts_at_true_depth :
    (∀ opening others, opening.role = .leftParen → ∀ index,
        (Nesting.partnerIndex? Token.mark (opening :: others) = some index ↔
            Nesting.ReturnsFirstAt Token.mark (opening :: others) index) ∧
          (Nesting.partnerIndex? Token.mark (opening :: others) = some index →
            Nesting.EvensOut Token.mark (((opening :: others).take index).drop 1) ∧
              Nesting.enclosed? Token.mark .inside others =
                some (((opening :: others).take index).drop 1,
                  (opening :: others).drop (index + 1)))) ∧
      (∀ tokens, Nesting.EvensOut Token.mark tokens → Nesting.CutAtJoints Token.mark tokens) ∧
      (∀ tokens level inner, ReadAtLevel tokens (level + 1) inner →
        Nesting.EvensOut Token.mark inner ∧ Nesting.CutAtJoints Token.mark inner) ∧
      (∀ group ofInner other, (∀ inner, Encloses group inner → ofInner inner = other inner) →
        ofPiece ofInner group = ofPiece other group) ∧
      (∀ limit levels tokens, Nesting.EvensOut Token.mark tokens →
        ofTokensWithin limit levels tokens = ofTokensAtTrueDepth limit levels tokens) ∧
      ∀ limit levels tokens, ofTokensWithin limit (levels + 1) tokens =
        ((piecesOf tokens).mapM (ofPiece (ofTokensAtTrueDepth limit levels))).map ofParts := by
  exact
    ⟨fun opening others role index => partner_of_leftParen role index,
      fun tokens even => cutAtJoints even,
      fun tokens level inner reads => ⟨reads.evensOut, cutAtJoints reads.evensOut⟩,
      fun group ofInner other same => ofPiece_congr same,
      fun limit levels tokens even => ofTokensWithin_eq_ofTokensAtTrueDepth limit levels even,
      ofTokensWithin_succ_eq_atTrueDepth⟩

/-- A group whose partner is not the first closing parenthesis, and what is read in it. -/
theorem partners_and_cuts_at_true_depth_nested :
    let inner : List Token := [⟨.unknown, "a"⟩, ⟨.concat, "||"⟩, ⟨.leftParen, "("⟩,
      ⟨.unknown, "b"⟩, ⟨.rightParen, ")"⟩]
    let group : List Token := ⟨.leftParen, "("⟩ :: (inner ++ [⟨.rightParen, ")"⟩])
    Nesting.ReturnsFirstAt Token.mark group 6 ∧ Nesting.EvensOut Token.mark inner ∧
      ReadAtLevel group 1 inner ∧ Nesting.CutAtJoints Token.mark inner ∧
      Nesting.joints Token.mark inner = [1] := by
  intro inner group
  obtain ⟨partners, cuts, levels, _⟩ := partners_and_cuts_at_true_depth
  have partner := partners ⟨.leftParen, "("⟩ (inner ++ [⟨.rightParen, ")"⟩]) rfl 6
  have encloses : Encloses group inner := ⟨_, _, rfl, rfl, (partner.2 rfl).2, List.cons_ne_nil _ _⟩
  have reads : ReadAtLevel group 1 inner :=
    .enclosed .whole (List.mem_singleton_self group) encloses
  exact ⟨partner.1.mp rfl, (levels group 0 inner reads).1, reads, cuts inner (partner.2 rfl).1, rfl⟩

end Expression

end SelectQuery
