import SelectQuery.Proofs.Grammar
import SelectQuery.Proofs.Nesting

/-!
# Reading an expression is exact

The expressions that `Expression.ofTokens` reads from a list of tokens are the
ones that the list derives, with parentheses nested up to the limit.

In one direction a derivation is followed by the reader: derived groups are
balanced, so that the cuts of the reader fall at the `||` of the derivation and
the partner of an opening parenthesis is the one of the derivation.  In the other
direction each piece that the reader cuts is derived, level by level.
-/

namespace SelectQuery

/-! ## Marks and roles -/

namespace Token

theorem mark_eq_opens_iff (token : Token) : token.mark = .opens ↔ token.role = .leftParen := by
  unfold mark
  split <;> simp_all

theorem mark_eq_closes_iff (token : Token) : token.mark = .closes ↔ token.role = .rightParen := by
  unfold mark
  split <;> simp_all

theorem mark_eq_separates_iff (token : Token) : token.mark = .separates ↔ token.role = .concat := by
  unfold mark
  split <;> simp_all

/-- A token that marks nothing is balanced by itself. -/
theorem mark_eq_plain {token : Token} (noOpening : token.role ≠ .leftParen)
    (noClosing : token.role ≠ .rightParen) (noJoin : token.role ≠ .concat) :
    token.mark = .plain := by
  unfold mark
  split <;> first | contradiction | rfl

/-- An identifier marks nothing. -/
theorem mark_of_identifier {token : Token} (identifier : token.role = .identifier) :
    token.mark = .plain := by
  apply mark_eq_plain <;> simp [identifier]

end Token

/-! ## Derived groups are balanced -/

namespace DerivesLeaf

variable {place : Place} {token : Token} {expression : Expression}

/-- The roles of a leaf. -/
theorem role_mem (leaf : DerivesLeaf place token expression) :
    token.role ∈ [Kind.asterisk, .stringLiteral, .functionCall, .identifier] := by
  cases leaf with
  | asterisk role | literal role | call role _ => simp [role]
  | word plain _ => simp [plain.identifier]

theorem mark_eq (leaf : DerivesLeaf place token expression) : token.mark = .plain := by
  have roles := leaf.role_mem
  apply Token.mark_eq_plain <;> intro role <;> simp [role] at roles

/-- Reading a single token is exact up to the word `AS`. -/
theorem ofToken_eq (leaf : DerivesLeaf place token expression) :
    Expression.ofToken token = .ok expression := by
  cases leaf with
  | asterisk role => simp [Expression.ofToken, role]
  | literal role => simp [Expression.ofToken, role]
  | call role read => simpa [Expression.ofToken, role] using read
  | word plain _ =>
      simp [Expression.ofToken, plain.identifier, plain.noOpening, plain.noClosing]

theorem nesting_eq (leaf : DerivesLeaf place token expression) : expression.nesting = 0 := by
  cases leaf with
  | asterisk | literal | word => simp only [Expression.nesting]
  | call _ read =>
      rcases Expression.exists_of_ofCall read with ⟨name, arguments, rfl⟩
      rw [Expression.nesting]

end DerivesLeaf

/-- A token that is read by itself is a leaf. -/
theorem derivesLeaf_of_ofToken {place : Place} {token : Token} {expression : Expression}
    (read : Expression.ofToken token = .ok expression)
    (free : place = .outside → token.spells "AS" = false) :
    DerivesLeaf place token expression := by
  unfold Expression.ofToken at read
  split at read
  · rename_i role
    cases read
    exact .asterisk role
  · rename_i role
    cases read
    exact .literal role
  · rename_i role
    exact .call role read
  · rename_i role
    split at read
    · cases read
    · rename_i noQuotes
      cases read
      simp only [Bool.or_eq_true, not_or, Bool.not_eq_true] at noQuotes
      exact .word ⟨role, noQuotes.1, noQuotes.2⟩ free
  · cases read
  · cases read
  · cases read

namespace DerivesGroups

variable {place : Place} {tokens : List Token} {parts : List Expression}

theorem ne_nil (groups : DerivesGroups place tokens parts) : tokens ≠ [] := by
  cases groups <;> simp

theorem balanced (groups : DerivesGroups place tokens parts) :
    Nesting.Balanced Token.mark tokens := by
  induction groups with
  | @leaf _ token _ leaf =>
      rw [Nesting.Balanced, Nesting.settle?_cons, leaf.mark_eq]
      rfl
  | parenthesized opens _ closes inner =>
      exact Nesting.balanced_partners ((Token.mark_eq_opens_iff _).mpr opens) inner
        ((Token.mark_eq_closes_iff _).mpr closes)
  | joined _ joins _ group later =>
      exact Nesting.balanced_append_separator group
        ((Token.mark_eq_separates_iff _).mpr joins) later

/-- A single group holds no `||` outside parentheses. -/
theorem pieces_eq {part : Expression} (group : DerivesGroups place tokens [part]) :
    Nesting.pieces Token.mark .outer tokens = (tokens, []) := by
  cases group with
  | leaf leaf =>
      rw [Nesting.pieces_cons_of_keep [] (by simp [leaf.mark_eq])]
      rfl
  | parenthesized opens inner closes =>
      exact Nesting.pieces_partners ((Token.mark_eq_opens_iff _).mpr opens) inner.balanced
        ((Token.mark_eq_closes_iff _).mpr closes)
  | joined _ _ later => cases later

end DerivesGroups

/-! ## Reading level by level -/

/-- A mapped reading succeeds exactly if the reading does. -/
theorem map_eq_ok_iff {ε α β : Type} {read : Except ε α} {f : α → β} {result : β} :
    read.map f = .ok result ↔ ∃ value, read = .ok value ∧ f value = result := by
  cases read <;> simp [Except.map]

/-- A mapped reading fails as the reading does. -/
theorem map_eq_error_iff {ε α β : Type} {read : Except ε α} {f : α → β} {error : ε} :
    read.map f = .error error ↔ read = .error error := by
  cases read <;> simp [Except.map]

/-- Reading the items of a list in turn succeeds exactly if every item is read. -/
theorem mapM_cons_eq_ok_iff {ε α β : Type} {read : α → Except ε β} {x : α} {xs : List α}
    {results : List β} :
    (x :: xs).mapM read = .ok results ↔
      ∃ first others, read x = .ok first ∧ xs.mapM read = .ok others ∧
        results = first :: others := by
  rw [List.mapM_cons, bind_eq_ok_iff]
  constructor
  · rintro ⟨first, readFirst, later⟩
    rcases bind_eq_ok_iff.mp later with ⟨others, readOthers, equal⟩
    cases equal
    exact ⟨first, others, readFirst, readOthers, rfl⟩
  · rintro ⟨first, others, readFirst, readOthers, rfl⟩
    exact ⟨first, readFirst, bind_eq_ok_iff.mpr ⟨others, readOthers, rfl⟩⟩

namespace Expression

/-- The pieces of a list of tokens, the first of them included. -/
def piecesOf (tokens : List Token) : List (List Token) :=
  (Nesting.pieces Token.mark .outer tokens).1 :: (Nesting.pieces Token.mark .outer tokens).2

/-- One level of reading: the pieces are read with one level less, and their
expressions are put together. -/
theorem ofTokensWithin_succ (limit levels : Nat) (tokens : List Token) :
    ofTokensWithin limit (levels + 1) tokens =
      ((piecesOf tokens).mapM (ofPiece (ofTokensWithin limit levels))).map ofParts := by
  rw [ofTokensWithin, piecesOf]
  rcases Nesting.pieces Token.mark .outer tokens with ⟨first, later⟩
  cases later with
  | nil =>
      simp only [List.mapM_cons, List.mapM_nil]
      cases ofPiece (ofTokensWithin limit levels) first <;> rfl
  | cons second others =>
      simp only [List.mapM_cons]
      cases ofPiece (ofTokensWithin limit levels) first with
      | error => rfl
      | ok =>
          cases ofPiece (ofTokensWithin limit levels) second with
          | error => rfl
          | ok => cases others.mapM (ofPiece (ofTokensWithin limit levels)) <;> rfl

/-! ## What is derived is read -/

/-- Between two partners the inner reader decides. -/
theorem ofPiece_partners (ofInner : List Token → Except Error Expression)
    {opening closing : Token} {tokens : List Token} (opens : opening.role = .leftParen)
    (balanced : Nesting.Balanced Token.mark tokens) (nonempty : tokens ≠ [])
    (closes : closing.role = .rightParen) :
    ofPiece ofInner (opening :: (tokens ++ [closing])) = (ofInner tokens).map .parenthesized := by
  have partner := Nesting.enclosed?_append_of_balanced balanced
    ((Token.mark_eq_closes_iff closing).mpr closes) []
  rcases List.exists_cons_of_ne_nil nonempty with ⟨first, others, rfl⟩
  rw [List.cons_append] at partner ⊢
  rw [ofPiece, if_pos opens, partner]
  simp

end Expression

/-- Derived groups are read, with as many levels as their parentheses need. -/
theorem DerivesGroups.mapM_eq {place : Place} {tokens : List Token} {parts : List Expression}
    (groups : DerivesGroups place tokens parts) (limit : Nat) {levels : Nat}
    (within : ∀ part ∈ parts, part.nesting ≤ levels) :
    (Expression.piecesOf tokens).mapM
      (Expression.ofPiece (Expression.ofTokensWithin limit levels)) = .ok parts := by
  induction groups generalizing levels with
  | leaf leaf =>
      rw [Expression.piecesOf, (DerivesGroups.leaf leaf).pieces_eq]
      exact mapM_cons_eq_ok_iff.mpr ⟨_, [], leaf.ofToken_eq, rfl, rfl⟩
  | @parenthesized place opening tokens closing parts opens inner closes inductionHypothesis =>
      have group : DerivesGroups place (opening :: (tokens ++ [closing]))
          [.parenthesized (.ofParts parts)] := .parenthesized opens inner closes
      have nested : (Expression.ofParts parts).nesting + 1 ≤ levels := by
        simpa only [List.mem_singleton, forall_eq, Expression.nesting] using within
      rcases Nat.exists_eq_add_of_le' nested with ⟨spare, rfl⟩
      have partsWithin : ∀ part ∈ parts,
          part.nesting ≤ spare + (Expression.ofParts parts).nesting := by
        rw [← Expression.nesting_ofParts_le_iff]
        exact Nat.le_add_left _ _
      rw [Expression.piecesOf, group.pieces_eq]
      refine mapM_cons_eq_ok_iff.mpr ⟨_, [], ?_, rfl, rfl⟩
      rw [Expression.ofPiece_partners _ opens inner.balanced inner.ne_nil closes, ← Nat.add_assoc,
        Expression.ofTokensWithin_succ, inductionHypothesis partsWithin]
      rfl
  | @joined place first bar others part parts group joins later readGroup readLater =>
      rw [List.forall_mem_cons] at within
      have separates := (Token.mark_eq_separates_iff bar).mpr joins
      have groupRead := readGroup (List.forall_mem_singleton.mpr within.1)
      rw [Expression.piecesOf, group.pieces_eq] at groupRead
      rcases mapM_cons_eq_ok_iff.mp groupRead with ⟨_, _, firstRead, _, equal⟩
      cases equal
      rw [Expression.piecesOf,
        Nesting.pieces_append_separator group.pieces_eq group.balanced separates]
      exact mapM_cons_eq_ok_iff.mpr ⟨part, parts, firstRead, readLater within.2, rfl⟩

namespace Expression

/-- A derived expression whose parentheses nest up to the limit is read. -/
theorem ofTokens_of_derivesGroups {limit : Nat} {place : Place} {tokens : List Token}
    {parts : List Expression} (groups : DerivesGroups place tokens parts)
    (within : (ofParts parts).nesting ≤ limit) :
    ofTokens limit tokens = .ok (ofParts parts) := by
  rw [nesting_ofParts_le_iff] at within
  rw [ofTokens, ofTokensWithin_succ, groups.mapM_eq limit within]
  rfl

/-! ## What is read is derived -/

/-- No token outside parentheses is the word `AS`. -/
def AliasFree : List Token → Prop :=
  Nesting.HoldsOuter Token.mark (fun token => token.spells "AS" = false) .outer

/-- What an expression reader must give for the tokens between two partners. -/
def ReadsInner (levels : Nat) (ofInner : List Token → Except Error Expression) : Prop :=
  ∀ tokens expression, ofInner tokens = .ok expression →
    expression.nesting < levels ∧
      ∃ parts, DerivesGroups .inside tokens parts ∧ expression = ofParts parts

/-- A piece that is read is a single group. -/
theorem derivesGroups_of_ofPiece {levels : Nat}
    {ofInner : List Token → Except Error Expression} (readsInner : ReadsInner levels ofInner)
    {piece : List Token} {part : Expression} (read : ofPiece ofInner piece = .ok part)
    {place : Place} (free : place = .outside → AliasFree piece) :
    part.nesting ≤ levels ∧ DerivesGroups place piece [part] := by
  match piece with
  | [] => cases read
  | [token] =>
      have leaf := derivesLeaf_of_ofToken read fun outside => (free outside).1 rfl
      exact ⟨leaf.nesting_eq ▸ Nat.zero_le levels, .leaf leaf⟩
  | first :: second :: others =>
      unfold ofPiece at read
      dsimp only at read
      split at read
      · rename_i opens
        split at read
        · cases read
        · cases read
        · cases read
        · rename_i inner _ found
          rcases map_eq_ok_iff.mp read with ⟨expression, readInner, rfl⟩
          rcases Nesting.eq_append_of_enclosed? found with ⟨closing, closes, equal⟩
          rcases readsInner inner expression readInner with ⟨nested, parts, groups, rfl⟩
          rw [equal]
          rw [Token.mark_eq_closes_iff] at closes
          exact ⟨by rw [nesting]; exact nested, .parenthesized opens groups closes⟩
      · split at read <;> cases read

/-- Pieces that are read make up groups. -/
theorem derivesGroups_of_mapM {levels : Nat}
    {ofInner : List Token → Except Error Expression} (readsInner : ReadsInner levels ofInner)
    {tokens : List Token} {parts : List Expression}
    (read : (piecesOf tokens).mapM (ofPiece ofInner) = .ok parts)
    (place : Place) (free : place = .outside → AliasFree tokens) :
    (∀ part ∈ parts, part.nesting ≤ levels) ∧ DerivesGroups place tokens parts := by
  rw [piecesOf] at read
  -- The induction is on the pieces after the first, each of which begins a shorter list.
  generalize cut : Nesting.pieces Token.mark .outer tokens = pieces at read
  rcases pieces with ⟨piece, later⟩
  induction later generalizing tokens piece parts with
  | nil =>
      rcases mapM_cons_eq_ok_iff.mp read with ⟨part, others, readPiece, readLater, rfl⟩
      cases readLater
      have whole := Nesting.eq_of_pieces_eq_nil cut
      subst whole
      have single := derivesGroups_of_ofPiece readsInner readPiece free
      exact ⟨List.forall_mem_singleton.mpr single.1, single.2⟩
  | cons next later inductionHypothesis =>
      rcases mapM_cons_eq_ok_iff.mp read with ⟨part, others, readPiece, readLater, rfl⟩
      rcases Nesting.eq_append_of_pieces_eq_cons cut with
        ⟨bar, rest, separates, rfl, _, outer, cutRest⟩
      have free' : place = .outside → AliasFree piece ∧ AliasFree rest := by
        intro outside
        have both := (Nesting.holdsOuter_append _ _ _ _ _).mp (free outside)
        rw [outer, Nesting.HoldsOuter, separates] at both
        exact ⟨both.1, both.2.2⟩
      have group := derivesGroups_of_ofPiece readsInner readPiece fun outside => (free' outside).1
      have groups := inductionHypothesis (fun outside => (free' outside).2) next cutRest readLater
      exact ⟨List.forall_mem_cons.mpr ⟨group.1, groups.1⟩,
        .joined group.2 ((Token.mark_eq_separates_iff bar).mp separates) groups.2⟩

/-- Every level of reading gives derived expressions that nest less deep. -/
theorem readsInner_ofTokensWithin (limit levels : Nat) :
    ReadsInner levels (ofTokensWithin limit levels) := by
  induction levels with
  | zero =>
      intro tokens expression read
      cases read
  | succ levels inductionHypothesis =>
      intro tokens expression read
      rw [ofTokensWithin_succ] at read
      rcases map_eq_ok_iff.mp read with ⟨parts, readParts, rfl⟩
      have groups := derivesGroups_of_mapM inductionHypothesis readParts .inside (by simp)
      exact ⟨Nat.lt_succ_of_le ((nesting_ofParts_le_iff parts levels).mpr groups.1),
        parts, groups.2, rfl⟩

/-- An expression that is read is derived, and its parentheses nest up to the
limit. -/
theorem derivesGroups_of_ofTokens {limit : Nat} {tokens : List Token} {expression : Expression}
    (read : ofTokens limit tokens = .ok expression) (free : AliasFree tokens) :
    expression.nesting ≤ limit ∧
      ∃ parts, DerivesGroups .outside tokens parts ∧ expression = ofParts parts := by
  rw [ofTokens, ofTokensWithin_succ] at read
  rcases map_eq_ok_iff.mp read with ⟨parts, readParts, rfl⟩
  have groups := derivesGroups_of_mapM (readsInner_ofTokensWithin limit limit) readParts .outside
    fun _ => free
  exact ⟨(nesting_ofParts_le_iff parts limit).mpr groups.1, parts, groups.2, rfl⟩

end Expression

end SelectQuery
