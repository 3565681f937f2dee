import SelectQuery.Proofs.Checked.Scan
import SelectQuery.Proofs.Reading.Call
import SelectQuery.Proofs.Reading.Expression
import SelectQuery.Reader.Column

/-!
# Checked reading of expressions

A call and the tokens of a column are read by offset here: their parts are found by the scans and
cut out between the offsets found.  What keeps the cuts defined is the place of the scan.  It
begins at an opening parenthesis, so its counter is never zero where a parenthesis closes; the
text or the group has that parenthesis in it, so it has a last place; and the partner is found
behind the opening parenthesis and within the text.
-/

namespace SelectQuery

open Checked (op total Gives)

/-! ## Calls -/

/-- The offset of the first parenthesis that opens, by the offset of the text. -/
def findOpening? : Nat → List Char → Option Nat
  | _, [] => none
  | offset, c :: cs => if c = '(' then some offset else findOpening? (offset + c.utf8Size) cs

theorem findOpening?_eq_none {cs : List Char} (absent : '(' ∉ cs) (offset : Nat) :
    findOpening? offset cs = none := by
  induction cs generalizing offset with
  | nil => rfl
  | cons c cs inductionHypothesis =>
      rw [List.mem_cons, not_or] at absent
      rw [findOpening?, if_neg (Ne.symm absent.1), inductionHypothesis absent.2]

/-- The parenthesis stands behind the name. -/
theorem findOpening?_append {name : List Char} (named : '(' ∉ name) (rest : List Char)
    (offset : Nat) :
    findOpening? offset (name ++ '(' :: rest) =
      some (offset + Nesting.span Char.utf8Size name) := by
  induction name generalizing offset with
  | nil => rfl
  | cons c name inductionHypothesis =>
      rw [List.mem_cons, not_or] at named
      rw [List.cons_append, findOpening?, if_neg (Ne.symm named.1),
        inductionHypothesis named.2, Nesting.span_cons, Nat.add_assoc]

/-- The arguments in a text, cut out of it by offset. -/
def callArguments? (inner : String) : Option (List String) :=
  if inner.toList.all Text.isBlank then some []
  else do
    let pieces ← Nesting.cutPieces? callMark Char.utf8Size (Text.cut? inner) .outer 0 0 inner.toList
    some (pieces.map fun piece => String.ofList (Text.trim piece.toList))

/-- Commas are single bytes, so every argument is cut between characters. -/
theorem callArguments?_eq (inner : List Char) :
    callArguments? (String.ofList inner) = some (callArguments inner) := by
  have single (c : Char) (separates : callMark c = .separates) : c.utf8Size = 1 := by
    rw [(callMark_eq_separates_iff c).mp separates]
    rfl
  rw [callArguments?, callArguments, String.toList_ofList,
    Nesting.cutPieces?_whole (Nesting.cuts_cut? inner) single]
  split
  · rfl
  · simp

namespace Expression

/-- Read the text of a function call by the offsets of its parentheses. -/
def ofCall? (text : String) : Checked Expression :=
  match findOpening? 0 text.toList with
  | none => total (.error (.unsupportedColumn (.unknownShape text)))
  | some opening => do
      let tail ← op (Text.cut? text opening text.utf8ByteSize)
      match ← op (Nesting.closing? callMark Char.utf8Size .outer opening tail.toList) with
      | none => total (.error (.unmatchedParenthesis text))
      | some closing =>
          let last ← op text.utf8ByteSize.ppred
          if closing ≠ last then total (.error (.unsupportedColumn (.afterArguments text)))
          else do
            let name ← op (Text.cut? text 0 opening)
            let inner ← op (Text.cut? text (opening + 1) closing)
            let arguments ← op (callArguments? inner)
            total (.ok (.functionCall name arguments))

/-- The bytes of a text with a pair of parentheses in it. -/
theorem utf8ByteSize_call (name inner after : List Char) :
    (String.ofList (name ++ '(' :: (inner ++ ')' :: after))).utf8ByteSize =
      Nesting.span Char.utf8Size name + 1 + Nesting.span Char.utf8Size inner +
        Nesting.span Char.utf8Size after + 1 := by
  have oneByte : '('.utf8Size = 1 ∧ ')'.utf8Size = 1 := ⟨rfl, rfl⟩
  rw [← Nesting.span_utf8Size]
  simp only [Nesting.span_append, Nesting.span_cons, oneByte]
  omega

/-- Parentheses are single bytes, so the name and the arguments of a call are cut between
characters. -/
theorem cut?_call (name inner : List Char) :
    Text.cut? (String.ofList (name ++ '(' :: (inner ++ [')']))) 0
        (Nesting.span Char.utf8Size name) = some (String.ofList name) ∧
      Text.cut? (String.ofList (name ++ '(' :: (inner ++ [')'])))
        (Nesting.span Char.utf8Size name + 1)
        (Nesting.span Char.utf8Size name + 1 + Nesting.span Char.utf8Size inner) =
          some (String.ofList inner) := by
  have cuts := Nesting.cuts_cut? (name ++ '(' :: (inner ++ [')']))
  have beforeInner : Nesting.span Char.utf8Size (name ++ ['(']) =
      Nesting.span Char.utf8Size name + 1 :=
    Nesting.span_append _ _ _
  have innerCut := cuts (name ++ ['(']) inner [')'] (by simp)
  rw [Nesting.span_append _ (name ++ ['(']), beforeInner] at innerCut
  exact ⟨cuts [] name ('(' :: (inner ++ [')'])) rfl, innerCut⟩

/-- Every text is read, whatever its characters are. -/
theorem gives_ofCall (text : String) : Gives (ofCall? text) (ofCall text) := by
  by_cases opens : '(' ∈ text.toList
  · rcases List.eq_append_cons_of_mem opens with ⟨name, rest, written, named⟩
    obtain rfl : text = String.ofList (name ++ '(' :: rest) := by
      rw [← written, String.ofList_toList]
    have tail := Nesting.cuts_cut? (name ++ '(' :: rest) name ('(' :: rest) []
      (by rw [List.append_nil])
    rw [Nesting.span_utf8Size (name ++ '(' :: rest)] at tail
    rw [ofCall_eq_of_opening written named, ofCall?, written, findOpening?_append named,
      Nat.zero_add]
    apply Gives.op_bind tail
    -- The scan begins at the parenthesis, so a level is open wherever it goes on.
    rw [String.toList_ofList, Nesting.closing?_of_opens (show callMark '(' = .opens from rfl)]
    rcases partner : Nesting.enclosed? callMark .inside rest with _ | ⟨inner, after⟩
    · exact .op_bind rfl (.total _)
    · rcases Nesting.eq_append_of_enclosed? partner with ⟨closing, closes, rfl⟩
      obtain rfl := (callMark_eq_closes_iff closing).mp closes
      rw [Option.map_some, show '('.utf8Size = 1 from rfl, utf8ByteSize_call]
      apply Gives.op_bind rfl
      apply Gives.op_bind Nat.ppred_succ
      -- The partner is the last character exactly if nothing stands behind it.
      cases after with
      | nil =>
          rw [if_neg (by simp)]
          apply Gives.op_bind (cut?_call name inner).1
          apply Gives.op_bind (cut?_call name inner).2
          apply Gives.op_bind (callArguments?_eq inner)
          exact .total _
      | cons next later =>
          have positive := next.utf8Size_pos
          have notLast : Nesting.span Char.utf8Size name + 1 + Nesting.span Char.utf8Size inner ≠
              Nesting.span Char.utf8Size name + 1 + Nesting.span Char.utf8Size inner +
                Nesting.span Char.utf8Size (next :: later) := by
            rw [Nesting.span_cons]
            omega
          rw [if_pos notLast]
          exact .total _
  · rw [ofCall_eq_of_notMem opens, ofCall?, findOpening?_eq_none opens]
    exact .total _

/-! ## Tokens -/

/-- Read a single token.  Only the text of a call is cut. -/
def ofToken? (token : Token) : Checked Expression :=
  match token.role with
  | .functionCall => ofCall? token.text
  | _ => total (ofToken token)

theorem gives_ofToken (token : Token) : Gives (ofToken? token) (ofToken token) := by
  unfold ofToken?
  split
  · rename_i role
    rw [ofToken, role]
    exact gives_ofCall token.text
  · exact .total _

/-- Read the tokens between two `||` by the indices of their parentheses, given how to read what
stands in a pair of them. -/
def ofPiece? (ofInner : List Token → Checked Expression) : List Token → Checked Expression
  | [] => total (.error (.unsupportedColumn .noOperand))
  | [token] => ofToken? token
  | first :: others =>
      if first.role = .leftParen then do
        match ← op (Nesting.closing? Token.mark (fun _ => 1) .outer 0 (first :: others)) with
        | none => total (.error (.unmatchedParenthesis (Token.joinedText (first :: others))))
        | some closing =>
            let last ← op (first :: others).length.ppred
            if closing ≠ last then
              total (.error
                (.unsupportedColumn (.afterParenthesis (Token.joinedText (first :: others)))))
            else do
              let inner ← op (slice? (first :: others) 1 closing)
              if inner.isEmpty then total (.error (.unsupportedColumn .emptyParentheses))
              else do
                let expression ← ofInner inner
                total (.ok (.parenthesized expression))
      else if (first :: others).any fun token => token.role = .rightParen then
        total (.error (.unmatchedParenthesis (Token.joinedText (first :: others))))
      else
        total (.error (.unsupportedColumn (.unknownShape (Token.joinedText (first :: others)))))

theorem gives_ofPiece {ofInner? : List Token → Checked Expression}
    {ofInner : List Token → Except Error Expression}
    (inner : ∀ tokens, Gives (ofInner? tokens) (ofInner tokens)) (piece : List Token) :
    Gives (ofPiece? ofInner? piece) (ofPiece ofInner piece) := by
  match piece with
  | [] => exact .total _
  | [token] => exact gives_ofToken token
  | first :: second :: others =>
      unfold ofPiece? ofPiece
      dsimp only
      by_cases opens : first.role = .leftParen
      · rw [if_pos opens, if_pos opens,
          Nesting.closing?_of_opens ((Token.mark_eq_opens_iff first).mpr opens)]
        rcases partner : Nesting.enclosed? Token.mark .inside (second :: others) with
          _ | ⟨between, after⟩
        · exact .op_bind rfl (.total _)
        · rcases Nesting.eq_append_of_enclosed? partner with ⟨closing, _, equal⟩
          rw [Option.map_some, Nesting.span_one, Nat.zero_add, equal]
          apply Gives.op_bind rfl
          apply Gives.op_bind Nat.ppred_succ
          cases after with
          | nil =>
              have cut := slice?_append [first] between [closing]
              rw [List.length_append, List.length_singleton] at cut
              rw [if_neg (by simp [Nat.add_comm])]
              apply Gives.op_bind cut
              cases between with
              | nil => exact .total _
              | cons next later => exact (inner (next :: later)).map parenthesized
          | cons next later =>
              have behind : 1 + between.length ≠ (between ++ closing :: next :: later).length := by
                simp only [List.length_append, List.length_cons]
                omega
              rw [if_pos behind]
              exact .total _
      · rw [if_neg opens, if_neg opens]
        split
        · exact .total _
        · exact .total _

/-- Read the tokens of an expression at a depth of nesting, cut at their `||` by index. -/
def ofTokensAt? (limit nesting : Nat) (tokens : List Token) : Checked Expression :=
  if limit < nesting then total (.error (.nestingTooDeep limit))
  else do
    match ← op (Nesting.cutPieces? Token.mark (fun _ => 1) (slice? tokens) .outer 0 0 tokens) with
    | [only] => ofPiece? (ofTokensAt? limit (nesting + 1)) only
    | pieces => do
        let parts ← pieces.mapM (ofPiece? (ofTokensAt? limit (nesting + 1)))
        total (.ok (.concatenation parts))
termination_by limit + 1 - nesting

theorem gives_ofTokensAt {limit nesting levels : Nat} (left : limit + 1 - nesting = levels)
    (tokens : List Token) :
    Gives (ofTokensAt? limit nesting tokens) (ofTokensWithin limit levels tokens) := by
  induction levels generalizing nesting tokens with
  | zero =>
      rw [ofTokensAt?, if_pos (by omega)]
      exact .total _
  | succ levels inductionHypothesis =>
      have deeper (inner : List Token) : Gives (ofTokensAt? limit (nesting + 1) inner)
          (ofTokensWithin limit levels inner) :=
        inductionHypothesis (by omega) inner
      rw [ofTokensAt?, if_neg (by omega), ofTokensWithin]
      apply Gives.op_bind (Nesting.cutPieces?_whole (Nesting.cuts_slice? tokens) fun _ _ => rfl)
      rcases Nesting.pieces Token.mark .outer tokens with ⟨first, _ | ⟨second, later⟩⟩
      · exact gives_ofPiece deeper first
      · rw [List.map_id_fun]
        exact (Gives.mapM (gives_ofPiece deeper) (first :: second :: later)).map concatenation

end Expression

end SelectQuery
