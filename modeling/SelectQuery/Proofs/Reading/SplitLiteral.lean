import SelectQuery.Proofs.Reading.Needed

/-!
# Split literals

Where an operand is needed and a word opens a quote, the operand is a literal that was
split at its blanks.  It takes up the tokens to the first one that ends it, whatever
they are, and joins their lexemes with a space between them.  If none ends it, the
tokens end too early for the whole query.
-/

namespace SelectQuery

/-! ## Positions -/

namespace Located

/-- The tokens from an index on are the one there and those from the next index on. -/
theorem tokensFrom_of_getElem? {tokens : List Token} {position : Nat} {token : Token}
    (here : tokens[position]? = some token) :
    tokensFrom position tokens = ⟨token, position⟩ :: tokensFrom (position + 1) tokens := by
  rcases List.getElem?_eq_some_iff.mp here with ⟨inside, rfl⟩
  rw [tokensFrom, List.drop_eq_getElem_cons inside, number_cons, tokensFrom]

/-- The tokens from an index on are those before a later index and those from it on. -/
theorem tokensFrom_eq_append {tokens : List Token} {start position : Nat}
    (later : start ≤ position) (inside : position ≤ tokens.length) :
    tokensFrom start tokens =
      tokensFrom start (tokens.take position) ++ tokensFrom position tokens := by
  have count : (tokens.take position).length = position := List.length_take_of_le inside
  have cut : tokens.drop start = (tokens.take position).drop start ++ tokens.drop position := by
    conv => lhs; rw [← List.take_append_drop position tokens]
    rw [List.drop_append_of_le_length (by rwa [count])]
  have behind : start + ((tokens.take position).drop start).length = position := by
    rw [List.length_drop, count]
    omega
  rw [tokensFrom, cut, number_append, behind, tokensFrom, tokensFrom]

end Located

/-- The items behind a position are those at the later indices. -/
theorem mem_drop_succ_iff {α : Type} {xs : List α} {position : Nat} {x : α} :
    x ∈ xs.drop (position + 1) ↔ ∃ index, position < index ∧ xs[index]? = some x := by
  rw [List.mem_iff_getElem?]
  constructor
  · rintro ⟨offset, found⟩
    rw [List.getElem?_drop] at found
    exact ⟨position + 1 + offset, by omega, found⟩
  · rintro ⟨index, behind, found⟩
    refine ⟨index - (position + 1), ?_⟩
    rwa [List.getElem?_drop, Nat.add_sub_cancel' behind]

/-! ## Reading a split literal -/

/-- The first token behind a position that ends a split literal stands at an index. -/
structure EndsFirstAt (tokens : List Token) (position stop : Nat) : Prop where
  behind : position < stop
  ends : ∃ last, tokens[stop]? = some last ∧ last.EndsLiteral
  first : ∀ index token, position < index → index < stop → tokens[index]? = some token →
    ¬ token.EndsLiteral

/-- A token that ends a split literal ends it first behind tokens that do not. -/
theorem endsFirstAt_of_cut {tokens between others : List Token} {last : Token} {position : Nat}
    (cut : tokens.drop (position + 1) = between ++ last :: others)
    (goesOn : ∀ token ∈ between, ¬ token.EndsLiteral) (ends : last.EndsLiteral) :
    EndsFirstAt tokens position (position + 1 + between.length) where
  behind := by omega
  ends := ⟨last, by rw [← List.getElem?_drop, cut]; simp, ends⟩
  first := by
    intro index token low high found
    apply goesOn
    obtain ⟨offset, rfl⟩ := Nat.exists_eq_add_of_le low
    have inside : offset < between.length := by omega
    rw [Nat.succ_eq_add_one, ← List.getElem?_drop, cut, List.getElem?_append_left inside] at found
    exact List.mem_of_getElem? found

section SplitLiteral

variable {tokens : List Token} {position : Nat} {head : Token}
  (here : tokens[position]? = some head) (role : head.role = .identifier)
  (opening : Text.opensQuote head.text = true)
include here role opening

/-- A word that opens a quote is read with the rest of the literal that it begins. -/
theorem readOperand_of_opensQuote (expected : Expectation) :
    readOperand expected (Located.tokensFrom position tokens) =
      readLiteralRest head.text (Located.tokensFrom (position + 1) tokens) >>=
        fun (later, rest) => .ok (.stringLiteral (Text.withoutFirst head.text ++ later), rest) := by
  rw [Located.tokensFrom_of_getElem? here, readOperand]
  simp only [role, opening, if_true]

/-- A literal that a token ends is read up to that token, and is the lexemes up to there
with a space between them. -/
theorem exists_readOperand_eq_of_cut {between others : List Token} {last : Token}
    (cut : tokens.drop (position + 1) = between ++ last :: others)
    (goesOn : ∀ token ∈ between, ¬ token.EndsLiteral) (ends : last.EndsLiteral) :
    ∃ text,
      Text.quoted text =
        " ".intercalate (((tokens.drop position).take (between.length + 2)).map Token.lexeme) ∧
      ∀ expected, readOperand expected (Located.tokensFrom position tokens) =
        .ok (.stringLiteral text, Located.tokensFrom (position + (between.length + 2)) tokens) := by
  have joined := quoted_literalRest role opening between ends
  have derived := DerivesOperand.split role opening goesOn ends joined
  have count : (head :: (between ++ [last])).length = between.length + 2 := by simp
  have whole : tokens.drop position = head :: (between ++ [last]) ++ others := by
    rcases List.getElem?_eq_some_iff.mp here with ⟨inside, rfl⟩
    rw [List.drop_eq_getElem_cons inside, cut]
    simp
  have behind : tokens.drop (position + (between.length + 2)) = others := by
    rw [← List.drop_drop, whole, ← count, List.drop_left]
  have readAll : ∀ expected, readOperand expected (Located.tokensFrom position tokens) =
      .ok (.stringLiteral (Text.withoutFirst head.text ++ Token.literalRest between last),
        Located.tokensFrom (position + (between.length + 2)) tokens) := by
    intro expected
    rw [Located.tokensFrom, whole, readOperand_of_derivesOperand derived, count,
      Located.tokensFrom, behind]
  rw [whole, ← count, List.take_left, count]
  exact ⟨_, joined, readAll⟩

/-- If a token ends the literal, it is read up to the first that does. -/
theorem exists_readOperand_eq_ok_of_ends
    (ends : ∃ index token, position < index ∧ tokens[index]? = some token ∧ token.EndsLiteral) :
    ∃ stop text, EndsFirstAt tokens position stop ∧
      Text.quoted text =
        " ".intercalate (((tokens.drop position).take (stop + 1 - position)).map Token.lexeme) ∧
      ∀ expected, readOperand expected (Located.tokensFrom position tokens) =
        .ok (.stringLiteral text, Located.tokensFrom (stop + 1) tokens) := by
  cases read : readLiteralRest head.text (Located.tokensFrom (position + 1) tokens) with
  | error error =>
      have noEnd := (readLiteralRest_eq_error_iff.mp read).2
      rw [Located.tokensFrom, Located.map_toToken_number] at noEnd
      rcases ends with ⟨index, token, behind, found, endsHere⟩
      exact absurd endsHere (noEnd token (mem_drop_succ_iff.mpr ⟨index, behind, found⟩))
  | ok result =>
      rcases exists_of_readLiteralRest read with ⟨between, last, split, goesOn, endsHere, _⟩
      rcases Located.exists_of_number_eq_append split with ⟨between, others, cut, rfl, numbered⟩
      rw [Located.map_toToken_number] at goesOn
      cases others with
      | nil => cases numbered
      | cons last others =>
          rw [Located.number_cons, List.cons.injEq] at numbered
          rcases numbered with ⟨rfl, _⟩
          rcases exists_readOperand_eq_of_cut here role opening cut goesOn endsHere with
            ⟨text, joined, readAll⟩
          have stop_eq : position + 1 + between.length + 1 = position + (between.length + 2) := by
            omega
          refine ⟨position + 1 + between.length, text, endsFirstAt_of_cut cut goesOn endsHere, ?_⟩
          rw [stop_eq, Nat.add_sub_cancel_left]
          exact ⟨joined, readAll⟩

/-- If no token ends the literal, its closing quote is missing. -/
theorem readOperand_eq_error_of_noEnd
    (noEnd : ∀ index token, position < index → tokens[index]? = some token →
      ¬ token.EndsLiteral) (expected : Expectation) :
    readOperand expected (Located.tokensFrom position tokens) =
      .error (.endOfInput (.closingQuote head.text)) := by
  have noEndBehind : ∀ token ∈ tokens.drop (position + 1), ¬ token.EndsLiteral := by
    intro token member
    rcases mem_drop_succ_iff.mp member with ⟨index, behind, found⟩
    exact noEnd index token behind found
  have readRest : readLiteralRest head.text (Located.tokensFrom (position + 1) tokens) =
      .error (.endOfInput (.closingQuote head.text)) := by
    rw [readLiteralRest_eq_error_iff, Located.tokensFrom, Located.map_toToken_number]
    exact ⟨rfl, noEndBehind⟩
  rw [readOperand_of_opensQuote here role opening, readRest]
  rfl

end SplitLiteral

/-! ## Queries -/

namespace Query

/-- A query that lacks an operand at a position begins before it. -/
theorem le_of_ofTokens_take {limit start position : Nat} {tokens : List Token}
    {needed : Expectation} (operand : needed.IsOperand)
    (lacks : ofTokens limit (tokens.take position) start = .error (.endOfInput needed)) :
    start ≤ position := by
  by_cases later : start ≤ position
  · exact later
  · have nothing : (tokens.take position).drop start = [] := by
      apply List.drop_eq_nil_of_le
      rw [List.length_take]
      omega
    rw [ofTokens_eq_error_iff, Located.tokensFrom, nothing] at lacks
    cases limit with
    | zero => cases lacks
    | succ limit =>
        cases lacks
        cases operand

/-- A query that lacks an operand at a position of its tokens is read there as the operand
is, and so are the tokens before the position with others behind them. -/
theorem exists_readQuery_eq {limit start position : Nat} {tokens : List Token}
    {needed : Expectation} (operand : needed.IsOperand) (inside : position < tokens.length)
    (lacks : ofTokens limit (tokens.take position) start = .error (.endOfInput needed)) :
    ∃ next : Expression × List Located → Except Error (Query × List Located),
      readQuery limit (Located.tokensFrom start tokens) =
          readOperand needed (Located.tokensFrom position tokens) >>= next ∧
        ∀ others, readQuery limit (Located.tokensFrom start (tokens.take position) ++ others) =
          readOperand needed others >>= next := by
  have later := le_of_ofTokens_take operand lacks
  rw [ofTokens_eq_error_iff, readQuery_eq_endOfInput_iff operand] at lacks
  rcases lacks with ⟨next, reads⟩
  rw [Located.tokensFrom_eq_append later (Nat.le_of_lt inside)]
  exact ⟨next, reads _, reads⟩

/-- A split literal is joined without loss and takes up nothing else.  Where a word opens
a quote, the operand is the tokens up to the first behind it that ends the literal,
whatever they are: their lexemes with a space between them, without the first and the
last quote.  A query that needs an operand there is read as with that literal in the
place of those tokens.  If none ends it, the query is refused because the closing quote
is missing. -/
theorem splitLiteral_joined {tokens : List Token} {position : Nat} {head : Token}
    (here : tokens[position]? = some head) (role : head.role = .identifier)
    (opening : Text.opensQuote head.text = true) :
    ((∃ index token, position < index ∧ tokens[index]? = some token ∧ token.EndsLiteral) →
        ∃ stop text, EndsFirstAt tokens position stop ∧
          Text.quoted text =
            " ".intercalate (((tokens.drop position).take (stop + 1 - position)).map Token.lexeme) ∧
          (∀ expected, readOperand expected (Located.tokensFrom position tokens) =
            .ok (.stringLiteral text, Located.tokensFrom (stop + 1) tokens)) ∧
          ∀ limit start needed, needed.IsOperand →
            ofTokens limit (tokens.take position) start = .error (.endOfInput needed) →
            readQuery limit (Located.tokensFrom start tokens) =
              readQuery limit (Located.tokensFrom start (tokens.take position) ++
                ⟨⟨.stringLiteral, text⟩, position⟩ :: Located.tokensFrom (stop + 1) tokens)) ∧
      ((∀ index token, position < index → tokens[index]? = some token → ¬ token.EndsLiteral) →
        ∀ limit start needed, needed.IsOperand →
          ofTokens limit (tokens.take position) start = .error (.endOfInput needed) →
          ofTokens limit tokens start = .error (.endOfInput (.closingQuote head.text))) := by
  have inside : position < tokens.length := (List.getElem?_eq_some_iff.mp here).1
  constructor
  · intro ends
    rcases exists_readOperand_eq_ok_of_ends here role opening ends with
      ⟨stop, text, first, joined, read⟩
    have asWhole : ∀ limit start needed, needed.IsOperand →
        ofTokens limit (tokens.take position) start = .error (.endOfInput needed) →
        readQuery limit (Located.tokensFrom start tokens) =
          readQuery limit (Located.tokensFrom start (tokens.take position) ++
            ⟨⟨.stringLiteral, text⟩, position⟩ :: Located.tokensFrom (stop + 1) tokens) := by
      intro limit start needed operand lacks
      rcases exists_readQuery_eq operand inside lacks with ⟨next, reads, readsOthers⟩
      rw [reads, readsOthers, read]
      rfl
    exact ⟨stop, text, first, joined, read, asWhole⟩
  · intro noEnd limit start needed operand lacks
    rcases exists_readQuery_eq operand inside lacks with ⟨next, reads, _⟩
    rw [ofTokens_eq_error_iff, reads, readOperand_eq_error_of_noEnd here role opening noEnd]
    rfl

/-- A literal with a whole literal and a keyword in it, before a token that belongs to no
query, and a literal that the tokens end in. -/
theorem splitLiteral_joined_keyword :
    readQuery 1 (Located.tokensFrom 0 [⟨.clause .columns, "SELECT"⟩, ⟨.asterisk, "*"⟩,
        ⟨.clause .source, "FROM"⟩, ⟨.unknown, "t"⟩, ⟨.clause .filter, "WHERE"⟩, ⟨.unknown, "'a"⟩,
        ⟨.stringLiteral, "b'"⟩, ⟨.clause .source, "FROM"⟩, ⟨.unknown, "'"⟩, ⟨.unknown, "="⟩]) =
      readQuery 1 (Located.tokensFrom 0 [⟨.clause .columns, "SELECT"⟩, ⟨.asterisk, "*"⟩,
        ⟨.clause .source, "FROM"⟩, ⟨.unknown, "t"⟩, ⟨.clause .filter, "WHERE"⟩] ++
          [⟨⟨.stringLiteral, "a 'b'' FROM "⟩, 5⟩, ⟨⟨.unknown, "="⟩, 9⟩]) ∧
      ofTokens 1 [⟨.clause .columns, "SELECT"⟩, ⟨.asterisk, "*"⟩, ⟨.clause .source, "FROM"⟩,
          ⟨.unknown, "t"⟩, ⟨.clause .filter, "WHERE"⟩, ⟨.unknown, "'a"⟩, ⟨.stringLiteral, "b'"⟩] 0 =
        .error (.endOfInput (.closingQuote "'a")) := by
  constructor
  · have here : [⟨.clause .columns, "SELECT"⟩, ⟨.asterisk, "*"⟩, ⟨.clause .source, "FROM"⟩,
        ⟨.unknown, "t"⟩, ⟨.clause .filter, "WHERE"⟩, ⟨.unknown, "'a"⟩, ⟨.stringLiteral, "b'"⟩,
        ⟨.clause .source, "FROM"⟩, ⟨.unknown, "'"⟩, (⟨.unknown, "="⟩ : Token)][5]? =
          some ⟨.unknown, "'a"⟩ := rfl
    have ends : (⟨.unknown, "'"⟩ : Token).EndsLiteral := (Token.endsLiteral_iff _).mpr (by decide)
    rcases (splitLiteral_joined here rfl rfl).1 ⟨8, _, by omega, rfl, ends⟩ with
      ⟨stop, text, _, _, read, asWhole⟩
    have computed := (read .operand).symm.trans
      (show _ = .ok (.stringLiteral "a 'b'' FROM ", [⟨⟨.unknown, "="⟩, 9⟩]) from rfl)
    rw [Except.ok.injEq, Prod.mk.injEq, Expression.stringLiteral.injEq] at computed
    have replaced := asWhole 1 0 .operand .left (by with_unfolding_all rfl)
    rwa [computed.1, computed.2] at replaced
  · have here : [⟨.clause .columns, "SELECT"⟩, ⟨.asterisk, "*"⟩, ⟨.clause .source, "FROM"⟩,
        ⟨.unknown, "t"⟩, ⟨.clause .filter, "WHERE"⟩, ⟨.unknown, "'a"⟩,
        (⟨.stringLiteral, "b'"⟩ : Token)][5]? = some ⟨.unknown, "'a"⟩ := rfl
    apply (splitLiteral_joined here rfl rfl).2 _ 1 0 .operand .left (by with_unfolding_all rfl)
    intro index token behind found ends
    have member := mem_drop_succ_iff.mpr ⟨index, behind, found⟩
    rcases List.mem_singleton.mp member with rfl
    exact ends.noLiteral rfl

end Query

end SelectQuery
