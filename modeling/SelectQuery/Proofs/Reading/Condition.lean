import SelectQuery.Proofs.Grammar

/-!
# Reading a condition is exact

An operand, a comparison and a chain of comparisons are read exactly if they are
derived from the tokens that the reader takes up.  A split literal is the only
operand whose length the tokens decide; what it joins is `literalRest`.

The chain is read in a loop that keeps the comparisons behind it, so that both
directions are stated for any list of pending comparisons.
-/

namespace SelectQuery

/-! ## Split literals -/

namespace Token

theorem endsLiteral_iff (token : Token) :
    token.EndsLiteral ↔ token.role ≠ .stringLiteral ∧ Text.closesQuote token.text = true :=
  ⟨fun ends => ⟨ends.noLiteral, ends.closing⟩, fun ends => ⟨ends.1, ends.2⟩⟩

/-- The text of a split literal after its first token: a space before each token,
and the last token without the quote that closes it. -/
def literalRest : List Token → Token → String
  | [], last => " " ++ Text.withoutLast last.text
  | token :: between, last => " " ++ token.lexeme ++ literalRest between last

/-- With the closing quote the rest of a split literal is its lexemes, a space
before each. -/
theorem toList_literalRest (between : List Token) {last : Token} (ends : last.EndsLiteral) :
    (literalRest between last).toList ++ [Text.quote] =
      (between ++ [last]).flatMap fun token => ' ' :: token.lexeme.toList := by
  induction between with
  | nil =>
      have closing : last.text.toList.getLast? = some Text.quote := by
        simpa [Text.closesQuote] using ends.closing
      rcases List.getLast?_eq_some_iff.mp closing with ⟨kept, text⟩
      simp [literalRest, Text.withoutLast, lexeme, ends.noLiteral, text]
  | cons token between inductionHypothesis =>
      simp [literalRest, ← inductionHypothesis]

end Token

/-- A separator between the items of a list stands before all but the first. -/
theorem intercalate_cons_eq {α : Type} (separator first : List α) (others : List (List α)) :
    separator.intercalate (first :: others) =
      first ++ others.flatMap fun item => separator ++ item := by
  induction others generalizing first with
  | nil => simp
  | cons second others inductionHypothesis =>
      rw [List.intercalate_cons_cons, inductionHypothesis, List.flatMap_cons, List.append_assoc,
        List.append_assoc]

/-- Put between quotes, the text of a split literal is its lexemes with a space
between them. -/
theorem quoted_literalRest {head last : Token} (role : head.role = .identifier)
    (opening : Text.opensQuote head.text = true) (between : List Token)
    (ends : last.EndsLiteral) :
    Text.quoted (Text.withoutFirst head.text ++ Token.literalRest between last) =
      " ".intercalate ((head :: (between ++ [last])).map Token.lexeme) := by
  have first : head.text.toList = Text.quote :: head.text.toList.tail := by
    have startsWithQuote : head.text.toList.head? = some Text.quote := by
      simpa [Text.opensQuote] using opening
    rcases List.head?_eq_some_iff.mp startsWithQuote with ⟨others, text⟩
    rw [text, List.tail_cons]
  have noLiteral : head.role ≠ .stringLiteral := by simp [role]
  rw [← String.toList_inj, Text.toList_quoted, String.toList_append, List.append_assoc,
    Token.toList_literalRest between ends, String.toList_intercalate, List.map_cons, List.map_cons,
    intercalate_cons_eq, Token.lexeme, if_neg noLiteral, first]
  simp [Text.withoutFirst, List.flatMap_map]

/-- The reader takes up the tokens up to the first that ends the literal. -/
theorem exists_of_readLiteralRest {opening later : String} {tokens rest : List Located}
    (read : readLiteralRest opening tokens = .ok (later, rest)) :
    ∃ between last, tokens = between ++ last :: rest ∧
      (∀ token ∈ between.map Located.toToken, ¬ token.EndsLiteral) ∧
      last.EndsLiteral ∧
      later = Token.literalRest (between.map Located.toToken) last.toToken := by
  induction tokens generalizing later with
  | nil => cases read
  | cons token tokens inductionHypothesis =>
      rw [readLiteralRest] at read
      split at read
      · rename_i ends
        cases read
        exact ⟨[], token, rfl, by simp, (Token.endsLiteral_iff _).mpr ends, rfl⟩
      · rename_i goesOn
        rcases bind_eq_ok_iff.mp read with ⟨⟨others, afterOthers⟩, readOthers, equal⟩
        cases equal
        rcases inductionHypothesis readOthers with ⟨between, last, rfl, noEnds, ends, rfl⟩
        rw [← Token.endsLiteral_iff] at goesOn
        exact ⟨token :: between, last, rfl, List.forall_mem_cons.mpr ⟨goesOn, noEnds⟩, ends, rfl⟩

theorem readLiteralRest_eq (opening : String) {between : List Token}
    (goesOn : ∀ token ∈ between, ¬ token.EndsLiteral) {last : Token} (ends : last.EndsLiteral)
    (position : Nat) (rest : List Token) :
    readLiteralRest opening (Located.number position (between ++ last :: rest)) =
      .ok (Token.literalRest between last,
        Located.number (position + between.length + 1) rest) := by
  induction between generalizing position with
  | nil =>
      rw [List.nil_append, Located.number_cons, readLiteralRest,
        if_pos ((Token.endsLiteral_iff last).mp ends)]
      rfl
  | cons token between inductionHypothesis =>
      rw [List.forall_mem_cons, Token.endsLiteral_iff] at goesOn
      rw [List.cons_append, Located.number_cons, readLiteralRest, if_neg goesOn.1,
        inductionHypothesis goesOn.2, List.length_cons, ← Nat.add_assoc,
        Nat.add_right_comm position 1]
      rfl

/-- A split literal is not read exactly if no token ends it. -/
theorem readLiteralRest_eq_error_iff {opening : String} {tokens : List Located} {error : Error} :
    readLiteralRest opening tokens = .error error ↔
      error = .endOfInput (.closingQuote opening) ∧
        ∀ token ∈ tokens.map Located.toToken, ¬ token.EndsLiteral := by
  induction tokens with
  | nil => simp [readLiteralRest, eq_comm]
  | cons token tokens inductionHypothesis =>
      rw [readLiteralRest, List.map_cons, List.forall_mem_cons, Token.endsLiteral_iff]
      by_cases ends : token.role ≠ .stringLiteral ∧ Text.closesQuote token.text = true
      · simp [ends]
      · rw [if_neg ends, bind_eq_error_iff, inductionHypothesis]
        simp [ends]

/-! ## Operands -/

/-- An operand that is read is derived from the tokens it takes up. -/
theorem derivesOperand_of_readOperand {expected : Expectation} {tokens rest : List Located}
    {operand : Expression} (read : readOperand expected tokens = .ok (operand, rest)) :
    ∃ used, tokens = used ++ rest ∧ DerivesOperand (used.map Located.toToken) operand := by
  cases tokens with
  | nil => cases read
  | cons token tokens =>
      rw [readOperand] at read
      split at read
      · rename_i role
        split at read
        · rename_i opening
          rcases bind_eq_ok_iff.mp read with ⟨⟨later, afterLater⟩, readLater, equal⟩
          cases equal
          rcases exists_of_readLiteralRest readLater with ⟨between, last, rfl, goesOn, ends, rfl⟩
          have split := DerivesOperand.split role opening goesOn ends
            (quoted_literalRest role opening _ ends)
          rw [← List.map_singleton, ← List.map_append, ← List.map_cons] at split
          exact ⟨token :: (between ++ [last]), by simp, split⟩
        · rename_i noOpening
          cases read
          exact ⟨[token], rfl, .word role (Bool.eq_false_iff.mpr noOpening)⟩
      · rename_i role
        cases read
        exact ⟨[token], rfl, .literal role⟩
      · rename_i role
        rcases bind_eq_ok_iff.mp read with ⟨call, readCall, equal⟩
        cases equal
        exact ⟨[token], rfl, .call role readCall⟩
      · cases read

/-- A derived operand is read, whatever follows it. -/
theorem readOperand_of_derivesOperand {used : List Token} {operand : Expression}
    (derived : DerivesOperand used operand) (expected : Expectation) (position : Nat)
    (rest : List Token) :
    readOperand expected (Located.number position (used ++ rest)) =
      .ok (operand, Located.number (position + used.length) rest) := by
  cases derived with
  | word role noOpening => simp [readOperand, role, noOpening]
  | literal role => simp [readOperand, role]
  | call role read => simp [readOperand, role, read, bind, Except.bind]
  | @split head between last text role opening goesOn ends joined =>
      have text_eq : Text.withoutFirst head.text ++ Token.literalRest between last = text := by
        rw [← Text.quoted_inj, quoted_literalRest role opening between ends, joined]
      have readRest := readLiteralRest_eq head.text goesOn ends (position + 1) rest
      simp [readOperand, role, opening, readRest, bind, Except.bind, text_eq, Nat.add_comm,
        Nat.add_left_comm]

/-! ## Comparisons -/

/-- A comparator that is read is the role of the token it takes up. -/
theorem exists_of_readComparator {tokens rest : List Located} {comparator : Comparator}
    (read : readComparator tokens = .ok (comparator, rest)) :
    ∃ token, tokens = token :: rest ∧ token.role = .comparator comparator := by
  cases tokens with
  | nil => cases read
  | cons token tokens =>
      rw [readComparator] at read
      split at read
      · rename_i role
        cases read
        exact ⟨token, rfl, role⟩
      · cases read

/-- A comparison that is read is derived from the tokens it takes up. -/
theorem derivesComparison_of_readComparison {tokens rest : List Located} {condition : Condition}
    (read : readComparison tokens = .ok (condition, rest)) :
    ∃ used, tokens = used ++ rest ∧ DerivesComparison (used.map Located.toToken) condition := by
  rcases bind_eq_ok_iff.mp read with ⟨⟨left, afterLeft⟩, readLeft, later⟩
  rcases bind_eq_ok_iff.mp later with ⟨⟨comparator, afterComparator⟩, readMiddle, later⟩
  rcases bind_eq_ok_iff.mp later with ⟨⟨right, afterRight⟩, readRight, equal⟩
  cases equal
  rcases derivesOperand_of_readOperand readLeft with ⟨lefts, rfl, first⟩
  rcases exists_of_readComparator readMiddle with ⟨token, rfl, role⟩
  rcases derivesOperand_of_readOperand readRight with ⟨rights, rfl, second⟩
  have derived := DerivesComparison.comparison first role second
  rw [← List.map_cons, ← List.map_append] at derived
  exact ⟨lefts ++ token :: rights, by simp, derived⟩

/-- A derived comparison is read, whatever follows it. -/
theorem readComparison_of_derivesComparison {used : List Token} {condition : Condition}
    (derived : DerivesComparison used condition) (position : Nat) (rest : List Token) :
    readComparison (Located.number position (used ++ rest)) =
      .ok (condition, Located.number (position + used.length) rest) := by
  cases derived with
  | @comparison lefts token rights comparator left right first role second =>
      have readLeft := readOperand_of_derivesOperand first .operand position
        (token :: (rights ++ rest))
      have readRight := readOperand_of_derivesOperand second (.operandAfter comparator)
        (position + lefts.length + 1) rest
      rw [List.append_assoc, List.cons_append, readComparison, readLeft]
      simp only [bind, Except.bind, Located.number_cons, readComparator, role, readRight]
      simp [Nat.add_assoc, Nat.add_comm, Nat.add_left_comm]

/-! ## Chains of comparisons -/

/-- A list that begins with a connective begins with a token of that role. -/
theorem connective?_eq_some_iff {tokens rest : List Located} {connective : Connective} :
    connective? tokens = some (connective, rest) ↔
      ∃ token, tokens = token :: rest ∧ token.role = .connective connective := by
  cases tokens with
  | nil => simp [connective?]
  | cons token tokens =>
      rw [connective?]
      constructor
      · intro found
        split at found
        · rename_i role
          cases found
          exact ⟨token, rfl, role⟩
        · cases found
      · rintro ⟨first, equal, role⟩
        cases equal
        rw [role]

/-- A chain that is read behind pending comparisons is derived from the tokens it
takes up. -/
theorem derivesCondition_of_readConditionBehind {pending : List (Condition × Connective)}
    {tokens rest : List Located} {condition : Condition}
    (read : readConditionBehind pending tokens = .ok (condition, rest)) :
    ∃ used chain, tokens = used ++ rest ∧ condition = chain.behind pending ∧
      DerivesCondition (used.map Located.toToken) chain := by
  fun_induction readConditionBehind pending tokens with
  | case1 => cases read
  | case2 pending tokens comparison rest' readFirst stops =>
      cases read
      rcases derivesComparison_of_readComparison readFirst with ⟨used, equal, derived⟩
      exact ⟨used, comparison, equal, rfl, .single derived⟩
  | case3 pending tokens comparison rest' readFirst connective afterConnective goesOn
      inductionHypothesis =>
      rcases derivesComparison_of_readComparison readFirst with ⟨lefts, rfl, first⟩
      rcases connective?_eq_some_iff.mp goesOn with ⟨token, rfl, role⟩
      rcases inductionHypothesis read with ⟨rights, chain, rfl, rfl, later⟩
      have derived := DerivesCondition.logical first role later
      rw [← List.map_cons, ← List.map_append] at derived
      exact ⟨lefts ++ token :: rights, .logical connective comparison chain, by simp, rfl, derived⟩

/-- A list does not begin with a connective. -/
def NoConnective (tokens : List Token) : Prop :=
  ∀ token ∈ tokens.head?, ∀ connective, token.role ≠ .connective connective

theorem NoConnective.connective?_eq_none {tokens : List Token} (stops : NoConnective tokens)
    (position : Nat) : connective? (Located.number position tokens) = none := by
  rw [Option.eq_none_iff_forall_ne_some]
  rintro ⟨connective, rest⟩ found
  rcases connective?_eq_some_iff.mp found with ⟨first, equal, role⟩
  cases tokens with
  | nil => cases equal
  | cons token tokens =>
      rw [Located.number_cons, List.cons.injEq] at equal
      rw [← equal.1] at role
      exact stops token rfl connective role

/-- A derived chain is read behind pending comparisons, if no connective follows. -/
theorem readConditionBehind_of_derivesCondition {used : List Token} {condition : Condition}
    (derived : DerivesCondition used condition) (pending : List (Condition × Connective))
    (position : Nat) {rest : List Token} (stops : NoConnective rest) :
    readConditionBehind pending (Located.number position (used ++ rest)) =
      .ok (condition.behind pending, Located.number (position + used.length) rest) := by
  induction derived generalizing pending position with
  | single only =>
      rw [readConditionBehind_eq, readComparison_of_derivesComparison only]
      simp [bind, Except.bind, stops.connective?_eq_none]
  | @logical lefts token rights connective left right first role later inductionHypothesis =>
      have readFirst := readComparison_of_derivesComparison first position
        (token :: (rights ++ rest))
      have goesOn : connective? (Located.number (position + lefts.length)
          (token :: (rights ++ rest))) =
          some (connective, Located.number (position + lefts.length + 1) (rights ++ rest)) :=
        connective?_eq_some_iff.mpr ⟨_, rfl, role⟩
      have readLater := inductionHypothesis ((left, connective) :: pending)
        (position + lefts.length + 1)
      rw [List.append_assoc, List.cons_append, readConditionBehind_eq, readFirst]
      simp only [bind, Except.bind, goesOn, readLater, Condition.behind_cons]
      simp [Nat.add_assoc, Nat.add_comm, Nat.add_left_comm]

/-- The loop is the recursion with the pending comparisons put before what it gives, and
fails as the recursion does. -/
theorem readConditionBehind_eq_map (pending : List (Condition × Connective))
    (tokens : List Located) :
    readConditionBehind pending tokens =
      (readNestedCondition tokens).map fun (condition, rest) =>
        (condition.behind pending, rest) := by
  -- The pending comparisons grow along the run, so the induction is for all of them.
  fun_induction readConditionBehind pending tokens with
  | case1 pending tokens error failed =>
      rw [readNestedCondition_eq, failed]
      rfl
  | case2 pending tokens comparison rest readFirst stops =>
      rw [readNestedCondition_eq, readFirst]
      simp [bind, Except.bind, stops, Except.map]
  | case3 pending tokens comparison rest readFirst connective afterConnective goesOn
      inductionHypothesis =>
      rw [inductionHypothesis, readNestedCondition_eq tokens, readFirst]
      simp only [bind, Except.bind, goesOn]
      cases readNestedCondition afterConnective with
      | error error => rfl
      | ok right => simp only [Except.map, Condition.behind_cons]

/-- The loop over comparisons with connectives between them reads what the recursion
reads: the same condition with the same tokens behind it, or the same error. -/
theorem readCondition_eq_readNestedCondition (tokens : List Located) :
    readCondition tokens = readNestedCondition tokens := by
  rw [readCondition, readConditionBehind_eq_map]
  cases readNestedCondition tokens <;> rfl

/-! ## The filter -/

/-- A filter that is read is derived from the tokens it takes up. -/
theorem derivesFilter_of_readFilter {tokens rest : List Located} {filter : Option Condition}
    (read : readFilter tokens = .ok (filter, rest)) :
    ∃ used, tokens = used ++ rest ∧ DerivesFilter (used.map Located.toToken) filter := by
  cases tokens with
  | nil =>
      cases read
      exact ⟨[], rfl, .absent⟩
  | cons token tokens =>
      rw [readFilter] at read
      split at read
      · rename_i role
        rcases bind_eq_ok_iff.mp read with ⟨⟨condition, afterCondition⟩, readChain, equal⟩
        cases equal
        rcases derivesCondition_of_readConditionBehind readChain with
          ⟨used, chain, rfl, rfl, derived⟩
        exact ⟨token :: used, rfl, .present role derived⟩
      · cases read
        exact ⟨[], rfl, .absent⟩

/-- A derived filter is read, if neither `WHERE` nor a connective follows. -/
theorem readFilter_of_derivesFilter {used : List Token} {filter : Option Condition}
    (derived : DerivesFilter used filter) (position : Nat) {rest : List Token}
    (noKeyword : ∀ token ∈ rest.head?, token.role ≠ .clause .filter)
    (stops : NoConnective rest) :
    readFilter (Located.number position (used ++ rest)) =
      .ok (filter, Located.number (position + used.length) rest) := by
  cases derived with
  | absent =>
      cases rest with
      | nil => rfl
      | cons token rest => simp [readFilter, noKeyword token rfl]
  | @present keyword tokens condition role chain =>
      have readChain := readConditionBehind_of_derivesCondition chain [] (position + 1) stops
      simp [readFilter, role, readCondition, readChain, bind, Except.bind, Nat.add_comm,
        Nat.add_left_comm]

end SelectQuery
