import SelectQuery.Proofs.Reading.Query

/-!
# Readers look one token ahead

What a reader gives depends on the tokens that it takes up and on the next one, and
on nothing behind that.  With the same tokens and the same one ahead, or with none
ahead, it takes up the same tokens for the same value.

`Local` says so of a reader.  It is kept by sequencing: what the first of two
readers leaves is what the second takes up and leaves, so that the token ahead of
the first is among those.  A query is therefore read from a window of its list,
which no list with the same window and the same next token changes, and no longer
part of the list is a query from the same start.
-/

namespace SelectQuery

/-! ## One token ahead -/

/-- What may stand behind a window of tokens in place of what did: nothing, or a
list that begins with the same token. -/
def SameAhead (rest others : List Located) : Prop :=
  others = [] ∨ others.head? = rest.head?

namespace SameAhead

variable {rest others : List Located}

/-- With further tokens in front, the token ahead is one of them or the same. -/
theorem append (ahead : SameAhead rest others) (used : List Located) :
    SameAhead (used ++ rest) (used ++ others) := by
  cases used with
  | nil => exact ahead
  | cons => exact .inr rfl

theorem eq_nil (ahead : SameAhead [] others) : others = [] := by
  rcases ahead with none | same
  · exact none
  · exact List.head?_eq_none_iff.mp same

theorem eq_nil_or_exists_cons {token : Located} (ahead : SameAhead (token :: rest) others) :
    others = [] ∨ ∃ later, others = token :: later := by
  rcases ahead with none | same
  · exact .inl none
  · exact .inr (List.head?_eq_some_iff.mp same)

end SameAhead

/-! ## Local readers -/

/-- A reader that depends on the tokens it takes up and on the next one only. -/
def Local {α : Type} (read : List Located → Except Error (α × List Located)) : Prop :=
  ∀ tokens value rest, read tokens = .ok (value, rest) →
    ∃ used, tokens = used ++ rest ∧
      ∀ others, SameAhead rest others → read (used ++ others) = .ok (value, others)

namespace Local

variable {α β : Type}

/-- Taking up nothing is local. -/
theorem pure (value : α) : Local fun tokens => .ok (value, tokens) := by
  rintro tokens value rest ⟨⟩
  exact ⟨[], rfl, fun others _ => rfl⟩

/-- Two local readers in sequence are local. -/
theorem bind {first : List Located → Except Error (α × List Located)}
    {next : α → List Located → Except Error (β × List Located)} (local₁ : Local first)
    (local₂ : ∀ value, Local (next value)) :
    Local fun tokens => first tokens >>= fun (value, rest) => next value rest := by
  intro tokens result rest read
  obtain ⟨⟨value, middle⟩, readFirst, readNext⟩ := bind_eq_ok_iff.mp read
  obtain ⟨used, rfl, again⟩ := local₁ _ _ _ readFirst
  obtain ⟨later, rfl, againLater⟩ := local₂ value _ _ _ readNext
  refine ⟨used ++ later, (List.append_assoc _ _ _).symm, fun others ahead => ?_⟩
  rw [List.append_assoc, bind_eq_ok_iff]
  exact ⟨⟨value, later ++ others⟩, again _ (ahead.append later), againLater others ahead⟩

end Local

/-! ## Names and aliases -/

theorem local_readName (expected : Expectation) : Local (readName expected) := by
  intro tokens name rest read
  obtain ⟨token, rfl, named, rfl⟩ := exists_of_readName read
  exact ⟨[token], rfl, fun others _ => readName_cons expected named token.position others⟩

theorem local_readAlias : Local readAlias := by
  intro tokens alias? rest read
  cases tokens with
  | nil =>
      cases read
      refine ⟨[], rfl, fun others ahead => ?_⟩
      rw [ahead.eq_nil]
      rfl
  | cons token tokens =>
      rw [readAlias] at read
      split at read
      · rename_i announces
        have announced := (local_readName .aliasName).bind fun name => Local.pure (some name)
        obtain ⟨used, rfl, again⟩ := announced _ _ _ read
        refine ⟨token :: used, rfl, fun others ahead => ?_⟩
        rw [List.cons_append, readAlias, if_pos announces]
        exact again others ahead
      · rename_i announcesNone
        split at read
        · rename_i named
          cases read
          refine ⟨[token], rfl, fun others _ => ?_⟩
          rw [List.singleton_append, readAlias, if_neg announcesNone, if_pos named]
        · rename_i noName
          cases read
          refine ⟨[], rfl, fun others ahead => ?_⟩
          rcases ahead.eq_nil_or_exists_cons with rfl | ⟨later, rfl⟩
          · rfl
          · rw [List.nil_append, readAlias, if_neg announcesNone, if_neg noName]

theorem local_readSource : Local readSource :=
  (local_readName .sourceName).bind fun _ => local_readAlias.bind fun _ => .pure _

/-! ## Columns -/

/-- A column list ends with `FROM`, whatever follows. -/
theorem local_readColumns (limit : Nat) (draft : Column.Draft) :
    Local (readColumns limit draft) := by
  intro tokens columns rest read
  induction tokens generalizing draft columns with
  | nil => cases read
  | cons token tokens inductionHypothesis =>
      rw [readColumns] at read
      split at read
      · cases read
      · rename_i next step
        obtain ⟨used, rfl, again⟩ := inductionHypothesis next columns read
        refine ⟨token :: used, rfl, fun others ahead => ?_⟩
        rw [List.cons_append, readColumns, step]
        exact again others ahead
      · rename_i step
        obtain ⟨column, readColumn, later⟩ := bind_eq_ok_iff.mp read
        obtain ⟨⟨columns, afterColumns⟩, readLater, equal⟩ := bind_eq_ok_iff.mp later
        cases equal
        obtain ⟨used, rfl, again⟩ := inductionHypothesis .start columns readLater
        refine ⟨token :: used, rfl, fun others ahead => ?_⟩
        rw [List.cons_append, readColumns, step]
        simp only [readColumn, again others ahead]
        rfl
      · rename_i step
        obtain ⟨column, readColumn, equal⟩ := bind_eq_ok_iff.mp read
        cases equal
        refine ⟨[token], rfl, fun others _ => ?_⟩
        rw [List.singleton_append, readColumns, step]
        simp only [readColumn]
        rfl

/-! ## Conditions -/

/-- A split literal ends with the token that closes it, whatever follows. -/
theorem local_readLiteralRest (opening : String) : Local (readLiteralRest opening) := by
  intro tokens text rest read
  induction tokens generalizing text with
  | nil => cases read
  | cons token tokens inductionHypothesis =>
      rw [readLiteralRest] at read
      split at read
      · rename_i ends
        cases read
        refine ⟨[token], rfl, fun others _ => ?_⟩
        rw [List.singleton_append, readLiteralRest, if_pos ends]
      · rename_i goesOn
        obtain ⟨⟨later, afterLater⟩, readLater, equal⟩ := bind_eq_ok_iff.mp read
        cases equal
        obtain ⟨used, rfl, again⟩ := inductionHypothesis later readLater
        refine ⟨token :: used, rfl, fun others ahead => ?_⟩
        rw [List.cons_append, readLiteralRest, if_neg goesOn, again others ahead]
        rfl

theorem local_readOperand (expected : Expectation) : Local (readOperand expected) := by
  intro tokens operand rest read
  cases tokens with
  | nil => cases read
  | cons token tokens =>
      rw [readOperand] at read
      split at read
      · rename_i role
        split at read
        · rename_i opening
          have split := (local_readLiteralRest token.text).bind fun later =>
            Local.pure (Expression.stringLiteral (Text.withoutFirst token.text ++ later))
          obtain ⟨used, rfl, again⟩ := split _ _ _ read
          refine ⟨token :: used, rfl, fun others ahead => ?_⟩
          rw [List.cons_append, readOperand, role]
          simp only [opening, if_true]
          exact again others ahead
        · rename_i noOpening
          cases read
          exact ⟨[token], rfl, fun others _ => by simp [readOperand, role, noOpening]⟩
      · rename_i role
        cases read
        exact ⟨[token], rfl, fun others _ => by simp [readOperand, role]⟩
      · rename_i role
        obtain ⟨call, readCall, equal⟩ := bind_eq_ok_iff.mp read
        cases equal
        refine ⟨[token], rfl, fun others _ => ?_⟩
        simp [readOperand, role, readCall, bind, Except.bind]
      · cases read

theorem local_readComparator : Local readComparator := by
  intro tokens comparator rest read
  obtain ⟨token, rfl, role⟩ := exists_of_readComparator read
  exact ⟨[token], rfl, fun others _ => by simp [readComparator, role]⟩

theorem local_readComparison : Local readComparison :=
  (local_readOperand .operand).bind fun left => local_readComparator.bind fun comparator =>
    (local_readOperand (.operandAfter comparator)).bind fun right =>
      .pure (Condition.comparison comparator left right)

/-- Where no connective is ahead, none is ahead of what may stand there instead. -/
theorem SameAhead.connective?_eq_none {rest others : List Located} (ahead : SameAhead rest others)
    (stops : connective? rest = none) : connective? others = none := by
  cases rest with
  | nil => rw [ahead.eq_nil, stops]
  | cons token rest =>
      rcases ahead.eq_nil_or_exists_cons with rfl | ⟨later, rfl⟩
      · rfl
      · rw [connective?] at stops ⊢
        split at stops
        · cases stops
        · rfl

/-- A chain of comparisons ends where no connective is ahead. -/
theorem local_readConditionBehind (pending : List (Condition × Connective)) :
    Local (readConditionBehind pending) := by
  intro tokens condition rest read
  fun_induction readConditionBehind pending tokens with
  | case1 => cases read
  | case2 pending tokens comparison afterFirst readFirst stops =>
      cases read
      obtain ⟨used, rfl, again⟩ := local_readComparison _ _ _ readFirst
      refine ⟨used, rfl, fun others ahead => ?_⟩
      rw [readConditionBehind_eq, again others ahead]
      simp only [bind, Except.bind, ahead.connective?_eq_none stops]
  | case3 pending tokens comparison afterFirst readFirst connective afterConnective goesOn
      inductionHypothesis =>
      obtain ⟨first, rfl, againFirst⟩ := local_readComparison _ _ _ readFirst
      obtain ⟨token, rfl, role⟩ := connective?_eq_some_iff.mp goesOn
      obtain ⟨later, rfl, againLater⟩ := inductionHypothesis read
      refine ⟨first ++ token :: later, by simp, fun others ahead => ?_⟩
      have found : connective? (token :: (later ++ others)) = some (connective, later ++ others) :=
        connective?_eq_some_iff.mpr ⟨token, rfl, role⟩
      have readAgain := againFirst _ (ahead.append (token :: later))
      rw [List.append_assoc, readConditionBehind_eq, readAgain]
      simp only [bind, Except.bind, List.cons_append, found]
      exact againLater others ahead

theorem local_readFilter : Local readFilter := by
  intro tokens filter rest read
  cases tokens with
  | nil =>
      cases read
      refine ⟨[], rfl, fun others ahead => ?_⟩
      rw [ahead.eq_nil]
      rfl
  | cons token tokens =>
      rw [readFilter] at read
      split at read
      · rename_i role
        have present := (local_readConditionBehind []).bind fun condition =>
          Local.pure (some condition)
        obtain ⟨used, rfl, again⟩ := present _ _ _ read
        refine ⟨token :: used, rfl, fun others ahead => ?_⟩
        rw [List.cons_append, readFilter, if_pos role]
        exact again others ahead
      · rename_i noKeyword
        cases read
        refine ⟨[], rfl, fun others ahead => ?_⟩
        rcases ahead.eq_nil_or_exists_cons with rfl | ⟨later, rfl⟩
        · rfl
        · rw [List.nil_append, readFilter, if_neg noKeyword]

/-! ## Queries -/

theorem local_readSelect (limit : Nat) : Local (readSelect limit) := by
  intro tokens statement rest read
  cases tokens with
  | nil => cases read
  | cons keyword tokens =>
      rw [readSelect] at read
      split at read
      · rename_i opens
        have clauses := (local_readColumns limit .start).bind fun columns =>
          local_readSource.bind fun source => local_readFilter.bind fun filter =>
            Local.pure (⟨columns, source, filter⟩ : Select)
        obtain ⟨used, rfl, again⟩ := clauses _ _ _ read
        refine ⟨keyword :: used, rfl, fun others ahead => ?_⟩
        rw [List.cons_append, readSelect, if_pos opens]
        exact again others ahead
      · cases read

/-- Where no set operator is read, none is read from what may stand there instead. -/
theorem SameAhead.readSetOperator_eq_none {tokens rest others : List Located}
    (read : readSetOperator tokens = .ok (none, rest)) (ahead : SameAhead tokens others) :
    readSetOperator others = .ok (none, others) := by
  cases tokens with
  | nil =>
      rw [ahead.eq_nil]
      rfl
  | cons token tokens =>
      rcases ahead.eq_nil_or_exists_cons with rfl | ⟨later, rfl⟩
      · rfl
      · rw [readSetOperator] at read ⊢
        split at read
        · split at read
          · cases read
          · split at read <;> cases read
        · rename_i noUnion
          rw [if_neg noUnion]

/-- A set operator that is read has the same words before any list that begins with
the same `SELECT`. -/
theorem exists_words_of_readSetOperator {tokens rest : List Located} {operator : SetOperator}
    (read : readSetOperator tokens = .ok (some operator, rest)) :
    ∃ words, tokens = words ++ rest ∧
      ∀ others, others.head? = rest.head? →
        readSetOperator (words ++ others) = .ok (some operator, others) := by
  cases tokens with
  | nil => cases read
  | cons first tokens =>
      rw [readSetOperator] at read
      split at read
      · rename_i unites
        split at read
        · cases read
        · rename_i found next afterNext split
          split at read
          · rename_i opens
            cases read
            cases tokens with
            | nil => cases split
            | cons second tokens =>
                rw [unionOrUnionAll] at split
                split at split
                · rename_i all
                  cases split
                  refine ⟨[first, second], rfl, fun others same => ?_⟩
                  obtain ⟨later, rfl⟩ := List.head?_eq_some_iff.mp same
                  simp [readSetOperator, unites, unionOrUnionAll, all, opens]
                · rename_i notAll
                  cases split
                  refine ⟨[first], rfl, fun others same => ?_⟩
                  obtain ⟨later, rfl⟩ := List.head?_eq_some_iff.mp same
                  simp [readSetOperator, unites, unionOrUnionAll, notAll, opens]
          · cases read
      · cases read

/-- Nothing is read from no tokens. -/
theorem readQueryWithin_nil (limit selects : Nat) (result : Query × List Located) :
    readQueryWithin limit selects [] ≠ .ok result := by
  cases selects <;> rintro ⟨⟩

/-- A query ends where neither its last `SELECT` nor a set operator goes on. -/
theorem local_readQueryWithin (limit selects : Nat) : Local (readQueryWithin limit selects) := by
  induction selects with
  | zero =>
      intro tokens query rest read
      cases read
  | succ selects inductionHypothesis =>
      intro tokens query rest read
      rw [readQueryWithin] at read
      obtain ⟨⟨statement, afterSelect⟩, readFirst, later⟩ := bind_eq_ok_iff.mp read
      obtain ⟨⟨operator?, afterOperator⟩, readOperator, later⟩ := bind_eq_ok_iff.mp later
      obtain ⟨used, rfl, again⟩ := local_readSelect limit _ _ _ readFirst
      cases operator? with
      | none =>
          cases later
          cases eq_of_readSetOperator_none readOperator
          refine ⟨used, rfl, fun others ahead => ?_⟩
          rw [readQueryWithin, again others ahead]
          simp only [bind, Except.bind, ahead.readSetOperator_eq_none readOperator]
      | some operator =>
          obtain ⟨⟨right, afterRight⟩, readRight, equal⟩ := bind_eq_ok_iff.mp later
          cases equal
          obtain ⟨words, rfl, againOperator⟩ := exists_words_of_readSetOperator readOperator
          obtain ⟨items, rfl, againRight⟩ := inductionHypothesis _ _ _ readRight
          -- The words of the operator need the `SELECT` behind them, which `items` begins with.
          have nonempty : items ≠ [] := by
            rintro rfl
            exact readQueryWithin_nil limit selects _ (againRight [] (.inl rfl))
          obtain ⟨keyword, items, rfl⟩ := List.exists_cons_of_ne_nil nonempty
          refine ⟨used ++ (words ++ keyword :: items), by simp, fun others ahead => ?_⟩
          have readFirst := again _ ((ahead.append (keyword :: items)).append words)
          have readOperator := againOperator (keyword :: items ++ others) rfl
          rw [List.append_assoc, List.append_assoc, readQueryWithin, readFirst]
          simp only [bind, Except.bind, readOperator, againRight others ahead]

end SelectQuery
