import SelectQuery.Proofs.Reading.Final

/-!
# Where a reading fails

An error other than that the tokens end has a part of the list that decides it: every
list with that part from the same index on gives the same error.  No continuation
repairs it, and a token that the error reports as out of place stands at the position
that the error says, where the part that decides ends.

Hence a list that some continuation makes a query is never reported as malformed, but
only as not yet complete.
-/

namespace SelectQuery

/-! ## The part that decides -/

/-- A part of a list from an index on is a part of every longer list. -/
theorem prefix_drop_append {α : Type} {seen tokens : List α} {start : Nat}
    (part : seen <+: tokens.drop start) (more : List α) :
    seen <+: (tokens ++ more).drop start := by
  rw [List.drop_append]
  exact part.trans (List.prefix_append _ _)

/-- A part of a list from an index on is a part of every list with the same items
there. -/
theorem prefix_drop_of_same {α : Type} {seen tokens others : List α} {start : Nat}
    (part : seen <+: tokens.drop start)
    (same : ∀ index, start ≤ index → index < start + seen.length →
      others[index]? = tokens[index]?) : seen <+: others.drop start := by
  rw [List.prefix_iff_getElem?] at part ⊢
  intro index inside
  rw [List.getElem?_drop, same _ (by omega) (by omega), ← List.getElem?_drop, part index inside]

/-- An error that reports a token is not that the tokens end. -/
theorem Error.isAtEnd_of_reported? {error : Error} {text : String} {position : Nat}
    (reported : error.reported? = some (text, position)) : error.isAtEnd = false := by
  cases error with
  | unexpectedToken | trailingToken => rfl
  | _ => cases reported

namespace Final

variable {α : Type} {read : List Located → Except Error (α × List Located)} {start : Nat}
  {tokens : List Token} {error : Error}

/-- The tokens up to the one at which a reading fails decide the error. -/
theorem exists_part (final : Final read)
    (failed : read (Located.tokensFrom start tokens) = .error error)
    (later : error.isAtEnd = false) :
    ∃ before token, before ++ [token] <+: tokens.drop start ∧
      (∀ others, before ++ [token] <+: others.drop start →
        read (Located.tokensFrom start others) = .error error) ∧
      error.ReportsOnly ⟨token, start + before.length⟩ := by
  rcases final _ _ failed later with ⟨before, located, rest, split, fails⟩
  rcases Located.exists_of_number_eq_append split with ⟨seen, behind, cut, rfl, numbered⟩
  cases behind with
  | nil => cases numbered
  | cons token behind =>
      rw [Located.number_cons, List.cons.injEq] at numbered
      rcases numbered with ⟨rfl, rfl⟩
      refine ⟨seen, token, ⟨behind, by simp [cut]⟩, ?_, fails.reports⟩
      rintro others ⟨further, equal⟩
      rw [Located.tokensFrom, ← equal, List.append_assoc, Located.number_append]
      exact fails.fails _

/-- No continuation of the list changes the error. -/
theorem fails_append (final : Final read)
    (failed : read (Located.tokensFrom start tokens) = .error error)
    (later : error.isAtEnd = false) (more : List Token) :
    read (Located.tokensFrom start (tokens ++ more)) = .error error := by
  rcases final.exists_part failed later with ⟨before, token, part, decides, _⟩
  exact decides _ (prefix_drop_append part more)

/-- The token that an error reports stands where the error says, and the tokens up to
it decide the error. -/
theorem fails_of_reported? (final : Final read)
    (failed : read (Located.tokensFrom start tokens) = .error error) {text : String}
    {position : Nat} (reported : error.reported? = some (text, position)) :
    start ≤ position ∧ (∃ inside : position < tokens.length, tokens[position].text = text) ∧
      ∀ others : List Token,
        (∀ index, start ≤ index → index ≤ position → others[index]? = tokens[index]?) →
        read (Located.tokensFrom start others) = .error error := by
  rcases final.exists_part failed (Error.isAtEnd_of_reported? reported) with
    ⟨before, token, part, decides, none | here⟩
  · rw [none] at reported
    cases reported
  · rw [here, Option.some.injEq, Prod.mk.injEq] at reported
    rcases reported with ⟨rfl, rfl⟩
    have found : tokens[start + before.length]? = some token := by
      rw [← List.getElem?_drop, List.prefix_iff_getElem?.mp part before.length (by simp)]
      simp
    rcases List.getElem?_eq_some_iff.mp found with ⟨inside, equal⟩
    refine ⟨Nat.le_add_right _ _, ⟨inside, congrArg Token.text equal⟩, fun others same => ?_⟩
    apply decides
    apply prefix_drop_of_same part
    intro index low high
    rw [List.length_append, List.length_singleton] at high
    exact same index low (Nat.le_of_lt_succ high)

end Final

/-! ## Queries -/

/-- A query that may have a `SELECT` fails at a token unless the tokens end. -/
theorem final_readQuery (limit : Nat) : Final (readQuery (limit + 1)) :=
  fun _ _ failed later =>
    final_readQueryWithin (limit + 1) (limit + 1) (fun none => absurd none (by simp)) failed later

/-- Read the end of the tokens behind a query. -/
def readEnd (query : Query) : List Located → Except Error (Query × List Located)
  | [] => .ok (query, [])
  | token :: _ => .error (.trailingToken token.text token.position)

theorem final_readEnd (query : Query) : Final (readEnd query) := by
  intro tokens error failed later
  cases tokens with
  | nil => cases failed
  | cons token tokens =>
      cases failed
      exact ⟨[], token, tokens, rfl, ⟨fun others => rfl, .inr rfl⟩⟩

/-- Read a query that the tokens end with. -/
def readWhole (limit : Nat) (tokens : List Located) : Except Error (Query × List Located) := do
  let (query, rest) ← readQuery limit tokens
  readEnd query rest

theorem final_readWhole (limit : Nat) : Final (readWhole (limit + 1)) :=
  .bind (local_readQueryWithin (limit + 1) (limit + 1)) (final_readQuery limit) final_readEnd

namespace Query

theorem ofTokens_eq_error_iff {limit start : Nat} {tokens : List Token} {error : Error} :
    ofTokens limit tokens start = .error error ↔
      readQuery limit (Located.tokensFrom start tokens) = .error error := by
  rw [ofTokens, bind_eq_error_iff]
  simp

theorem ofLexemes_eq_error_iff {limit : Nat} {lexemes : List String} {error : Error} :
    ofLexemes limit lexemes = .error error ↔
      readWhole limit (Located.tokensFrom 0 (tokensOfLexemes lexemes)) = .error error := by
  rw [ofLexemes, readWhole, bind_eq_error_iff, bind_eq_error_iff]
  refine or_congr_right (exists_congr fun result => and_congr_right fun _ => ?_)
  rcases result with ⟨query, rest⟩
  cases rest <;> simp [readEnd]

section Tokens

variable {limit start : Nat} {tokens : List Token}

/-- Every continuation of the list gives the same error. -/
theorem ofTokens_append_eq_error {error : Error}
    (failed : ofTokens limit tokens start = .error error) (later : error.isAtEnd = false)
    (more : List Token) : ofTokens limit (tokens ++ more) start = .error error := by
  cases limit with
  | zero =>
      cases failed
      rfl
  | succ limit =>
      rw [ofTokens_eq_error_iff] at failed ⊢
      exact (final_readQuery limit).fails_append failed later more

/-- Only the end of the tokens is wrong with a list that some continuation makes a
query. -/
theorem isAtEnd_of_ofTokens_append {more : List Token} {result : Query × Nat}
    (read : ofTokens limit (tokens ++ more) start = .ok result) {error : Error}
    (failed : ofTokens limit tokens start = .error error) : error.isAtEnd = true := by
  apply Classical.byContradiction
  intro later
  have failedAgain := ofTokens_append_eq_error failed (Bool.eq_false_iff.mpr later) more
  rw [read] at failedAgain
  cases failedAgain

/-- A token that is not what is needed stands at the position of the error, and every
list with the same tokens up to there gives the same error. -/
theorem ofTokens_unexpectedToken {expected : Expectation} {found : String} {position : Nat}
    (failed : ofTokens limit tokens start = .error (.unexpectedToken expected found position)) :
    start ≤ position ∧ (∃ inside : position < tokens.length, tokens[position].text = found) ∧
      ∀ others : List Token,
        (∀ index, start ≤ index → index ≤ position → others[index]? = tokens[index]?) →
        ofTokens limit others start = .error (.unexpectedToken expected found position) := by
  cases limit with
  | zero => cases failed
  | succ limit =>
      simp only [ofTokens_eq_error_iff] at failed ⊢
      exact (final_readQuery limit).fails_of_reported? failed rfl

end Tokens

section Lexemes

variable {limit : Nat} {lexemes : List String}

/-- Every continuation of the list gives the same error. -/
theorem ofLexemes_append_eq_error {error : Error} (failed : ofLexemes limit lexemes = .error error)
    (later : error.isAtEnd = false) (more : List String) :
    ofLexemes limit (lexemes ++ more) = .error error := by
  cases limit with
  | zero =>
      cases failed
      rfl
  | succ limit =>
      rw [ofLexemes_eq_error_iff] at failed ⊢
      rw [tokensOfLexemes_append]
      exact (final_readWhole limit).fails_append failed later _

/-- A token behind a complete query stands at the position of the error, and every list
with the same tokens up to there gives the same error. -/
theorem ofLexemes_trailingToken {text : String} {position : Nat}
    (failed : ofLexemes limit lexemes = .error (.trailingToken text position)) :
    (∃ inside : position < (tokensOfLexemes lexemes).length,
        (tokensOfLexemes lexemes)[position].text = text) ∧
      ∀ others : List String,
        (∀ index ≤ position,
          (tokensOfLexemes others)[index]? = (tokensOfLexemes lexemes)[index]?) →
        ofLexemes limit others = .error (.trailingToken text position) := by
  cases limit with
  | zero => cases failed
  | succ limit =>
      simp only [ofLexemes_eq_error_iff] at failed ⊢
      rcases (final_readWhole limit).fails_of_reported? failed rfl with ⟨_, found, decided⟩
      constructor
      · exact found
      · intro others same
        apply decided
        intro index _
        exact same index

end Lexemes

/-- An error other than that the tokens end is final: every continuation of the list
gives the same error.  A token that is not what is needed stands at the position of the
error, and every list with the same tokens up to there gives the same error; so does a
token behind a complete query. -/
theorem errors_are_final (limit : Nat) :
    (∀ tokens start error, ofTokens limit tokens start = .error error → error.isAtEnd = false →
        ∀ more, ofTokens limit (tokens ++ more) start = .error error) ∧
      (∀ tokens start expected found position,
        ofTokens limit tokens start = .error (.unexpectedToken expected found position) →
        start ≤ position ∧ (∃ inside : position < tokens.length, tokens[position].text = found) ∧
          ∀ others : List Token,
            (∀ index, start ≤ index → index ≤ position → others[index]? = tokens[index]?) →
            ofTokens limit others start = .error (.unexpectedToken expected found position)) ∧
      (∀ lexemes error, ofLexemes limit lexemes = .error error → error.isAtEnd = false →
        ∀ more, ofLexemes limit (lexemes ++ more) = .error error) ∧
      ∀ lexemes text position,
        ofLexemes limit lexemes = .error (.trailingToken text position) →
        (∃ inside : position < (tokensOfLexemes lexemes).length,
            (tokensOfLexemes lexemes)[position].text = text) ∧
          ∀ others : List String,
            (∀ index ≤ position,
              (tokensOfLexemes others)[index]? = (tokensOfLexemes lexemes)[index]?) →
            ofLexemes limit others = .error (.trailingToken text position) := by
  refine ⟨?_, ?_, ?_, ?_⟩
  · intro tokens start error failed later
    exact ofTokens_append_eq_error failed later
  · intro tokens start expected found position failed
    exact ofTokens_unexpectedToken failed
  · intro lexemes error failed later
    exact ofLexemes_append_eq_error failed later
  · intro lexemes text position failed
    exact ofLexemes_trailingToken failed

/-- A `UNION` that no `SELECT` follows, a keyword in the place of a table, and a token
behind a query, here with an empty lexeme in it. -/
theorem errors_are_final_union_source_trailing :
    (∀ more, ofTokens 2
        ([⟨.comma, ","⟩, ⟨.clause .columns, ""⟩, ⟨.asterisk, "*"⟩, ⟨.clause .source, "FROM"⟩,
          ⟨.identifier, "AS"⟩, ⟨.unknown, "union"⟩, ⟨.stringLiteral, "x"⟩] ++ more) 1 =
        .error (.unionWithoutSelect .union 5 (some "x"))) ∧
      (∀ others : List Token,
        (∀ index, 1 ≤ index → index ≤ 4 → others[index]? =
          [⟨.comma, ","⟩, ⟨.clause .columns, ""⟩, ⟨.asterisk, "*"⟩, ⟨.clause .source, "FROM"⟩,
            (⟨.clause .filter, "WHERE"⟩ : Token)][index]?) →
        ofTokens 2 others 1 = .error (.unexpectedToken .sourceName "WHERE" 4)) ∧
      ∀ others : List String,
        (∀ index ≤ 4, (tokensOfLexemes others)[index]? =
          (tokensOfLexemes ["SELECT", "", "*", "FROM", "t", "", "LIMIT", "5"])[index]?) →
        ofLexemes 2 others = .error (.trailingToken "LIMIT" 4) := by
  rcases errors_are_final 2 with ⟨final, unexpected, _, trailing⟩
  refine ⟨?_, ?_, ?_⟩
  · apply final _ _ _ _ rfl
    rfl
  · apply (unexpected _ _ _ _ _ _).2.2
    rfl
  · apply (trailing _ _ _ _).2
    rfl

end Query

end SelectQuery
