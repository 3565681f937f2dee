import SelectQuery.Proofs.LetterCase
import SelectQuery.Proofs.Likeness.Reading

/-!
# Letter case is kept and never looked at

Reading commutes with putting the ASCII letters of every lexeme in upper case.  The
outcome is of the same kind, and a tree or an error holds the same texts in upper case.
So no decision of a reader depends on the case of a letter, be it in a keyword, an
operator, a name, an argument of a call or a literal.
-/

namespace SelectQuery

/-- Shows every text in upper case. -/
def View.capitals : View :=
  ⟨Text.upper, Text.upper, Text.upper, id⟩

/-- A query with all of its texts in upper case. -/
def Query.inCapitals (query : Query) : Query :=
  View.capitals.query query

namespace Token

/-- A token with its text in upper case. -/
def inCapitals (token : Token) : Token :=
  ⟨token.kind, Text.upper token.text⟩

theorem map_inCapitals_eq {tokens tokens' : List Token}
    (corresponding : List.Forall₂ (fun t t' => t.inCapitals = t') tokens tokens') :
    tokens.map inCapitals = tokens' := by
  have equal := List.forall₂_map_left_iff.mpr corresponding
  rwa [List.forall₂_eq_eq_eq] at equal

/-! ## What readers see of a token in upper case -/

theorem role_inCapitals (token : Token) : token.inCapitals.role = token.role := by
  have same := Text.upper_upper token.text
  rw [role, inCapitals, role]
  dsimp only
  rw [Comparator.ofText?_congr same, Connective.ofText?_congr same]

theorem spells_inCapitals (token : Token) (word : String) :
    token.inCapitals.spells word = token.spells word := by
  rw [Bool.eq_iff_iff, spells_iff, spells_iff]
  simp [inCapitals]

theorem lexeme_inCapitals (token : Token) :
    token.inCapitals.lexeme = Text.upper token.lexeme := by
  rw [lexeme, role_inCapitals, lexeme]
  split
  · rw [Text.upper_quoted]
    rfl
  · rfl

theorem joinedText_inCapitals (tokens : List Token) :
    joinedText (tokens.map inCapitals) = Text.upper (joinedText tokens) := by
  rw [joinedText, joinedText, Text.upper_intercalate, List.map_map, List.map_map]
  rfl

theorem literalRest_inCapitals (between : List Token) (last : Token) :
    literalRest (between.map inCapitals) last.inCapitals =
      Text.upper (literalRest between last) := by
  induction between with
  | nil =>
      rw [List.map_nil, literalRest, literalRest, Text.upper_append, Text.upper_withoutLast]
      rfl
  | cons token between inductionHypothesis =>
      rw [List.map_cons, literalRest, literalRest, inductionHypothesis, lexeme_inCapitals,
        Text.upper_append, Text.upper_append]
      rfl

end Token

/-! ## Calls in upper case -/

theorem callMark_toUpper : ∀ c : Char, callMark c.toUpper = callMark c :=
  Text.congr_toUpper (by decide)

theorem callArguments_map_toUpper (text : List Char) :
    callArguments (text.map Char.toUpper) = (callArguments text).map Text.upper := by
  unfold callArguments
  rw [List.all_map, Nesting.pieces_map callMark_toUpper]
  simp only [Function.comp_def, Text.isBlank_toUpper]
  split
  · rfl
  · simp [Text.upper, Text.trim_map_toUpper]

/-- A call in upper case has the same name and arguments in upper case, or the same
fault. -/
theorem Expression.agree_ofCall_upper (text : String) :
    Agree (fun error other => View.capitals.error error = other)
      (fun call other => View.capitals.expression call = other)
      (ofCall text) (ofCall (Text.upper text)) := by
  have sameOpening : ∀ c : Char, (c.toUpper != '(') = (c != '(') :=
    @Text.congr_toUpper Bool (· != '(') (by decide)
  unfold ofCall
  rw [Text.toList_upper, List.dropWhile_map, List.takeWhile_map]
  simp only [Function.comp_def, sameOpening]
  cases text.toList.dropWhile (· != '(') with
  | nil => exact .error rfl
  | cons opening afterOpening =>
      rw [List.map_cons]
      dsimp only
      rw [Nesting.enclosed?_map callMark_toUpper]
      cases Nesting.enclosed? callMark .inside afterOpening with
      | none => exact .error rfl
      | some found =>
          rcases found with ⟨inner, rest⟩
          cases rest with
          | cons => exact .error rfl
          | nil =>
              apply Agree.ok
              simp [View.expression, View.capitals, callArguments_map_toUpper, Text.upper]

namespace Likeness

/-- The likeness of a token to the one with its text in upper case. -/
def ofCapitals : Likeness where
  left := .capitals
  right := .plain
  token t t' := t.inCapitals = t'
  role := by
    rintro t _ rfl
    exact t.role_inCapitals
  spells := by
    rintro t _ rfl word _
    exact t.spells_inCapitals word
  opensQuote := by
    rintro t _ rfl _
    exact Text.opensQuote_upper t.text
  closesQuote := by
    rintro t _ rfl _
    exact Text.closesQuote_upper t.text
  name := by
    rintro t _ rfl _
    rfl
  literal := by
    rintro t _ rfl _
    rfl
  split := by
    rintro head _ last _ between _ rfl corresponding rfl _ _
    rw [← Token.map_inCapitals_eq corresponding, Token.literalRest_inCapitals]
    simp [View.capitals, View.plain, Token.inCapitals]
  call := by
    rintro t _ rfl _
    apply (Expression.agree_ofCall_upper t.text).imp
    · rintro error _ rfl
      exact (View.plain_error _).symm
    · rintro call _ rfl
      exact (View.plain_expression _).symm
  found := by
    rintro t _ rfl
    rfl
  joined corresponding := by
    rw [← Token.map_inCapitals_eq corresponding, Token.joinedText_inCapitals]
    rfl
  foundName same := same

end Likeness

namespace Query

/-- The tokens of lexemes in upper case are the tokens in upper case. -/
theorem tokensOfLexemes_map_upper (lexemes : List String) :
    tokensOfLexemes (lexemes.map Text.upper) = (tokensOfLexemes lexemes).map Token.inCapitals := by
  have tokens : (lexemes.map Text.upper).map Token.ofLexeme =
      (lexemes.map Token.ofLexeme).map Token.inCapitals := by
    rw [List.map_map, List.map_map]
    exact List.map_congr_left fun lexeme _ => Token.ofLexeme_upper lexeme
  rw [tokensOfLexemes, tokens, List.filter_map]
  rfl

/-- Reading commutes with upper case: lexemes in upper case are read as the query with
all of its texts in upper case, or fail with the same error, whose texts are in upper
case too. -/
theorem ofLexemes_map_upper (limit : Nat) (lexemes : List String) :
    Agree (fun error other =>
        other = View.capitals.error error ∧ other.outline = error.outline)
      (fun query other => other = query.inCapitals)
      (ofLexemes limit lexemes) (ofLexemes limit (lexemes.map Text.upper)) := by
  have tokens : List.Forall₂ Likeness.ofCapitals.token (tokensOfLexemes lexemes)
      (tokensOfLexemes (lexemes.map Text.upper)) := by
    rw [tokensOfLexemes_map_upper, List.forall₂_map_right_iff, List.forall₂_same]
    exact fun token _ => rfl
  have agree := Likeness.agrees_ofLexemes limit tokens fun _ => rfl
  apply agree.imp
  · intro error other same
    have equal : other = View.capitals.error error := (View.plain_error other).symm.trans same.symm
    exact ⟨equal, by rw [equal, View.outline_error rfl]⟩
  · intro query other same
    exact (View.plain_query other).symm.trans same.symm

end Query

end SelectQuery
