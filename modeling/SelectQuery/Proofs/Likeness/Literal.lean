import SelectQuery.Proofs.Likeness.Reading

/-!
# The contents of string literals are never looked at

Text between quotes is data.  Lists of lexemes that differ between quotes only are
both rejected for the same reason, or are read as queries that differ in the
contents of string literals only.  Nothing that stands between quotes can end a
literal, name a column, nest a parenthesis or open a clause.
-/

namespace SelectQuery

/-- Shows the structure of a result: all of it but the contents of string literals
and the texts of errors. -/
def View.structural : View :=
  ⟨id, fun _ => "", fun _ => "", id⟩

/-- A query with the contents of its string literals blanked. -/
def Query.blanked (query : Query) : Query :=
  View.structural.query query

/-- Lexemes that differ in nothing but what stands between their quotes. -/
inductive Token.SameButQuoted : String → String → Prop
  | same (lexeme : String) : SameButQuoted lexeme lexeme
  | quoted (text other : String) : SameButQuoted (Text.quoted text) (Text.quoted other)

namespace Likeness

/-- Any two string literals are alike, and nothing else is but to itself. -/
def AnyLiteral (t t' : Token) : Prop :=
  t' = t ∨ t.kind = .stringLiteral ∧ t'.kind = .stringLiteral

namespace AnyLiteral

variable {t t' : Token}

theorem role (alike : AnyLiteral t t') : t'.role = t.role := by
  rcases alike with rfl | ⟨literal, literal'⟩
  · rfl
  · rw [(Token.role_eq_stringLiteral_iff t).mpr literal,
      (Token.role_eq_stringLiteral_iff t').mpr literal']

/-- A token that is no string literal is alike to itself only. -/
theorem eq (alike : AnyLiteral t t') (other : t.role ≠ .stringLiteral) : t' = t := by
  rcases alike with same | ⟨literal, _⟩
  · exact same
  · exact absurd ((Token.role_eq_stringLiteral_iff t).mpr literal) other

theorem spells (alike : AnyLiteral t t') (word : String) : t'.spells word = t.spells word := by
  rcases alike with rfl | ⟨literal, literal'⟩
  · rfl
  · rw [Token.spells, Token.spells, literal, literal']
    rfl

end AnyLiteral

/-- The likeness of tokens that may differ in the contents of string literals. -/
def ofLiterals : Likeness where
  left := .structural
  right := .structural
  token := AnyLiteral
  role := AnyLiteral.role
  spells alike word _ := alike.spells word
  opensQuote alike role := by rw [alike.eq (by simp [role])]
  closesQuote alike other := by rw [alike.eq other]
  name alike role := by rw [alike.eq (by simp [role])]
  literal _ _ := rfl
  split _ _ _ _ _ := rfl
  call alike role := by
    rw [alike.eq (by simp [role])]
    exact .refl (fun error => Eq.refl (View.structural.error error))
      (fun call => Eq.refl (View.structural.expression call)) _
  found _ := rfl
  joined _ := rfl
  foundName _ := rfl

end Likeness

namespace Token.SameButQuoted

variable {lexeme lexeme' : String}

/-- A text between quotes is not the empty lexeme. -/
theorem eq_empty_iff (alike : SameButQuoted lexeme lexeme') : lexeme' = "" ↔ lexeme = "" := by
  cases alike with
  | same => rfl
  | quoted text other => simp [Text.quoted_ne_empty]

theorem anyLiteral (alike : SameButQuoted lexeme lexeme') :
    Likeness.AnyLiteral (ofLexeme lexeme) (ofLexeme lexeme') := by
  cases alike with
  | same => exact .inl rfl
  | quoted text other => simp [Likeness.AnyLiteral]

end Token.SameButQuoted

namespace Query

/-- What stands between quotes never decides how a list of lexemes is read: lists
that differ there only give the same error, at the same position, or the same query
up to the contents of its string literals. -/
theorem ofLexemes_of_sameButQuoted (limit : Nat) {lexemes others : List String}
    (alike : List.Forall₂ Token.SameButQuoted lexemes others) :
    Agree (fun error other => error.outline = other.outline)
      (fun query other => query.blanked = other.blanked)
      (ofLexemes limit lexemes) (ofLexemes limit others) := by
  have tokens : List.Forall₂ Likeness.ofLiterals.token (tokensOfLexemes lexemes)
      (tokensOfLexemes others) :=
    Likeness.forall₂_tokensOfLexemes (fun _ _ => Token.SameButQuoted.eq_empty_iff)
      (fun _ _ => Token.SameButQuoted.anyLiteral) alike
  have agree := Likeness.agrees_ofLexemes limit tokens fun _ => rfl
  exact agree.imp (fun _ _ same => View.outline_eq rfl rfl same) fun _ _ same => same

/-- A column between quotes may spell a clause or be empty, and a literal within a
split literal may hold anything. -/
theorem ofLexemes_of_sameButQuoted_clause :
    List.Forall₂ Token.SameButQuoted
        ["SELECT", Text.quoted "", "x", "FROM", "t", "WHERE", "a", "=", "'New",
          Text.quoted "it", "York'"]
        ["SELECT", Text.quoted ", b FROM u UNION (", "x", "FROM", "t", "WHERE", "a", "=", "'New",
          Text.quoted "'s'", "York'"] ∧
      ∃ query other,
        ofLexemes 1 ["SELECT", Text.quoted "", "x", "FROM", "t", "WHERE", "a", "=", "'New",
          Text.quoted "it", "York'"] = .ok query ∧
        ofLexemes 1 ["SELECT", Text.quoted ", b FROM u UNION (", "x", "FROM", "t", "WHERE", "a",
          "=", "'New", Text.quoted "'s'", "York'"] = .ok other ∧
        query.blanked = other.blanked ∧
        query = .select ⟨[⟨.stringLiteral "", some "x"⟩], ⟨"t", none⟩,
          some (.comparison .equal (.identifier "a") (.stringLiteral "New 'it' York"))⟩ := by
  have alike : List.Forall₂ Token.SameButQuoted
      ["SELECT", Text.quoted "", "x", "FROM", "t", "WHERE", "a", "=", "'New",
        Text.quoted "it", "York'"]
      ["SELECT", Text.quoted ", b FROM u UNION (", "x", "FROM", "t", "WHERE", "a", "=", "'New",
        Text.quoted "'s'", "York'"] := by
    have unchanged : List.Forall₂ Token.SameButQuoted ["x", "FROM", "t", "WHERE", "a", "=", "'New"]
        ["x", "FROM", "t", "WHERE", "a", "=", "'New"] :=
      List.forall₂_same.mpr fun lexeme _ => .same lexeme
    exact .cons (.same _) (.cons (.quoted _ _) (List.rel_append unchanged
      (.cons (.quoted _ _) (.cons (.same _) .nil))))
  have read : ofLexemes 1 ["SELECT", Text.quoted "", "x", "FROM", "t", "WHERE", "a", "=", "'New",
      Text.quoted "it", "York'"] =
      .ok (.select ⟨[⟨.stringLiteral "", some "x"⟩], ⟨"t", none⟩,
        some (.comparison .equal (.identifier "a") (.stringLiteral "New 'it' York"))⟩) := by
    rw [← toOption_eq_some_iff]
    decide +kernel
  have agree := ofLexemes_of_sameButQuoted 1 alike
  rw [read] at agree
  obtain ⟨other, readOther, same⟩ := agree.exists_of_ok
  exact ⟨alike, _, other, read, readOther, same, rfl⟩

end Query

end SelectQuery
