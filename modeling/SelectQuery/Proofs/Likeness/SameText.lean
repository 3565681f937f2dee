import SelectQuery.Proofs.Likeness.Reading

/-!
# Tokens with the same texts

Two lists of tokens with the same texts are read alike if corresponding tokens have the
same role and are the same words: as the same query, or with the same error.  Neither the
kinds behind the roles nor the positions of the tokens decide anything.

Two laws follow.  Behind other tokens a list is read as it is by itself, with every
position moved by their number.  And tokens of unknown kind may be judged in advance, so
that their role is their kind, but for the words that are known by their kind too.
-/

namespace SelectQuery

/-! ## Errors that are moved -/

/-- Shows positions moved by an offset, and all else as it is. -/
def View.moved (offset : Nat) : View :=
  ⟨id, id, id, (offset + ·)⟩

namespace Error

/-- An error with its position moved by an offset. -/
def moved (offset : Nat) (error : Error) : Error :=
  (View.moved offset).error error

@[simp]
theorem moved_zero (error : Error) : error.moved 0 = error :=
  View.error_eq_self rfl (funext Nat.zero_add) error

/-- The position that an error holds. -/
def position? : Error → Option Nat
  | .unionWithoutSelect _ position _ | .unsupportedColumn (.noTokens position)
  | .missingSource (.laterClause _ position) | .unexpectedToken _ _ position
  | .trailingToken _ position => some position
  | _ => none

/-- An error without position is not moved. -/
theorem moved_of_position?_eq_none {error : Error} (nowhere : error.position? = none)
    (offset : Nat) : error.moved offset = error := by
  cases error with
  | unsupportedColumn fault => cases fault <;> first | rfl | cases nowhere
  | endOfInput expected => cases expected <;> rfl
  | missingSource fault => cases fault <;> first | rfl | cases nowhere
  | unmatchedParenthesis | nestingTooDeep => rfl
  | unionWithoutSelect | unexpectedToken | trailingToken => cases nowhere

/-- Wherever an error is moved, its message has the same words around its position. -/
theorem exists_message_moved (error : Error) :
    ∃ front back : String, ∀ offset, (error.moved offset).message =
      front ++ (error.position?.elim "" fun position => (offset + position).repr) ++ back := by
  cases somewhere : error.position? with
  | none =>
      refine ⟨error.message, "", fun offset => ?_⟩
      rw [moved_of_position?_eq_none somewhere, Option.elim_none, String.append_empty,
        String.append_empty]
  | some position =>
      cases error with
      | unionWithoutSelect operator position found? =>
          cases somewhere
          refine ⟨"Malformed set operation: " ++ operator.name ++ " at position ",
            found?.elim " is not followed by a SELECT" fun found =>
              " is followed by '" ++ found ++ "' instead of SELECT", fun offset => ?_⟩
          cases found? <;> rfl
      | unsupportedColumn fault =>
          cases fault <;> cases somewhere
          refine ⟨"Unsupported column shape: " ++ "empty column before position ", "",
            fun offset => ?_⟩
          rw [String.append_empty, String.append_assoc]
          rfl
      | missingSource fault =>
          cases fault <;> cases somewhere
          rename_i text
          refine ⟨"Missing required clause: " ++ ("'" ++ text ++ "' at position "),
            " appears before FROM", fun offset => ?_⟩
          rw [String.append_assoc, String.append_assoc]
          exact congrArg ("Missing required clause: " ++ ·) String.append_assoc
      | unexpectedToken expected text position =>
          cases somewhere
          refine ⟨"Unexpected token '" ++ text ++ "' at position ",
            ": expected " ++ expected.wording, fun offset => ?_⟩
          rw [← String.append_assoc]
          cases expected <;> rfl
      | trailingToken text position =>
          cases somewhere
          refine ⟨"Unexpected token '" ++ text ++ "' after statement at position ", "",
            fun offset => ?_⟩
          rw [String.append_empty]
          rfl
      | endOfInput | unmatchedParenthesis | nestingTooDeep => cases somewhere

end Error

/-! ## The likeness of tokens with the same text -/

namespace Token

/-- Tokens with the same text that readers cannot tell apart: they have the same role
and are the same words. -/
structure SameText (t t' : Token) : Prop where
  text : t'.text = t.text
  role : t'.role = t.role
  spells : ∀ word ∈ neverNames ++ neverOperands, t'.spells word = t.spells word

namespace SameText

variable {tokens tokens' : List Token}

theorem refl (token : Token) : token.SameText token :=
  ⟨rfl, rfl, fun _ _ => rfl⟩

theorem lexeme_eq {t t' : Token} (same : t.SameText t') : t'.lexeme = t.lexeme := by
  rw [lexeme, same.role, same.text, lexeme]

theorem joinedText_eq (same : List.Forall₂ SameText tokens tokens') :
    joinedText tokens' = joinedText tokens := by
  have texts : List.Forall₂ Eq (tokens'.map Token.text) (tokens.map Token.text) := by
    rw [List.forall₂_map_left_iff, List.forall₂_map_right_iff]
    exact (same.imp fun _ _ same => same.text).flip
  rw [List.forall₂_eq_eq_eq] at texts
  rw [joinedText, texts, joinedText]

theorem literalRest_eq (same : List.Forall₂ SameText tokens tokens') {last last' : Token}
    (sameLast : last.SameText last') : literalRest tokens' last' = literalRest tokens last := by
  induction same with
  | nil => rw [literalRest, literalRest, sameLast.text]
  | cons first _ inductionHypothesis =>
      rw [literalRest, literalRest, first.lexeme_eq, inductionHypothesis]

end SameText

end Token

namespace Likeness

/-- No call is read with a position, so that moving one changes nothing. -/
theorem agree_ofCall_moved (offset : Nat) (text : String) :
    Agree (fun error error' => (View.moved offset).error error = View.plain.error error')
      (fun call call' => (View.moved offset).expression call = View.plain.expression call')
      (Expression.ofCall text) (Expression.ofCall text) := by
  unfold Expression.ofCall
  split
  · exact .error rfl
  · split
    · exact .error rfl
    · exact .ok (by rw [View.expression_eq_self rfl rfl, View.plain_expression])
    · exact .error rfl

/-- The likeness of tokens with the same text, those of the second list at positions that
are moved by an offset. -/
def ofMoved (offset : Nat) : Likeness where
  left := .moved offset
  right := .plain
  token := Token.SameText
  role same := same.role
  spells same := same.spells
  opensQuote same _ := by rw [same.text]
  closesQuote same _ := by rw [same.text]
  name same _ := congrArg id same.text.symm
  literal same _ := congrArg id same.text.symm
  split sameHead same sameLast _ _ := by
    rw [Token.SameText.literalRest_eq same sameLast, sameHead.text]
    rfl
  call same _ := by
    rw [same.text]
    exact agree_ofCall_moved offset _
  found same := congrArg id same.text.symm
  joined same := congrArg id (Token.SameText.joinedText_eq same).symm
  foundName same := same

end Likeness

namespace Query

/-- Tokens with the same texts are read alike at any offset: as the same query, or with
the same error, with all positions moved by the offset. -/
theorem ofTokens_of_sameText (limit : Nat) {offset start : Nat} {tokens others : List Token}
    (length : others.length = offset + tokens.length)
    (same : List.Forall₂ Token.SameText (tokens.drop start) (others.drop (offset + start))) :
    ofTokens limit others (offset + start) =
      match ofTokens limit tokens start with
      | .ok (query, stop) => .ok (query, offset + stop)
      | .error error => .error (error.moved offset) := by
  have corresponding : List.Forall₂ (Likeness.ofMoved offset).token (tokens.drop start)
      (others.drop (offset + start)) := same
  have agree := Likeness.agrees_ofTokens limit corresponding fun index =>
    (Nat.add_assoc offset start index).symm
  cases read : ofTokens limit tokens start with
  | error error =>
      rw [read] at agree
      obtain ⟨other, readOther, sameError⟩ := agree.exists_of_error
      rw [readOther]
      exact congrArg Except.error ((View.plain_error other).symm.trans sameError.symm)
  | ok result =>
      rw [read] at agree
      obtain ⟨query, stop⟩ := result
      obtain ⟨⟨other, stop'⟩, readOther, sameQuery, left, stop_eq, stop_eq'⟩ := agree.exists_of_ok
      have query_eq : (View.moved offset).query query = other :=
        sameQuery.trans (View.plain_query other)
      rw [View.query_eq_self rfl rfl] at query_eq
      dsimp only at stop_eq stop_eq' ⊢
      rw [readOther, query_eq, show stop' = offset + stop by omega]

/-- Behind other tokens a list is read as it is by itself.  The query ends at the index that
is moved by the number of those tokens; an error has its position moved by it, and its
message differs in that position only. -/
theorem ofTokens_behind (limit : Nat) (before tokens : List Token) (start : Nat) :
    (ofTokens limit (before ++ tokens) (before.length + start) =
      match ofTokens limit tokens start with
      | .ok (query, stop) => .ok (query, before.length + stop)
      | .error error => .error (error.moved before.length)) ∧
    ∀ error : Error, ∃ front back : String,
      error.message = front ++ (error.position?.elim "" Nat.repr) ++ back ∧
      (error.moved before.length).message =
        front ++ (error.position?.elim "" fun position => (before.length + position).repr) ++
          back := by
  constructor
  · apply ofTokens_of_sameText limit List.length_append
    rw [← List.drop_drop, List.drop_left, List.forall₂_same]
    exact fun token _ => .refl token
  · intro error
    obtain ⟨front, back, message⟩ := error.exists_message_moved
    refine ⟨front, back, ?_, message before.length⟩
    have here := message 0
    simpa only [Error.moved_zero, Nat.zero_add] using here

end Query

/-! ## Tokens judged in advance -/

namespace Token

/-- A token whose kind is its role. -/
def judged (token : Token) : Token :=
  ⟨token.role, token.text⟩

/-- A token stays as it is or is judged in advance.  Only tokens of unknown kind are, and
none that is a word which readers look for. -/
inductive JudgedAs : Token → Token → Prop
  | same (token : Token) : JudgedAs token token
  | judged {token} (unknown : token.kind = .unknown)
      (noWord : ∀ word ∈ ["AS", "UNION", "ALL", "DISTINCT"],
        Text.sameLetters token.text word = false) :
      JudgedAs token token.judged

theorem role_judged (token : Token) : token.judged.role = token.role :=
  role_of_kind_ne_unknown token.role_ne_unknown

/-- A token that is judged is no word. -/
theorem spells_judged (token : Token) (word : String) : token.judged.spells word = false := by
  have known : token.judged.kind ≠ .unknown := token.role_ne_unknown
  simp [spells, known]

theorem JudgedAs.sameText {t t' : Token} (judgedAs : t.JudgedAs t') : t.SameText t' := by
  cases judgedAs with
  | same => exact .refl t
  | judged unknown noWord =>
      have words : ∀ word ∈ neverNames ++ neverOperands,
          word ∈ ["AS", "UNION", "ALL", "DISTINCT"] := by decide
      refine ⟨rfl, t.role_judged, fun word listed => ?_⟩
      rw [spells_judged, spells, noWord word (words word listed), Bool.and_false]

end Token

namespace Query

/-- Judging tokens in advance changes nothing. -/
theorem ofTokens_of_judged (limit start : Nat) {tokens others : List Token}
    (judged : List.Forall₂ Token.JudgedAs tokens others) :
    ofTokens limit others start = ofTokens limit tokens start := by
  have same := List.forall₂_drop start (judged.imp fun _ _ judgedAs => judgedAs.sameText)
  have length : others.length = 0 + tokens.length := by
    rw [Nat.zero_add, judged.length_eq]
  have read := ofTokens_of_sameText limit length (by rwa [Nat.zero_add])
  rw [Nat.zero_add] at read
  rw [read]
  cases ofTokens limit tokens start with
  | error error => simp
  | ok result => simp

/-- An alias, a comparator and the end of a split literal may be judged in advance. -/
theorem ofTokens_of_judged_split_literal :
    List.Forall₂ Token.JudgedAs
        [⟨.comma, ","⟩, ⟨.clause .columns, "SELECT"⟩, ⟨.unknown, "a"⟩, ⟨.unknown, "x"⟩,
          ⟨.clause .source, "FROM"⟩, ⟨.unknown, "t"⟩, ⟨.clause .filter, "WHERE"⟩,
          ⟨.unknown, "'New"⟩, ⟨.unknown, "York'"⟩, ⟨.unknown, "<>"⟩, ⟨.unknown, "b"⟩]
        [⟨.comma, ","⟩, ⟨.clause .columns, "SELECT"⟩, ⟨.unknown, "a"⟩, Token.judged ⟨.unknown, "x"⟩,
          ⟨.clause .source, "FROM"⟩, ⟨.unknown, "t"⟩, ⟨.clause .filter, "WHERE"⟩,
          ⟨.unknown, "'New"⟩, Token.judged ⟨.unknown, "York'"⟩, Token.judged ⟨.unknown, "<>"⟩,
          ⟨.unknown, "b"⟩] ∧
      ofTokens 1
        [⟨.comma, ","⟩, ⟨.clause .columns, "SELECT"⟩, ⟨.unknown, "a"⟩, Token.judged ⟨.unknown, "x"⟩,
          ⟨.clause .source, "FROM"⟩, ⟨.unknown, "t"⟩, ⟨.clause .filter, "WHERE"⟩,
          ⟨.unknown, "'New"⟩, Token.judged ⟨.unknown, "York'"⟩, Token.judged ⟨.unknown, "<>"⟩,
          ⟨.unknown, "b"⟩] 1 =
        .ok (.select ⟨[⟨.identifier "a", some "x"⟩], ⟨"t", none⟩,
          some (.comparison .notEqual (.stringLiteral "New York") (.identifier "b"))⟩, 11) := by
  have judged : List.Forall₂ Token.JudgedAs
      [⟨.comma, ","⟩, ⟨.clause .columns, "SELECT"⟩, ⟨.unknown, "a"⟩, ⟨.unknown, "x"⟩,
        ⟨.clause .source, "FROM"⟩, ⟨.unknown, "t"⟩, ⟨.clause .filter, "WHERE"⟩,
        ⟨.unknown, "'New"⟩, ⟨.unknown, "York'"⟩, ⟨.unknown, "<>"⟩, ⟨.unknown, "b"⟩]
      [⟨.comma, ","⟩, ⟨.clause .columns, "SELECT"⟩, ⟨.unknown, "a"⟩, Token.judged ⟨.unknown, "x"⟩,
        ⟨.clause .source, "FROM"⟩, ⟨.unknown, "t"⟩, ⟨.clause .filter, "WHERE"⟩,
        ⟨.unknown, "'New"⟩, Token.judged ⟨.unknown, "York'"⟩, Token.judged ⟨.unknown, "<>"⟩,
        ⟨.unknown, "b"⟩] :=
    .cons (.same _) <| .cons (.same _) <| .cons (.same _) <| .cons (.judged rfl (by decide)) <|
      .cons (.same _) <| .cons (.same _) <| .cons (.same _) <| .cons (.same _) <|
      .cons (.judged rfl (by decide)) <| .cons (.judged rfl (by decide)) <| .cons (.same _) .nil
  refine ⟨judged, ?_⟩
  rw [ofTokens_of_judged 1 1 judged, ← toOption_eq_some_iff]
  decide +kernel

/-- The word `AS` may not: judged in advance it is a name, and `b` follows an alias. -/
example :
    ofTokens 1 [⟨.clause .columns, "SELECT"⟩, ⟨.unknown, "a"⟩, Token.judged ⟨.unknown, "AS"⟩,
      ⟨.unknown, "b"⟩, ⟨.clause .source, "FROM"⟩, ⟨.unknown, "t"⟩] 0 =
      .error (.unsupportedColumn (.afterAlias "b" "AS")) := by
  rfl

end Query

end SelectQuery
