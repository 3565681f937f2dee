import SelectQuery.Proofs.LetterCase
import SelectQuery.Proofs.Likeness.Reading

/-!
# Spellings of keywords and operators

A keyword, a punctuation mark and an operator can be spelled in several ways: in either
case of letters, with other blanks around and within it, or by another sign.  Lists of
lexemes that differ in such spellings only are read as the same query, or fail with the
same error up to the texts in it.

A spelling is kept in one place of a tree, in the text of a split literal that it stands
in.  So the law is about lists in which no lexeme opens a quote without closing it.
-/

namespace SelectQuery

namespace Text

/-- A character that is not blank stands in one of the words of its text. -/
theorem exists_mem_words {text : List Char} {c : Char} (member : c ∈ text)
    (solid : isBlank c = false) : ∃ word ∈ words text, c ∈ word := by
  have inPiece : ∃ piece ∈ text.splitOnP isBlank, c ∈ piece := by
    induction text with
    | nil => cases member
    | cons d text inductionHypothesis =>
        rw [List.splitOnP_cons_eq_if_modifyHead]
        split
        · rename_i blank
          have later : c ∈ text := by
            rcases List.mem_cons.mp member with rfl | later
            · simp [solid] at blank
            · exact later
          obtain ⟨piece, listed, inside⟩ := inductionHypothesis later
          exact ⟨piece, List.mem_cons_of_mem _ listed, inside⟩
        · obtain ⟨first, others, pieces⟩ :=
            List.exists_cons_of_ne_nil (List.splitOnP_ne_nil isBlank text)
          rw [pieces] at inductionHypothesis ⊢
          rcases List.mem_cons.mp member with rfl | later
          · exact ⟨c :: first, List.mem_cons_self, List.mem_cons_self⟩
          · obtain ⟨piece, listed, inside⟩ := inductionHypothesis later
            rcases List.mem_cons.mp listed with rfl | listed
            · exact ⟨d :: piece, List.mem_cons_self, List.mem_cons_of_mem d inside⟩
            · exact ⟨piece, List.mem_cons_of_mem _ listed, inside⟩
  obtain ⟨piece, listed, inside⟩ := inPiece
  refine ⟨piece, List.mem_filter.mpr ⟨listed, ?_⟩, inside⟩
  simpa using List.ne_nil_of_mem inside

end Text

namespace Token

/-- A quote in a text is in the form in which the text is looked up. -/
theorem quote_mem_keywordForm {text : List Char} (member : Text.quote ∈ text) :
    Text.quote ∈ keywordForm text := by
  obtain ⟨word, listed, inside⟩ := Text.exists_mem_words member rfl
  have joined : Text.quote ∈ [' '].intercalate (Text.words text) := by
    generalize Text.words text = words at listed
    cases words with
    | nil => cases listed
    | cons first others =>
        rw [intercalate_cons_eq, List.mem_append, List.mem_flatMap]
        rcases List.mem_cons.mp listed with rfl | later
        · exact .inl inside
        · exact .inr ⟨word, later, List.mem_append_right _ inside⟩
  exact List.mem_flatMap.mpr ⟨Text.quote, joined, List.mem_singleton_self _⟩

/-- A lexeme with the kind of a keyword or punctuation mark is found in their table. -/
theorem keyword?_of_kind {lexeme : String}
    (fixed : (ofLexeme lexeme).kind ∈ keywords.map Prod.snd) :
    ∃ kind, keyword? lexeme = some kind := by
  by_contra absent
  rw [← Option.isSome_iff_exists, Option.not_isSome_iff_eq_none] at absent
  have outside : .empty ∉ keywords.map Prod.snd ∧ .stringLiteral ∉ keywords.map Prod.snd ∧
      .functionCall ∉ keywords.map Prod.snd ∧ .unknown ∉ keywords.map Prod.snd := by decide
  unfold ofLexeme at fixed
  split at fixed
  · exact outside.1 fixed
  · split at fixed
    · exact outside.2.1 fixed
    · split at fixed
      · exact outside.2.2.1 fixed
      · rw [absent] at fixed
        exact outside.2.2.2 fixed

/-- A lexeme of the table holds no quote. -/
theorem quote_notMem_of_keyword? {lexeme : String} {kind : Kind}
    (found : keyword? lexeme = some kind) : Text.quote ∉ lexeme.toList := by
  have noQuote : ∀ entry ∈ keywords, Text.quote ∉ entry.1.toList := by decide
  obtain ⟨before, after, table, _⟩ := List.lookup_eq_some_iff.mp found
  intro member
  apply noQuote (String.ofList (keywordForm lexeme.toList), kind) (by simp [table])
  rw [String.toList_ofList]
  exact quote_mem_keywordForm member

/-- A lexeme that is read for what it is, not for its text, ends with no quote. -/
theorem closesQuote_ofLexeme {lexeme : String}
    (sign : (ofLexeme lexeme).role ∉ [.identifier, .stringLiteral, .functionCall]) :
    Text.closesQuote (ofLexeme lexeme).text = false := by
  have noLiteral : (ofLexeme lexeme).kind ≠ .stringLiteral := by
    intro literal
    rw [← role_eq_stringLiteral_iff] at literal
    simp [literal] at sign
  rcases ofLexeme_kind_cases lexeme with ⟨rfl, _⟩ | literal | ⟨_, call⟩ | fixed | unknown
  · rfl
  · exact absurd literal noLiteral
  · have role : (ofLexeme lexeme).role = .functionCall := by
      rw [role_of_kind_ne_unknown (by simp [call]), call]
    simp [role] at sign
  · obtain ⟨kind, found⟩ := keyword?_of_kind fixed
    rw [ofLexeme_text_of_kind_ne noLiteral, Bool.eq_false_iff]
    intro closing
    have last : lexeme.toList.getLast? = some Text.quote := by
      simpa [Text.closesQuote] using closing
    exact quote_notMem_of_keyword? found (List.mem_of_getLast? last)
  · have noQuote : ∀ word ∈
        (Comparator.spellings.map Prod.fst) ++ Connective.spellings.map Prod.fst,
        Text.closesQuote word = false := by decide
    rw [← Text.closesQuote_upper]
    apply noQuote
    rw [role, unknown] at sign
    dsimp only at sign
    split at sign
    · rename_i found
      obtain ⟨before, after, table, _⟩ := List.lookup_eq_some_iff.mp found
      simp [table]
    · rename_i found
      obtain ⟨before, after, table, _⟩ := List.lookup_eq_some_iff.mp found
      simp [table]
    · simp at sign

/-! ## Lexemes with the same meaning -/

/-- Lexemes that are the same, or different spellings of the same keyword, punctuation
mark, comparator or connective. -/
inductive SameSign : String → String → Prop
  | same (lexeme : String) : SameSign lexeme lexeme
  | fixed {lexeme other : String} {kind : Kind} (listed : kind ∈ keywords.map Prod.snd)
      (first : (ofLexeme lexeme).kind = kind) (second : (ofLexeme other).kind = kind) :
      SameSign lexeme other
  | comparator {lexeme other : String} {comparator : Comparator}
      (first : (ofLexeme lexeme).role = .comparator comparator)
      (second : (ofLexeme other).role = .comparator comparator) : SameSign lexeme other
  | connective {lexeme other : String} {connective : Connective}
      (first : (ofLexeme lexeme).role = .connective connective)
      (second : (ofLexeme other).role = .connective connective) : SameSign lexeme other

/-- Lexemes with the same sign that differ have a role which their text adds nothing to. -/
theorem SameSign.eq_or_role {lexeme other : String} (alike : SameSign lexeme other) :
    other = lexeme ∨ ∃ role ∉ [Kind.identifier, .stringLiteral, .functionCall, .empty],
      (ofLexeme lexeme).role = role ∧ (ofLexeme other).role = role := by
  cases alike with
  | same => exact .inl rfl
  | @fixed _ kind listed first second =>
      have outside : ∀ kind ∈ keywords.map Prod.snd, kind ≠ .unknown ∧
          kind ∉ [Kind.identifier, .stringLiteral, .functionCall, .empty] := by decide
      obtain ⟨known, noText⟩ := outside kind listed
      refine .inr ⟨kind, noText, ?_, ?_⟩
      · rw [role_of_kind_ne_unknown (first ▸ known), first]
      · rw [role_of_kind_ne_unknown (second ▸ known), second]
  | comparator first second => exact .inr ⟨_, by simp, first, second⟩
  | connective first second => exact .inr ⟨_, by simp, first, second⟩

end Token

/-! ## The likeness of signs -/

/-- Shows trees as they are, and errors without the texts in them. -/
def View.withoutFound : View :=
  ⟨id, id, fun _ => "", id⟩

namespace Likeness

/-- A token is alike to itself unless it opens a quote that it does not close, and tokens
with the same role are if their texts add nothing to it and end with no quote. -/
inductive Sign (t : Token) : Token → Prop
  | same (closed : t.role = .identifier → Text.opensQuote t.text = false) : Sign t t
  | sign {t' : Token} (role : t'.role = t.role)
      (noText : t.role ∉ [.identifier, .stringLiteral, .functionCall])
      (noQuote : Text.closesQuote t.text = false)
      (noQuote' : Text.closesQuote t'.text = false) : Sign t t'

namespace Sign

variable {t t' : Token}

theorem role_eq (alike : Sign t t') : t'.role = t.role := by
  cases alike with
  | same => rfl
  | sign role => exact role

/-- A token whose text adds to its role is alike to itself only. -/
theorem eq (alike : Sign t t') (text : t.role ∈ [.identifier, .stringLiteral, .functionCall]) :
    t' = t := by
  cases alike with
  | same => rfl
  | sign _ noText => exact absurd text noText

theorem spells_eq (alike : Sign t t') {word : String}
    (listed : word ∈ Token.neverNames ++ Token.neverOperands) :
    t'.spells word = t.spells word := by
  cases alike with
  | same => rfl
  | sign role noText =>
      have noOperator : ∀ word ∈ Token.neverNames ++ Token.neverOperands,
          Comparator.ofText? word = none ∧ Connective.ofText? word = none := by decide
      have noWord : t.role ≠ .identifier := by
        intro identifier
        simp [identifier] at noText
      rw [Token.spells_eq_false_of_role_ne noWord (noOperator word listed),
        Token.spells_eq_false_of_role_ne (role ▸ noWord) (noOperator word listed)]

theorem closesQuote_eq (alike : Sign t t') :
    Text.closesQuote t'.text = Text.closesQuote t.text := by
  cases alike with
  | same => rfl
  | sign _ _ noQuote noQuote' => rw [noQuote, noQuote']

end Sign

/-- The likeness of tokens with the same sign. -/
def ofSigns : Likeness where
  left := .withoutFound
  right := .withoutFound
  token := Sign
  role := Sign.role_eq
  spells alike _ := alike.spells_eq
  opensQuote alike role := by rw [alike.eq (by simp [role])]
  closesQuote alike _ := alike.closesQuote_eq
  name alike role := by rw [alike.eq (by simp [role])]
  literal alike role := by rw [alike.eq (by simp [role])]
  split head _ _ role opening := by
    cases head with
    | same closed => simp [closed role] at opening
    | sign _ noText => simp [role] at noText
  call alike role := by
    rw [alike.eq (by simp [role])]
    exact .refl (fun error => Eq.refl (View.withoutFound.error error))
      (fun call => Eq.refl (View.withoutFound.expression call)) _
  found _ := rfl
  joined _ := rfl
  foundName _ := rfl

end Likeness

namespace Token.SameSign

variable {lexeme other : String}

theorem eq_empty_iff (alike : SameSign lexeme other) : other = "" ↔ lexeme = "" := by
  rcases alike.eq_or_role with rfl | ⟨role, noText, first, second⟩
  · rfl
  · have nonempty : ∀ text : String, (ofLexeme text).role = role → text ≠ "" := by
      rintro _ rfl rfl
      exact noText (by decide)
    exact iff_of_false (nonempty other second) (nonempty lexeme first)

theorem sign (alike : SameSign lexeme other)
    (closed : Text.opensQuote lexeme = true → (ofLexeme lexeme).kind = .stringLiteral) :
    Likeness.Sign (ofLexeme lexeme) (ofLexeme other) := by
  rcases alike.eq_or_role with rfl | ⟨role, noText, first, second⟩
  · apply Likeness.Sign.same
    intro identifier
    rw [ofLexeme_text_of_kind_ne (by simp [ofLexeme_kind_of_role identifier]), Bool.eq_false_iff]
    intro opening
    have literal := closed opening
    rw [ofLexeme_kind_of_role identifier] at literal
    cases literal
  · subst first
    simp only [List.mem_cons, not_or] at noText
    have noText' : (ofLexeme lexeme).role ∉ [.identifier, .stringLiteral, .functionCall] := by
      simp [noText]
    exact .sign second noText' (closesQuote_ofLexeme noText')
      (closesQuote_ofLexeme (second ▸ noText'))

end Token.SameSign

namespace Query

/-- How keywords, punctuation marks and operators are spelled never decides how a list of
lexemes is read, if no lexeme opens a quote without closing it: lists with the same signs
are read as the same query, or fail with the same error at the same position. -/
theorem ofLexemes_of_sameSign (limit : Nat) {lexemes others : List String}
    (alike : List.Forall₂ Token.SameSign lexemes others)
    (closed : ∀ lexeme ∈ lexemes, Text.opensQuote lexeme = true →
      (Token.ofLexeme lexeme).kind = .stringLiteral) :
    Agree (fun error other => error.outline = other.outline) Eq
      (ofLexemes limit lexemes) (ofLexemes limit others) := by
  have closedAlike := (List.forall₂_and_left lexemes others).mpr ⟨closed, alike⟩
  have tokens : List.Forall₂ Likeness.ofSigns.token (tokensOfLexemes lexemes)
      (tokensOfLexemes others) :=
    Likeness.forall₂_tokensOfLexemes (fun _ _ both => both.2.eq_empty_iff)
      (fun _ _ both => both.2.sign both.1) closedAlike
  have agree := Likeness.agrees_ofLexemes limit tokens fun _ => rfl
  have shown (query : Query) : View.withoutFound.query query = query :=
    View.query_eq_self rfl rfl query
  apply agree.imp
  · exact fun _ _ same => View.outline_eq rfl rfl same
  · exact fun query other same => (shown query).symm.trans (same.trans (shown other))

/-- Case, blanks and other signs make no difference in a keyword, a punctuation mark, a
comparator or a connective. -/
theorem ofLexemes_of_sameSign_blanks :
    List.Forall₂ Token.SameSign
        ["SELECT", "*", "FROM", "t", "WHERE", "a", "=", "'or'", "AND", "b", "!=", "c"]
        ["select", " *", "From\t", "t", "where", "a", "==", "'or'", "and", "b", "<>", "c"] ∧
      (∀ lexeme ∈ ["SELECT", "*", "FROM", "t", "WHERE", "a", "=", "'or'", "AND", "b", "!=", "c"],
        Text.opensQuote lexeme = true → (Token.ofLexeme lexeme).kind = .stringLiteral) ∧
      ofLexemes 1
          ["select", " *", "From\t", "t", "where", "a", "==", "'or'", "and", "b", "<>", "c"] =
        .ok (.select ⟨[⟨.asterisk, none⟩], ⟨"t", none⟩,
          some (.logical .and (.comparison .equal (.identifier "a") (.stringLiteral "or"))
            (.comparison .notEqual (.identifier "b") (.identifier "c")))⟩) := by
  have alike : List.Forall₂ Token.SameSign
      ["SELECT", "*", "FROM", "t", "WHERE", "a", "=", "'or'", "AND", "b", "!=", "c"]
      ["select", " *", "From\t", "t", "where", "a", "==", "'or'", "and", "b", "<>", "c"] := by
    have fixed {lexeme other : String} (kinds :
        (Token.ofLexeme lexeme).kind ∈ Token.keywords.map Prod.snd ∧
          (Token.ofLexeme other).kind = (Token.ofLexeme lexeme).kind) :
        Token.SameSign lexeme other := .fixed kinds.1 rfl kinds.2
    refine .cons (fixed ?_) <| .cons (fixed ?_) <| .cons (fixed ?_) <| .cons (.same "t") <|
      .cons (fixed ?_) <| .cons (.same "a") <| .cons (.comparator rfl rfl) <|
      .cons (.same "'or'") <| .cons (.connective rfl rfl) <| .cons (.same "b") <|
      .cons (.comparator rfl rfl) <| .cons (.same "c") .nil
    all_goals decide +kernel
  have closed : ∀ lexeme ∈ ["SELECT", "*", "FROM", "t", "WHERE", "a", "=", "'or'", "AND", "b", "!=",
      "c"], Text.opensQuote lexeme = true → (Token.ofLexeme lexeme).kind = .stringLiteral := by
    decide
  have read : ofLexemes 1 ["SELECT", "*", "FROM", "t", "WHERE", "a", "=", "'or'", "AND", "b", "!=",
      "c"] =
      .ok (.select ⟨[⟨.asterisk, none⟩], ⟨"t", none⟩,
        some (.logical .and (.comparison .equal (.identifier "a") (.stringLiteral "or"))
          (.comparison .notEqual (.identifier "b") (.identifier "c")))⟩) := by
    rw [← toOption_eq_some_iff]
    decide +kernel
  have agree := ofLexemes_of_sameSign 1 alike closed
  rw [read] at agree
  obtain ⟨other, readOther, rfl⟩ := agree.exists_of_ok
  exact ⟨alike, closed, readOther⟩

end Query

end SelectQuery
