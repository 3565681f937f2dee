import SelectQuery.Text.Blank
import SelectQuery.Token.Basic

/-!
# Classification of lexemes

Every lexeme has one token, and classification never fails.  The first rule that
fits decides: the empty lexeme, a text between quotes, the shape of a function
call, and a keyword or punctuation mark of the table; anything else is unknown.
-/

namespace SelectQuery.Token

/-! ## The shape of a function call -/

/-- Whether a character can begin the name of a function. -/
def isNameStart (c : Char) : Bool :=
  c.isAlpha || c == '_'

/-- Whether a character can stand in the name of a function. -/
def isNamePart (c : Char) : Bool :=
  c.isAlphanum || c == '_'

/-- A name, an opening parenthesis, any text without a line feed, and a closing
parenthesis at the very end. -/
def isCallShape (text : List Char) : Bool :=
  text.head?.any isNameStart &&
    match text.dropWhile isNamePart with
    | '(' :: rest => rest.getLast? == some ')' && !rest.contains '\n'
    | _ => false

/-! ## Keywords and punctuation -/

/-- The lexemes with a fixed meaning, spelled in upper case with single spaces. -/
def keywords : List (String × Kind) :=
  [("SELECT", .clause .columns),
    ("FROM", .clause .source),
    ("WHERE", .clause .filter),
    ("ORDER BY", .clause .order),
    ("LIMIT", .clause .limit),
    ("||", .concat),
    (",", .comma),
    ("(", .leftParen),
    (")", .rightParen),
    ("*", .asterisk)]

/-- The form in which a text is looked up: its words, with a space between them,
in upper case. -/
def keywordForm (text : List Char) : List Char :=
  ([' '].intercalate (Text.words text)).flatMap Text.upperForm

/-- The kind of a keyword or punctuation mark. -/
def keyword? (lexeme : String) : Option Kind :=
  keywords.lookup (String.ofList (keywordForm lexeme.toList))

/-- The kind of a keyword or punctuation mark is one of those in the table. -/
theorem mem_keywords_of_keyword? {lexeme : String} {kind : Kind}
    (found : keyword? lexeme = some kind) : kind ∈ keywords.map Prod.snd := by
  rcases List.lookup_eq_some_iff.mp found with ⟨before, after, table, _⟩
  rw [table]
  simp

/-! ## Classification -/

/-- The token of a lexeme. -/
def ofLexeme (lexeme : String) : Token :=
  if lexeme = "" then ⟨.empty, lexeme⟩
  else
    match Text.unquoted? lexeme with
    | some text => ⟨.stringLiteral, text⟩
    | none =>
        if isCallShape lexeme.toList then ⟨.functionCall, lexeme⟩
        else ⟨(keyword? lexeme).getD .unknown, lexeme⟩

/-- A text between quotes is a string literal, whatever it holds. -/
@[simp]
theorem ofLexeme_quoted (text : String) :
    ofLexeme (Text.quoted text) = ⟨.stringLiteral, text⟩ := by
  simp [ofLexeme, Text.quoted_ne_empty]

/-- Only a text between quotes is a string literal. -/
theorem ofLexeme_kind_eq_stringLiteral_iff (lexeme : String) :
    (ofLexeme lexeme).kind = .stringLiteral ↔ ∃ text, lexeme = Text.quoted text := by
  constructor
  · intro literal
    unfold ofLexeme at literal
    split at literal
    · cases literal
    · split at literal
      · rename_i text unquoted
        exact ⟨text, Text.unquoted?_eq_some_iff.mp unquoted⟩
      · split at literal
        · cases literal
        · cases found : keyword? lexeme with
          | none => simp [found] at literal
          | some kind =>
              have listed := mem_keywords_of_keyword? found
              simp only [found, Option.getD_some] at literal
              subst literal
              exact absurd listed (by decide)
  · rintro ⟨text, rfl⟩
    simp

/-- A lexeme that is not between quotes is the text of its token. -/
theorem ofLexeme_text_of_kind_ne {lexeme : String}
    (other : (ofLexeme lexeme).kind ≠ .stringLiteral) : (ofLexeme lexeme).text = lexeme := by
  unfold ofLexeme at other ⊢
  split
  · rfl
  · split
    · simp_all
    · split <;> rfl

/-- A token gives back the lexeme it was made from. -/
@[simp]
theorem lexeme_ofLexeme (lexeme : String) : (ofLexeme lexeme).lexeme = lexeme := by
  by_cases literal : (ofLexeme lexeme).kind = .stringLiteral
  · rcases (ofLexeme_kind_eq_stringLiteral_iff lexeme).mp literal with ⟨text, rfl⟩
    simp [Token.lexeme, role]
  · simp [Token.lexeme, role_eq_stringLiteral_iff, literal, ofLexeme_text_of_kind_ne literal]

/-- The keywords and punctuation marks of the table have the kinds it gives. -/
theorem ofLexeme_of_mem_keywords {lexeme : String} {kind : Kind}
    (listed : (lexeme, kind) ∈ keywords) : ofLexeme lexeme = ⟨kind, lexeme⟩ := by
  have table : ∀ entry ∈ keywords, ofLexeme entry.1 = ⟨entry.2, entry.1⟩ := by decide
  exact table (lexeme, kind) listed

/-! ## The rule that decides -/

/-- The kind of a token tells which rule its lexeme fits. -/
theorem ofLexeme_kind_cases (lexeme : String) :
    (lexeme = "" ∧ (ofLexeme lexeme).kind = .empty) ∨
      (ofLexeme lexeme).kind = .stringLiteral ∨
      (isCallShape lexeme.toList = true ∧ (ofLexeme lexeme).kind = .functionCall) ∨
      (ofLexeme lexeme).kind ∈ keywords.map Prod.snd ∨
      (ofLexeme lexeme).kind = .unknown := by
  unfold ofLexeme
  split
  · rename_i nothing
    exact .inl ⟨nothing, rfl⟩
  · split
    · exact .inr (.inl rfl)
    · split
      · rename_i shape
        exact .inr (.inr (.inl ⟨shape, rfl⟩))
      · cases found : keyword? lexeme with
        | none => exact .inr (.inr (.inr (.inr rfl)))
        | some kind => exact .inr (.inr (.inr (.inl (mem_keywords_of_keyword? found))))

/-- Only the empty lexeme has the token that readers drop. -/
theorem ofLexeme_kind_eq_empty_iff (lexeme : String) :
    (ofLexeme lexeme).kind = .empty ↔ lexeme = "" := by
  constructor
  · intro empty
    rcases ofLexeme_kind_cases lexeme with ⟨nothing, _⟩ | kind | ⟨_, kind⟩ | kind | kind
    · exact nothing
    · simp [empty] at kind
    · simp [empty] at kind
    · rw [empty] at kind
      exact absurd kind (by decide)
    · simp [empty] at kind
  · rintro rfl
    rfl

/-- The token of a function call has its shape. -/
theorem isCallShape_of_ofLexeme {lexeme : String}
    (call : (ofLexeme lexeme).kind = .functionCall) : isCallShape lexeme.toList = true := by
  rcases ofLexeme_kind_cases lexeme with ⟨_, kind⟩ | kind | ⟨shape, _⟩ | kind | kind
  · simp [call] at kind
  · simp [call] at kind
  · exact shape
  · rw [call] at kind
    exact absurd kind (by decide)
  · simp [call] at kind

/-- The kind of a lexeme that is read as an identifier is unknown. -/
theorem ofLexeme_kind_of_role {lexeme : String} (role : (ofLexeme lexeme).role = .identifier) :
    (ofLexeme lexeme).kind = .unknown := by
  by_cases known : (ofLexeme lexeme).kind = .unknown
  · exact known
  · rw [role_of_kind_ne_unknown known] at role
    rcases ofLexeme_kind_cases lexeme with ⟨_, kind⟩ | kind | ⟨_, kind⟩ | kind | kind
    · simp [role] at kind
    · simp [role] at kind
    · simp [role] at kind
    · rw [role] at kind
      exact absurd kind (by decide)
    · exact kind

end SelectQuery.Token
