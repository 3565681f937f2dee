import SelectQuery.Nesting
import SelectQuery.Operator
import SelectQuery.Text.Quotation

/-!
# Tokens

A token is a lexeme with its kind.  Operators and names all have the kind
`unknown` when they come from a lexeme; what such a token is depends on where it
stands, and its `role` is what it is read as there: a comparator or a connective
if its text spells one, and an identifier otherwise.

Readers look at a token only through its role, through the few words that `spells`
compares it with, and through the quotes at the ends of its text.
-/

namespace SelectQuery

/-- The clauses of a query, each of which a keyword opens. -/
inductive Clause
  /-- Opened by `SELECT`. -/
  | columns
  /-- Opened by `FROM`. -/
  | source
  /-- Opened by `WHERE`. -/
  | filter
  /-- Opened by `ORDER BY`. -/
  | order
  /-- Opened by `LIMIT`. -/
  | limit
  deriving DecidableEq

/-- The kinds of token. -/
inductive Kind
  /-- The token of the empty lexeme. -/
  | empty
  /-- A keyword. -/
  | clause (opened : Clause)
  /-- The operator `||`. -/
  | concat
  | comma
  | leftParen
  | rightParen
  | asterisk
  /-- A text between quotes; the token holds it without them. -/
  | stringLiteral
  /-- A name followed by arguments in parentheses, kept as one text. -/
  | functionCall
  | comparator (operator : Comparator)
  | connective (operator : Connective)
  | identifier
  /-- Any other lexeme. -/
  | unknown
  deriving DecidableEq

/-- A classified lexeme. -/
structure Token where
  kind : Kind
  text : String
  deriving DecidableEq

namespace Token

/-! ## Role -/

/-- What a token is read as.  A token of unknown kind is judged by its text; any
other is what its kind says. -/
def role (token : Token) : Kind :=
  match token.kind with
  | .unknown =>
      match Comparator.ofText? token.text, Connective.ofText? token.text with
      | some operator, _ => .comparator operator
      | none, some operator => .connective operator
      | none, none => .identifier
  | kind => kind

/-- A known kind is the role. -/
theorem role_of_kind_ne_unknown {token : Token} (known : token.kind ≠ .unknown) :
    token.role = token.kind := by
  unfold role
  split
  · contradiction
  · rfl

/-- An unknown token is a comparator, a connective or an identifier. -/
theorem role_of_kind_eq_unknown {token : Token} (unknown : token.kind = .unknown) :
    (∃ operator, token.role = .comparator operator) ∨
      (∃ operator, token.role = .connective operator) ∨ token.role = .identifier := by
  rw [role, unknown]
  dsimp only
  split <;> simp

/-- No role is unknown. -/
theorem role_ne_unknown (token : Token) : token.role ≠ .unknown := by
  by_cases known : token.kind = .unknown
  · rcases role_of_kind_eq_unknown known with ⟨_, role⟩ | ⟨_, role⟩ | role <;> simp [role]
  · rwa [role_of_kind_ne_unknown known]

/-- The role is a string literal only by kind. -/
theorem role_eq_stringLiteral_iff (token : Token) :
    token.role = .stringLiteral ↔ token.kind = .stringLiteral := by
  by_cases known : token.kind = .unknown
  · rcases role_of_kind_eq_unknown known with ⟨_, role⟩ | ⟨_, role⟩ | role <;> simp [role, known]
  · rw [role_of_kind_ne_unknown known]

/-! ## Words -/

/-- Whether a token of unknown kind is a given word, without regard to ASCII
case. -/
def spells (token : Token) (word : String) : Bool :=
  token.kind == .unknown && Text.sameLetters token.text word

theorem spells_iff (token : Token) (word : String) :
    token.spells word = true ↔
      token.kind = .unknown ∧ Text.upper token.text = Text.upper word := by
  simp [spells, Text.sameLetters_iff]

/-- The words that never name a source or an alias. -/
def neverNames : List String :=
  ["AS", "UNION", "ALL"]

/-- The words that may stand before an operand and are none themselves. -/
def neverOperands : List String :=
  ["DISTINCT", "ALL"]

/-- Whether a token can name a source or an alias. -/
def canName (token : Token) : Bool :=
  token.role == .identifier && !Text.opensQuote token.text && !Text.closesQuote token.text &&
    neverNames.all fun word => !token.spells word

/-- Whether an operand can end at a token, so that a name right after it is an
alias. -/
def canEndOperand (token : Token) : Bool :=
  match token.role with
  | .identifier => neverOperands.all fun word => !token.spells word
  | .stringLiteral | .functionCall | .asterisk | .rightParen => true
  | _ => false

/-! ## Text and nesting -/

/-- The text of the lexeme that a token stands for: a string literal has its
quotes back. -/
def lexeme (token : Token) : String :=
  if token.role = .stringLiteral then Text.quoted token.text else token.text

/-- The texts of a list of tokens, with a space between them. -/
def joinedText (tokens : List Token) : String :=
  " ".intercalate (tokens.map Token.text)

/-- Parentheses nest, and `||` separates the parts of a concatenation. -/
def mark (token : Token) : Nesting.Mark :=
  match token.role with
  | .leftParen => .opens
  | .rightParen => .closes
  | .concat => .separates
  | _ => .plain

end Token

/-! ## Positions -/

/-- A token with its position in the list it belongs to. -/
structure Located extends Token where
  position : Nat
  deriving DecidableEq

namespace Located

/-- Number the tokens of a list from a given position on. -/
def number : Nat → List Token → List Located
  | _, [] => []
  | position, token :: tokens => ⟨token, position⟩ :: number (position + 1) tokens

@[simp]
theorem number_nil (position : Nat) : number position [] = [] :=
  rfl

@[simp]
theorem number_cons (position : Nat) (token : Token) (tokens : List Token) :
    number position (token :: tokens) = ⟨token, position⟩ :: number (position + 1) tokens :=
  rfl

@[simp]
theorem length_number (position : Nat) (tokens : List Token) :
    (number position tokens).length = tokens.length := by
  induction tokens generalizing position with
  | nil => rfl
  | cons token tokens inductionHypothesis => simp [inductionHypothesis]

/-- Numbering keeps the tokens. -/
@[simp]
theorem map_toToken_number (position : Nat) (tokens : List Token) :
    (number position tokens).map toToken = tokens := by
  induction tokens generalizing position with
  | nil => rfl
  | cons token tokens inductionHypothesis => simp [inductionHypothesis]

/-- Numbering goes on behind the first of two lists. -/
theorem number_append (position : Nat) (tokens others : List Token) :
    number position (tokens ++ others) =
      number position tokens ++ number (position + tokens.length) others := by
  induction tokens generalizing position with
  | nil => rfl
  | cons token tokens inductionHypothesis =>
      simp [inductionHypothesis, Nat.add_comm, Nat.add_left_comm]

/-- The first number is that of the first token. -/
@[simp]
theorem head?_number (position : Nat) (tokens : List Token) :
    (number position tokens).head? = tokens.head?.map fun token => ⟨token, position⟩ := by
  cases tokens <;> rfl

/-- The tokens from a given index on, each with its index. -/
def tokensFrom (start : Nat) (tokens : List Token) : List Located :=
  number start (tokens.drop start)

end Located

end SelectQuery
