import SelectQuery.Reader.Column
import SelectQuery.Reader.Condition
import SelectQuery.Reader.Source
import SelectQuery.Token.Lexeme

/-!
# Reading a query

A query is a `SELECT` and, after each set operator, a further one; the set
operators group to the right.  One limit bounds both the number of selects and
the nesting of parentheses within a column.

`Query.ofTokens` reads the query at a position in a list of tokens and says where
it ends.  `Query.ofLexemes` reads a list of lexemes that must be one query from end
to end.
-/

namespace SelectQuery

/-- Read one `SELECT`. -/
def readSelect (limit : Nat) : List Located → Except Error (Select × List Located)
  | [] => .error (.endOfInput .selectKeyword)
  | token :: rest =>
      if token.role = .clause .columns then do
        let (columns, rest) ← readColumns limit .start rest
        let (source, rest) ← readSource rest
        let (filter, rest) ← readFilter rest
        .ok (⟨columns, source, filter⟩, rest)
      else .error (.unexpectedToken .selectKeyword token.text token.position)

/-- The set operator that begins with the word `UNION`, by the tokens after that
word: `ALL` belongs to it. -/
def unionOrUnionAll : List Located → SetOperator × List Located
  | [] => (.union, [])
  | token :: rest => if token.spells "ALL" then (.unionAll, rest) else (.union, token :: rest)

/-- Read a set operator, if there is one.  A `SELECT` must follow it, and is left
to be read. -/
def readSetOperator :
    List Located → Except Error (Option SetOperator × List Located)
  | [] => .ok (none, [])
  | token :: rest =>
      if token.spells "UNION" then
        match unionOrUnionAll rest with
        | (operator, []) => .error (.unionWithoutSelect operator token.position none)
        | (operator, next :: rest) =>
            if next.role = .clause .columns then .ok (some operator, next :: rest)
            else .error (.unionWithoutSelect operator token.position (some next.text))
      else .ok (none, token :: rest)

/-- Read a query with a number of selects left. -/
def readQueryWithin (limit : Nat) : Nat → List Located → Except Error (Query × List Located)
  | 0, _ => .error (.nestingTooDeep limit)
  | selects + 1, tokens => do
      let (statement, rest) ← readSelect limit tokens
      match ← readSetOperator rest with
      | (none, rest) => .ok (.select statement, rest)
      | (some operator, rest) =>
          let (right, rest) ← readQueryWithin limit selects rest
          .ok (.combined operator (.select statement) right, rest)

/-- Read a query of at most as many selects as the limit says. -/
def readQuery (limit : Nat) (tokens : List Located) : Except Error (Query × List Located) :=
  readQueryWithin limit limit tokens

namespace Query

/-- The limit where none is given. -/
def defaultLimit : Nat :=
  64

/-- Read the query that begins at an index of a list of tokens.  The result has
the index of the first token after it. -/
def ofTokens (limit : Nat) (tokens : List Token) (start : Nat) : Except Error (Query × Nat) := do
  let (query, rest) ← readQuery limit (Located.tokensFrom start tokens)
  .ok (query, tokens.length - rest.length)

/-- The tokens of a list of lexemes; empty lexemes are dropped. -/
def tokensOfLexemes (lexemes : List String) : List Token :=
  (lexemes.map Token.ofLexeme).filter fun token => token.kind ≠ .empty

theorem tokensOfLexemes_append (lexemes others : List String) :
    tokensOfLexemes (lexemes ++ others) = tokensOfLexemes lexemes ++ tokensOfLexemes others := by
  rw [tokensOfLexemes, List.map_append, List.filter_append, tokensOfLexemes, tokensOfLexemes]

/-- A lexeme that is not empty has its token. -/
theorem tokensOfLexemes_cons {lexeme : String} (nonempty : lexeme ≠ "") (lexemes : List String) :
    tokensOfLexemes (lexeme :: lexemes) = Token.ofLexeme lexeme :: tokensOfLexemes lexemes := by
  have kept : (Token.ofLexeme lexeme).kind ≠ .empty := by
    rwa [Ne, Token.ofLexeme_kind_eq_empty_iff]
  rw [tokensOfLexemes, List.map_cons, List.filter_cons_of_pos (by simp [kept]), tokensOfLexemes]

/-- A keyword or punctuation mark has the token of its kind. -/
theorem tokensOfLexemes_keyword {lexeme : String} (kind : Kind)
    (listed : (lexeme, kind) ∈ Token.keywords) (lexemes : List String) :
    tokensOfLexemes (lexeme :: lexemes) = ⟨kind, lexeme⟩ :: tokensOfLexemes lexemes := by
  have nonempty : lexeme ≠ "" := by
    rintro rfl
    simp [Token.keywords] at listed
  rw [tokensOfLexemes_cons nonempty, Token.ofLexeme_of_mem_keywords listed]

theorem exists_of_mem_tokensOfLexemes {lexemes : List String} {token : Token}
    (member : token ∈ tokensOfLexemes lexemes) : ∃ lexeme, Token.ofLexeme lexeme = token := by
  rcases List.mem_map.mp (List.mem_filter.mp member).1 with ⟨lexeme, _, equal⟩
  exact ⟨lexeme, equal⟩

/-- Read a list of lexemes that is one query from end to end. -/
def ofLexemes (limit : Nat) (lexemes : List String) : Except Error Query := do
  let (query, rest) ← readQuery limit (Located.tokensFrom 0 (tokensOfLexemes lexemes))
  match rest with
  | [] => .ok query
  | token :: _ => .error (.trailingToken token.text token.position)

end Query

end SelectQuery
