import SelectQuery.Reader.Call
import SelectQuery.Token.Basic

/-!
# Reading the expression of a column

The tokens of a column are cut at the `||` that stand outside parentheses.  Each
piece is a single token or an expression in parentheses, and the pieces together
are a concatenation if there is more than one.

The recursion goes into parentheses.  Its depth is bounded by a limit that is
spent one level at a time, so reading is total whatever the tokens are.
-/

namespace SelectQuery.Expression

/-- Read a single token. -/
def ofToken (token : Token) : Except Error Expression :=
  match token.role with
  | .asterisk => .ok .asterisk
  | .stringLiteral => .ok (.stringLiteral token.text)
  | .functionCall => ofCall token.text
  | .identifier =>
      if Text.opensQuote token.text || Text.closesQuote token.text then
        .error (.unsupportedColumn (.looseQuote token.text))
      else
        .ok (.identifier token.text)
  | .leftParen | .rightParen => .error (.unmatchedParenthesis token.text)
  | _ => .error (.unsupportedColumn (.unknownShape token.text))

/-- Read the tokens between two `||`, given how to read what stands in a pair of
parentheses. -/
def ofPiece (ofInner : List Token → Except Error Expression) :
    List Token → Except Error Expression
  | [] => .error (.unsupportedColumn .noOperand)
  | [token] => ofToken token
  | first :: others =>
      if first.role = .leftParen then
        match Nesting.enclosed? Token.mark .inside others with
        | none => .error (.unmatchedParenthesis (Token.joinedText (first :: others)))
        | some (_, _ :: _) =>
            .error (.unsupportedColumn (.afterParenthesis (Token.joinedText (first :: others))))
        | some ([], []) => .error (.unsupportedColumn .emptyParentheses)
        | some (inner, []) => (ofInner inner).map .parenthesized
      else if (first :: others).any fun token => token.role = .rightParen then
        .error (.unmatchedParenthesis (Token.joinedText (first :: others)))
      else
        .error (.unsupportedColumn (.unknownShape (Token.joinedText (first :: others))))

/-- Read the tokens of an expression with a number of levels left, its own level
included. -/
def ofTokensWithin (limit : Nat) : Nat → List Token → Except Error Expression
  | 0, _ => .error (.nestingTooDeep limit)
  | levels + 1, tokens =>
      match Nesting.pieces Token.mark .outer tokens with
      | (only, []) => ofPiece (ofTokensWithin limit levels) only
      | (first, later) =>
          ((first :: later).mapM (ofPiece (ofTokensWithin limit levels))).map .concatenation

/-- Read the tokens of an expression whose parentheses may nest up to a limit. -/
def ofTokens (limit : Nat) (tokens : List Token) : Except Error Expression :=
  ofTokensWithin limit (limit + 1) tokens

end SelectQuery.Expression
