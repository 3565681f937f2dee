import SelectQuery.Error
import SelectQuery.Nesting
import SelectQuery.Query.Expression
import SelectQuery.Text.Blank
import SelectQuery.Text.Quotation

/-!
# Reading a function call

The token of a function call holds its whole text.  The name is what stands before
the first parenthesis; its partner must end the text; and the arguments between
them are cut at the commas that stand neither in further parentheses nor in
quotes.  Arguments are kept as texts, without the blanks around them.
-/

namespace SelectQuery

/-- In the text of a function call, parentheses nest, commas separate, and quotes
hide what stands between them. -/
def callMark (c : Char) : Nesting.Mark :=
  if c = '(' then .opens
  else if c = ')' then .closes
  else if c = ',' then .separates
  else if c = Text.quote then .quotes
  else .plain

/-- The arguments in a text: none if it is blank, and otherwise its pieces without
the blanks around them. -/
def callArguments (text : List Char) : List String :=
  if text.all Text.isBlank then []
  else
    let (first, later) := Nesting.pieces callMark .outer text
    (first :: later).map fun piece => String.ofList (Text.trim piece)

namespace Expression

/-- Read the text of a function call. -/
def ofCall (text : String) : Except Error Expression :=
  match text.toList.dropWhile (· != '(') with
  | [] => .error (.unsupportedColumn (.unknownShape text))
  | _ :: afterOpening =>
      match Nesting.enclosed? callMark .inside afterOpening with
      | none => .error (.unmatchedParenthesis text)
      | some (inner, []) =>
          .ok (.functionCall (String.ofList (text.toList.takeWhile (· != '(')))
            (callArguments inner))
      | some (_, _ :: _) => .error (.unsupportedColumn (.afterArguments text))

/-- A call is read as a function call. -/
theorem exists_of_ofCall {text : String} {expression : Expression}
    (read : ofCall text = .ok expression) :
    ∃ name arguments, expression = .functionCall name arguments := by
  unfold ofCall at read
  split at read
  · cases read
  · split at read
    · cases read
    · cases read
      exact ⟨_, _, rfl⟩
    · cases read

end Expression

end SelectQuery
