import SelectQuery.Error
import SelectQuery.Query.Basic
import SelectQuery.Token.Basic

/-!
# Reading a source

After `FROM` comes the name of the table and then, if there is one, its alias: a
name, which `AS` may announce.
-/

namespace SelectQuery

/-- Read a name where one is needed. -/
def readName (expected : Expectation) : List Located → Except Error (String × List Located)
  | [] => .error (.endOfInput expected)
  | token :: rest =>
      if token.canName then .ok (token.text, rest)
      else .error (.unexpectedToken expected token.text token.position)

/-- Read an alias, if there is one. -/
def readAlias : List Located → Except Error (Option String × List Located)
  | [] => .ok (none, [])
  | token :: rest =>
      if token.spells "AS" then do
        let (name, rest) ← readName .aliasName rest
        .ok (some name, rest)
      else if token.canName then .ok (some token.text, rest)
      else .ok (none, token :: rest)

/-- Read the name of a table and its alias. -/
def readSource (tokens : List Located) : Except Error (Source × List Located) := do
  let (name, rest) ← readName .sourceName tokens
  let (alias?, rest) ← readAlias rest
  .ok (⟨name, alias?⟩, rest)

end SelectQuery
