/-!
# Quotation marks

A quoted text stands between two single quotes.  Nothing is escaped: the text
between the outer quotes is taken as it is, inner quotes included.  `unquoted?`
reads exactly what `quoted` writes.
-/

namespace SelectQuery.Text

/-- The quotation mark. -/
def quote : Char :=
  '\''

/-- Put a text between quotes. -/
def quoted (text : String) : String :=
  String.ofList (quote :: (text.toList ++ [quote]))

@[simp]
theorem toList_quoted (text : String) :
    (quoted text).toList = quote :: (text.toList ++ [quote]) := by
  simp [quoted]

/-- There are at least the quotes. -/
theorem quoted_ne_empty (text : String) : quoted text ≠ "" := by
  rw [Ne, ← String.toList_inj]
  simp

/-- Whether a text begins with a quote. -/
def opensQuote (text : String) : Bool :=
  text.toList.head? == some quote

/-- Whether a text ends with a quote. -/
def closesQuote (text : String) : Bool :=
  text.toList.getLast? == some quote

@[simp]
theorem opensQuote_quoted (text : String) : opensQuote (quoted text) = true := by
  simp [opensQuote]

@[simp]
theorem closesQuote_quoted (text : String) : closesQuote (quoted text) = true := by
  simp [closesQuote, List.getLast?_cons]

/-- The text without its first character. -/
def withoutFirst (text : String) : String :=
  String.ofList text.toList.tail

/-- The text without its last character. -/
def withoutLast (text : String) : String :=
  String.ofList text.toList.dropLast

/-- The text between the quotes, if a text of at least two characters begins and
ends with one. -/
def unquoted? (text : String) : Option String :=
  match text.toList with
  | [] => none
  | first :: rest =>
      if first = quote ∧ rest.getLast? = some quote then some (String.ofList rest.dropLast)
      else none

/-- Reading is exact: the texts that have a text between quotes are the quoted
ones. -/
theorem unquoted?_eq_some_iff {text inner : String} :
    unquoted? text = some inner ↔ text = quoted inner := by
  have sameCharacters : text = quoted inner ↔ text.toList = quote :: (inner.toList ++ [quote]) := by
    rw [← toList_quoted, String.toList_inj]
  rw [sameCharacters, unquoted?]
  cases text.toList with
  | nil => simp
  | cons first rest =>
      by_cases marks : first = quote ∧ rest.getLast? = some quote
      · rcases marks with ⟨rfl, closing⟩
        rcases List.getLast?_eq_some_iff.mp closing with ⟨between, rfl⟩
        simp [← String.toList_inj]
      · simp only [marks, if_false, reduceCtorEq, false_iff, List.cons.injEq]
        rintro ⟨rfl, rfl⟩
        simp at marks

@[simp]
theorem unquoted?_quoted (text : String) : unquoted? (quoted text) = some text :=
  unquoted?_eq_some_iff.mpr rfl

/-- Different texts stay different between quotes. -/
theorem quoted_inj {text other : String} : quoted text = quoted other ↔ text = other := by
  rw [← unquoted?_eq_some_iff, unquoted?_quoted, Option.some.injEq]

end SelectQuery.Text
