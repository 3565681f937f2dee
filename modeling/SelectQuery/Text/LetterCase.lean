/-!
# Letter case

Words are compared without regard to case in two ways.  Operators and the
words `AS`, `UNION`, `ALL` and `DISTINCT` fold ASCII letters only: that is
`upper`, on strings.  Keywords fold by the full upper-case mapping of Unicode,
under which a dotless `ı` is an `I` and a long `ſ` is an `S`.  Keywords are
ASCII, so of that mapping only the forms that are ASCII can matter; `upperForm`
gives exactly these and leaves every other character outside ASCII as it is.
-/

namespace SelectQuery.Text

/-! ## ASCII letters -/

/-- Put the ASCII letters of a text in upper case. -/
def upper (text : String) : String :=
  String.ofList (text.toList.map Char.toUpper)

@[simp]
theorem toList_upper (text : String) :
    (upper text).toList = text.toList.map Char.toUpper := by
  simp [upper]

/-- Whether two texts differ at most in the case of ASCII letters. -/
def sameLetters (text word : String) : Bool :=
  upper text == upper word

theorem sameLetters_iff (text word : String) :
    sameLetters text word = true ↔ upper text = upper word := by
  simp [sameLetters]

/-! ## Full upper-case forms -/

/-- The characters outside ASCII whose upper-case form is ASCII, each with that
form: dotless i, long s, sharp s, and the Latin ligatures. -/
def upperForms : List (Char × List Char) :=
  [('\u0131', ['I']),
    ('\u017F', ['S']),
    ('\u00DF', ['S', 'S']),
    ('\uFB00', ['F', 'F']),
    ('\uFB01', ['F', 'I']),
    ('\uFB02', ['F', 'L']),
    ('\uFB03', ['F', 'F', 'I']),
    ('\uFB04', ['F', 'F', 'L']),
    ('\uFB05', ['S', 'T']),
    ('\uFB06', ['S', 'T'])]

/-- The upper-case form of a character, where that form is ASCII; any other
character stands for itself. -/
def upperForm (c : Char) : List Char :=
  (upperForms.lookup c).getD [c.toUpper]

end SelectQuery.Text
