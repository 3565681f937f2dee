import SelectQuery.Token.Lexeme

/-!
# Letter case and classification

Every test that classification makes of a character gives the same answer for an
ASCII letter in upper and in lower case.  So the kind of a lexeme does not depend on
the case of its letters, and its text changes case with the lexeme.

The tests are finitely many and so are the letters: `congr_toUpper` reduces each
test to the twenty-six lower-case letters.
-/

namespace SelectQuery

namespace Text

/-! ## Characters -/

/-- The ASCII letters in lower case. -/
def lowerLetters : List Char :=
  (List.range' 97 26).map Char.ofNat

/-- Only lower-case letters change in upper case. -/
theorem toUpper_eq_self {c : Char} (other : c ∉ lowerLetters) : c.toUpper = c := by
  unfold Char.toUpper
  split
  · rename_i lower
    have bounds : 97 ≤ c.toNat ∧ c.toNat ≤ 122 := lower
    have member : c ∈ lowerLetters := by
      refine List.mem_map.mpr ⟨c.toNat, ?_, Char.ofNat_toNat c⟩
      rw [List.mem_range'_1]
      omega
    exact absurd member other
  · rfl

/-- What is the same for the lower-case letters and their upper case is the same for
every character and its upper case. -/
theorem congr_toUpper {β : Type} {test : Char → β}
    (same : lowerLetters.map (fun c => test c.toUpper) = lowerLetters.map test) (c : Char) :
    test c.toUpper = test c := by
  by_cases lower : c ∈ lowerLetters
  · exact List.map_inj_left.mp same c lower
  · rw [toUpper_eq_self lower]

/-- A character that is no letter is the upper case of itself alone. -/
theorem toUpper_eq_iff {sign : Char}
    (noLetter : sign ∉ lowerLetters ++ lowerLetters.map Char.toUpper) (c : Char) :
    c.toUpper = sign ↔ c = sign := by
  rw [List.mem_append, not_or] at noLetter
  by_cases lower : c ∈ lowerLetters
  · have upper : c.toUpper ≠ sign := fun equal =>
      noLetter.2 (equal ▸ List.mem_map_of_mem lower)
    have other : c ≠ sign := fun equal => noLetter.1 (equal ▸ lower)
    simp [upper, other]
  · rw [toUpper_eq_self lower]

/-! ## Blanks, words and quotes -/

theorem isBlank_toUpper : ∀ c : Char, isBlank c.toUpper = isBlank c :=
  congr_toUpper (by decide)

/-- Upper case does not move the ends of a text between its blanks. -/
theorem trim_map_toUpper (text : List Char) :
    trim (text.map Char.toUpper) = (trim text).map Char.toUpper := by
  simp only [trim, List.dropWhile_map, Function.comp_def, isBlank_toUpper, ← List.map_reverse]

/-- Upper case does not move the cuts between words. -/
theorem words_map_toUpper (text : List Char) :
    words (text.map Char.toUpper) = (words text).map (List.map Char.toUpper) := by
  have cuts : (text.map Char.toUpper).splitOnP isBlank =
      (text.splitOnP isBlank).map (List.map Char.toUpper) := by
    induction text with
    | nil => rfl
    | cons c text inductionHypothesis =>
        rw [List.map_cons, List.splitOnP_cons_eq_if_modifyHead,
          List.splitOnP_cons_eq_if_modifyHead, inductionHypothesis, isBlank_toUpper]
        split
        · rfl
        · cases text.splitOnP isBlank <;> rfl
  rw [words, cuts, words, List.filter_map]
  congr 1
  apply List.filter_congr
  intro word _
  simp

/-- A function on characters may be applied before or after joining texts. -/
theorem map_intercalate (f : Char → Char) (separator : List Char) (texts : List (List Char)) :
    (separator.intercalate texts).map f =
      (separator.map f).intercalate (texts.map (List.map f)) := by
  induction texts with
  | nil => rfl
  | cons first others inductionHypothesis =>
      cases others with
      | nil => simp
      | cons second others =>
          simpa [List.intercalate_cons_cons] using inductionHypothesis

/-- A text in upper case stays as it is. -/
@[simp]
theorem upper_upper (text : String) : upper (upper text) = upper text := by
  have twice : ∀ c : Char, c.toUpper.toUpper = c.toUpper := congr_toUpper (by decide)
  simp [← String.toList_inj, twice]

@[simp]
theorem upper_append (text other : String) : upper (text ++ other) = upper text ++ upper other := by
  simp [← String.toList_inj]

/-- Texts are put in upper case one by one. -/
theorem upper_intercalate (separator : String) (texts : List String) :
    upper (separator.intercalate texts) = (upper separator).intercalate (texts.map upper) := by
  rw [← String.toList_inj, toList_upper, String.toList_intercalate, String.toList_intercalate,
    map_intercalate, toList_upper, List.map_map, List.map_map]
  congr 2
  exact funext fun text => (toList_upper text).symm

@[simp]
theorem upper_quoted (text : String) : upper (quoted text) = quoted (upper text) := by
  rw [← String.toList_inj]
  simp [show quote.toUpper = quote from rfl]

@[simp]
theorem upper_withoutFirst (text : String) :
    upper (withoutFirst text) = withoutFirst (upper text) := by
  simp [withoutFirst, ← String.toList_inj]

@[simp]
theorem upper_withoutLast (text : String) :
    upper (withoutLast text) = withoutLast (upper text) := by
  simp [withoutLast, ← String.toList_inj, List.map_dropLast]

theorem opensQuote_upper (text : String) : opensQuote (upper text) = opensQuote text := by
  have sameQuote : ∀ c : Char, c.toUpper = quote ↔ c = quote := toUpper_eq_iff (by decide)
  rw [Bool.eq_iff_iff]
  simp [opensQuote, sameQuote]

theorem closesQuote_upper (text : String) : closesQuote (upper text) = closesQuote text := by
  have sameQuote : ∀ c : Char, c.toUpper = quote ↔ c = quote := toUpper_eq_iff (by decide)
  rw [Bool.eq_iff_iff]
  simp [closesQuote, sameQuote]

theorem unquoted?_upper (text : String) : unquoted? (upper text) = (unquoted? text).map upper := by
  have sameQuote : ∀ c : Char, c.toUpper = quote ↔ c = quote := toUpper_eq_iff (by decide)
  unfold unquoted?
  rw [toList_upper]
  cases text.toList with
  | nil => rfl
  | cons first rest =>
      have sameLast : (rest.map Char.toUpper).getLast? = some quote ↔
          rest.getLast? = some quote := by
        simp [sameQuote]
      simp only [List.map_cons, sameQuote, sameLast]
      split
      · simp [← String.toList_inj, List.map_dropLast]
      · rfl

end Text

/-! ## Lexemes -/

namespace Token

open Text (upper toUpper_eq_iff congr_toUpper)

theorem isCallShape_map_toUpper (text : List Char) :
    isCallShape (text.map Char.toUpper) = isCallShape text := by
  have sameStart : ∀ c : Char, isNameStart c.toUpper = isNameStart c := congr_toUpper (by decide)
  have samePart : ∀ c : Char, isNamePart c.toUpper = isNamePart c := congr_toUpper (by decide)
  have sameOpening : ∀ c : Char, c.toUpper = '(' ↔ c = '(' := toUpper_eq_iff (by decide)
  have sameClosing : ∀ c : Char, c.toUpper = ')' ↔ c = ')' := toUpper_eq_iff (by decide)
  have sameFeed : ∀ c : Char, c.toUpper = '\n' ↔ c = '\n' := toUpper_eq_iff (by decide)
  unfold isCallShape
  simp only [List.head?_map, Option.any_map, sameStart, List.dropWhile_map, Function.comp_def,
    samePart]
  congr 1
  cases text.dropWhile isNamePart with
  | nil => rfl
  | cons c rest =>
      by_cases opening : c = '('
      · subst opening
        have last : ((rest.map Char.toUpper).getLast? == some ')') =
            (rest.getLast? == some ')') := by
          rw [Bool.eq_iff_iff]
          simp [sameClosing]
        have feed : (rest.map Char.toUpper).contains '\n' = rest.contains '\n' := by
          rw [Bool.eq_iff_iff]
          simp [sameFeed]
        simp only [List.map_cons, show '('.toUpper = '(' from rfl, last, feed]
      · have other : c.toUpper ≠ '(' := mt (sameOpening c).mp opening
        simp [opening, other]

theorem keywordForm_map_toUpper (text : List Char) :
    keywordForm (text.map Char.toUpper) = keywordForm text := by
  have sameForm : ∀ c : Char, Text.upperForm c.toUpper = Text.upperForm c :=
    congr_toUpper (by decide)
  rw [keywordForm, Text.words_map_toUpper,
    show [' '] = [' '].map Char.toUpper from rfl, ← Text.map_intercalate, List.flatMap_map]
  simp only [sameForm, keywordForm]

/-- The token of a lexeme in upper case has the same kind and the text in upper
case. -/
theorem ofLexeme_upper (lexeme : String) :
    ofLexeme (upper lexeme) = ⟨(ofLexeme lexeme).kind, upper (ofLexeme lexeme).text⟩ := by
  have empty : upper lexeme = "" ↔ lexeme = "" := by
    rw [← String.toList_eq_nil_iff, ← String.toList_eq_nil_iff, Text.toList_upper,
      List.map_eq_nil_iff]
  have keyword : keyword? (upper lexeme) = keyword? lexeme := by
    rw [keyword?, Text.toList_upper, keywordForm_map_toUpper, keyword?]
  unfold ofLexeme
  simp only [empty, Text.unquoted?_upper, Text.toList_upper, isCallShape_map_toUpper, keyword]
  split
  · rfl
  · cases Text.unquoted? lexeme with
    | some text => rfl
    | none =>
        simp only [Option.map_none]
        split <;> rfl

end Token

end SelectQuery
