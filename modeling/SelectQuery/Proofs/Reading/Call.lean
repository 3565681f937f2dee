import SelectQuery.Proofs.Nesting
import SelectQuery.Reader.Call

/-!
# Reading a function call is exact

A text is read as a function call exactly if it is a name without parenthesis and,
between a pair of parentheses, a text whose own parentheses and quotes are balanced.
Nothing of that text is lost but the blanks around the arguments: with a comma between
them the pieces are the text, and none of them holds a comma outside parentheses and
quotes.

A text that is not so is refused for one of two reasons.  Its first parenthesis has no
partner, or it has none, or the partner does not end the text.
-/

namespace SelectQuery

/-! ## Signs -/

theorem callMark_eq_closes_iff (c : Char) : callMark c = .closes ↔ c = ')' := by
  constructor
  · intro closes
    grind [callMark]
  · rintro rfl
    rfl

theorem callMark_eq_separates_iff (c : Char) : callMark c = .separates ↔ c = ',' := by
  constructor
  · intro separates
    grind [callMark]
  · rintro rfl
    rfl

/-- Blanks are content. -/
theorem callMark_of_isBlank {c : Char} (blank : Text.isBlank c = true) :
    callMark c = .plain := by
  have different : ∀ sign, Text.isBlank sign = false → c ≠ sign := by
    rintro sign noBlank rfl
    rw [noBlank] at blank
    contradiction
  rw [callMark, if_neg (different '(' (by decide)), if_neg (different ')' (by decide)),
    if_neg (different ',' (by decide)), if_neg (different Text.quote (by decide))]

/-! ## Arguments -/

/-- Without the blanks around it a text is as balanced as with them. -/
theorem balanced_trim {piece : List Char} (balanced : Nesting.Balanced callMark piece) :
    Nesting.Balanced callMark (Text.trim piece) := by
  obtain ⟨before, after, padded, blankBefore, blankAfter⟩ := Text.exists_eq_append_trim piece
  rw [padded] at balanced
  exact Nesting.balanced_of_padded (fun c member => callMark_of_isBlank (blankBefore c member))
    (fun c member => callMark_of_isBlank (blankAfter c member)) balanced

/-- The arguments in a text: none if it is blank.  Otherwise the text is cut at its commas
outside parentheses and quotes, so that no piece holds such a comma, and an argument is a
piece without the blanks around it. -/
inductive DerivesArguments : List Char → List String → Prop
  | none {inner} (blank : ∀ c ∈ inner, Text.isBlank c = true) : DerivesArguments inner []
  | cut {first others} (visible : ∃ c ∈ [','].intercalate (first :: others), Text.isBlank c = false)
      (pieces : ∀ piece ∈ first :: others,
        Nesting.Balanced callMark piece ∧ Nesting.Uncut callMark piece) :
      DerivesArguments ([','].intercalate (first :: others))
        ((first :: others).map fun piece => String.ofList (Text.trim piece))

/-- A balanced text has the arguments that are read from it, and no others. -/
theorem callArguments_eq_iff {inner : List Char} (balanced : Nesting.Balanced callMark inner)
    (arguments : List String) :
    callArguments inner = arguments ↔ DerivesArguments inner arguments := by
  constructor
  · rintro rfl
    by_cases blank : inner.all Text.isBlank = true
    · rw [callArguments, if_pos blank]
      exact .none (List.all_eq_true.mp blank)
    · generalize cut : Nesting.pieces callMark .outer inner = found
      rcases found with ⟨first, later⟩
      have joined := Nesting.intercalate_pieces
        (fun c => (callMark_eq_separates_iff c).mp) cut
      have visible : ∃ c ∈ [','].intercalate (first :: later), Text.isBlank c = false := by
        rw [joined]
        simpa using blank
      have derived := DerivesArguments.cut visible (Nesting.balanced_of_mem_pieces balanced cut)
      rw [callArguments, if_neg blank, cut]
      rw [joined] at derived
      exact derived
  · intro derived
    cases derived with
    | none blank => rw [callArguments, if_pos (List.all_eq_true.mpr blank)]
    | cut visible pieces =>
        rcases visible with ⟨c, member, noBlank⟩
        rw [callArguments, Nesting.pieces_intercalate (by decide) pieces, if_neg]
        intro blank
        rw [List.all_eq_true.mp blank c member] at noBlank
        cases noBlank

/-- Every argument in a text is balanced by itself. -/
theorem DerivesArguments.balanced {inner : List Char} {arguments : List String}
    (derived : DerivesArguments inner arguments) :
    ∀ argument ∈ arguments, Nesting.Balanced callMark argument.toList := by
  cases derived with
  | none => simp
  | cut visible pieces =>
      rw [List.forall_mem_map]
      intro piece member
      rw [String.toList_ofList]
      exact balanced_trim (pieces piece member).1

/-! ## Calls -/

/-- A text is a call: a name without parenthesis, and between a pair of parentheses a
balanced text with the arguments. -/
inductive DerivesCall (text : String) : String → List String → Prop
  | call {name inner arguments} (written : text.toList = name ++ '(' :: (inner ++ [')']))
      (named : '(' ∉ name) (balanced : Nesting.Balanced callMark inner)
      (cut : DerivesArguments inner arguments) : DerivesCall text (String.ofList name) arguments

/-- The first parenthesis of a text has no partner: no closing parenthesis stands behind a
balanced text. -/
def OpensUnmatched (text : String) : Prop :=
  ∃ name rest, text.toList = name ++ '(' :: rest ∧ '(' ∉ name ∧
    ∀ inner after, rest = inner ++ ')' :: after → ¬ Nesting.Balanced callMark inner

namespace Expression

theorem bne_of_notMem {sign : Char} {text : List Char} (absent : sign ∉ text) :
    ∀ c ∈ text, (c != sign) = true := by
  intro c member
  rw [bne_iff_ne]
  rintro rfl
  exact absent member

/-- What stands in a text before its first parenthesis and behind it decides. -/
theorem ofCall_eq_of_opening {text : String} {name rest : List Char}
    (written : text.toList = name ++ '(' :: rest) (named : '(' ∉ name) :
    ofCall text =
      match Nesting.enclosed? callMark .inside rest with
      | none => .error (.unmatchedParenthesis text)
      | some (inner, []) => .ok (.functionCall (String.ofList name) (callArguments inner))
      | some (_, _ :: _) => .error (.unsupportedColumn (.afterArguments text)) := by
  have nameOnly := bne_of_notMem named
  have opening : text.toList.dropWhile (· != '(') = '(' :: rest := by
    rw [written, List.dropWhile_append_of_pos nameOnly, List.dropWhile_cons_of_neg (by simp)]
  have word : text.toList.takeWhile (· != '(') = name := by
    rw [written, List.takeWhile_append_of_pos nameOnly, List.takeWhile_cons_of_neg (by simp),
      List.append_nil]
  rcases partner : Nesting.enclosed? callMark .inside rest with _ | ⟨inner, _ | ⟨next, later⟩⟩
  · simp only [ofCall, opening, partner]
  · simp only [ofCall, opening, word, partner]
  · simp only [ofCall, opening, partner]

/-- A text without parenthesis is no call. -/
theorem ofCall_eq_of_notMem {text : String} (noParenthesis : '(' ∉ text.toList) :
    ofCall text = .error (.unsupportedColumn (.unknownShape text)) := by
  have nothing : text.toList.dropWhile (· != '(') = [] := by
    rw [← List.append_nil text.toList, List.dropWhile_append_of_pos (bne_of_notMem noParenthesis),
      List.dropWhile_nil]
  rw [ofCall, nothing]

/-- The calls are the texts that are read, each with its name and its arguments. -/
theorem ofCall_eq_ok_iff {text : String} {expression : Expression} :
    ofCall text = .ok expression ↔
      ∃ name arguments, expression = .functionCall name arguments ∧
        DerivesCall text name arguments := by
  constructor
  · intro read
    by_cases opens : '(' ∈ text.toList
    · obtain ⟨name, rest, written, named⟩ := List.eq_append_cons_of_mem opens
      rw [ofCall_eq_of_opening written named] at read
      split at read
      · cases read
      · rename_i inner found
        cases read
        rcases Nesting.enclosed?_inside_eq_some_iff.mp found with ⟨closing, closes, rfl, balanced⟩
        rw [(callMark_eq_closes_iff closing).mp closes] at written
        exact ⟨_, _, rfl, .call written named balanced ((callArguments_eq_iff balanced _).mp rfl)⟩
      · cases read
    · rw [ofCall_eq_of_notMem opens] at read
      cases read
  · rintro ⟨_, arguments, rfl, @⟨name, inner, _, written, named, balanced, cut⟩⟩
    have partner := Nesting.enclosed?_append_of_balanced balanced
      (show callMark ')' = .closes from rfl) []
    rw [ofCall_eq_of_opening written named, partner]
    simp only [(callArguments_eq_iff balanced arguments).mpr cut]

/-- A parenthesis is reported exactly if the first one of the text has no partner. -/
theorem ofCall_eq_unmatchedParenthesis_iff {text : String} :
    ofCall text = .error (.unmatchedParenthesis text) ↔ OpensUnmatched text := by
  constructor
  · intro failed
    by_cases opens : '(' ∈ text.toList
    · obtain ⟨name, rest, written, named⟩ := List.eq_append_cons_of_mem opens
      rw [ofCall_eq_of_opening written named] at failed
      split at failed
      · rename_i noPartner
        have unbalanced := Nesting.enclosed?_inside_eq_none_iff.mp noPartner
        exact ⟨name, rest, written, named,
          fun inner after equal => unbalanced inner ')' after equal rfl⟩
      · cases failed
      · cases failed
    · rw [ofCall_eq_of_notMem opens] at failed
      cases failed
  · rintro ⟨name, rest, written, named, noPartner⟩
    have none : Nesting.enclosed? callMark .inside rest = none := by
      rw [Nesting.enclosed?_inside_eq_none_iff]
      intro inner closing after equal closes
      rw [(callMark_eq_closes_iff closing).mp closes] at equal
      exact noPartner inner after equal
    rw [ofCall_eq_of_opening written named, none]

/-- Any other text that is no call has no parenthesis, or text behind the partner of the
first one. -/
theorem ofCall_eq_unsupportedColumn {text : String}
    (noCall : ∀ name arguments, ¬ DerivesCall text name arguments)
    (matched : ¬ OpensUnmatched text) :
    ofCall text = .error (.unsupportedColumn
      (if '(' ∈ text.toList then .afterArguments text else .unknownShape text)) := by
  by_cases opens : '(' ∈ text.toList
  · obtain ⟨name, rest, written, named⟩ := List.eq_append_cons_of_mem opens
    rw [if_pos opens, ofCall_eq_of_opening written named]
    split
    · rename_i noPartner
      have failed := ofCall_eq_of_opening written named
      rw [noPartner] at failed
      exact absurd (ofCall_eq_unmatchedParenthesis_iff.mp failed) matched
    · rename_i inner found
      have read := ofCall_eq_of_opening written named
      rw [found] at read
      rcases ofCall_eq_ok_iff.mp read with ⟨name, arguments, _, call⟩
      exact absurd call (noCall name arguments)
    · rfl
  · rw [if_neg opens, ofCall_eq_of_notMem opens]

/-- Reading a call loses only the blanks around its arguments, and each text that is no
call has its reason.  A name and arguments are read exactly from the texts that they make
up, every argument is balanced by itself, and any other text is refused: its first
parenthesis has no partner, or it has no parenthesis, or text stands behind the partner. -/
theorem ofCall_decomposes_exactly (text : String) :
    (∀ expression, ofCall text = .ok expression ↔
        ∃ name arguments, expression = .functionCall name arguments ∧
          DerivesCall text name arguments) ∧
      (∀ name arguments, DerivesCall text name arguments →
        ∀ argument ∈ arguments, Nesting.Balanced callMark argument.toList) ∧
      ((∀ name arguments, ¬ DerivesCall text name arguments) →
        (OpensUnmatched text → ofCall text = .error (.unmatchedParenthesis text)) ∧
          (¬ OpensUnmatched text → ofCall text = .error (.unsupportedColumn
            (if '(' ∈ text.toList then .afterArguments text else .unknownShape text)))) := by
  have balanced : ∀ name arguments, DerivesCall text name arguments →
      ∀ argument ∈ arguments, Nesting.Balanced callMark argument.toList := by
    rintro name arguments ⟨_, _, _, cut⟩
    exact cut.balanced
  exact ⟨fun _ => ofCall_eq_ok_iff, balanced, fun noCall =>
    ⟨ofCall_eq_unmatchedParenthesis_iff.mpr, ofCall_eq_unsupportedColumn noCall⟩⟩

/-- Commas in quotes and in further parentheses do not cut, a parenthesis in quotes is no
partner, and no text may stand behind the arguments. -/
theorem ofCall_decomposes_exactly_nested :
    (DerivesCall "f(a, 'x,)', g(b,c) )" "f" ["a", "'x,)'", "g(b,c)"] ∧
        ∀ argument ∈ ["a", "'x,)'", "g(b,c)"], Nesting.Balanced callMark argument.toList) ∧
      ofCall "f('(" = .error (.unmatchedParenthesis "f('(") ∧
      ofCall "f(a)(b)" = .error (.unsupportedColumn (.afterArguments "f(a)(b)")) := by
  have noCall : ∀ {text error}, ofCall text = .error error →
      ∀ name arguments, ¬ DerivesCall text name arguments := by
    intro text error failed name arguments call
    rw [ofCall_eq_ok_iff.mpr ⟨name, arguments, rfl, call⟩] at failed
    cases failed
  have read : ofCall "f(a, 'x,)', g(b,c) )" = .ok (.functionCall "f" ["a", "'x,)'", "g(b,c)"]) :=
    rfl
  have unpartnered : OpensUnmatched "f('(" := ofCall_eq_unmatchedParenthesis_iff.mp rfl
  have partnered : ¬ OpensUnmatched "f(a)(b)" := by
    intro opens
    cases ofCall_eq_unmatchedParenthesis_iff.mpr opens
  obtain ⟨accepts, balances, _⟩ := ofCall_decomposes_exactly "f(a, 'x,)', g(b,c) )"
  obtain ⟨_, _, ⟨⟩, call⟩ := (accepts _).mp read
  have unmatched := ((ofCall_decomposes_exactly "f('(").2.2 (noCall rfl)).1 unpartnered
  have followed := ((ofCall_decomposes_exactly "f(a)(b)").2.2 (noCall rfl)).2 partnered
  exact ⟨⟨call, balances _ _ call⟩, unmatched, followed⟩

end Expression

end SelectQuery
