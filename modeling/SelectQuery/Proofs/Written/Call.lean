import SelectQuery.Proofs.Reading.Call
import SelectQuery.Query.Lexemes
import SelectQuery.Token.Lexeme

/-!
# Function calls as lexemes

A function call is written as one lexeme and read from it again.  The calls that
come back unchanged are the legible ones, and they are also the only ones that
reading ever gives: `ofCall_callLexeme` is the one direction, and
`legibleCall_of_ofCall` the other.

What makes an argument legible is stated on its characters alone, without the
loop that cuts arguments.
-/

namespace SelectQuery

/-! ## Legible calls -/

/-- An argument that is cut out of a call as it was written: it has no line feed
and no blank at either end, its parentheses and quotes are balanced, and each of
its commas stands in parentheses or quotes. -/
structure LegibleArgument (argument : String) : Prop where
  oneLine : '\n' ∉ argument.toList
  trimmed : Text.trim argument.toList = argument.toList
  balanced : Nesting.Balanced callMark argument.toList
  uncut : Nesting.Uncut callMark argument.toList

/-- A call that can be read: its name begins with a letter or an underscore and
goes on with these and digits.  A single empty argument is written like none, so
it is not legible. -/
structure LegibleCall (name : String) (arguments : List String) : Prop where
  start : ∃ first ∈ name.toList.head?, Token.isNameStart first = true
  word : ∀ c ∈ name.toList, Token.isNamePart c = true
  legible : ∀ argument ∈ arguments, LegibleArgument argument
  notEmpty : arguments ≠ [""]

/-! ## Characters -/

/-- No character of a name opens the arguments. -/
theorem paren_notMem_of_isNamePart {word : List Char}
    (nameOnly : ∀ c ∈ word, Token.isNamePart c = true) : '(' ∉ word :=
  fun member => absurd (nameOnly '(' member) (by decide)

/-- A name begins with no quote. -/
theorem ne_quote_of_isNameStart {c : Char} (start : Token.isNameStart c = true) :
    c ≠ Text.quote := by
  rintro rfl
  exact absurd start (by decide)

/-! ## Legible calls are read -/

/-- The text between the parentheses of a written call. -/
def writtenArguments (arguments : List String) : List Char :=
  [','].intercalate (arguments.map String.toList)

theorem toList_callLexeme (name : String) (arguments : List String) :
    (Expression.callLexeme name arguments).toList =
      name.toList ++ '(' :: (writtenArguments arguments ++ [')']) := by
  rw [Expression.callLexeme, String.toList_ofList, writtenArguments]

theorem callLexeme_ne_empty (name : String) (arguments : List String) :
    Expression.callLexeme name arguments ≠ "" := by
  rw [Ne, ← String.toList_eq_nil_iff, toList_callLexeme]
  simp

/-- Written arguments are blank only if there are none or a single blank one. -/
theorem blank_of_writtenArguments {first : String} {others : List String}
    (blank : ∀ c ∈ writtenArguments (first :: others), Text.isBlank c = true) :
    others = [] ∧ Text.trim first.toList = [] := by
  cases others with
  | nil =>
      rw [writtenArguments, List.map_singleton, List.intercalate_singleton] at blank
      exact ⟨rfl, (Text.trim_eq_nil_iff first.toList).mpr blank⟩
  | cons second others =>
      have comma : Text.isBlank ',' = true := by
        apply blank
        simp [writtenArguments, List.intercalate_cons_cons]
      exact absurd comma (by decide)

namespace LegibleCall

variable {name : String} {arguments : List String}

/-- The arguments are cut where they were joined. -/
theorem callArguments_eq (call : LegibleCall name arguments) :
    callArguments (writtenArguments arguments) = arguments := by
  cases arguments with
  | nil => rfl
  | cons first others =>
      have legible := call.legible
      have notBlank : ¬ (writtenArguments (first :: others)).all Text.isBlank = true := by
        rw [List.all_eq_true]
        intro blank
        obtain ⟨rfl, nothing⟩ := blank_of_writtenArguments blank
        rw [(legible first (List.mem_singleton_self first)).trimmed] at nothing
        rw [String.toList_eq_nil_iff] at nothing
        exact call.notEmpty (by rw [nothing])
      have cut : Nesting.pieces callMark .outer (writtenArguments (first :: others)) =
          (first.toList, others.map String.toList) := by
        apply Nesting.pieces_intercalate (by decide)
        rw [← List.map_cons, List.forall_mem_map]
        exact fun argument member => ⟨(legible argument member).balanced,
          (legible argument member).uncut⟩
      have kept : ∀ argument ∈ first :: others,
          String.ofList (Text.trim argument.toList) = argument := by
        intro argument member
        rw [(legible argument member).trimmed, String.ofList_toList]
      rw [callArguments, if_neg notBlank, cut]
      calc
        (first.toList :: others.map String.toList).map
            (fun piece => String.ofList (Text.trim piece))
        _ = (first :: others).map fun argument => String.ofList (Text.trim argument.toList) := by
          rw [← List.map_cons, List.map_map]
          rfl
        _ = (first :: others).map id := List.map_congr_left kept
        _ = first :: others := List.map_id _

/-- The written arguments are balanced, so that the last parenthesis is the partner
of the first. -/
theorem balanced (call : LegibleCall name arguments) :
    Nesting.Balanced callMark (writtenArguments arguments) := by
  apply Nesting.balanced_intercalate (by decide)
  rw [List.forall_mem_map]
  exact fun argument member => (call.legible argument member).balanced

/-- A legible call is read from its lexeme. -/
theorem ofCall_callLexeme (call : LegibleCall name arguments) :
    Expression.ofCall (Expression.callLexeme name arguments) =
      .ok (.functionCall name arguments) := by
  have partner := Nesting.enclosed?_append_of_balanced call.balanced
    (show callMark ')' = .closes from rfl) []
  rw [Expression.ofCall_eq_of_opening (toList_callLexeme name arguments)
    (paren_notMem_of_isNamePart call.word), partner]
  simp only [call.callArguments_eq, String.ofList_toList]

theorem oneLine (call : LegibleCall name arguments) : '\n' ∉ writtenArguments arguments := by
  have legible := call.legible
  clear call
  induction arguments with
  | nil => exact List.not_mem_nil
  | cons first others inductionHypothesis =>
      rw [List.forall_mem_cons] at legible
      cases others with
      | nil =>
          rw [writtenArguments, List.map_singleton, List.intercalate_singleton]
          exact legible.1.oneLine
      | cons second others =>
          have later := inductionHypothesis legible.2
          rw [writtenArguments, List.map_cons] at later
          simp [writtenArguments, List.intercalate_cons_cons, legible.1.oneLine, later]

/-- The lexeme of a legible call is classified as one. -/
theorem ofLexeme_callLexeme (call : LegibleCall name arguments) :
    Token.ofLexeme (Expression.callLexeme name arguments) =
      ⟨.functionCall, Expression.callLexeme name arguments⟩ := by
  obtain ⟨first, isFirst, start⟩ := call.start
  obtain ⟨others, nameEq⟩ := List.head?_eq_some_iff.mp isFirst
  have lexeme := toList_callLexeme name arguments
  have unquoted : Text.unquoted? (Expression.callLexeme name arguments) = none := by
    rw [Text.unquoted?, lexeme, nameEq]
    simp [ne_quote_of_isNameStart start]
  have shape : Token.isCallShape (Expression.callLexeme name arguments).toList = true := by
    rw [Token.isCallShape, lexeme, List.dropWhile_append_of_pos call.word, nameEq]
    have stops : Token.isNamePart '(' = false := by decide
    simp [start, stops, call.oneLine]
  rw [Token.ofLexeme, if_neg (callLexeme_ne_empty name arguments), unquoted]
  exact if_pos shape

end LegibleCall

/-! ## What is read is legible -/

/-- The shape of a call: its name, and behind the first parenthesis a single line. -/
theorem exists_of_isCallShape {text : List Char} (shape : Token.isCallShape text = true) :
    ∃ word rest, text = word ++ '(' :: rest ∧
      (∃ first ∈ word.head?, Token.isNameStart first = true) ∧
      (∀ c ∈ word, Token.isNamePart c = true) ∧ '\n' ∉ rest := by
  rw [Token.isCallShape, Bool.and_eq_true, Option.any_eq_true] at shape
  rcases shape with ⟨⟨first, isFirst, start⟩, shape⟩
  split at shape
  · rename_i rest dropped
    have split : text.takeWhile Token.isNamePart ++ '(' :: rest = text := by
      rw [← dropped, List.takeWhile_append_dropWhile]
    have oneLine : '\n' ∉ rest := by
      simp only [Bool.and_eq_true, Bool.not_eq_eq_eq_not, Bool.not_true, List.contains_eq_mem,
        decide_eq_false_iff_not] at shape
      exact shape.2
    have wordFirst : first ∈ (text.takeWhile Token.isNamePart).head? := by
      rw [← split] at isFirst
      cases word : text.takeWhile Token.isNamePart with
      | nil =>
          rw [word, List.nil_append, List.head?_cons, Option.some.injEq] at isFirst
          rw [← isFirst] at start
          exact absurd start (by decide)
      | cons c others =>
          rw [word] at isFirst
          exact isFirst
    exact ⟨text.takeWhile Token.isNamePart, rest, split.symm, ⟨first, wordFirst, start⟩,
      List.all_eq_true.mp List.all_takeWhile, oneLine⟩
  · cases shape

/-- An argument that is cut out of balanced arguments on one line is legible. -/
theorem legibleArgument_of_mem {inner : List Char} (oneLine : '\n' ∉ inner)
    (balanced : Nesting.Balanced callMark inner) :
    ∀ argument ∈ callArguments inner, LegibleArgument argument := by
  rw [callArguments]
  split
  · simp
  · intro argument member
    obtain ⟨piece, isPiece, rfl⟩ := List.mem_map.mp member
    have cut := Nesting.balanced_of_mem_pieces balanced rfl piece isPiece
    have within := Nesting.mem_of_mem_pieces rfl piece isPiece
    obtain ⟨before, after, padded, blankBefore, _⟩ := Text.exists_eq_append_trim piece
    have plainBefore : ∀ c ∈ before, callMark c = .plain :=
      fun c member => callMark_of_isBlank (blankBefore c member)
    constructor
    · rw [String.toList_ofList]
      intro member
      have inPiece : '\n' ∈ piece := by
        rw [padded]
        exact List.mem_append_right _ (List.mem_append_left _ member)
      exact oneLine (within '\n' inPiece)
    · rw [String.toList_ofList, Text.trim_trim]
    · rw [String.toList_ofList]
      exact balanced_trim cut.1
    · rw [String.toList_ofList]
      rw [padded] at cut
      exact Nesting.uncut_of_padded plainBefore cut.2

/-- Arguments are never a single empty one. -/
theorem callArguments_ne (inner : List Char) : callArguments inner ≠ [""] := by
  rw [callArguments]
  split
  · exact (List.cons_ne_nil _ _).symm
  · rename_i notBlank
    intro single
    generalize cut : Nesting.pieces callMark .outer inner = result at single
    rcases result with ⟨piece, later⟩
    simp only [List.map_cons, List.cons.injEq, List.map_eq_nil_iff, String.ofList_eq_empty_iff]
      at single
    rcases single with ⟨nothing, rfl⟩
    rw [Text.trim_eq_nil_iff, ← Nesting.eq_of_pieces_eq_nil cut] at nothing
    exact notBlank (List.all_eq_true.mpr nothing)

/-- Reading a text in the shape of a call gives a legible call. -/
theorem legibleCall_of_ofCall {text : String} {expression : Expression}
    (shape : Token.isCallShape text.toList = true)
    (read : Expression.ofCall text = .ok expression) :
    ∃ name arguments, expression = .functionCall name arguments ∧ LegibleCall name arguments := by
  obtain ⟨word, rest, text, start, nameOnly, oneLine⟩ := exists_of_isCallShape shape
  rw [Expression.ofCall_eq_of_opening text (paren_notMem_of_isNamePart nameOnly)] at read
  split at read
  · cases read
  · rename_i inner found
    cases read
    obtain ⟨closing, _, rfl, balanced⟩ := Nesting.enclosed?_inside_eq_some_iff.mp found
    have innerOneLine : '\n' ∉ inner := fun member => oneLine (List.mem_append_left _ member)
    refine ⟨_, _, rfl, ?_, ?_, legibleArgument_of_mem innerOneLine balanced,
      callArguments_ne inner⟩
    · rwa [String.toList_ofList]
    · rwa [String.toList_ofList]
  · cases read

end SelectQuery
