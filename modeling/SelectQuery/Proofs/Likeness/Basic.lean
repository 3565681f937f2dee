import Mathlib.Data.List.Forall2
import SelectQuery.Proofs.Likeness.View
import SelectQuery.Proofs.Reading.Query

/-!
# Reading like tokens

Two lists of tokens that correspond one by one are read alike if readers cannot tell
corresponding tokens apart: they have the same role, the same quotes and the same
words, and what their texts add to a result looks the same.  Then the two outcomes
look the same, each under its view.

A `Likeness` holds a correspondence of tokens with the reasons why readers respect
it.  Every reader has one lemma, quantified over the likeness; sequencing is done
once, for any two readers.
-/

namespace SelectQuery

/-! ## Agreement of outcomes -/

/-- Two outcomes are both errors or both values, related accordingly. -/
inductive Agree {ε α : Type} (errors : ε → ε → Prop) (values : α → α → Prop) :
    Except ε α → Except ε α → Prop
  | error {error other} (related : errors error other) :
      Agree errors values (.error error) (.error other)
  | ok {value other} (related : values value other) :
      Agree errors values (.ok value) (.ok other)

namespace Agree

variable {ε α β : Type} {errors : ε → ε → Prop} {values : α → α → Prop} {results : β → β → Prop}

/-- An outcome agrees with itself. -/
theorem refl (errorsRefl : ∀ error, errors error error) (valuesRefl : ∀ value, values value value)
    (outcome : Except ε α) : Agree errors values outcome outcome := by
  cases outcome with
  | error error => exact .error (errorsRefl error)
  | ok value => exact .ok (valuesRefl value)

theorem bind {first first' : Except ε α} {next next' : α → Except ε β}
    (agree : Agree errors values first first')
    (later : ∀ value value', values value value' →
      Agree errors results (next value) (next' value')) :
    Agree errors results (first >>= next) (first' >>= next') := by
  cases agree with
  | error related => exact .error related
  | ok related => exact later _ _ related

theorem map {first first' : Except ε α} {f f' : α → β} (agree : Agree errors values first first')
    (later : ∀ value value', values value value' → results (f value) (f' value')) :
    Agree errors results (first.map f) (first'.map f') := by
  cases agree with
  | error related => exact .error related
  | ok related => exact .ok (later _ _ related)

theorem exists_of_ok {value : α} {outcome : Except ε α}
    (agree : Agree errors values (.ok value) outcome) :
    ∃ other, outcome = .ok other ∧ values value other := by
  cases agree with
  | ok related => exact ⟨_, rfl, related⟩

theorem exists_of_error {error : ε} {outcome : Except ε α}
    (agree : Agree errors values (.error error) outcome) :
    ∃ other, outcome = .error other ∧ errors error other := by
  cases agree with
  | error related => exact ⟨_, rfl, related⟩

/-- Weaker relations hold of the same outcomes. -/
theorem imp {errors' : ε → ε → Prop} {values' : α → α → Prop} {first first' : Except ε α}
    (agree : Agree errors values first first')
    (weakerErrors : ∀ error error', errors error error' → errors' error error')
    (weakerValues : ∀ value value', values value value' → values' value value') :
    Agree errors' values' first first' := by
  cases agree with
  | error related => exact .error (weakerErrors _ _ related)
  | ok related => exact .ok (weakerValues _ _ related)

end Agree

namespace Nesting

variable {α : Type} {mark : α → Mark} {related : α → α → Prop}

/-- Related items with the same marks are cut alike. -/
theorem forall₂_pieces (marks : ∀ x y, related x y → mark y = mark x) {xs ys : List α}
    (items : List.Forall₂ related xs ys) (level : Level) :
    List.Forall₂ related (pieces mark level xs).1 (pieces mark level ys).1 ∧
      List.Forall₂ (List.Forall₂ related) (pieces mark level xs).2 (pieces mark level ys).2 := by
  induction items generalizing level with
  | nil => exact ⟨.nil, .nil⟩
  | @cons x y xs ys first _ inductionHypothesis =>
      have sameMark := marks x y first
      by_cases cut : mark x = .separates ∧ level.isOuter = true
      · rw [pieces_cons_of_cut xs cut.1 cut.2,
          pieces_cons_of_cut ys (sameMark.trans cut.1) cut.2]
        exact ⟨.nil, .cons (inductionHypothesis level).1 (inductionHypothesis level).2⟩
      · rw [pieces_cons_of_keep xs cut, pieces_cons_of_keep ys (by rwa [sameMark]), sameMark]
        have later := inductionHypothesis (level.after (mark x))
        exact ⟨.cons first later.1, later.2⟩

/-- Related items with the same marks enclose related items. -/
theorem forall₂_enclosed? (marks : ∀ x y, related x y → mark y = mark x) {xs ys : List α}
    (items : List.Forall₂ related xs ys) (level : Level) :
    Option.Rel (fun found found' =>
      List.Forall₂ related found.1 found'.1 ∧ List.Forall₂ related found.2 found'.2)
      (enclosed? mark level xs) (enclosed? mark level ys) := by
  induction items generalizing level with
  | nil => exact .none
  | @cons x y xs ys first later inductionHypothesis =>
      rw [enclosed?, enclosed?, marks x y first]
      split
      · exact .some ⟨.nil, later⟩
      · have found := inductionHypothesis (level.after (mark x))
        generalize enclosed? mark (level.after (mark x)) xs = left at found ⊢
        generalize enclosed? mark (level.after (mark x)) ys = right at found ⊢
        cases found with
        | none => exact .none
        | some parts => exact .some ⟨.cons first parts.1, parts.2⟩

end Nesting

/-! ## Likenesses -/

/-- A correspondence of tokens that readers respect, with the views under which what
they read from corresponding tokens looks the same. -/
structure Likeness where
  /-- Shows what is read from the first of two lists. -/
  left : View
  /-- Shows what is read from the second. -/
  right : View
  /-- Which tokens correspond. -/
  token : Token → Token → Prop
  -- What readers test of a token.
  role {t t' : Token} : token t t' → t'.role = t.role
  spells {t t' : Token} : token t t' →
    ∀ word ∈ Token.neverNames ++ Token.neverOperands, t'.spells word = t.spells word
  opensQuote {t t' : Token} : token t t' → t.role = .identifier →
    Text.opensQuote t'.text = Text.opensQuote t.text
  closesQuote {t t' : Token} : token t t' → t.role ≠ .stringLiteral →
    Text.closesQuote t'.text = Text.closesQuote t.text
  -- What readers keep of a token, or of several, in a tree.
  name {t t' : Token} : token t t' → t.role = .identifier →
    left.name t.text = right.name t'.text
  literal {t t' : Token} : token t t' → t.role = .stringLiteral →
    left.literal t.text = right.literal t'.text
  split {head head' last last' : Token} {between between' : List Token} :
    token head head' → List.Forall₂ token between between' → token last last' →
    head.role = .identifier → Text.opensQuote head.text = true →
    left.literal (Text.withoutFirst head.text ++ Token.literalRest between last) =
      right.literal (Text.withoutFirst head'.text ++ Token.literalRest between' last')
  call {t t' : Token} : token t t' → t.role = .functionCall →
    Agree (fun error error' => left.error error = right.error error')
      (fun call call' => left.expression call = right.expression call')
      (Expression.ofCall t.text) (Expression.ofCall t'.text)
  -- What readers keep in an error; only the error of a token behind an alias holds a text
  -- that was read as a name before.
  found {t t' : Token} : token t t' → left.found t.text = right.found t'.text
  joined {tokens tokens' : List Token} : List.Forall₂ token tokens tokens' →
    left.found (Token.joinedText tokens) = right.found (Token.joinedText tokens')
  foundName {name name' : String} : left.name name = right.name name' →
    left.found name = right.found name'

namespace Likeness

variable (like : Likeness)

/-- What looks the same, each under its view. -/
abbrev Same {α : Type} (look : View → α → α) (value value' : α) : Prop :=
  look like.left value = look like.right value'

/-- Outcomes whose errors look the same, and whose values are related. -/
abbrev Agrees {α : Type} (values : α → α → Prop) : Except Error α → Except Error α → Prop :=
  Agree (like.Same View.error) values

/-- Tokens that correspond, at positions that look the same. -/
structure Corresponds (t t' : Located) : Prop where
  token : like.token t.toToken t'.toToken
  position : like.left.position t.position = like.right.position t'.position

/-- Two readers that give, for corresponding tokens, outcomes that look the same and
leave corresponding tokens. -/
def Reads {α : Type} (values : α → α → Prop)
    (read read' : List Located → Except Error (α × List Located)) : Prop :=
  ∀ tokens tokens', List.Forall₂ like.Corresponds tokens tokens' →
    like.Agrees (fun result result' =>
      values result.1 result'.1 ∧ List.Forall₂ like.Corresponds result.2 result'.2)
      (read tokens) (read' tokens')

variable {like}

theorem Reads.pure {α : Type} {values : α → α → Prop} {value value' : α}
    (related : values value value') :
    like.Reads values (fun tokens => .ok (value, tokens)) (fun tokens => .ok (value', tokens)) :=
  fun _ _ corresponding => .ok ⟨related, corresponding⟩

/-- Like readers in sequence are like. -/
theorem Reads.bind {α β : Type} {values : α → α → Prop} {results : β → β → Prop}
    {first first' : List Located → Except Error (α × List Located)}
    {next next' : α → List Located → Except Error (β × List Located)}
    (reads : like.Reads values first first')
    (later : ∀ value value', values value value' →
      like.Reads results (next value) (next' value')) :
    like.Reads results (fun tokens => first tokens >>= fun (value, rest) => next value rest)
      (fun tokens => first' tokens >>= fun (value, rest) => next' value rest) := by
  intro tokens tokens' corresponding
  apply Agree.bind (reads tokens tokens' corresponding)
  rintro ⟨value, rest⟩ ⟨value', rest'⟩ ⟨related, correspondingRest⟩
  exact later value value' related rest rest' correspondingRest

/-- After like readers that give the same value, like readers are like. -/
theorem Reads.bind_eq {α β : Type} {results : β → β → Prop}
    {first first' : List Located → Except Error (α × List Located)}
    {next next' : α → List Located → Except Error (β × List Located)}
    (reads : like.Reads Eq first first')
    (later : ∀ value, like.Reads results (next value) (next' value)) :
    like.Reads results (fun tokens => first tokens >>= fun (value, rest) => next value rest)
      (fun tokens => first' tokens >>= fun (value, rest) => next' value rest) :=
  reads.bind fun value _ same => same ▸ later value

/-! ## Tests of a token -/

variable {t t' : Token}

/-- Words that readers look for are spelled by both of two corresponding tokens or by
neither. -/
theorem all_spells_eq (alike : like.token t t') {words : List String}
    (listed : ∀ word ∈ words, word ∈ Token.neverNames ++ Token.neverOperands) :
    (words.all fun word => !t'.spells word) = words.all fun word => !t.spells word := by
  induction words with
  | nil => rfl
  | cons word words inductionHypothesis =>
      rw [List.forall_mem_cons] at listed
      rw [List.all_cons, List.all_cons, like.spells alike word listed.1,
        inductionHypothesis listed.2]

theorem canName_eq (alike : like.token t t') : t'.canName = t.canName := by
  by_cases identifier : t.role = .identifier
  · have closing := like.closesQuote alike (by simp [identifier])
    have words := all_spells_eq alike fun word (listed : word ∈ Token.neverNames) =>
      List.mem_append_left Token.neverOperands listed
    rw [Token.canName, like.role alike, like.opensQuote alike identifier, closing, words,
      Token.canName]
  · rw [Token.canName_eq_false_of_role_ne identifier, Token.canName_eq_false_of_role_ne]
    rwa [like.role alike]

/-- What a token names looks the same. -/
theorem name_of_canName (alike : like.token t t') (named : t.canName = true) :
    like.left.name t.text = like.right.name t'.text :=
  like.name alike ((Token.canName_iff t).mp named).identifier

theorem canEndOperand_eq (alike : like.token t t') : t'.canEndOperand = t.canEndOperand := by
  have words := all_spells_eq alike fun word (listed : word ∈ Token.neverOperands) =>
    List.mem_append_right Token.neverNames listed
  rw [Token.canEndOperand, like.role alike, words, Token.canEndOperand]

theorem mark_eq : ∀ t t', like.token t t' → t'.mark = t.mark :=
  fun _ _ alike => by rw [Token.mark, like.role alike, Token.mark]

end Likeness

end SelectQuery
