/-!
# Expressions

An expression stands in a column or on one side of a comparison.  The parts of a
concatenation are expressions again, so the type is nested in lists; this file
gives it the induction principle that reaches every part, and decidable equality.
-/

namespace SelectQuery

/-- An expression. -/
inductive Expression
  /-- A bare name, number or other unquoted word. -/
  | identifier (name : String)
  /-- A text in single quotes, held without them. -/
  | stringLiteral (text : String)
  /-- The sign `*`. -/
  | asterisk
  /-- A function with its arguments, which are plain texts. -/
  | functionCall (name : String) (arguments : List String)
  /-- Parts joined by `||`. -/
  | concatenation (parts : List Expression)
  /-- An expression in parentheses. -/
  | parenthesized (inner : Expression)

namespace Expression

/-- Induction on expressions, with a hypothesis for every part of a
concatenation. -/
@[elab_as_elim]
theorem inductionOn {motive : Expression → Prop} (expression : Expression)
    (identifier : ∀ name, motive (.identifier name))
    (stringLiteral : ∀ text, motive (.stringLiteral text))
    (asterisk : motive .asterisk)
    (functionCall : ∀ name arguments, motive (.functionCall name arguments))
    (concatenation : ∀ parts, (∀ part ∈ parts, motive part) → motive (.concatenation parts))
    (parenthesized : ∀ inner, motive inner → motive (.parenthesized inner)) :
    motive expression :=
  @Expression.rec motive (fun parts => ∀ part ∈ parts, motive part)
    identifier stringLiteral asterisk functionCall concatenation parenthesized
    (by simp)
    (fun _ _ first others => List.forall_mem_cons.mpr ⟨first, others⟩)
    expression

mutual

/-- Decide whether two expressions are equal. -/
def decideEq : (left right : Expression) → Decidable (left = right)
  | .identifier name, right =>
      match right with
      | .identifier other => decidable_of_iff (name = other) (by simp)
      | .stringLiteral _ | .asterisk | .functionCall _ _ | .concatenation _
      | .parenthesized _ => isFalse (by simp)
  | .stringLiteral text, right =>
      match right with
      | .stringLiteral other => decidable_of_iff (text = other) (by simp)
      | .identifier _ | .asterisk | .functionCall _ _ | .concatenation _
      | .parenthesized _ => isFalse (by simp)
  | .asterisk, right =>
      match right with
      | .asterisk => isTrue rfl
      | .identifier _ | .stringLiteral _ | .functionCall _ _ | .concatenation _
      | .parenthesized _ => isFalse (by simp)
  | .functionCall name arguments, right =>
      match right with
      | .functionCall otherName otherArguments =>
          decidable_of_iff (name = otherName ∧ arguments = otherArguments) (by simp)
      | .identifier _ | .stringLiteral _ | .asterisk | .concatenation _
      | .parenthesized _ => isFalse (by simp)
  | .concatenation parts, right =>
      match right with
      | .concatenation others =>
          match decideEqAll parts others with
          | isTrue same => isTrue (by rw [same])
          | isFalse different => isFalse (by simpa using different)
      | .identifier _ | .stringLiteral _ | .asterisk | .functionCall _ _
      | .parenthesized _ => isFalse (by simp)
  | .parenthesized inner, right =>
      match right with
      | .parenthesized other =>
          match decideEq inner other with
          | isTrue same => isTrue (by rw [same])
          | isFalse different => isFalse (by simpa using different)
      | .identifier _ | .stringLiteral _ | .asterisk | .functionCall _ _
      | .concatenation _ => isFalse (by simp)

/-- Decide whether two lists of expressions are equal. -/
def decideEqAll : (lefts rights : List Expression) → Decidable (lefts = rights)
  | [], [] => isTrue rfl
  | [], _ :: _ => isFalse (by simp)
  | _ :: _, [] => isFalse (by simp)
  | left :: lefts, right :: rights =>
      match decideEq left right, decideEqAll lefts rights with
      | isTrue first, isTrue others => isTrue (by rw [first, others])
      | isFalse different, _ => isFalse (by simp [different])
      | _, isFalse different => isFalse (by simp [different])

end

instance : DecidableEq Expression :=
  decideEq

end Expression

end SelectQuery
