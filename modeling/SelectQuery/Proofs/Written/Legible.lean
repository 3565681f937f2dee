import SelectQuery.Proofs.Grammar
import SelectQuery.Proofs.Written.Call

/-!
# Legible trees

A tree need not come from a reader, and then its lexemes may stand for another
tree or for none.  The legible trees are those without any of the reasons for
that: a name that is left out, or that is read as a keyword or an operator; a
quote that begins a literal; an argument that is cut elsewhere; a concatenation
of a single part; and a grouping that the lexemes do not show.

Each clause is about a text or the shape of a node.  Neither tokens of a whole
query nor readers occur in it.
-/

namespace SelectQuery

/-! ## Words -/

/-- A text that is a word when it is a lexeme: no keyword, no call, no literal, and
no operator. -/
structure LegibleWord (text : String) : Prop where
  nonempty : text ≠ ""
  unknown : (Token.ofLexeme text).kind = .unknown
  identifier : (Token.ofLexeme text).role = .identifier

/-- A word without a quote at either end. -/
structure LegiblePlainWord (text : String) : Prop extends LegibleWord text where
  noOpening : Text.opensQuote text = false
  noClosing : Text.closesQuote text = false

/-- A plain word that can name a source or an alias. -/
structure LegibleName (text : String) : Prop extends LegiblePlainWord text where
  unreserved : ∀ word ∈ Token.neverNames, Text.upper text ≠ word

/-- Every lexeme that is read as an identifier is a word. -/
theorem legibleWord_of_role {text : String} (role : (Token.ofLexeme text).role = .identifier) :
    LegibleWord text := by
  constructor
  · rintro rfl
    exact absurd role (by decide)
  · exact Token.ofLexeme_kind_of_role role
  · exact role

namespace LegibleWord

variable {text : String}

/-- A word is the text of its token. -/
theorem ofLexeme_text (legible : LegibleWord text) : (Token.ofLexeme text).text = text :=
  Token.ofLexeme_text_of_kind_ne (by simp [legible.unknown])

theorem spells_iff (legible : LegibleWord text) (word : String) :
    (Token.ofLexeme text).spells word = true ↔ Text.upper text = Text.upper word := by
  rw [Token.spells_iff, legible.ofLexeme_text]
  exact and_iff_right legible.unknown

end LegibleWord

/-- Plain words are the lexemes of plain tokens. -/
theorem legiblePlainWord_iff (text : String) :
    LegiblePlainWord text ↔ (Token.ofLexeme text).IsPlainWord := by
  constructor
  · rintro ⟨word, noOpening, noClosing⟩
    exact ⟨word.identifier, by rwa [word.ofLexeme_text], by rwa [word.ofLexeme_text]⟩
  · rintro ⟨identifier, noOpening, noClosing⟩
    have word := legibleWord_of_role identifier
    rw [word.ofLexeme_text] at noOpening noClosing
    exact ⟨word, noOpening, noClosing⟩

/-- Names are the lexemes of naming tokens. -/
theorem legibleName_iff (text : String) : LegibleName text ↔ (Token.ofLexeme text).IsName := by
  have upperWords : ∀ word ∈ Token.neverNames, Text.upper word = word := by decide
  constructor
  · rintro ⟨plain, unreserved⟩
    constructor
    · exact (legiblePlainWord_iff text).mp plain
    · intro word member
      rw [Bool.eq_false_iff, Ne, plain.spells_iff, upperWords word member]
      exact unreserved word member
  · rintro ⟨isPlain, unreserved⟩
    have plain := (legiblePlainWord_iff text).mpr isPlain
    constructor
    · exact plain
    · intro word member equal
      rw [← upperWords word member, ← plain.spells_iff, unreserved word member] at equal
      contradiction

/-! ## Expressions -/

namespace Expression

/-- An expression that is no concatenation. -/
def IsGroup (expression : Expression) : Prop :=
  ∀ parts, expression ≠ .concatenation parts

/-- A legible expression of a column.  The word `AS` may stand only in parentheses;
a concatenation has several parts, none of them a concatenation itself. -/
inductive Legible : Place → Expression → Prop
  | identifier {place name} (plain : LegiblePlainWord name)
      (free : place = .outside → Text.upper name ≠ "AS") :
      Legible place (.identifier name)
  | stringLiteral {place} (text : String) : Legible place (.stringLiteral text)
  | asterisk {place} : Legible place .asterisk
  | functionCall {place name arguments} (call : LegibleCall name arguments) :
      Legible place (.functionCall name arguments)
  | concatenation {place parts} (several : 2 ≤ parts.length)
      (flat : ∀ part ∈ parts, part.IsGroup)
      (legible : ∀ part ∈ parts, Legible place part) :
      Legible place (.concatenation parts)
  | parenthesized {place inner} (legible : Legible .inside inner) :
      Legible place (.parenthesized inner)

/-- A legible operand of a comparison.  Its word may end with a quote, but not begin
with one. -/
inductive LegibleOperand : Expression → Prop
  | identifier {name} (word : LegibleWord name) (noOpening : Text.opensQuote name = false) :
      LegibleOperand (.identifier name)
  | stringLiteral (text : String) : LegibleOperand (.stringLiteral text)
  | functionCall {name arguments} (call : LegibleCall name arguments) :
      LegibleOperand (.functionCall name arguments)

/-- The parts of a concatenation, and any other expression by itself. -/
def parts : Expression → List Expression
  | .concatenation parts => parts
  | expression => [expression]

theorem parts_of_isGroup {expression : Expression} (group : expression.IsGroup) :
    expression.parts = [expression] := by
  cases expression with
  | concatenation parts => exact absurd rfl (group parts)
  | identifier | stringLiteral | asterisk | functionCall | parenthesized => rfl

/-- The parts of a legible expression make it up. -/
theorem Legible.ofParts_parts {place : Place} {expression : Expression}
    (legible : expression.Legible place) : Expression.ofParts expression.parts = expression := by
  cases legible with
  | @concatenation _ parts several _ _ =>
      match parts with
      | _ :: _ :: _ => rfl
  | identifier | stringLiteral | asterisk | functionCall | parenthesized => rfl

/-- What holds of groups, and of a concatenation whenever it holds of the groups that are
its parts, holds of the expression that groups make up. -/
theorem ofParts_of_groups {holds : Expression → Prop} {parts : List Expression}
    (nonempty : parts ≠ []) (groups : ∀ part ∈ parts, part.IsGroup ∧ holds part)
    (concatenation : ∀ {parts : List Expression}, 2 ≤ parts.length →
      (∀ part ∈ parts, part.IsGroup) → (∀ part ∈ parts, holds part) →
      holds (.concatenation parts)) : holds (ofParts parts) := by
  match parts with
  | [] => contradiction
  | [part] => exact (groups part (List.mem_singleton_self part)).2
  | _ :: _ :: _ =>
      apply concatenation
      · simp
      · exact fun part member => (groups part member).1
      · exact fun part member => (groups part member).2

/-- Legible groups make up a legible expression. -/
theorem Legible.ofParts {place : Place} {parts : List Expression} (nonempty : parts ≠ [])
    (legible : ∀ part ∈ parts, part.IsGroup ∧ part.Legible place) :
    (ofParts parts).Legible place :=
  ofParts_of_groups nonempty legible .concatenation

end Expression

/-- A leaf is no concatenation. -/
theorem DerivesLeaf.isGroup {place : Place} {token : Token} {expression : Expression}
    (leaf : DerivesLeaf place token expression) : expression.IsGroup := by
  cases leaf with
  | call _ read =>
      rcases Expression.exists_of_ofCall read with ⟨name, arguments, rfl⟩
      rintro parts ⟨⟩
  | asterisk | literal | word => rintro parts ⟨⟩

/-! ## Clauses and queries -/

/-- A column of a legible expression, and of a legible name if it is given one. -/
structure Column.Legible (column : Column) : Prop where
  expression : column.expression.Legible .outside
  aliased : ∀ name ∈ column.alias?, LegibleName name

/-- A source with legible names. -/
structure Source.Legible (source : Source) : Prop where
  named : LegibleName source.name
  aliased : ∀ name ∈ source.alias?, LegibleName name

/-- A legible condition: the left side of each connective is a comparison. -/
inductive Condition.Legible : Condition → Prop
  | comparison {comparator left right} (first : left.LegibleOperand)
      (second : right.LegibleOperand) :
      Legible (.comparison comparator left right)
  | logical {connective comparator left right others}
      (first : Legible (.comparison comparator left right)) (later : Legible others) :
      Legible (.logical connective (.comparison comparator left right) others)

/-- A `SELECT` with at least one column, all of whose clauses are legible. -/
structure Select.Legible (statement : Select) : Prop where
  nonempty : statement.columns ≠ []
  columns : ∀ column ∈ statement.columns, column.Legible
  source : statement.source.Legible
  filter : ∀ condition ∈ statement.filter, condition.Legible

/-- A legible query: the left side of each set operator is a single `SELECT`. -/
inductive Query.Legible : Query → Prop
  | select {statement} (only : statement.Legible) : Legible (.select statement)
  | combined {operator statement right} (first : statement.Legible) (later : Legible right) :
      Legible (.combined operator (.select statement) right)

end SelectQuery
