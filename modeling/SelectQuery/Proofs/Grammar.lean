import SelectQuery.Query.Leaves
import SelectQuery.Reader.Query

/-!
# The grammar of queries

The rules that say which lists of tokens stand for which trees.  Each relation
of this file is one symbol of the grammar, and each of its constructors is one
alternative of the rule, so that a derivation is a proof that a list of tokens
as a whole stands for a tree.

The rules know neither positions nor limits, and they never look ahead: what
may follow a phrase is decided by the phrases around it.  The number of selects
and the nesting of parentheses are read off the derived tree, by `Query.Within`.
-/

namespace SelectQuery

/-! ## Words -/

namespace Token

/-- A word without a quote at either end. -/
structure IsPlainWord (token : Token) : Prop where
  identifier : token.role = .identifier
  noOpening : Text.opensQuote token.text = false
  noClosing : Text.closesQuote token.text = false

/-- A plain word that can name a source or an alias: none of `AS`, `UNION` and
`ALL`. -/
structure IsName (token : Token) : Prop extends token.IsPlainWord where
  unreserved : ∀ word ∈ neverNames, token.spells word = false

/-- The test of the readers is this notion of a name. -/
theorem canName_iff (token : Token) : token.canName = true ↔ token.IsName := by
  constructor
  · intro named
    simp only [canName, Bool.and_eq_true, beq_iff_eq, Bool.not_eq_eq_eq_not, Bool.not_true,
      List.all_eq_true] at named
    exact ⟨⟨named.1.1.1, named.1.1.2, named.1.2⟩, named.2⟩
  · rintro ⟨⟨identifier, noOpening, noClosing⟩, unreserved⟩
    simpa [canName, identifier, noOpening, noClosing] using unreserved

/-- A token that spells a word which is no operator is an identifier. -/
theorem role_eq_identifier_of_spells {token : Token} {word : String}
    (spelled : token.spells word = true)
    (noOperator : Comparator.ofText? word = none ∧ Connective.ofText? word = none) :
    token.role = .identifier := by
  rcases (spells_iff token word).mp spelled with ⟨unknown, sameLetters⟩
  rw [role, unknown]
  dsimp only
  rw [Comparator.ofText?_congr sameLetters, Connective.ofText?_congr sameLetters, noOperator.1,
    noOperator.2]

/-- A token of another role spells no such word. -/
theorem spells_eq_false_of_role_ne {token : Token} (other : token.role ≠ .identifier)
    {word : String}
    (noOperator : Comparator.ofText? word = none ∧ Connective.ofText? word = none) :
    token.spells word = false := by
  rw [Bool.eq_false_iff]
  intro spelled
  exact other (role_eq_identifier_of_spells spelled noOperator)

/-- Only an identifier can name anything. -/
theorem canName_eq_false_of_role_ne {token : Token} (other : token.role ≠ .identifier) :
    token.canName = false := by
  rw [Bool.eq_false_iff, Ne, canName_iff]
  intro named
  exact other named.identifier

end Token

/-! ## Expressions of a column -/

/-- Where in a column a token stands: in parentheses or outside them. -/
inductive Place
  | outside
  | inside
  deriving DecidableEq

/-- `leaf := * | literal | call | word`.  The word has no quote at either end,
and outside parentheses it is not `AS`. -/
inductive DerivesLeaf : Place → Token → Expression → Prop
  | asterisk {place token} (role : token.role = .asterisk) :
      DerivesLeaf place token .asterisk
  | literal {place token} (role : token.role = .stringLiteral) :
      DerivesLeaf place token (.stringLiteral token.text)
  | call {place token expression} (role : token.role = .functionCall)
      (read : Expression.ofCall token.text = .ok expression) :
      DerivesLeaf place token expression
  | word {place token} (plain : token.IsPlainWord)
      (free : place = .outside → token.spells "AS" = false) :
      DerivesLeaf place token (.identifier token.text)

/-- The expression that groups stand for: a concatenation exactly when there
are two or more. -/
def Expression.ofParts : List Expression → Expression
  | [part] => part
  | parts => .concatenation parts

/-- `groups := group {|| group}` with `group := ( groups ) | leaf`.  A single
group is derived with the list of its one expression. -/
inductive DerivesGroups : Place → List Token → List Expression → Prop
  | leaf {place token expression} (leaf : DerivesLeaf place token expression) :
      DerivesGroups place [token] [expression]
  | parenthesized {place opening tokens closing parts}
      (opens : opening.role = .leftParen)
      (inner : DerivesGroups .inside tokens parts)
      (closes : closing.role = .rightParen) :
      DerivesGroups place (opening :: (tokens ++ [closing]))
        [.parenthesized (.ofParts parts)]
  | joined {place first bar others part parts}
      (group : DerivesGroups place first [part])
      (joins : bar.role = .concat)
      (later : DerivesGroups place others parts) :
      DerivesGroups place (first ++ bar :: others) (part :: parts)

theorem DerivesGroups.parts_ne_nil {place : Place} {tokens : List Token}
    {parts : List Expression} (groups : DerivesGroups place tokens parts) : parts ≠ [] := by
  cases groups <;> exact List.cons_ne_nil _ _

/-! ## Columns -/

/-- `column := groups | groups AS name | groups name`.  In the last form the
token before the name is neither `DISTINCT` nor `ALL`. -/
inductive DerivesColumn : List Token → Column → Prop
  | plain {tokens parts} (groups : DerivesGroups .outside tokens parts) :
      DerivesColumn tokens ⟨.ofParts parts, none⟩
  | announced {tokens parts announcer name}
      (groups : DerivesGroups .outside tokens parts)
      (announces : announcer.spells "AS" = true) (named : name.IsName) :
      DerivesColumn (tokens ++ [announcer, name]) ⟨.ofParts parts, some name.text⟩
  | short {tokens parts name}
      (groups : DerivesGroups .outside tokens parts)
      (complete : ∀ last ∈ tokens.getLast?, ∀ word ∈ Token.neverOperands,
        last.spells word = false)
      (named : name.IsName) :
      DerivesColumn (tokens ++ [name]) ⟨.ofParts parts, some name.text⟩

/-- `columns := column {, column}` -/
inductive DerivesColumns : List Token → List Column → Prop
  | one {tokens column} (only : DerivesColumn tokens column) :
      DerivesColumns tokens [column]
  | more {tokens comma others column columns}
      (first : DerivesColumn tokens column)
      (separates : comma.role = .comma)
      (later : DerivesColumns others columns) :
      DerivesColumns (tokens ++ comma :: others) (column :: columns)

/-! ## Sources -/

/-- `source := name [[AS] name]` -/
inductive DerivesSource : List Token → Source → Prop
  | plain {table} (named : table.IsName) :
      DerivesSource [table] ⟨table.text, none⟩
  | announced {table announcer name} (named : table.IsName)
      (announces : announcer.spells "AS" = true) (aliased : name.IsName) :
      DerivesSource [table, announcer, name] ⟨table.text, some name.text⟩
  | short {table name} (named : table.IsName) (aliased : name.IsName) :
      DerivesSource [table, name] ⟨table.text, some name.text⟩

/-! ## Conditions -/

/-- A token that ends a split literal: one that closes a quote and is no literal
of its own. -/
structure Token.EndsLiteral (token : Token) : Prop where
  noLiteral : token.role ≠ .stringLiteral
  closing : Text.closesQuote token.text = true

/-- `operand := word | literal | call | split literal`.  The word opens no quote.
A split literal goes from a word that opens a quote to the first token that ends
it; its text, put between quotes, is the lexemes with a space between them. -/
inductive DerivesOperand : List Token → Expression → Prop
  | word {token} (role : token.role = .identifier)
      (noOpening : Text.opensQuote token.text = false) :
      DerivesOperand [token] (.identifier token.text)
  | literal {token} (role : token.role = .stringLiteral) :
      DerivesOperand [token] (.stringLiteral token.text)
  | call {token expression} (role : token.role = .functionCall)
      (read : Expression.ofCall token.text = .ok expression) :
      DerivesOperand [token] expression
  | split {head between last text} (role : head.role = .identifier)
      (opening : Text.opensQuote head.text = true)
      (goesOn : ∀ token ∈ between, ¬ token.EndsLiteral)
      (ends : last.EndsLiteral)
      (joined : Text.quoted text =
        " ".intercalate ((head :: (between ++ [last])).map Token.lexeme)) :
      DerivesOperand (head :: (between ++ [last])) (.stringLiteral text)

/-- `comparison := operand comparator operand` -/
inductive DerivesComparison : List Token → Condition → Prop
  | comparison {lefts token rights comparator left right}
      (first : DerivesOperand lefts left)
      (role : token.role = .comparator comparator)
      (second : DerivesOperand rights right) :
      DerivesComparison (lefts ++ token :: rights) (.comparison comparator left right)

/-- `condition := comparison {(AND | OR) comparison}`, grouped to the right. -/
inductive DerivesCondition : List Token → Condition → Prop
  | single {tokens condition} (only : DerivesComparison tokens condition) :
      DerivesCondition tokens condition
  | logical {lefts token rights connective left right}
      (first : DerivesComparison lefts left)
      (role : token.role = .connective connective)
      (later : DerivesCondition rights right) :
      DerivesCondition (lefts ++ token :: rights) (.logical connective left right)

/-- `filter := [WHERE condition]` -/
inductive DerivesFilter : List Token → Option Condition → Prop
  | absent : DerivesFilter [] none
  | present {keyword tokens condition} (role : keyword.role = .clause .filter)
      (derived : DerivesCondition tokens condition) :
      DerivesFilter (keyword :: tokens) (some condition)

/-! ## Queries -/

/-- `select := SELECT columns FROM source filter` -/
inductive DerivesSelect : List Token → Select → Prop
  | select {keyword items sourceKeyword names conditions columns source filter}
      (opens : keyword.role = .clause .columns)
      (projected : DerivesColumns items columns)
      (sourced : sourceKeyword.role = .clause .source)
      (tables : DerivesSource names source)
      (filtered : DerivesFilter conditions filter) :
      DerivesSelect (keyword :: (items ++ sourceKeyword :: (names ++ conditions)))
        ⟨columns, source, filter⟩

/-- `operator := UNION [ALL]` -/
inductive DerivesSetOperator : List Token → SetOperator → Prop
  | union {first} (unites : first.spells "UNION" = true) :
      DerivesSetOperator [first] .union
  | unionAll {first second} (unites : first.spells "UNION" = true)
      (all : second.spells "ALL" = true) :
      DerivesSetOperator [first, second] .unionAll

/-- `query := select | select operator query`, so that set operators group to the
right. -/
inductive DerivesQuery : List Token → Query → Prop
  | single {tokens statement} (only : DerivesSelect tokens statement) :
      DerivesQuery tokens (.select statement)
  | combined {tokens words others statement operator right}
      (first : DerivesSelect tokens statement)
      (combines : DerivesSetOperator words operator)
      (later : DerivesQuery others right) :
      DerivesQuery (tokens ++ (words ++ others)) (.combined operator (.select statement) right)

/-! ## Limits -/

namespace Expression

mutual

/-- How deep parentheses nest in an expression. -/
def nesting : Expression → Nat
  | .identifier _ | .stringLiteral _ | .asterisk | .functionCall _ _ => 0
  | .concatenation parts => nestingOfAll parts
  | .parenthesized inner => inner.nesting + 1

/-- How deep parentheses nest in the deepest expression of a list. -/
def nestingOfAll : List Expression → Nat
  | [] => 0
  | part :: parts => max part.nesting (nestingOfAll parts)

end

/-- A bound on a list bounds every expression of it. -/
theorem nestingOfAll_le_iff (parts : List Expression) (bound : Nat) :
    nestingOfAll parts ≤ bound ↔ ∀ part ∈ parts, part.nesting ≤ bound := by
  induction parts with
  | nil => simp [nestingOfAll]
  | cons part parts inductionHypothesis =>
      rw [nestingOfAll, Nat.max_le, inductionHypothesis, List.forall_mem_cons]

/-- Groups nest as deep as the expression they stand for. -/
theorem nesting_ofParts_le_iff (parts : List Expression) (bound : Nat) :
    (ofParts parts).nesting ≤ bound ↔ ∀ part ∈ parts, part.nesting ≤ bound := by
  rw [← nestingOfAll_le_iff]
  match parts with
  | [] => rfl
  | [part] => rw [ofParts, nestingOfAll, nestingOfAll, Nat.max_eq_left (Nat.zero_le _)]
  | _ :: _ :: _ => rfl

end Expression

/-- The parentheses in every column of a `SELECT` nest up to a bound. -/
def Select.NestsWithin (bound : Nat) (statement : Select) : Prop :=
  ∀ column ∈ statement.columns, column.expression.nesting ≤ bound

instance (bound : Nat) (statement : Select) : Decidable (statement.NestsWithin bound) :=
  inferInstanceAs (Decidable (∀ column ∈ statement.columns, column.expression.nesting ≤ bound))

/-- A query keeps to a limit: it has at most so many selects, and the parentheses
of its columns nest at most so deep. -/
structure Query.Within (limit : Nat) (query : Query) : Prop where
  selects : query.leavesInOrder.length ≤ limit
  nesting : ∀ statement ∈ query.leavesInOrder, statement.NestsWithin limit

instance (limit : Nat) (query : Query) : Decidable (query.Within limit) :=
  decidable_of_iff
    (query.leavesInOrder.length ≤ limit ∧
      ∀ statement ∈ query.leavesInOrder, statement.NestsWithin limit)
    ⟨fun within => ⟨within.1, within.2⟩, fun within => ⟨within.selects, within.nesting⟩⟩

end SelectQuery
