import SelectQuery.Proofs.Written.Regrouping
import SelectQuery.Proofs.Written.RoundTrip

/-!
# Writing and reading back regroups

A readable tree is one each of whose leaves by itself is read from its lexeme as
that leaf; how the leaves are grouped does not matter.  The regrouped form of a
readable tree is legible and has the same lexemes, so it is what the lexemes of the
tree are read as.
-/

namespace SelectQuery

/-! ## Readable trees -/

/-- An expression of a column each of whose leaves is read from its lexeme as that
leaf.  The word `AS` may stand only in parentheses, and a concatenation has at
least one part. -/
inductive Expression.Readable : Place → Expression → Prop
  | leaf {place expression lexeme} (written : expression.lexemes = [lexeme])
      (read : ofToken (Token.ofLexeme lexeme) = .ok expression)
      (free : place = .outside → ∀ name, expression = .identifier name →
        Text.upper name ≠ "AS") :
      Readable place expression
  | concatenation {place parts} (nonempty : parts ≠ [])
      (readable : ∀ part ∈ parts, Readable place part) :
      Readable place (.concatenation parts)
  | parenthesized {place inner} (readable : Readable .inside inner) :
      Readable place (.parenthesized inner)

/-- An operand that is read from its lexeme, in any number of concatenations of a
single part. -/
inductive Expression.ReadableOperand : Expression → Prop
  | leaf {operand lexeme} (written : operand.lexemes = [lexeme])
      (read : readOperand .operand [⟨Token.ofLexeme lexeme, 0⟩] = .ok (operand, [])) :
      ReadableOperand operand
  | single {operand} (readable : ReadableOperand operand) :
      ReadableOperand (.concatenation [operand])

/-- A column whose expression is readable and whose alias is a name. -/
structure Column.Readable (column : Column) : Prop where
  expression : column.expression.Readable .outside
  aliased : ∀ name ∈ column.alias?, (Token.ofLexeme name).canName = true

/-- A source whose table and alias are names. -/
structure Source.Readable (source : Source) : Prop where
  named : (Token.ofLexeme source.name).canName = true
  aliased : ∀ name ∈ source.alias?, (Token.ofLexeme name).canName = true

/-- A condition with readable operands. -/
inductive Condition.Readable : Condition → Prop
  | comparison {comparator left right} (first : left.ReadableOperand)
      (second : right.ReadableOperand) :
      Readable (.comparison comparator left right)
  | logical {connective left right} (first : Readable left) (second : Readable right) :
      Readable (.logical connective left right)

/-- A `SELECT` with at least one column and readable clauses. -/
structure Select.Readable (statement : Select) : Prop where
  nonempty : statement.columns ≠ []
  columns : ∀ column ∈ statement.columns, column.Readable
  source : statement.source.Readable
  filter : ∀ condition ∈ statement.filter, condition.Readable

/-- A query of readable selects. -/
inductive Query.Readable : Query → Prop
  | select {statement} (only : statement.Readable) : Readable (.select statement)
  | combined {operator left right} (first : Readable left) (second : Readable right) :
      Readable (.combined operator left right)

/-! ## Regrouped expressions are legible -/

/-- A separator stands between two lists of items as between two items. -/
theorem intercalate_append {α : Type} (separator : List α) {items others : List (List α)}
    (nonempty : items ≠ []) (othersNonempty : others ≠ []) :
    separator.intercalate (items ++ others) =
      separator.intercalate items ++ separator ++ separator.intercalate others := by
  induction items with
  | nil => contradiction
  | cons first items inductionHypothesis =>
      cases items with
      | nil =>
          rw [List.singleton_append, List.intercalate_cons_of_ne_nil othersNonempty,
            List.intercalate_singleton]
      | cons second items =>
          have later := inductionHypothesis (List.cons_ne_nil second items)
          rw [List.cons_append] at later
          rw [List.cons_append, List.cons_append, List.intercalate_cons_cons, later,
            List.intercalate_cons_cons]
          simp only [List.append_assoc]

/-- Items may be written group by group. -/
theorem intercalate_flatMap {α β : Type} (separator : List α) (items : β → List (List α))
    {groups : List β} (nonempty : ∀ group ∈ groups, items group ≠ []) :
    separator.intercalate (groups.flatMap items) =
      separator.intercalate (groups.map fun group => separator.intercalate (items group)) := by
  induction groups with
  | nil => rfl
  | cons first others inductionHypothesis =>
      rw [List.forall_mem_cons] at nonempty
      cases others with
      | nil => simp
      | cons second others =>
          have othersNonempty : (second :: others).flatMap items ≠ [] := by
            rw [List.flatMap_cons]
            exact List.append_ne_nil_of_left_ne_nil (nonempty.2 second (by simp)) _
          rw [List.flatMap_cons, intercalate_append separator nonempty.1 othersNonempty,
            inductionHypothesis nonempty.2, List.map_cons, List.map_cons, List.map_cons,
            List.intercalate_cons_cons]

namespace Expression

/-- Groups are written like the expression they make up. -/
theorem lexemes_ofParts (parts : List Expression) :
    (ofParts parts).lexemes = ["||"].intercalate (parts.map lexemes) := by
  match parts with
  | [] => rfl
  | [part] => rw [ofParts, List.map_singleton, List.intercalate_singleton]
  | first :: second :: others =>
      rw [← lexemes_concatenation]
      rfl

/-- A leaf that is read is a group by itself. -/
theorem flatParts_of_ofToken {token : Token} {expression : Expression}
    (read : ofToken token = .ok expression) : expression.flatParts = [expression] := by
  have leaf : DerivesLeaf .inside token expression := derivesLeaf_of_ofToken read (by simp)
  cases leaf with
  | asterisk | literal | word => rfl
  | call _ read =>
      obtain ⟨name, arguments, rfl⟩ := exists_of_ofCall read
      rfl

/-- A leaf that is read from its lexeme is legible. -/
theorem legible_of_ofToken {place : Place} {lexeme : String} {expression : Expression}
    (read : ofToken (Token.ofLexeme lexeme) = .ok expression)
    (free : place = .outside → ∀ name, expression = .identifier name →
      Text.upper name ≠ "AS") :
    expression.IsGroup ∧ expression.Legible place := by
  have leaf : DerivesLeaf place (Token.ofLexeme lexeme) expression := by
    apply derivesLeaf_of_ofToken read
    intro outside
    rw [Bool.eq_false_iff]
    intro spelled
    have role := Token.role_eq_identifier_of_spells spelled (by decide)
    rw [ofToken, role] at read
    dsimp only at read
    split at read
    · cases read
    · cases read
      exact free outside _ rfl ((Token.spells_iff _ _).mp spelled).2
  exact ⟨leaf.isGroup, leaf.legible ⟨lexeme, rfl⟩⟩

namespace Readable

variable {place : Place} {expression : Expression}

theorem flatParts_ne_nil (readable : expression.Readable place) : expression.flatParts ≠ [] := by
  induction readable with
  | leaf _ read _ =>
      rw [flatParts_of_ofToken read]
      exact List.cons_ne_nil _ _
  | @concatenation place parts nonempty _ inductionHypothesis =>
      obtain ⟨first, others, rfl⟩ := List.exists_cons_of_ne_nil nonempty
      rw [flatParts, flatPartsOfAll]
      exact List.append_ne_nil_of_left_ne_nil
        (inductionHypothesis first (List.mem_cons_self ..)) _
  | parenthesized =>
      rw [flatParts]
      exact List.cons_ne_nil _ _

/-- The groups of a readable expression are legible. -/
theorem legible_flatParts (readable : expression.Readable place) :
    ∀ part ∈ expression.flatParts, part.IsGroup ∧ part.Legible place := by
  induction readable with
  | leaf _ read free =>
      rw [flatParts_of_ofToken read, List.forall_mem_singleton]
      exact legible_of_ofToken read free
  | concatenation _ _ inductionHypothesis =>
      rw [flatParts, flatPartsOfAll_eq_flatMap]
      intro group member
      obtain ⟨part, isPart, isGroup⟩ := List.mem_flatMap.mp member
      exact inductionHypothesis part isPart group isGroup
  | parenthesized readable inductionHypothesis =>
      rw [flatParts, List.forall_mem_singleton]
      constructor
      · rintro parts ⟨⟩
      · exact .parenthesized (Legible.ofParts readable.flatParts_ne_nil inductionHypothesis)

/-- A flattened expression is written like the expression. -/
theorem lexemes_flattened (readable : expression.Readable place) :
    expression.flattened.lexemes = expression.lexemes := by
  rw [flattened, lexemes_ofParts]
  induction readable with
  | leaf _ read _ =>
      rw [flatParts_of_ofToken read, List.map_singleton, List.intercalate_singleton]
  | @concatenation place parts nonempty readable inductionHypothesis =>
      have written : ∀ part ∈ parts, part.flatParts.map lexemes ≠ [] := by
        intro part member
        rw [Ne, List.map_eq_nil_iff]
        exact (readable part member).flatParts_ne_nil
      rw [flatParts, flatPartsOfAll_eq_flatMap, List.map_flatMap, intercalate_flatMap _ _ written,
        List.map_congr_left inductionHypothesis, lexemes_concatenation]
  | parenthesized _ inductionHypothesis =>
      rw [flatParts, List.map_singleton, List.intercalate_singleton, lexemes, lexemes_ofParts,
        inductionHypothesis, lexemes]

/-- A flattened readable expression is legible. -/
theorem legible_flattened (readable : expression.Readable place) :
    expression.flattened.Legible place :=
  Legible.ofParts readable.flatParts_ne_nil readable.legible_flatParts

end Readable

namespace ReadableOperand

variable {operand : Expression}

/-- An operand that is read from its lexeme is legible. -/
theorem legible_of_readOperand {lexeme : String}
    (read : readOperand .operand [⟨Token.ofLexeme lexeme, 0⟩] = .ok (operand, [])) :
    operand.LegibleOperand := by
  obtain ⟨used, whole, derived⟩ := derivesOperand_of_readOperand read
  rw [List.append_nil] at whole
  rw [← whole] at derived
  apply derived.legible
  rw [List.map_singleton, List.forall_mem_singleton]
  exact ⟨lexeme, rfl⟩

/-- A flattened readable operand is legible. -/
theorem legible_flattened (readable : operand.ReadableOperand) :
    operand.flattened.LegibleOperand := by
  induction readable with
  | leaf _ read =>
      have legible := legible_of_readOperand read
      rwa [legible.flattened_eq]
  | single _ inductionHypothesis => rwa [flattened_single]

/-- A flattened operand is written like the operand. -/
theorem lexemes_flattened (readable : operand.ReadableOperand) :
    operand.flattened.lexemes = operand.lexemes := by
  induction readable with
  | leaf _ read => rw [(legible_of_readOperand read).flattened_eq]
  | single _ inductionHypothesis =>
      rw [flattened_single, inductionHypothesis, lexemes_concatenation, List.map_singleton,
        List.intercalate_singleton]

end ReadableOperand

end Expression

/-! ## Regrouped clauses are legible -/

namespace Condition.Readable

variable {condition others : Condition}

theorem legible_regroupedBefore (readable : condition.Readable) (connective : Connective)
    (legible : others.Legible) : (condition.regroupedBefore connective others).Legible := by
  induction readable generalizing connective others with
  | comparison first second =>
      exact .logical (.comparison first.legible_flattened second.legible_flattened) legible
  | logical _ _ legibleFirst legibleSecond =>
      rw [regroupedBefore]
      apply legibleFirst
      apply legibleSecond
      exact legible

/-- A regrouped condition is legible. -/
theorem legible_regrouped (readable : condition.Readable) : condition.regrouped.Legible := by
  induction readable with
  | comparison first second =>
      exact .comparison first.legible_flattened second.legible_flattened
  | logical first _ _ legibleSecond =>
      rw [regrouped]
      exact first.legible_regroupedBefore _ legibleSecond

theorem lexemes_regroupedBefore (readable : condition.Readable) (connective : Connective)
    (others : Condition) :
    (condition.regroupedBefore connective others).lexemes =
      condition.lexemes ++ connective.symbol :: others.lexemes := by
  induction readable generalizing connective others with
  | comparison first second =>
      rw [regroupedBefore, lexemes, lexemes, lexemes, first.lexemes_flattened,
        second.lexemes_flattened]
  | logical _ _ lexemesFirst lexemesSecond =>
      rw [regroupedBefore, lexemesFirst, lexemesSecond, lexemes, List.append_assoc,
        List.cons_append]

/-- A regrouped condition is written like the condition. -/
theorem lexemes_regrouped (readable : condition.Readable) :
    condition.regrouped.lexemes = condition.lexemes := by
  induction readable with
  | comparison first second =>
      rw [regrouped, lexemes, first.lexemes_flattened, second.lexemes_flattened, lexemes]
  | logical first _ _ lexemesSecond =>
      rw [regrouped, first.lexemes_regroupedBefore, lexemesSecond, lexemes]

end Condition.Readable

/-- The tokens that can name are those of legible names. -/
theorem legibleName_of_canName {name : String} (named : (Token.ofLexeme name).canName = true) :
    LegibleName name := by
  rwa [legibleName_iff, ← Token.canName_iff]

namespace Select.Readable

variable {statement : Select}

/-- A regrouped `SELECT` is legible. -/
theorem legible_regrouped (readable : statement.Readable) : statement.regrouped.Legible := by
  constructor
  · rw [regrouped, Ne, List.map_eq_nil_iff]
    exact readable.nonempty
  · rw [regrouped, List.forall_mem_map]
    intro column member
    constructor
    · exact (readable.columns column member).expression.legible_flattened
    · intro name isAlias
      exact legibleName_of_canName ((readable.columns column member).aliased name isAlias)
  · constructor
    · exact legibleName_of_canName readable.source.named
    · intro name isAlias
      exact legibleName_of_canName (readable.source.aliased name isAlias)
  · intro condition member
    obtain ⟨original, isFilter, rfl⟩ := Option.map_eq_some_iff.mp member
    exact (readable.filter original isFilter).legible_regrouped

/-- A regrouped `SELECT` is written like the `SELECT`. -/
theorem lexemes_regrouped (readable : statement.Readable) :
    statement.regrouped.lexemes = statement.lexemes := by
  have columns : (statement.columns.map Column.regrouped).map Column.lexemes =
      statement.columns.map Column.lexemes := by
    rw [List.map_map]
    apply List.map_congr_left
    intro column member
    rw [Function.comp_apply, Column.regrouped, Column.lexemes,
      (readable.columns column member).expression.lexemes_flattened, Column.lexemes]
  have filter : filterLexemes (statement.filter.map Condition.regrouped) =
      filterLexemes statement.filter := by
    cases isFilter : statement.filter with
    | none => rfl
    | some condition =>
        rw [Option.map_some, filterLexemes, filterLexemes,
          (readable.filter condition isFilter).lexemes_regrouped]
  rw [lexemes, regrouped, columns, filter, lexemes]

end Select.Readable

namespace Query

namespace Readable

variable {query others : Query}

theorem legible_regroupedBefore (readable : query.Readable) (operator : SetOperator)
    (legible : others.Legible) : (query.regroupedBefore operator others).Legible := by
  induction readable generalizing operator others with
  | select only => exact .combined only.legible_regrouped legible
  | combined _ _ legibleFirst legibleSecond =>
      rw [regroupedBefore]
      apply legibleFirst
      apply legibleSecond
      exact legible

/-- A regrouped query is legible. -/
theorem legible_regrouped (readable : query.Readable) : query.regrouped.Legible := by
  induction readable with
  | select only => exact .select only.legible_regrouped
  | combined first _ _ legibleSecond =>
      rw [regrouped]
      exact first.legible_regroupedBefore _ legibleSecond

theorem lexemes_regroupedBefore (readable : query.Readable) (operator : SetOperator)
    (others : Query) :
    (query.regroupedBefore operator others).lexemes =
      query.lexemes ++ (operator.words ++ others.lexemes) := by
  induction readable generalizing operator others with
  | select only => rw [regroupedBefore, lexemes, lexemes, lexemes, only.lexemes_regrouped]
  | combined _ _ lexemesFirst lexemesSecond =>
      rw [regroupedBefore, lexemesFirst, lexemesSecond, lexemes, List.append_assoc,
        List.append_assoc]

/-- A regrouped query is written like the query. -/
theorem lexemes_regrouped (readable : query.Readable) :
    query.regrouped.lexemes = query.lexemes := by
  induction readable with
  | select only => rw [regrouped, lexemes, only.lexemes_regrouped, lexemes]
  | combined first _ _ lexemesSecond =>
      rw [regrouped, first.lexemes_regroupedBefore, lexemesSecond, lexemes]

end Readable

end Query

namespace Query

/-! ## Reading back -/

/-- A readable query within the limit is read back as its regrouped form.  That form
is legible and written like the query itself; it keeps the selects and the set
operators in order, and within each condition the comparisons and connectives. -/
theorem ofLexemes_lexemes_eq_regrouped {query : Query} (readable : query.Readable) {limit : Nat}
    (within : query.Within limit) :
    ofLexemes limit query.lexemes = .ok query.regrouped ∧
      query.regrouped.Legible ∧
      query.regrouped.lexemes = query.lexemes ∧
      query.regrouped.leavesInOrder = query.leavesInOrder.map Select.regrouped ∧
      query.regrouped.operatorsInOrder = query.operatorsInOrder ∧
      ∀ statement ∈ query.leavesInOrder, ∀ condition ∈ statement.filter,
        condition.regrouped.comparisonsInOrder =
            condition.comparisonsInOrder.map Condition.regrouped ∧
          condition.regrouped.connectivesInOrder = condition.connectivesInOrder := by
  have legible := readable.legible_regrouped
  have read := legible.ofLexemes_lexemes within.regrouped
  rw [readable.lexemes_regrouped] at read
  exact ⟨read, legible, readable.lexemes_regrouped, leavesInOrder_regrouped query,
    operatorsInOrder_regrouped query, fun _ _ condition _ =>
      ⟨condition.comparisonsInOrder_regrouped, condition.connectivesInOrder_regrouped⟩⟩

/-- A query that groups to the left: its set operators, its connectives and its
concatenation.  Two of its expressions stand in concatenations of a single part. -/
def leftNested : Query :=
  .combined .unionAll
    (.combined .union
      (.select ⟨[⟨.concatenation [.concatenation [.identifier "a", .asterisk], .identifier "b"],
          some "c"⟩], ⟨"t", none⟩,
        some (.logical .or
          (.logical .and
            (.comparison .equal (.concatenation [.identifier "a"]) (.stringLiteral "x"))
            (.comparison .like (.identifier "b") (.stringLiteral "y")))
          (.comparison .lessThan (.identifier "c") (.identifier "2")))⟩)
      (.select ⟨[⟨.asterisk, none⟩], ⟨"u", some "v"⟩, none⟩))
    (.select ⟨[⟨.concatenation [.asterisk], none⟩], ⟨"w", none⟩, none⟩)

/-- The query that groups to the left is read back grouped to the right. -/
theorem ofLexemes_lexemes_leftNested :
    leftNested.Readable ∧ leftNested.Within 3 ∧ leftNested.regrouped ≠ leftNested ∧
      ofLexemes 3 leftNested.lexemes = .ok leftNested.regrouped := by
  have asterisk : Expression.asterisk.Readable .outside := .leaf rfl rfl (by simp)
  have a : (Expression.identifier "a").Readable .outside :=
    .leaf rfl rfl (by rintro _ _ ⟨⟩; decide)
  have b : (Expression.identifier "b").Readable .outside :=
    .leaf rfl rfl (by rintro _ _ ⟨⟩; decide)
  have joined : (Expression.concatenation [.concatenation [.identifier "a", .asterisk],
      .identifier "b"]).Readable .outside := by
    have inner : (Expression.concatenation [.identifier "a", .asterisk]).Readable .outside := by
      apply Expression.Readable.concatenation (List.cons_ne_nil _ _)
      simpa using ⟨a, asterisk⟩
    apply Expression.Readable.concatenation (List.cons_ne_nil _ _)
    simpa using ⟨inner, b⟩
  have single : (Expression.concatenation [.asterisk]).Readable .outside :=
    .concatenation (List.cons_ne_nil _ _) (List.forall_mem_singleton.mpr asterisk)
  have readable : leftNested.Readable := by
    apply Readable.combined (Readable.combined (.select ?_) (.select ?_)) (.select ?_)
    · constructor
      · exact List.cons_ne_nil _ _
      · exact List.forall_mem_singleton.mpr ⟨joined, by decide⟩
      · exact ⟨by decide, by decide⟩
      · rintro condition ⟨⟩
        exact .logical
          (.logical (.comparison (.single (.leaf rfl rfl)) (.leaf rfl rfl))
            (.comparison (.leaf rfl rfl) (.leaf rfl rfl)))
          (.comparison (.leaf rfl rfl) (.leaf rfl rfl))
    · constructor
      · exact List.cons_ne_nil _ _
      · exact List.forall_mem_singleton.mpr ⟨asterisk, by decide⟩
      · exact ⟨by decide, by decide⟩
      · rintro condition ⟨⟩
    · constructor
      · exact List.cons_ne_nil _ _
      · exact List.forall_mem_singleton.mpr ⟨single, by decide⟩
      · exact ⟨by decide, by decide⟩
      · rintro condition ⟨⟩
  have within : leftNested.Within 3 := by decide
  exact ⟨readable, within, by decide, (ofLexemes_lexemes_eq_regrouped readable within).1⟩

end Query

end SelectQuery
