import SelectQuery.Proofs.Reading.Expression

/-!
# Reading a column list is exact

A draft is what the reader remembers of the tokens of a column.  `Draft.Holds`
says which tokens leave which draft; one step of the reader keeps it, so that the
whole run derives the columns it returns.

In the other direction a derived column is passed over token by token: `Passes`
is a run of steps that ends no column.
-/

namespace SelectQuery

open Column (Draft)

/-! ## Where an operand can end -/

namespace Token

/-- Where an operand can end, the token is no word that introduces one. -/
theorem spells_eq_false_of_canEndOperand {token : Token} (ends : token.canEndOperand = true)
    {word : String} (introduces : word ∈ neverOperands) : token.spells word = false := by
  by_cases identifier : token.role = .identifier
  · rw [canEndOperand, identifier] at ends
    simpa using List.all_eq_true.mp ends word introduces
  · have noOperator : ∀ word ∈ neverOperands,
        Comparator.ofText? word = none ∧ Connective.ofText? word = none := by decide
    exact spells_eq_false_of_role_ne identifier (noOperator word introduces)

end Token

/-- Derived groups end with a token at which an operand can end, unless it is a
word that introduces one. -/
theorem DerivesGroups.canEndOperand_getLast {place : Place} {tokens : List Token}
    {parts : List Expression} (groups : DerivesGroups place tokens parts)
    (complete : ∀ last ∈ tokens.getLast?, ∀ word ∈ Token.neverOperands,
      last.spells word = false) :
    tokens.getLast?.any Token.canEndOperand = true := by
  induction groups with
  | @leaf place token _ leaf =>
      have roles := leaf.role_mem
      simp only [List.mem_cons, List.not_mem_nil, or_false] at roles
      rcases roles with role | role | role | role
      · simp [Token.canEndOperand, role]
      · simp [Token.canEndOperand, role]
      · simp [Token.canEndOperand, role]
      · simpa [Token.canEndOperand, role] using complete token rfl
  | @parenthesized place opening tokens closing parts opens inner closes =>
      have last : (opening :: (tokens ++ [closing])).getLast? = some closing := by
        rw [← List.cons_append, List.getLast?_append]
        rfl
      simp [last, Token.canEndOperand, closes]
  | @joined place first bar others part parts group joins later _ readLater =>
      have last : (first ++ bar :: others).getLast? = others.getLast? := by
        rw [List.getLast?_append, List.getLast?_cons]
        cases others with
        | nil => exact absurd rfl later.ne_nil
        | cons token others => simp [List.getLast?_cons]
      rw [last] at complete ⊢
      exact readLater complete

namespace Column.Draft

/-! ## One step -/

/-- A token that neither ends the column nor comes too early: no keyword of another
clause than the columns, and no comma outside parentheses. -/
structure Takes (draft : Draft) (token : Token) : Prop where
  noClause : ∀ clause ∈ [Clause.source, .filter, .order, .limit], token.role ≠ .clause clause
  noComma : ¬ (token.role = .comma ∧ draft.level.isOuter = true)

/-- All that a step can do.  A name is the alias where one must follow; elsewhere
`FROM` ends the list, a comma outside parentheses ends the column, and a token
that the column takes is added to its expression. -/
theorem step_eq_ok_iff (draft : Draft) (token : Located) (result : Step) :
    draft.step token = .ok result ↔
      (draft.phase = .awaitingAlias ∧ token.IsName ∧
          result = .extended { draft with phase := .aliased token.text }) ∨
        (draft.phase ≠ .awaitingAlias ∧ token.role = .clause .source ∧ result = .listEnds) ∨
        (draft.phase ≠ .awaitingAlias ∧ token.role = .comma ∧ draft.level.isOuter = true ∧
          result = .columnEnds) ∨
        (draft.phase = .expression ∧ draft.Takes token.toToken ∧
          result = .extended (draft.add token.toToken)) := by
  constructor
  · intro step
    unfold Draft.step at step
    split at step
    · rename_i awaiting
      split at step
      · rename_i named
        cases step
        exact .inl ⟨awaiting, (Token.canName_iff _).mp named, rfl⟩
      · cases step
    · rename_i role notAwaiting
      cases step
      exact .inr (.inl ⟨notAwaiting, role, rfl⟩)
    · cases step
    · cases step
    · cases step
    · rename_i notAwaiting noSource noFilter noOrder noLimit
      split at step
      · rename_i comma
        cases step
        exact .inr (.inr (.inl ⟨notAwaiting, comma.1, comma.2, rfl⟩))
      · rename_i noComma
        split at step
        · cases step
        · rename_i notAliased
          cases step
          have onExpression : draft.phase = .expression := by
            cases phase : draft.phase with
            | expression => rfl
            | awaitingAlias => exact absurd phase notAwaiting
            | aliased name => exact absurd phase (notAliased name)
          refine .inr (.inr (.inr ⟨onExpression, ⟨?_, noComma⟩, rfl⟩))
          simp only [List.forall_mem_cons, List.not_mem_nil, false_implies, implies_true, and_true]
          exact ⟨noSource, noFilter, noOrder, noLimit⟩
  · rcases draft with ⟨tokens, level, phase⟩
    rintro (⟨rfl, named, rfl⟩ | ⟨notAwaiting, role, rfl⟩ | ⟨notAwaiting, role, outer, rfl⟩ |
      ⟨rfl, takes, rfl⟩)
    · simp [Draft.step, (Token.canName_iff _).mpr named]
    · cases phase with
      | awaitingAlias => exact absurd rfl notAwaiting
      | expression | aliased name => simp [Draft.step, role]
    · cases phase with
      | awaitingAlias => exact absurd rfl notAwaiting
      | expression | aliased name => simp_all [Draft.step]
    · have noSource := takes.noClause .source (by decide)
      have noFilter := takes.noClause .filter (by decide)
      have noOrder := takes.noClause .order (by decide)
      have noLimit := takes.noClause .limit (by decide)
      have noComma := takes.noComma
      unfold Draft.step
      split
      · contradiction
      · contradiction
      · contradiction
      · contradiction
      · contradiction
      · rw [if_neg noComma]

/-! ## What is read is derived -/

/-- The tokens of a column that leave a draft.  Those of the expression are in it;
the words around an alias are not. -/
inductive Holds : List Token → Draft → Prop
  | expression {parts} (free : Expression.AliasFree parts) :
      Holds parts ⟨parts.reverse, Nesting.reach Token.mark .outer parts, .expression⟩
  | awaiting {parts announcer level} (free : Expression.AliasFree parts)
      (announces : announcer.spells "AS" = true) :
      Holds (parts ++ [announcer]) ⟨parts.reverse, level, .awaitingAlias⟩
  | announced {parts announcer name level} (free : Expression.AliasFree parts)
      (announces : announcer.spells "AS" = true) (named : name.IsName) :
      Holds (parts ++ [announcer, name]) ⟨parts.reverse, level, .aliased name.text⟩
  | short {parts name level} (free : Expression.AliasFree parts)
      (ends : parts.getLast?.any Token.canEndOperand = true) (named : name.IsName) :
      Holds (parts ++ [name]) ⟨parts.reverse, level, .aliased name.text⟩

theorem holds_start : Holds [] .start :=
  .expression trivial

/-- A token that is added is kept, or is an identifier: `AS` or an alias. -/
theorem add_cases (draft : Draft) (token : Token) :
    (draft.add token).tokens = token :: draft.tokens ∧
        (draft.add token).level = draft.level.after token.mark ∨
      (draft.add token).tokens = draft.tokens ∧ (draft.add token).level = draft.level ∧
        token.role = .identifier := by
  unfold Draft.add
  split
  · rename_i announces
    have spelled := (Bool.and_eq_true_iff.mp announces).2
    exact .inr ⟨rfl, rfl, Token.role_eq_identifier_of_spells spelled (by decide)⟩
  · split
    · rename_i short
      simp only [Bool.and_eq_true, Token.canName_iff] at short
      exact .inr ⟨rfl, rfl, short.1.2.identifier⟩
    · exact .inl ⟨rfl, rfl⟩

/-- Kept or not, a token that is added leads to the level after it. -/
theorem level_add (draft : Draft) (token : Token) :
    (draft.add token).level = draft.level.after token.mark := by
  rcases draft.add_cases token with ⟨_, level⟩ | ⟨_, level, identifier⟩
  · exact level
  · rw [level, Token.mark_of_identifier identifier]
    rfl

/-- Adding a token to an expression keeps what the draft holds. -/
theorem Holds.add {parts : List Token} (free : Expression.AliasFree parts) (token : Token) :
    Holds (parts ++ [token])
      (Draft.add ⟨parts.reverse, Nesting.reach Token.mark .outer parts, .expression⟩ token) := by
  unfold Draft.add
  split
  · rename_i announces
    exact .awaiting free (Bool.and_eq_true_iff.mp announces).2
  · rename_i announcesNone
    split
    · rename_i short
      simp only [Bool.and_eq_true, List.head?_reverse, Token.canName_iff] at short
      exact .short free short.2 short.1.2
    · have freeToken : Expression.AliasFree (parts ++ [token]) := by
        refine (Nesting.holdsOuter_append _ _ _ _ _).mpr ⟨free, fun outer => ?_, trivial⟩
        simpa [outer] using announcesNone
      have extended := Holds.expression freeToken
      rw [List.reverse_append, Nesting.reach_append] at extended
      exact extended

/-- One step keeps what a draft holds. -/
theorem Holds.step {used : List Token} {draft next : Draft} {token : Located}
    (holds : Holds used draft) (step : draft.step token = .ok (.extended next)) :
    Holds (used ++ [token.toToken]) next := by
  rcases (step_eq_ok_iff draft token _).mp step with
    ⟨awaits, named, equal⟩ | ⟨_, _, equal⟩ | ⟨_, _, _, equal⟩ | ⟨onExpression, _, equal⟩
  · cases equal
    cases holds with
    | awaiting free announces =>
        rw [List.append_assoc]
        exact .announced free announces named
    | expression | announced | short => cases awaits
  · cases equal
  · cases equal
  · cases equal
    cases holds with
    | expression free => exact Holds.add free token.toToken
    | awaiting | announced | short => cases onExpression

/-- The tokens of the expression hold no word that would announce an alias. -/
theorem Holds.aliasFree {used : List Token} {draft : Draft} (holds : draft.Holds used) :
    Expression.AliasFree draft.tokens.reverse := by
  cases holds with
  | expression free | awaiting free | announced free | short free =>
      rw [List.reverse_reverse]
      exact free

/-- The column of a draft is derived from the tokens that the draft holds. -/
theorem Holds.toColumn {used : List Token} {draft : Draft} (holds : draft.Holds used)
    (complete : draft.phase ≠ .awaitingAlias) {limit position : Nat} {column : Column}
    (read : draft.toColumn limit position = .ok column) :
    column.expression.nesting ≤ limit ∧ DerivesColumn used column := by
  unfold Draft.toColumn at read
  split at read
  · cases read
  · rcases map_eq_ok_iff.mp read with ⟨expression, readExpression, rfl⟩
    rcases Expression.derivesGroups_of_ofTokens readExpression holds.aliasFree with
      ⟨nested, parts, groups, rfl⟩
    constructor
    · exact nested
    · cases holds with
      | expression free =>
          rw [List.reverse_reverse] at groups
          exact .plain groups
      | awaiting => exact absurd rfl complete
      | announced free announces named =>
          rw [List.reverse_reverse] at groups
          exact .announced groups announces named
      | short free ends named =>
          rw [List.reverse_reverse] at groups
          apply DerivesColumn.short groups _ named
          intro last isLast word introduces
          rw [Option.mem_def.mp isLast] at ends
          exact Token.spells_eq_false_of_canEndOperand ends introduces

end Column.Draft

/-- The columns that are read are derived, together with the tokens that the first
draft holds, and `FROM` follows them. -/
theorem derivesColumns_of_readColumns {limit : Nat} {used : List Token} {draft : Draft}
    (holds : draft.Holds used) {tokens rest : List Located} {columns : List Column}
    (read : readColumns limit draft tokens = .ok (columns, rest)) :
    ∃ items keyword, tokens = items ++ keyword :: rest ∧ keyword.role = .clause .source ∧
      DerivesColumns (used ++ items.map Located.toToken) columns ∧
      ∀ column ∈ columns, column.expression.nesting ≤ limit := by
  induction tokens generalizing used draft columns with
  | nil => cases read
  | cons token tokens inductionHypothesis =>
      rw [readColumns] at read
      cases step : draft.step token with
      | error error =>
          rw [step] at read
          cases read
      | ok result =>
          rw [step] at read
          cases result with
          | extended next =>
              rcases inductionHypothesis (holds.step step) read with
                ⟨items, keyword, rfl, role, derived, nested⟩
              rw [List.append_assoc] at derived
              exact ⟨token :: items, keyword, rfl, role, derived, nested⟩
          | columnEnds =>
              rcases bind_eq_ok_iff.mp read with ⟨column, readColumn, later⟩
              rcases bind_eq_ok_iff.mp later with ⟨⟨others, afterOthers⟩, readOthers, equal⟩
              cases equal
              rcases inductionHypothesis Column.Draft.holds_start readOthers with
                ⟨items, keyword, rfl, role, derived, nested⟩
              have ends := (Column.Draft.step_eq_ok_iff draft token _).mp step
              simp only [reduceCtorEq, and_false, and_true, false_or, or_false] at ends
              have first := holds.toColumn ends.1 readColumn
              exact ⟨token :: items, keyword, rfl, role, .more first.2 ends.2.1 derived,
                List.forall_mem_cons.mpr ⟨first.1, nested⟩⟩
          | listEnds =>
              rcases bind_eq_ok_iff.mp read with ⟨column, readColumn, equal⟩
              cases equal
              have ends := (Column.Draft.step_eq_ok_iff draft token _).mp step
              simp only [reduceCtorEq, and_false, and_true, false_or, or_false] at ends
              have only := holds.toColumn ends.1 readColumn
              refine ⟨[], token, rfl, ends.2, ?_, List.forall_mem_singleton.mpr only.1⟩
              rw [List.map_nil, List.append_nil]
              exact .one only.2

/-! ## What is derived is read -/

namespace Column.Draft

/-- A list of tokens takes the reader from one draft to another and ends no column,
whatever follows. -/
def Passes (draft : Draft) (tokens : List Token) (next : Draft) : Prop :=
  ∀ limit position rest,
    readColumns limit draft (Located.number position (tokens ++ rest)) =
      readColumns limit next (Located.number (position + tokens.length) rest)

theorem Passes.trans {draft middle next : Draft} {tokens others : List Token}
    (first : draft.Passes tokens middle) (later : middle.Passes others next) :
    draft.Passes (tokens ++ others) next := by
  intro limit position rest
  rw [List.append_assoc, first, later, List.length_append, Nat.add_assoc]

/-- A token that extends a draft wherever it stands is passed over. -/
theorem passes_of_step {draft next : Draft} {token : Token}
    (step : ∀ position, draft.step ⟨token, position⟩ = .ok (.extended next)) :
    draft.Passes [token] next := by
  intro limit position rest
  rw [List.singleton_append, Located.number_cons, readColumns, step]
  rfl

/-- What is known of a draft before groups at a place: inside, a parenthesis is
open; outside, none is, and no operand ends right before. -/
def Ready (place : Place) (depth : Nat) (before : List Token) : Prop :=
  match place with
  | .outside => depth = 0 ∧ before.head?.any Token.canEndOperand = false
  | .inside => 0 < depth

/-- A token that announces nothing and names nothing where it stands is added to
the expression. -/
theorem passes_token {before : List Token} {depth : Nat} {token : Token}
    (noClause : ∀ clause ∈ [Clause.source, .filter, .order, .limit],
      token.role ≠ .clause clause)
    (noComma : token.role ≠ .comma)
    (free : depth = 0 → token.spells "AS" = false)
    (noAlias : depth = 0 → token.canName = false ∨ before.head?.any Token.canEndOperand = false) :
    Passes ⟨before, ⟨depth, false⟩, .expression⟩ [token]
      ⟨token :: before, Nesting.Level.after ⟨depth, false⟩ token.mark, .expression⟩ := by
  have added : Draft.add ⟨before, ⟨depth, false⟩, .expression⟩ token =
      ⟨token :: before, Nesting.Level.after ⟨depth, false⟩ token.mark, .expression⟩ := by
    unfold Draft.add
    cases depth with
    | zero => rcases noAlias rfl with noName | noOperand <;> simp [*]
    | succ depth => simp [Nesting.Level.isOuter]
  apply passes_of_step
  intro position
  rw [step_eq_ok_iff, added]
  exact .inr (.inr (.inr ⟨rfl, ⟨noClause, fun comma => noComma comma.1⟩, rfl⟩))

/-- So is a token that is no word at all. -/
theorem passes_punctuation (before : List Token) (depth : Nat) (token : Token)
    (noClause : ∀ clause ∈ [Clause.source, .filter, .order, .limit],
      token.role ≠ .clause clause)
    (noComma : token.role ≠ .comma) (noWord : token.role ≠ .identifier) :
    Passes ⟨before, ⟨depth, false⟩, .expression⟩ [token]
      ⟨token :: before, Nesting.Level.after ⟨depth, false⟩ token.mark, .expression⟩ :=
  passes_token noClause noComma
    (fun _ => Token.spells_eq_false_of_role_ne noWord (by decide))
    (fun _ => .inl (Token.canName_eq_false_of_role_ne noWord))

end Column.Draft

/-- Outside parentheses no leaf is the word `AS`. -/
theorem DerivesLeaf.spells_eq_false {token : Token} {expression : Expression}
    (leaf : DerivesLeaf .outside token expression) : token.spells "AS" = false := by
  cases leaf with
  | asterisk role | literal role | call role _ =>
      exact Token.spells_eq_false_of_role_ne (by simp [role]) (by decide)
  | word _ free => exact free rfl

open Column.Draft in
/-- Derived groups are passed over, and leave no parenthesis open. -/
theorem DerivesGroups.passes {place : Place} {tokens : List Token} {parts : List Expression}
    (groups : DerivesGroups place tokens parts) {depth : Nat} {before : List Token}
    (ready : Ready place depth before) :
    Passes ⟨before, ⟨depth, false⟩, .expression⟩ tokens
      ⟨tokens.reverse ++ before, ⟨depth, false⟩, .expression⟩ := by
  induction groups generalizing depth before with
  | @leaf place token expression leaf =>
      have roles := leaf.role_mem
      have outside : depth = 0 → place = .outside := by
        rintro rfl
        cases place with
        | outside => rfl
        | inside => exact absurd ready (Nat.lt_irrefl 0)
      have passed : Passes ⟨before, ⟨depth, false⟩, .expression⟩ [token]
          ⟨token :: before, Nesting.Level.after ⟨depth, false⟩ token.mark, .expression⟩ := by
        apply passes_token
        · intro clause _ role
          simp [role] at roles
        · intro role
          simp [role] at roles
        · intro outer
          cases outside outer
          exact leaf.spells_eq_false
        · intro outer
          cases outside outer
          exact .inr ready.2
      rw [leaf.mark_eq] at passed
      exact passed
  | @parenthesized place opening tokens closing parts opens inner closes inductionHypothesis =>
      have opened := passes_punctuation before depth opening
        (by simp [opens]) (by simp [opens]) (by simp [opens])
      have closed := passes_punctuation (tokens.reverse ++ opening :: before) (depth + 1)
        closing (by simp [closes]) (by simp [closes]) (by simp [closes])
      rw [(Token.mark_eq_opens_iff opening).mpr opens] at opened
      rw [(Token.mark_eq_closes_iff closing).mpr closes] at closed
      have enclosed := @inductionHypothesis (depth + 1) (opening :: before) (Nat.succ_pos depth)
      have whole := opened.trans (enclosed.trans closed)
      simpa [Nesting.Level.after] using whole
  | @joined place first bar others part parts group joins later readGroup readLater =>
      have separated := passes_punctuation (first.reverse ++ before) depth bar
        (by simp [joins]) (by simp [joins]) (by simp [joins])
      rw [(Token.mark_eq_separates_iff bar).mpr joins] at separated
      have readyLater : Ready place depth (bar :: (first.reverse ++ before)) := by
        cases place with
        | outside => exact ⟨ready.1, by simp [Token.canEndOperand, joins]⟩
        | inside => exact ready
      have whole := (readGroup ready).trans (separated.trans (readLater readyLater))
      simpa [Nesting.Level.after] using whole

namespace Column.Draft

/-- Outside parentheses `AS` announces an alias. -/
theorem passes_announcer (before : List Token) {announcer : Token}
    (announces : announcer.spells "AS" = true) :
    Passes ⟨before, .outer, .expression⟩ [announcer] ⟨before, .outer, .awaitingAlias⟩ := by
  have role := Token.role_eq_identifier_of_spells announces (by decide)
  apply passes_of_step
  intro position
  rw [step_eq_ok_iff]
  refine .inr (.inr (.inr ⟨rfl, ⟨by simp [role], by simp [role]⟩, ?_⟩))
  simp [Draft.add, announces]

/-- A name is the alias where one must follow. -/
theorem passes_awaited (before : List Token) (level : Nesting.Level) {name : Token}
    (named : name.IsName) :
    Passes ⟨before, level, .awaitingAlias⟩ [name] ⟨before, level, .aliased name.text⟩ := by
  apply passes_of_step
  intro position
  rw [step_eq_ok_iff]
  exact .inl ⟨rfl, named, rfl⟩

/-- Outside parentheses a name right after an operand is an alias. -/
theorem passes_short {before : List Token} (ends : before.head?.any Token.canEndOperand = true)
    {name : Token} (named : name.IsName) :
    Passes ⟨before, .outer, .expression⟩ [name] ⟨before, .outer, .aliased name.text⟩ := by
  have role := named.identifier
  apply passes_of_step
  intro position
  rw [step_eq_ok_iff]
  refine .inr (.inr (.inr ⟨rfl, ⟨by simp [role], by simp [role]⟩, ?_⟩))
  have announcesNothing : name.spells "AS" = false := named.unreserved "AS" (by decide)
  simp [Draft.add, announcesNothing, (Token.canName_iff name).mpr named, ends]

/-- A draft that holds derived groups is read as a column. -/
theorem toColumn_of_derivesGroups {tokens : List Token} {parts : List Expression}
    (groups : DerivesGroups .outside tokens parts) (level : Nesting.Level) (phase : Phase)
    {limit : Nat} (within : (Expression.ofParts parts).nesting ≤ limit) (position : Nat) :
    toColumn ⟨tokens.reverse, level, phase⟩ limit position =
      .ok ⟨.ofParts parts, phase.alias?⟩ := by
  have nonempty : tokens.reverse.isEmpty = false := by
    simpa using groups.ne_nil
  rw [toColumn, if_neg (by simp [nonempty]), List.reverse_reverse,
    Expression.ofTokens_of_derivesGroups groups within]
  rfl

end Column.Draft

/-- The tokens of a derived column leave a draft that is read as that column. -/
theorem DerivesColumn.exists_passes {tokens : List Token} {column : Column}
    (derived : DerivesColumn tokens column) :
    ∃ draft : Draft, Column.Draft.start.Passes tokens draft ∧ draft.level = .outer ∧
      draft.phase ≠ .awaitingAlias ∧
      ∀ limit position, column.expression.nesting ≤ limit →
        draft.toColumn limit position = .ok column := by
  have passesGroups : ∀ {tokens parts}, DerivesGroups .outside tokens parts →
      Column.Draft.start.Passes tokens ⟨tokens.reverse, .outer, .expression⟩ := by
    intro tokens parts groups
    have passed := @DerivesGroups.passes _ _ _ groups 0 [] ⟨rfl, rfl⟩
    rw [List.append_nil] at passed
    exact passed
  cases derived with
  | plain groups =>
      refine ⟨_, passesGroups groups, rfl, by simp, fun limit position within => ?_⟩
      exact Column.Draft.toColumn_of_derivesGroups groups _ _ within position
  | announced groups announces named =>
      have passed := (passesGroups groups).trans ((Column.Draft.passes_announcer _ announces).trans
        (Column.Draft.passes_awaited _ _ named))
      refine ⟨_, passed, rfl, by simp, fun limit position within => ?_⟩
      exact Column.Draft.toColumn_of_derivesGroups groups _ _ within position
  | short groups complete named =>
      have ends := groups.canEndOperand_getLast complete
      rw [← List.head?_reverse] at ends
      have passed := (passesGroups groups).trans (Column.Draft.passes_short ends named)
      refine ⟨_, passed, rfl, by simp, fun limit position within => ?_⟩
      exact Column.Draft.toColumn_of_derivesGroups groups _ _ within position

/-- Derived columns before `FROM` are read, if their parentheses nest up to the
limit. -/
theorem readColumns_of_derivesColumns {items : List Token} {columns : List Column}
    (derived : DerivesColumns items columns) {limit : Nat}
    (within : ∀ column ∈ columns, column.expression.nesting ≤ limit)
    {keyword : Token} (role : keyword.role = .clause .source) (position : Nat)
    (rest : List Token) :
    readColumns limit .start (Located.number position (items ++ keyword :: rest)) =
      .ok (columns, Located.number (position + items.length + 1) rest) := by
  induction derived generalizing position with
  | @one tokens column only =>
      rcases only.exists_passes with ⟨draft, passed, _, complete, toColumn⟩
      have ends : draft.step ⟨keyword, position + tokens.length⟩ = .ok .listEnds :=
        (Column.Draft.step_eq_ok_iff _ _ _).mpr (.inr (.inl ⟨complete, role, rfl⟩))
      rw [passed, Located.number_cons, readColumns, ends]
      simp only [toColumn limit _ (within column (List.mem_singleton_self column))]
      rfl
  | @more tokens comma others column columns first separates later inductionHypothesis =>
      rcases first.exists_passes with ⟨draft, passed, outer, complete, toColumn⟩
      rw [List.forall_mem_cons] at within
      have ends : draft.step ⟨comma, position + tokens.length⟩ = .ok .columnEnds := by
        have outside : draft.level.isOuter = true := by
          rw [outer, Nesting.Level.isOuter_outer]
        exact (Column.Draft.step_eq_ok_iff _ _ _).mpr
          (.inr (.inr (.inl ⟨complete, separates, outside, rfl⟩)))
      rw [List.append_assoc, List.cons_append, passed, Located.number_cons, readColumns, ends]
      simp only [toColumn limit _ within.1, inductionHypothesis within.2]
      simp [bind, Except.bind, Nat.add_assoc, Nat.add_comm, Nat.add_left_comm]

end SelectQuery
