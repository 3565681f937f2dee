import Mathlib.Data.List.Forall2
import Mathlib.Tactic.Choose
import SelectQuery.Proofs.Reading.Query

/-!
# Columns are read one by one

The tokens of a column list are segments with a comma between two of them.  What a
segment is read as, a column or an error, does not depend on the segments around it: the
list is read as the columns of its segments in order, and the first segment that is no
column decides which error it fails with.

The reader goes through a list in one run of steps, so a segment is followed from the
draft that a column begins with.  It either leads to a further draft wherever it stands
(`Passes`), on the level that its parentheses lead to, or fails wherever it stands.
-/

namespace SelectQuery

/-! ## Variants of errors -/

/-- Which error it is. -/
inductive Error.Variant
  | unionWithoutSelect
  | unsupportedColumn
  | endOfInput
  | missingSource
  | unmatchedParenthesis
  | unexpectedToken
  | trailingToken
  | nestingTooDeep
  deriving DecidableEq, Inhabited

/-- The variant of an error. -/
def Error.variant : Error → Error.Variant
  | .unionWithoutSelect _ _ _ => .unionWithoutSelect
  | .unsupportedColumn _ => .unsupportedColumn
  | .endOfInput _ => .endOfInput
  | .missingSource _ => .missingSource
  | .unmatchedParenthesis _ => .unmatchedParenthesis
  | .unexpectedToken _ _ _ => .unexpectedToken
  | .trailingToken _ _ => .trailingToken
  | .nestingTooDeep _ => .nestingTooDeep

/-! ## Segments -/

namespace Column

/-- The tokens that may stand between two commas of a column list: no keyword of a later
clause, and no comma outside parentheses, where a closing parenthesis without partner is
passed over. -/
structure IsSegment (tokens : List Token) : Prop where
  noClause : ∀ token ∈ tokens, ∀ clause ∈ [Clause.source, .filter, .order, .limit],
    token.role ≠ .clause clause
  noComma : Nesting.HoldsOuter Token.mark (fun token => token.role ≠ .comma) .outer tokens

instance : DecidablePred IsSegment := fun tokens =>
  decidable_of_iff
    ((∀ token ∈ tokens, ∀ clause ∈ [Clause.source, .filter, .order, .limit],
        token.role ≠ .clause clause) ∧
      Nesting.HoldsOuter Token.mark (fun token => token.role ≠ .comma) .outer tokens)
    ⟨fun both => ⟨both.1, both.2⟩, fun isSegment => ⟨isSegment.noClause, isSegment.noComma⟩⟩

namespace Draft

/-- A list of tokens makes the reader fail from a draft on, whatever follows, with an
error of one variant. -/
def Fails (draft : Draft) (tokens : List Token) (variant : Error.Variant) : Prop :=
  ∀ limit position rest, ∃ error,
    readColumns limit draft (Located.number position (tokens ++ rest)) = .error error ∧
      error.variant = variant

theorem Passes.fails {draft next : Draft} {tokens others : List Token} {variant : Error.Variant}
    (first : draft.Passes tokens next) (later : next.Fails others variant) :
    draft.Fails (tokens ++ others) variant := by
  intro limit position rest
  rw [List.append_assoc, first]
  exact later limit _ rest

theorem fails_of_step {draft : Draft} {token : Token} {variant : Error.Variant}
    (step : ∀ position, ∃ error, draft.step ⟨token, position⟩ = .error error ∧
      error.variant = variant) : draft.Fails [token] variant := by
  intro limit position rest
  obtain ⟨error, failed, same⟩ := step position
  refine ⟨error, ?_, same⟩
  rw [List.singleton_append, Located.number_cons, readColumns, failed]

/-- Where an alias must follow, a token that is no name fails. -/
theorem step_eq_error_of_awaiting {draft : Draft} (awaits : draft.phase = .awaitingAlias)
    {token : Located} (noName : token.canName = false) :
    draft.step token = .error (.unexpectedToken .aliasName token.text token.position) := by
  rw [Draft.step, awaits, noName]
  rfl

/-- A token that the column takes is passed over or makes the reader fail, wherever it
stands. -/
theorem Takes.passes_or_fails {draft : Draft} {token : Token} (takes : draft.Takes token) :
    (∃ next, draft.Passes [token] next ∧ next.level = draft.level.after token.mark) ∨
      ∃ variant, draft.Fails [token] variant := by
  obtain ⟨tokens, level, phase⟩ := draft
  cases phase with
  | expression =>
      refine .inl ⟨_, passes_of_step fun position => ?_, level_add _ token⟩
      rw [step_eq_ok_iff]
      exact .inr (.inr (.inr ⟨rfl, takes, rfl⟩))
  | awaitingAlias =>
      cases named : token.canName with
      | true =>
          have isName := (Token.canName_iff token).mp named
          refine .inl ⟨_, passes_awaited tokens level isName, ?_⟩
          rw [Token.mark_of_identifier isName.identifier]
          rfl
      | false =>
          refine .inr ⟨.unexpectedToken, fails_of_step fun position =>
            ⟨_, step_eq_error_of_awaiting rfl named, rfl⟩⟩
  | aliased name =>
      have noSource := takes.noClause .source (by decide)
      have noFilter := takes.noClause .filter (by decide)
      have noOrder := takes.noClause .order (by decide)
      have noLimit := takes.noClause .limit (by decide)
      refine .inr ⟨.unsupportedColumn, fails_of_step fun position =>
        ⟨.unsupportedColumn (.afterAlias token.text name), ?_, rfl⟩⟩
      unfold Draft.step
      split
      · contradiction
      · contradiction
      · contradiction
      · contradiction
      · contradiction
      · rw [if_neg takes.noComma]

/-- Tokens of a segment are passed over or make the reader fail, wherever they stand. -/
theorem passes_or_fails {tokens : List Token} {draft : Draft}
    (noClause : ∀ token ∈ tokens, ∀ clause ∈ [Clause.source, .filter, .order, .limit],
      token.role ≠ .clause clause)
    (noComma : Nesting.HoldsOuter Token.mark (fun token => token.role ≠ .comma) draft.level
      tokens) :
    (∃ next, draft.Passes tokens next ∧ next.level = Nesting.reach Token.mark draft.level tokens) ∨
      ∃ variant, draft.Fails tokens variant := by
  -- The level of the draft tells which of the later commas stand outside parentheses.
  induction tokens generalizing draft with
  | nil => exact .inl ⟨draft, fun limit position rest => rfl, rfl⟩
  | cons token tokens inductionHypothesis =>
      rw [List.forall_mem_cons] at noClause
      have takes : draft.Takes token := by
        refine ⟨noClause.1, fun comma => ?_⟩
        exact noComma.1 ((Nesting.Level.isOuter_iff _).mp comma.2) comma.1
      rcases takes.passes_or_fails with ⟨next, passed, level⟩ | ⟨variant, fails⟩
      · have noCommaLater := noComma.2
        rw [← level] at noCommaLater
        rcases inductionHypothesis noClause.2 noCommaLater with
          ⟨final, passedLater, levelLater⟩ | ⟨variant, fails⟩
        · refine .inl ⟨final, passed.trans passedLater, ?_⟩
          rw [levelLater, level, Nesting.reach_cons]
        · exact .inr ⟨variant, passed.fails fails⟩
      · refine .inr ⟨variant, fun limit position rest => ?_⟩
        exact fails limit position (tokens ++ rest)

/-! ## The end of a segment -/

/-- What a draft comes to at the end of its column. -/
def outcome (limit : Nat) (draft : Draft) : Except Error.Variant Column :=
  if draft.phase = .awaitingAlias then .error .unexpectedToken
  else (draft.toColumn limit 0).mapError Error.variant

/-- Where a column ends makes no difference to it. -/
theorem mapError_toColumn (draft : Draft) (limit position other : Nat) :
    (draft.toColumn limit position).mapError Error.variant =
      (draft.toColumn limit other).mapError Error.variant := by
  unfold Draft.toColumn
  split <;> rfl

/-- `FROM` ends the list with the column of the draft before it. -/
theorem readColumns_source (limit : Nat) (draft : Draft) {keyword : Located}
    (sourced : keyword.role = .clause .source) (rest : List Located) :
    (readColumns limit draft (keyword :: rest)).mapError Error.variant =
      (draft.outcome limit).map fun column => ([column], rest) := by
  by_cases awaits : draft.phase = .awaitingAlias
  · have noName : keyword.canName = false := Token.canName_eq_false_of_role_ne (by simp [sourced])
    rw [readColumns, step_eq_error_of_awaiting awaits noName, outcome, if_pos awaits]
    rfl
  · have ends : draft.step keyword = .ok .listEnds :=
      (step_eq_ok_iff _ _ _).mpr (.inr (.inl ⟨awaits, sourced, rfl⟩))
    rw [readColumns, ends, outcome, if_neg awaits,
      mapError_toColumn draft limit 0 keyword.position]
    cases draft.toColumn limit keyword.position <;> rfl

/-- A comma outside parentheses ends the column of the draft before it. -/
theorem readColumns_comma (limit : Nat) {draft : Draft} (outer : draft.level = .outer)
    {comma : Located} (separates : comma.role = .comma) (rest : List Located) :
    (readColumns limit draft (comma :: rest)).mapError Error.variant =
      draft.outcome limit >>= fun column =>
        ((readColumns limit .start rest).mapError Error.variant).map fun (columns, rest) =>
          (column :: columns, rest) := by
  by_cases awaits : draft.phase = .awaitingAlias
  · have noName : comma.canName = false := Token.canName_eq_false_of_role_ne (by simp [separates])
    rw [readColumns, step_eq_error_of_awaiting awaits noName, outcome, if_pos awaits]
    rfl
  · have ends : draft.step comma = .ok .columnEnds := by
      refine (step_eq_ok_iff _ _ _).mpr (.inr (.inr (.inl ⟨awaits, separates, ?_, rfl⟩)))
      rw [outer, Nesting.Level.isOuter_outer]
    rw [readColumns, ends, outcome, if_neg awaits, mapError_toColumn draft limit 0 comma.position]
    cases draft.toColumn limit comma.position with
    | error => rfl
    | ok column => cases readColumns limit .start rest <;> rfl

end Draft

/-- What a segment is read as wherever it stands: as the last of a list, before `FROM`, and
before a comma, if its parentheses are closed. -/
structure ReadsAs (limit : Nat) (segment : List Token) (outcome : Except Error.Variant Column) :
    Prop where
  last : ∀ position (keyword : Token) rest, keyword.role = .clause .source →
    (readColumns limit .start (Located.number position (segment ++ keyword :: rest))).mapError
        Error.variant =
      outcome.map fun column => ([column], Located.number (position + segment.length + 1) rest)
  followed : Nesting.reach Token.mark .outer segment = .outer →
    ∀ position (comma : Token) rest, comma.role = .comma →
      (readColumns limit .start (Located.number position (segment ++ comma :: rest))).mapError
          Error.variant =
        outcome >>= fun column =>
          ((readColumns limit .start (Located.number (position + segment.length + 1) rest)).mapError
              Error.variant).map fun (columns, rest) => (column :: columns, rest)

/-- A segment is read as one column or as one error. -/
theorem IsSegment.exists_readsAs (limit : Nat) {segment : List Token}
    (isSegment : IsSegment segment) : ∃ outcome, ReadsAs limit segment outcome := by
  have noComma : Nesting.HoldsOuter Token.mark (fun token => token.role ≠ .comma)
      Draft.start.level segment := isSegment.noComma
  rcases Draft.passes_or_fails isSegment.noClause noComma with
    ⟨draft, passed, level⟩ | ⟨variant, fails⟩
  · refine ⟨draft.outcome limit, fun position keyword rest sourced => ?_,
      fun closed position comma rest separates => ?_⟩
    · rw [passed, Located.number_cons, Draft.readColumns_source limit draft sourced]
    · rw [passed, Located.number_cons,
        Draft.readColumns_comma limit (level.trans closed) separates]
  · refine ⟨.error variant, fun position keyword rest _ => ?_, fun _ position comma rest _ => ?_⟩
    · obtain ⟨error, failed, rfl⟩ := fails limit position (keyword :: rest)
      rw [failed]
      rfl
    · obtain ⟨error, failed, rfl⟩ := fails limit position (comma :: rest)
      rw [failed]
      rfl

end Column

/-! ## Lists of segments -/

open Column (ReadsAs) in
/-- A list of segments is read as its segments in turn. -/
theorem readColumns_segments {limit : Nat} {outcome : List Token → Except Error.Variant Column}
    {segments : List (List Token)} (nonempty : segments ≠ [])
    (reads : ∀ segment ∈ segments, ReadsAs limit segment (outcome segment))
    (closed : ∀ segment ∈ segments.dropLast, Nesting.reach Token.mark .outer segment = .outer)
    {comma keyword : Token} (separates : comma.role = .comma)
    (sourced : keyword.role = .clause .source) (position : Nat) (rest : List Token) :
    (readColumns limit .start
        (Located.number position ([comma].intercalate segments ++ keyword :: rest))).mapError
        Error.variant =
      (segments.mapM outcome).map fun columns =>
        (columns, Located.number (position + ([comma].intercalate segments).length + 1) rest) := by
  induction segments generalizing position with
  | nil => exact absurd rfl nonempty
  | cons segment others inductionHypothesis =>
      rw [List.forall_mem_cons] at reads
      cases others with
      | nil =>
          rw [List.intercalate_singleton, reads.1.last position keyword rest sourced,
            List.mapM_cons, List.mapM_nil]
          cases outcome segment <;> rfl
      | cons second others =>
          rw [List.dropLast_cons_cons, List.forall_mem_cons] at closed
          have whole : (segment :: second :: others).mapM outcome =
              outcome segment >>= fun column =>
                (second :: others).mapM outcome >>= fun columns => .ok (column :: columns) :=
            List.mapM_cons
          rw [whole, List.intercalate_cons_cons, List.append_assoc, List.append_assoc,
            List.singleton_append, reads.1.followed closed.1 position comma _ separates,
            inductionHypothesis (List.cons_ne_nil _ _) reads.2 closed.2, List.length_append,
            List.length_append, List.length_singleton, ← Nat.add_assoc, ← Nat.add_assoc]
          cases outcome segment with
          | error => rfl
          | ok column => cases (second :: others).mapM outcome <;> rfl

/-! ## Readings in turn -/

theorem mapError_eq_ok_iff {ε δ α : Type} {f : ε → δ} {read : Except ε α} {value : α} :
    read.mapError f = .ok value ↔ read = .ok value := by
  cases read <;> simp [Except.mapError]

theorem mapError_eq_error_iff {ε δ α : Type} {f : ε → δ} {read : Except ε α} {error : δ} :
    read.mapError f = .error error ↔ ∃ cause, read = .error cause ∧ f cause = error := by
  cases read <;> simp [Except.mapError]

section MapM

variable {ε α β : Type} {read : α → Except ε β} {xs : List α}

/-- The items are read exactly as what each of them is read as. -/
theorem mapM_eq_ok_iff_forall₂ {results : List β} :
    xs.mapM read = .ok results ↔
      List.Forall₂ (fun x result => read x = .ok result) xs results := by
  induction xs generalizing results with
  | nil =>
      rw [List.forall₂_nil_left_iff, List.mapM_nil]
      exact ⟨fun ok => by cases ok; rfl, fun empty => by rw [empty]; rfl⟩
  | cons x xs inductionHypothesis =>
      rw [mapM_cons_eq_ok_iff, List.forall₂_cons_left_iff]
      simp only [inductionHypothesis, exists_and_left]

theorem exists_mapM_eq_ok_iff :
    (∃ results, xs.mapM read = .ok results) ↔ ∀ x ∈ xs, ∃ result, read x = .ok result := by
  induction xs with
  | nil => simpa using ⟨[], rfl⟩
  | cons x xs inductionHypothesis =>
      rw [List.forall_mem_cons, ← inductionHypothesis]
      constructor
      · rintro ⟨_, ok⟩
        obtain ⟨first, others, readFirst, readOthers, _⟩ := mapM_cons_eq_ok_iff.mp ok
        exact ⟨⟨first, readFirst⟩, others, readOthers⟩
      · rintro ⟨⟨first, readFirst⟩, others, readOthers⟩
        exact ⟨_, mapM_cons_eq_ok_iff.mpr ⟨first, others, readFirst, readOthers, rfl⟩⟩

/-- The first item that is not read decides the error. -/
theorem mapM_eq_error {before after : List α} {x : α} {error : ε}
    (earlier : ∀ other ∈ before, ∃ result, read other = .ok result)
    (failed : read x = .error error) : (before ++ x :: after).mapM read = .error error := by
  obtain ⟨results, ok⟩ := exists_mapM_eq_ok_iff.mpr earlier
  rw [List.mapM_append, ok, List.mapM_cons, failed]
  rfl

end MapM

/-! ## Queries of a column list -/

namespace Query

/-- The tokens of a query around its columns: `SELECT`, the comma between two columns,
`FROM` and a table. -/
structure Frame where
  select : Token
  comma : Token
  source : Token
  table : Token
  opens : select.role = .clause .columns
  separates : comma.role = .comma
  sourced : source.role = .clause .source
  named : table.IsName

namespace Frame

/-- The tokens of a query with the tokens of its columns. -/
def around (frame : Frame) (items : List Token) : List Token :=
  frame.select :: (items ++ [frame.source, frame.table])

/-- The tokens of a query with a segment for every column. -/
def list (frame : Frame) (segments : List (List Token)) : List Token :=
  frame.around ([frame.comma].intercalate segments)

/-- The query of columns. -/
def query (frame : Frame) (columns : List Column) : Query :=
  .select ⟨columns, ⟨frame.table.text, none⟩, none⟩

variable (frame : Frame)

theorem list_singleton (segment : List Token) : frame.list [segment] = frame.around segment := by
  rw [list, List.intercalate_singleton]

/-- A query is read as the query of the columns that its list is read as. -/
theorem ofTokens_around {limit : Nat} {items : List Token}
    {columns? : Except Error.Variant (List Column)}
    (reads : (readColumns (limit + 1) .start
        (Located.number 1 (items ++ frame.source :: [frame.table]))).mapError Error.variant =
      columns?.map fun columns => (columns, Located.number (1 + items.length + 1) [frame.table])) :
    (ofTokens (limit + 1) (frame.around items) 0).mapError Error.variant =
      columns?.map fun columns => (frame.query columns, (frame.around items).length) := by
  rw [ofTokens, Located.tokensFrom, List.drop_zero, around, Located.number_cons, Nat.zero_add,
    readQuery, readQueryWithin, readSelect, if_pos frame.opens]
  cases columnsRead : readColumns (limit + 1) .start
      (Located.number 1 (items ++ [frame.source, frame.table])) with
  | error error =>
      rw [columnsRead] at reads
      cases columns? with
      | error variant =>
          cases reads
          rfl
      | ok columns => cases reads
  | ok result =>
      rw [columnsRead] at reads
      cases columns? with
      | error variant => cases reads
      | ok columns =>
          cases reads
          have tableRead : readSource (Located.number (1 + items.length + 1) [frame.table]) =
              .ok (⟨frame.table.text, none⟩, []) := by
            rw [Located.number_cons, readSource, readName_cons _ frame.named]
            rfl
          simp only [bind, Except.bind, tableRead, readFilter, readSetOperator, List.length_nil,
            Nat.sub_zero]
          rfl

/-- Where the limit is zero, no query is read. -/
theorem ofTokens_zero (tokens : List Token) (start : Nat) :
    ofTokens 0 tokens start = .error (.nestingTooDeep 0) :=
  rfl

/-- A query is read as its segments in turn, each of which is read as it is on its own. -/
theorem exists_outcome (limit : Nat) :
    ∃ outcome : List Token → Except Error.Variant Column, ∀ segments ≠ [],
      (∀ segment ∈ segments, Column.IsSegment segment) →
      (∀ segment ∈ segments.dropLast, Nesting.reach Token.mark .outer segment = .outer) →
        (ofTokens limit (frame.list segments) 0).mapError Error.variant =
          (segments.mapM outcome).map fun columns =>
            (frame.query columns, (frame.list segments).length) := by
  cases limit with
  | zero =>
      refine ⟨fun _ => .error .nestingTooDeep, fun segments nonempty _ _ => ?_⟩
      obtain ⟨segment, others, rfl⟩ := List.exists_cons_of_ne_nil nonempty
      rw [ofTokens_zero, List.mapM_cons]
      rfl
  | succ limit =>
      have each : ∀ segment, Column.IsSegment segment →
          ∃ outcome, Column.ReadsAs (limit + 1) segment outcome :=
        fun segment isSegment => isSegment.exists_readsAs (limit + 1)
      choose! outcome reads using each
      refine ⟨outcome, fun segments nonempty areSegments closed => ?_⟩
      have readsEach : ∀ segment ∈ segments,
          Column.ReadsAs (limit + 1) segment (outcome segment) :=
        fun segment member => reads segment (areSegments segment member)
      apply frame.ofTokens_around
      exact readColumns_segments nonempty readsEach closed frame.separates frame.sourced 1
        [frame.table]

/-- Each of the segments is read as one outcome on its own and in the list. -/
structure Reads (limit : Nat) (segments : List (List Token))
    (outcome : List Token → Except Error.Variant Column) : Prop where
  alone : ∀ segment ∈ segments,
    (ofTokens limit (frame.around segment) 0).mapError Error.variant =
      (outcome segment).map fun column => (frame.query [column], (frame.around segment).length)
  whole : (ofTokens limit (frame.list segments) 0).mapError Error.variant =
    (segments.mapM outcome).map fun columns =>
      (frame.query columns, (frame.list segments).length)

namespace Reads

variable {frame} {limit : Nat} {segments : List (List Token)}
  {outcome : List Token → Except Error.Variant Column}

theorem alone_eq_ok_iff (reads : frame.Reads limit segments outcome) {segment : List Token}
    (member : segment ∈ segments) {result : Query × Nat} :
    ofTokens limit (frame.around segment) 0 = .ok result ↔
      ∃ column, outcome segment = .ok column ∧
        (frame.query [column], (frame.around segment).length) = result := by
  rw [← mapError_eq_ok_iff, reads.alone segment member, map_eq_ok_iff]

theorem whole_eq_ok_iff (reads : frame.Reads limit segments outcome) {result : Query × Nat} :
    ofTokens limit (frame.list segments) 0 = .ok result ↔
      ∃ columns, segments.mapM outcome = .ok columns ∧
        (frame.query columns, (frame.list segments).length) = result := by
  rw [← mapError_eq_ok_iff, reads.whole, map_eq_ok_iff]

/-- The whole is read exactly if each segment is. -/
theorem exists_ok_iff (reads : frame.Reads limit segments outcome) :
    (∃ result, ofTokens limit (frame.list segments) 0 = .ok result) ↔
      ∀ segment ∈ segments, ∃ result, ofTokens limit (frame.around segment) 0 = .ok result := by
  have each : (∀ segment ∈ segments, ∃ result,
      ofTokens limit (frame.around segment) 0 = .ok result) ↔
        ∀ segment ∈ segments, ∃ column, outcome segment = .ok column := by
    refine forall₂_congr fun segment member => ?_
    simp [reads.alone_eq_ok_iff member]
  rw [each, ← exists_mapM_eq_ok_iff]
  simp [reads.whole_eq_ok_iff]

/-- The columns of the whole are those of the segments. -/
theorem columns_of_ok (reads : frame.Reads limit segments outcome) {read : Query} {stop : Nat}
    (ok : ofTokens limit (frame.list segments) 0 = .ok (read, stop)) :
    stop = (frame.list segments).length ∧ ∃ columns, read = frame.query columns ∧
      List.Forall₂ (fun segment column => ofTokens limit (frame.around segment) 0 =
        .ok (frame.query [column], (frame.around segment).length)) segments columns := by
  obtain ⟨columns, mapped, equal⟩ := reads.whole_eq_ok_iff.mp ok
  cases equal
  have each := mapM_eq_ok_iff_forall₂.mp mapped
  refine ⟨rfl, columns, rfl, List.forall₂_iff_get.mpr ⟨each.length_eq, fun i left right => ?_⟩⟩
  exact (reads.alone_eq_ok_iff (List.get_mem _ _)).mpr ⟨_, each.get left right, rfl⟩

/-- The first segment that is not read decides the error of the whole. -/
theorem variant_of_error {before after : List (List Token)} {segment : List Token}
    (reads : frame.Reads limit (before ++ segment :: after) outcome)
    (earlier : ∀ other ∈ before, ∃ result, ofTokens limit (frame.around other) 0 = .ok result)
    {error : Error} (failed : ofTokens limit (frame.around segment) 0 = .error error) :
    ∃ wholeError, ofTokens limit (frame.list (before ++ segment :: after)) 0 = .error wholeError ∧
      wholeError.variant = error.variant := by
  have columnsBefore : ∀ other ∈ before, ∃ column, outcome other = .ok column := by
    intro other member
    obtain ⟨result, ok⟩ := earlier other member
    obtain ⟨column, outcomeOk, _⟩ :=
      (reads.alone_eq_ok_iff (List.mem_append_left _ member)).mp ok
    exact ⟨column, outcomeOk⟩
  have outcomeFailed : outcome segment = .error error.variant := by
    have alone := reads.alone segment (by simp)
    rw [failed] at alone
    exact map_eq_error_iff.mp alone.symm
  rw [← mapError_eq_error_iff, reads.whole, mapM_eq_error columnsBefore outcomeFailed]
  rfl

end Reads

/-- Segments that may stand between commas are read one by one. -/
theorem exists_reads (limit : Nat) {segments : List (List Token)} (nonempty : segments ≠ [])
    (areSegments : ∀ segment ∈ segments, Column.IsSegment segment)
    (closed : ∀ segment ∈ segments.dropLast, Nesting.reach Token.mark .outer segment = .outer) :
    ∃ outcome, frame.Reads limit segments outcome := by
  obtain ⟨outcome, law⟩ := frame.exists_outcome limit
  refine ⟨outcome, fun segment member => ?_, law segments nonempty areSegments closed⟩
  have alone := law [segment] (List.cons_ne_nil _ _)
    (List.forall_mem_singleton.mpr (areSegments segment member)) (by simp)
  rw [list_singleton, List.mapM_cons, List.mapM_nil] at alone
  rw [alone]
  cases outcome segment <;> rfl

end Frame

/-- The columns of a list are read independently of each other: a list of segments is read
exactly if each of them is read on its own, as the columns they are read as on their own,
and else fails as the first of them that fails on its own. -/
theorem ofTokens_columns_independent (limit : Nat) (frame : Frame) {segments : List (List Token)}
    (nonempty : segments ≠ []) (areSegments : ∀ segment ∈ segments, Column.IsSegment segment)
    (closed : ∀ segment ∈ segments.dropLast, Nesting.reach Token.mark .outer segment = .outer) :
    ((∃ result, ofTokens limit (frame.list segments) 0 = .ok result) ↔
      ∀ segment ∈ segments, ∃ result, ofTokens limit (frame.around segment) 0 = .ok result) ∧
    (∀ read stop, ofTokens limit (frame.list segments) 0 = .ok (read, stop) →
      stop = (frame.list segments).length ∧ ∃ columns, read = frame.query columns ∧
        List.Forall₂ (fun segment column => ofTokens limit (frame.around segment) 0 =
          .ok (frame.query [column], (frame.around segment).length)) segments columns) ∧
    ∀ before segment after, segments = before ++ segment :: after →
      (∀ other ∈ before, ∃ result, ofTokens limit (frame.around other) 0 = .ok result) →
      ∀ error, ofTokens limit (frame.around segment) 0 = .error error →
        ∃ wholeError, ofTokens limit (frame.list segments) 0 = .error wholeError ∧
          wholeError.variant = error.variant := by
  obtain ⟨outcome, reads⟩ := frame.exists_reads limit nonempty areSegments closed
  refine ⟨reads.exists_ok_iff, fun read stop ok => reads.columns_of_ok ok, ?_⟩
  rintro before segment after rfl earlier error failed
  exact reads.variant_of_error earlier failed

/-- Of three segments the last two are no columns: the second has a second alias, and the
third an open parenthesis. -/
theorem ofTokens_columns_independent_second_alias :
    let frame : Frame := ⟨⟨.clause .columns, "SELECT"⟩, ⟨.comma, ","⟩, ⟨.clause .source, "FROM"⟩,
      ⟨.unknown, "t"⟩, rfl, rfl, rfl, (Token.canName_iff _).mp (by decide)⟩
    let joined : List Token := [⟨.leftParen, "("⟩, ⟨.unknown, "a"⟩, ⟨.concat, "||"⟩,
      ⟨.unknown, "b"⟩, ⟨.rightParen, ")"⟩, ⟨.unknown, "x"⟩]
    let aliasedTwice : List Token := [⟨.unknown, "c"⟩, ⟨.unknown, "y"⟩, ⟨.unknown, "z"⟩]
    let unclosed : List Token := [⟨.leftParen, "("⟩, ⟨.unknown, "d"⟩, ⟨.comma, ","⟩]
    ∃ error, ofTokens 1 (frame.list [joined, aliasedTwice, unclosed]) 0 = .error error ∧
      error.variant = .unsupportedColumn := by
  intro frame joined aliasedTwice unclosed
  have areSegments : ∀ segment ∈ [joined, aliasedTwice, unclosed], Column.IsSegment segment := by
    decide
  have closed : ∀ segment ∈ [joined, aliasedTwice],
      Nesting.reach Token.mark .outer segment = .outer := by
    decide
  have first : ofTokens 1 (frame.around joined) 0 =
      .ok (frame.query [⟨.parenthesized (.concatenation [.identifier "a", .identifier "b"]),
        some "x"⟩], 9) := by
    simp only [frame, joined]
    rfl
  have second : ofTokens 1 (frame.around aliasedTwice) 0 =
      .error (.unsupportedColumn (.afterAlias "z" "y")) := by
    simp only [frame, aliasedTwice]
    rfl
  have independent := ofTokens_columns_independent 1 frame (List.cons_ne_nil _ _) areSegments closed
  exact independent.2.2 [joined] aliasedTwice [unclosed] rfl
    (List.forall_mem_singleton.mpr ⟨_, first⟩) _ second

end Query

end SelectQuery
