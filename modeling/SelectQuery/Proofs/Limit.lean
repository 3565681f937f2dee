import SelectQuery.Proofs.Reading.Query

/-!
# The limit

One limit bounds the selects of a query and the nesting of the parentheses in each
of its columns.  Nothing else depends on it: a reading that does not fail at its
limit has the same outcome under every higher one, whether it succeeds or fails for
another reason.  Hence a query that is read under some limit is read under a lower
one exactly if it keeps to that one, and otherwise the lower limit is the error.

`Raises` relates a reading to the same reading under a higher limit.  It is kept by
sequencing, so that every reader takes it over from the readers it calls.
-/

namespace SelectQuery

/-! ## Raising a limit -/

/-- The outcomes of a reading under a limit and under a higher one: they are equal,
unless the first is that the limit is exceeded. -/
def Raises {α : Type} (limit : Nat) (low high : Except Error α) : Prop :=
  low ≠ .error (.nestingTooDeep limit) → high = low

namespace Raises

variable {α β : Type} {limit : Nat} {low high : Except Error α}

theorem refl (outcome : Except Error α) : Raises limit outcome outcome :=
  fun _ => rfl

/-- At the limit itself nothing is said about a higher one. -/
theorem exceeded (high : Except Error α) : Raises limit (.error (.nestingTooDeep limit)) high :=
  fun kept => absurd rfl kept

/-- Raising a limit passes through a sequence of two readings. -/
theorem bind {next nextHigh : α → Except Error β} (first : Raises limit low high)
    (later : ∀ value, Raises limit (next value) (nextHigh value)) :
    Raises limit (low >>= next) (high >>= nextHigh) := by
  intro kept
  cases low with
  | error error =>
      rw [first fun exceeded => kept (by rw [exceeded]; rfl)]
      rfl
  | ok value =>
      rw [first (by simp)]
      exact later value kept

theorem map (first : Raises limit low high) (f : α → β) :
    Raises limit (low.map f) (high.map f) := by
  intro kept
  rw [first fun exceeded => kept (by rw [exceeded]; rfl)]

/-- Raising a limit passes through the reading of a list, item by item. -/
theorem mapM {γ : Type} {read readHigh : γ → Except Error α}
    (item : ∀ x, Raises limit (read x) (readHigh x)) (xs : List γ) :
    Raises limit (xs.mapM read) (xs.mapM readHigh) := by
  induction xs with
  | nil => exact refl _
  | cons x xs inductionHypothesis =>
      rw [List.mapM_cons, List.mapM_cons]
      exact (item x).bind fun first => inductionHypothesis.bind fun others => refl _

end Raises

/-! ## Readers under a higher limit -/

namespace Expression

/-- A piece depends on the limit only through what stands in its parentheses. -/
theorem raises_ofPiece {limit : Nat} {ofInner ofInnerHigh : List Token → Except Error Expression}
    (inner : ∀ tokens, Raises limit (ofInner tokens) (ofInnerHigh tokens)) (piece : List Token) :
    Raises limit (ofPiece ofInner piece) (ofPiece ofInnerHigh piece) := by
  match piece with
  | [] => exact .refl _
  | [token] => exact .refl _
  | first :: second :: others =>
      unfold ofPiece
      dsimp only
      split
      · split
        · exact .refl _
        · exact .refl _
        · exact .refl _
        · exact (inner _).map Expression.parenthesized
      · exact .refl _

/-- With as many levels or more, and under any other limit, an expression is read
alike unless the levels run out. -/
theorem raises_ofTokensWithin (limit higher : Nat) {levels more : Nat} (enough : levels ≤ more)
    (tokens : List Token) :
    Raises limit (ofTokensWithin limit levels tokens) (ofTokensWithin higher more tokens) := by
  induction levels generalizing more tokens with
  | zero => exact .exceeded _
  | succ levels inductionHypothesis =>
      obtain ⟨spare, rfl⟩ := Nat.exists_eq_add_of_le' enough
      have inner := @inductionHypothesis (spare + levels) (Nat.le_add_left _ _)
      rw [← Nat.add_assoc, ofTokensWithin_succ, ofTokensWithin_succ]
      exact (Raises.mapM (raises_ofPiece inner) _).map ofParts

end Expression

variable {limit higher : Nat}

theorem Column.Draft.raises_toColumn (lower : limit ≤ higher) (draft : Draft) (position : Nat) :
    Raises limit (draft.toColumn limit position) (draft.toColumn higher position) := by
  unfold toColumn
  split
  · exact .refl _
  · exact (Expression.raises_ofTokensWithin limit higher (Nat.succ_le_succ lower) _).map _

theorem raises_readColumns (lower : limit ≤ higher) (draft : Column.Draft)
    (tokens : List Located) :
    Raises limit (readColumns limit draft tokens) (readColumns higher draft tokens) := by
  induction tokens generalizing draft with
  | nil => exact .refl _
  | cons token tokens inductionHypothesis =>
      rw [readColumns, readColumns]
      split
      · exact .refl _
      · exact inductionHypothesis _
      · refine (draft.raises_toColumn lower token.position).bind fun column => ?_
        exact (inductionHypothesis .start).bind fun others => .refl _
      · exact (draft.raises_toColumn lower token.position).bind fun column => .refl _

theorem raises_readSelect (lower : limit ≤ higher) (tokens : List Located) :
    Raises limit (readSelect limit tokens) (readSelect higher tokens) := by
  cases tokens with
  | nil => exact .refl _
  | cons keyword tokens =>
      rw [readSelect, readSelect]
      split
      · exact (raises_readColumns lower .start tokens).bind fun columns => .refl _
      · exact .refl _

/-- A query is read alike with as many selects left or more, unless they run out or
a column nests too deep. -/
theorem raises_readQueryWithin (lower : limit ≤ higher) {selects more : Nat}
    (enough : selects ≤ more) (tokens : List Located) :
    Raises limit (readQueryWithin limit selects tokens) (readQueryWithin higher more tokens) := by
  induction selects generalizing more tokens with
  | zero => exact .exceeded _
  | succ selects inductionHypothesis =>
      obtain ⟨spare, rfl⟩ := Nat.exists_eq_add_of_le' enough
      rw [← Nat.add_assoc, readQueryWithin, readQueryWithin]
      refine (raises_readSelect lower tokens).bind fun first => ?_
      refine (Raises.refl (readSetOperator first.2)).bind fun operator => ?_
      split
      · exact .refl _
      · exact (inductionHypothesis (Nat.le_add_left _ _) _).bind fun right => .refl _

namespace Query

theorem raises_ofLexemes (lower : limit ≤ higher) (lexemes : List String) :
    Raises limit (ofLexemes limit lexemes) (ofLexemes higher lexemes) :=
  (raises_readQueryWithin lower lower _).bind fun _ => .refl _

/-! ## Queries beyond the limit -/

/-- How deep parentheses nest in the columns of a query. -/
def nesting (query : Query) : Nat :=
  Expression.nestingOfAll ((query.leavesInOrder.flatMap Select.columns).map Column.expression)

/-- A query keeps to a limit if the number of its selects and the nesting of its
parentheses do. -/
theorem within_iff (limit : Nat) (query : Query) :
    query.Within limit ↔ query.leaves.length ≤ limit ∧ query.nesting ≤ limit := by
  rw [leaves_eq_leavesInOrder, nesting, Expression.nestingOfAll_le_iff]
  constructor
  · intro within
    refine ⟨within.selects, ?_⟩
    simp only [List.forall_mem_map, List.mem_flatMap]
    rintro column ⟨statement, isLeaf, isColumn⟩
    exact within.nesting statement isLeaf column isColumn
  · simp only [List.forall_mem_map, List.mem_flatMap]
    rintro ⟨selects, nested⟩
    exact ⟨selects, fun statement isLeaf column isColumn =>
      nested column ⟨statement, isLeaf, isColumn⟩⟩

/-- A query that the tokens derive is not read beyond the limit, and the limit is
the only reason. -/
theorem ofLexemes_of_not_within {lexemes : List String} {query : Query}
    (derived : DerivesQuery (tokensOfLexemes lexemes) query) (beyond : ¬ query.Within limit) :
    ofLexemes limit lexemes = .error (.nestingTooDeep limit) := by
  -- A limit that admits the query, and is no lower than the given one.
  let enough := max limit (max query.leaves.length query.nesting)
  have lower : limit ≤ enough := Nat.le_max_left _ _
  have within : query.Within enough := by
    rw [within_iff]
    omega
  apply Classical.byContradiction
  intro kept
  have read : ofLexemes limit lexemes = .ok query := by
    rw [← raises_ofLexemes lower lexemes kept]
    exact ofLexemes_of_derivesQuery derived within
  exact beyond (derivesQuery_of_ofLexemes read).2

/-- Under a lower limit the outcome is the same, unless it is that the limit is
exceeded; and a query is read under the lower limit exactly if it keeps to it, the
limit being the error otherwise. -/
theorem ofLexemes_of_le (lower : limit ≤ higher) (lexemes : List String) :
    (ofLexemes limit lexemes ≠ .error (.nestingTooDeep limit) →
        ofLexemes higher lexemes = ofLexemes limit lexemes) ∧
      ∀ query, ofLexemes higher lexemes = .ok query →
        ofLexemes limit lexemes =
          if query.leaves.length ≤ limit ∧ query.nesting ≤ limit then .ok query
          else .error (.nestingTooDeep limit) := by
  refine ⟨raises_ofLexemes lower lexemes, fun query read => ?_⟩
  have derived := (derivesQuery_of_ofLexemes read).1
  split
  · rename_i bounded
    exact ofLexemes_of_derivesQuery derived ((within_iff limit query).mpr bounded)
  · rename_i exceeded
    exact ofLexemes_of_not_within derived (mt (within_iff limit query).mp exceeded)

/-- Parentheses in parentheses are too deep for a limit of one, which admits a
single `SELECT`; a column without tokens is the same fault under both limits. -/
theorem ofLexemes_of_le_parentheses :
    1 ≤ 2 ∧
      (ofLexemes 1 ["SELECT", "FROM", "t"] ≠ .error (.nestingTooDeep 1) ∧
        ofLexemes 2 ["SELECT", "FROM", "t"] = ofLexemes 1 ["SELECT", "FROM", "t"]) ∧
      ∃ query,
        ofLexemes 2 ["SELECT", "(", "(", "a", ")", ")", "FROM", "t"] = .ok query ∧
        query.leaves.length = 1 ∧ query.nesting = 2 ∧
        ofLexemes 1 ["SELECT", "(", "(", "a", ")", ")", "FROM", "t"] =
          .error (.nestingTooDeep 1) := by
  have fault : ofLexemes 1 ["SELECT", "FROM", "t"] = .error (.unsupportedColumn (.noTokens 1)) :=
    rfl
  have kept : ofLexemes 1 ["SELECT", "FROM", "t"] ≠ .error (.nestingTooDeep 1) := by
    simp [fault]
  have read : ofLexemes 2 ["SELECT", "(", "(", "a", ")", ")", "FROM", "t"] =
      .ok (.select ⟨[⟨.parenthesized (.parenthesized (.identifier "a")), none⟩], ⟨"t", none⟩,
        none⟩) := by
    rw [← toOption_eq_some_iff]
    decide +kernel
  refine ⟨by decide, ⟨kept, (ofLexemes_of_le (by decide) _).1 kept⟩, _, read, ?_, by decide, ?_⟩
  · rw [leaves_eq_leavesInOrder]
    rfl
  · rw [(ofLexemes_of_le (by decide) _).2 _ read]
    exact if_neg fun bounded => absurd bounded.2 (by decide)

end Query

end SelectQuery
