import SelectQuery.Proofs.Schema.Written

/-!
# Reading is exact

The readers accept the written forms of a query and, among values with distinct
names, no others.  One lemma for each type says that a form is read, by induction on
the form, and one that what is read is a form, by recursion on the tree.
-/

namespace SelectQuery

/-! ## Tags and options -/

namespace Json

theorem bareTag?_eq_some_iff_writtenTag {json : Json} {tag : String} :
    json.bareTag? = some tag ↔ json.WrittenTag tag := by
  rw [bareTag?_eq_some_iff]
  constructor
  · rintro (rfl | rfl)
    · exact WrittenTag.bare
    · exact WrittenTag.null
  · rintro (_ | _)
    · exact Or.inl rfl
    · exact Or.inr rfl

/-- A reader that looks a bare tag up reads the written forms of the tag. -/
theorem lookup_bareTag?_eq_some_iff {α : Type} {tags : List (String × α)} {tag : α → String}
    (names : ∀ entry ∈ tags, entry.1 = tag entry.2)
    (found : ∀ value, tags.lookup (tag value) = some value) {json : Json} {value : α} :
    (json.bareTag?.bind fun name => tags.lookup name) = some value ↔
      json.WrittenTag (tag value) := by
  rw [Option.bind_eq_some_iff]
  constructor
  · rintro ⟨name, bare, foundName⟩
    have named : name = tag value := names _ (mem_of_lookup foundName)
    rw [← named]
    exact bareTag?_eq_some_iff_writtenTag.mp bare
  · intro written
    exact ⟨tag value, bareTag?_eq_some_iff_writtenTag.mpr written, found value⟩

/-- An optional field is read from its written forms, if null is not itself such a form. -/
theorem optionalField?_object_eq_some_iff {α : Type} {read : Json → Option α}
    (refused : read .null = none) {name : String} {fields : List (String × Json)}
    {value? : Option α} :
    optionalField? name read (.object fields) = some value? ↔
      WrittenOption (fun value json => read json = some value) value? (fields.lookup name) := by
  rw [← unattach_field?_object, optionalField?]
  split
  · rename_i missing
    rw [missing]
    constructor
    · rintro ⟨⟩
      exact WrittenOption.omitted
    · rintro ⟨⟩
      rfl
  · rename_i missing
    rw [missing]
    constructor
    · rintro ⟨⟩
      exact WrittenOption.null
    · rintro (_ | _ | impossible)
      · rfl
      · cases refused.symm.trans impossible
  · rename_i content smaller notNull found
    rw [found, Option.map_eq_some_iff]
    constructor
    · rintro ⟨value, readValue, rfl⟩
      exact WrittenOption.present readValue
    · rintro (_ | _ | readValue)
      · exact absurd rfl notNull
      · exact ⟨_, readValue, rfl⟩

/-- An optional text is read from its written forms. -/
theorem optionalField?_string?_eq_some_iff {name : String} {fields : List (String × Json)}
    {text? : Option String} :
    optionalField? name string? (.object fields) = some text? ↔
      WrittenOption WrittenText text? (fields.lookup name) := by
  rw [optionalField?_object_eq_some_iff rfl]
  simp only [string?_eq_some_iff]
  rfl

end Json

/-! ## Operators -/

theorem Comparator.ofJson?_eq_some_iff {json : Json} {comparator : Comparator} :
    ofJson? json = some comparator ↔ comparator.WrittenAs json := by
  apply Json.lookup_bareTag?_eq_some_iff
  · decide
  · intro value
    cases value <;> decide

theorem Connective.ofJson?_eq_some_iff {json : Json} {connective : Connective} :
    ofJson? json = some connective ↔ connective.WrittenAs json := by
  apply Json.lookup_bareTag?_eq_some_iff
  · decide
  · intro value
    cases value <;> decide

theorem SetOperator.ofJson?_eq_some_iff {json : Json} {operator : SetOperator} :
    ofJson? json = some operator ↔ operator.WrittenAs json := by
  apply Json.lookup_bareTag?_eq_some_iff
  · decide
  · intro value
    cases value <;> decide

/-! ## Expressions -/

namespace Expression

/-- An expression is read from each of its written forms. -/
theorem ofJson?_of_writtenAs {expression : Expression} {json : Json}
    (written : expression.WrittenAs json) : ofJson? json = some expression := by
  induction expression using inductionOn generalizing json with
  | identifier name =>
      cases written
      rw [ofJson?]
      rfl
  | stringLiteral text =>
      cases written
      rw [ofJson?]
      rfl
  | asterisk =>
      cases written with
      | asterisk tag =>
          rw [ofJson?, Json.bareTag?_eq_some_iff_writtenTag.mpr tag]
          rfl
  | functionCall name arguments =>
      cases written with
      | @functionCall _ _ fields has =>
          have foundName : fields.lookup "name" = some (.string name) :=
            has.lookup_eq (by simp) (by simp)
          have foundArguments : fields.lookup "arguments" = some (.ofStrings arguments) :=
            has.lookup_eq (by simp) (by simp)
          rw [ofJson?]
          simp [Json.bareTag?, Json.tagged?, Json.tagged, Json.field?_object foundName,
            Json.field?_object foundArguments, Json.string?]
  | concatenation parts inductionHypothesis =>
      cases written with
      | @concatenation _ items fields each has =>
          have foundParts : fields.lookup "parts" = some (.array items) :=
            has.lookup_eq (by simp) (by simp)
          have readItems :
              List.Forall₂ (fun part item => ofJson? item = some part) parts items := by
            apply Json.forall₂_imp_of_mem each
            intro part memPart item _ written
            exact inductionHypothesis part memPart written
          rcases Json.exists_items?_iff.mpr ⟨items, rfl, readItems⟩ with ⟨_, found, readParts⟩
          rw [ofJson?]
          simp [Json.bareTag?, Json.tagged?, Json.tagged, Json.field?_object foundParts, found,
            readParts, -List.mapM_subtype]
  | parenthesized inner inductionHypothesis =>
      cases written with
      | @parenthesized _ json fields written has =>
          have foundInner : fields.lookup "inner" = some json :=
            has.lookup_eq (by simp) (by simp)
          rw [ofJson?]
          simp [Json.bareTag?, Json.tagged?, Json.tagged, Json.field?_object foundInner,
            inductionHypothesis written]

/-- A value of distinct names that an expression is read from is a written form of it. -/
theorem writtenAs_of_ofJson? {json : Json} (distinct : json.Distinct) {expression : Expression}
    (read : ofJson? json = some expression) : expression.WrittenAs json := by
  rw [ofJson?] at read
  simp only [Option.bind_eq_bind] at read
  split at read
  · rename_i tag bare
    split at read
    · rename_i isAsterisk
      subst isAsterisk
      cases read
      exact WrittenAs.asterisk (Json.bareTag?_eq_some_iff_writtenTag.mp bare)
    · cases read
  · simp only [Option.bind_eq_some_iff, Prod.exists, Subtype.exists,
      Json.tagged?_eq_some_iff] at read
    rcases read with ⟨tag, content, smaller, rfl, read⟩
    have distinctContent := Json.distinct_tagged_iff.mp distinct
    split_ifs at read with isIdentifier isLiteral isCall isConcatenation isParenthesized
    all_goals simp only [Option.bind_eq_some_iff, Subtype.exists, Json.field?_eq_some_iff,
      Json.string?_eq_some_iff, Json.strings?_eq_some_iff, Option.some.injEq] at read
    · subst isIdentifier
      rcases read with ⟨name, rfl, rfl⟩
      exact WrittenAs.identifier name
    · subst isLiteral
      rcases read with ⟨text, rfl, rfl⟩
      exact WrittenAs.stringLiteral text
    · subst isCall
      rcases read with
        ⟨_, _, ⟨fields, rfl, foundName⟩, name, rfl, _, _, ⟨_, ⟨⟩, foundArguments⟩, arguments,
          rfl, rfl⟩
      apply WrittenAs.functionCall
      apply Json.HasFields.of_lookup distinctContent
      · simp
      · simp [foundName, foundArguments]
    · subst isConcatenation
      rcases read with ⟨_, _, ⟨fields, rfl, foundParts⟩, _, foundItems, parts, readParts, rfl⟩
      rcases Json.exists_items?_iff.mp ⟨_, foundItems, readParts⟩ with ⟨items, rfl, readItems⟩
      have distinctItems := Json.distinct_array_iff.mp (distinctContent.of_lookup foundParts)
      have each : List.Forall₂ WrittenAs parts items := by
        apply Json.forall₂_imp_of_mem readItems
        intro part memPart item memItem read
        exact writtenAs_of_ofJson? (distinctItems item memItem) read
      apply WrittenAs.concatenation each
      apply Json.HasFields.of_lookup distinctContent
      · simp
      · simp [foundParts]
    · subst isParenthesized
      rcases read with ⟨json, _, ⟨fields, rfl, foundInner⟩, inner, readInner, rfl⟩
      have written := writtenAs_of_ofJson? (distinctContent.of_lookup foundInner) readInner
      apply WrittenAs.parenthesized written
      apply Json.HasFields.of_lookup distinctContent
      · simp
      · simp [foundInner]
termination_by sizeOf expression

end Expression

/-! ## Clauses -/

namespace Column

theorem ofJson?_of_writtenAs {column : Column} {json : Json} (written : column.WrittenAs json) :
    ofJson? json = some column := by
  cases written with
  | @object expression alias? fields writtenExpression writtenAlias has =>
      have foundExpression : fields.lookup "expression" = some expression :=
        has.lookup_eq (by simp) (by simp)
      have foundAlias : fields.lookup "alias" = alias? := has.lookup_eq (by simp) (by simp)
      rw [← foundAlias] at writtenAlias
      simp [ofJson?, Json.field?_object foundExpression,
        Expression.ofJson?_of_writtenAs writtenExpression,
        Json.optionalField?_string?_eq_some_iff.mpr writtenAlias]

theorem writtenAs_of_ofJson? {json : Json} (distinct : json.Distinct) {column : Column}
    (read : ofJson? json = some column) : column.WrittenAs json := by
  simp only [ofJson?, Option.bind_eq_bind, Option.bind_eq_some_iff, Subtype.exists,
    Json.field?_eq_some_iff, Option.some.injEq] at read
  rcases read with
    ⟨_, _, ⟨fields, rfl, foundExpression⟩, expression, readExpression, alias?, readAlias, rfl⟩
  apply WrittenAs.object
  · exact Expression.writtenAs_of_ofJson? (distinct.of_lookup foundExpression) readExpression
  · exact Json.optionalField?_string?_eq_some_iff.mp readAlias
  · apply Json.HasFields.of_lookup distinct
    · simp
    · simp [foundExpression]

end Column

namespace Source

theorem ofJson?_of_writtenAs {source : Source} {json : Json} (written : source.WrittenAs json) :
    ofJson? json = some source := by
  cases written with
  | @object alias? fields writtenAlias has =>
      have foundName : fields.lookup "source" = some (.string source.name) :=
        has.lookup_eq (by simp) (by simp)
      have foundAlias : fields.lookup "alias" = alias? := has.lookup_eq (by simp) (by simp)
      rw [← foundAlias] at writtenAlias
      simp [ofJson?, Json.field?_object foundName, Json.string?,
        Json.optionalField?_string?_eq_some_iff.mpr writtenAlias]

theorem writtenAs_of_ofJson? {json : Json} (distinct : json.Distinct) {source : Source}
    (read : ofJson? json = some source) : source.WrittenAs json := by
  simp only [ofJson?, Option.bind_eq_bind, Option.bind_eq_some_iff, Subtype.exists,
    Json.field?_eq_some_iff, Json.string?_eq_some_iff, Option.some.injEq] at read
  rcases read with ⟨_, _, ⟨fields, rfl, foundName⟩, name, rfl, alias?, readAlias, rfl⟩
  apply WrittenAs.object
  · exact Json.optionalField?_string?_eq_some_iff.mp readAlias
  · apply Json.HasFields.of_lookup distinct
    · simp
    · simp [foundName]

end Source

namespace Condition

/-- No condition is read from null. -/
theorem ofJson?_null : ofJson? .null = none := by
  rw [ofJson?]
  rfl

/-- Both alternatives have the same three fields, so these are found before the tag matters. -/
theorem ofJson?_tagged {tag : String} {operator left right : Json}
    {fields : List (String × Json)}
    (has : Json.HasFields
      [("operator", some operator), ("left", some left), ("right", some right)] fields) :
    ofJson? (.tagged tag (.object fields)) =
      if tag = "comparison" then do
        let comparator ← Comparator.ofJson? operator
        let left ← Expression.ofJson? left
        let right ← Expression.ofJson? right
        some (.comparison comparator left right)
      else if tag = "logical" then do
        let connective ← Connective.ofJson? operator
        let left ← ofJson? left
        let right ← ofJson? right
        some (.logical connective left right)
      else none := by
  have foundOperator : fields.lookup "operator" = some operator :=
    has.lookup_eq (by simp) (by simp)
  have foundLeft : fields.lookup "left" = some left := has.lookup_eq (by simp) (by simp)
  have foundRight : fields.lookup "right" = some right := has.lookup_eq (by simp) (by simp)
  rw [ofJson?]
  simp [Json.tagged?, Json.tagged, Json.field?_object foundOperator,
    Json.field?_object foundLeft, Json.field?_object foundRight]

theorem ofJson?_of_writtenAs {condition : Condition} {json : Json}
    (written : condition.WrittenAs json) : ofJson? json = some condition := by
  induction written with
  | comparison writtenOperator writtenLeft writtenRight has =>
      rw [ofJson?_tagged has]
      simp [Comparator.ofJson?_eq_some_iff.mpr writtenOperator,
        Expression.ofJson?_of_writtenAs writtenLeft, Expression.ofJson?_of_writtenAs writtenRight]
  | logical writtenOperator _ _ has readLeft readRight =>
      rw [ofJson?_tagged has]
      simp [Connective.ofJson?_eq_some_iff.mpr writtenOperator, readLeft, readRight]

theorem writtenAs_of_ofJson? {json : Json} (distinct : json.Distinct) {condition : Condition}
    (read : ofJson? json = some condition) : condition.WrittenAs json := by
  rw [ofJson?] at read
  simp only [Option.bind_eq_bind, Option.bind_eq_some_iff, Prod.exists, Subtype.exists,
    Json.tagged?_eq_some_iff, Json.field?_eq_some_iff] at read
  rcases read with
    ⟨tag, _, _, rfl, operator, _, ⟨fields, rfl, foundOperator⟩, leftJson, _,
      ⟨_, ⟨⟩, foundLeft⟩, rightJson, _, ⟨_, ⟨⟩, foundRight⟩, read⟩
  have distinctContent := Json.distinct_tagged_iff.mp distinct
  have has : Json.HasFields
      [("operator", some operator), ("left", some leftJson), ("right", some rightJson)]
      fields := by
    apply Json.HasFields.of_lookup distinctContent
    · simp
    · simp [foundOperator, foundLeft, foundRight]
  have distinctLeft := distinctContent.of_lookup foundLeft
  have distinctRight := distinctContent.of_lookup foundRight
  split_ifs at read with isComparison isLogical
  all_goals simp only [Option.bind_eq_some_iff, Option.some.injEq] at read
  · subst isComparison
    rcases read with ⟨comparator, readOperator, left, readLeft, right, readRight, rfl⟩
    exact WrittenAs.comparison (Comparator.ofJson?_eq_some_iff.mp readOperator)
      (Expression.writtenAs_of_ofJson? distinctLeft readLeft)
      (Expression.writtenAs_of_ofJson? distinctRight readRight) has
  · subst isLogical
    rcases read with ⟨connective, readOperator, left, readLeft, right, readRight, rfl⟩
    exact WrittenAs.logical (Connective.ofJson?_eq_some_iff.mp readOperator)
      (writtenAs_of_ofJson? distinctLeft readLeft)
      (writtenAs_of_ofJson? distinctRight readRight) has
termination_by sizeOf condition

end Condition

namespace Select

theorem ofJson?_of_writtenAs {select : Select} {json : Json} (written : select.WrittenAs json) :
    ofJson? json = some select := by
  cases written with
  | @object items source filter? fields writtenColumns writtenSource writtenFilter has =>
      have foundColumns : fields.lookup "columns" = some (.array items) :=
        has.lookup_eq (by simp) (by simp)
      have foundSource : fields.lookup "from" = some source := has.lookup_eq (by simp) (by simp)
      have foundFilter : fields.lookup "where" = filter? := has.lookup_eq (by simp) (by simp)
      have readItems : List.Forall₂ (fun column item => Column.ofJson? item = some column)
          select.columns items :=
        writtenColumns.imp fun _ _ => Column.ofJson?_of_writtenAs
      have readFilter :
          Json.optionalField? "where" Condition.ofJson? (.object fields) = some select.filter := by
        rw [Json.optionalField?_object_eq_some_iff Condition.ofJson?_null, foundFilter]
        apply writtenFilter.imp
        intro _ _ _
        exact Condition.ofJson?_of_writtenAs
      rcases Json.exists_items?_iff.mpr ⟨items, rfl, readItems⟩ with ⟨_, found, readColumns⟩
      simp [ofJson?, Json.field?_object foundColumns, found, readColumns,
        Json.field?_object foundSource, Source.ofJson?_of_writtenAs writtenSource, readFilter,
        -List.mapM_subtype]

theorem writtenAs_of_ofJson? {json : Json} (distinct : json.Distinct) {select : Select}
    (read : ofJson? json = some select) : select.WrittenAs json := by
  simp only [ofJson?, Option.bind_eq_bind, Option.bind_eq_some_iff, Subtype.exists,
    Json.field?_eq_some_iff, Option.some.injEq] at read
  rcases read with
    ⟨_, _, ⟨fields, rfl, foundColumns⟩, _, foundItems, columns, readColumns, _, _,
      ⟨_, ⟨⟩, foundSource⟩, source, readSource, filter, readFilter, rfl⟩
  rcases Json.exists_items?_iff.mp ⟨_, foundItems, readColumns⟩ with ⟨items, rfl, readItems⟩
  have distinctItems := Json.distinct_array_iff.mp (distinct.of_lookup foundColumns)
  rw [Json.optionalField?_object_eq_some_iff Condition.ofJson?_null] at readFilter
  apply WrittenAs.object
  · apply Json.forall₂_imp_of_mem readItems
    intro column _ item memItem read
    exact Column.writtenAs_of_ofJson? (distinctItems item memItem) read
  · exact Source.writtenAs_of_ofJson? (distinct.of_lookup foundSource) readSource
  · apply readFilter.imp
    intro json found condition read
    exact Condition.writtenAs_of_ofJson? (distinct.of_lookup found) read
  · apply Json.HasFields.of_lookup distinct
    · simp
    · simp [foundColumns, foundSource]

end Select

/-! ## Queries -/

namespace Query

theorem ofJson?_of_writtenAs {query : Query} {json : Json} (written : query.WrittenAs json) :
    ofJson? json = some query := by
  induction written with
  | select written =>
      rw [ofJson?]
      simp [Json.tagged?, Json.tagged, Select.ofJson?_of_writtenAs written]
  | @combined operator left right kind leftJson rightJson fields writtenKind _ _ has
      readLeft readRight =>
      have foundKind : fields.lookup "kind" = some kind := has.lookup_eq (by simp) (by simp)
      have foundLeft : fields.lookup "left" = some leftJson := has.lookup_eq (by simp) (by simp)
      have foundRight : fields.lookup "right" = some rightJson :=
        has.lookup_eq (by simp) (by simp)
      rw [ofJson?]
      simp [Json.tagged?, Json.tagged, Json.field?_object foundKind,
        Json.field?_object foundLeft, Json.field?_object foundRight,
        SetOperator.ofJson?_eq_some_iff.mpr writtenKind, readLeft, readRight]

theorem writtenAs_of_ofJson? {json : Json} (distinct : json.Distinct) {query : Query}
    (read : ofJson? json = some query) : query.WrittenAs json := by
  rw [ofJson?] at read
  simp only [Option.bind_eq_bind, Option.bind_eq_some_iff, Prod.exists, Subtype.exists,
    Json.tagged?_eq_some_iff] at read
  rcases read with ⟨tag, content, _, rfl, read⟩
  have distinctContent := Json.distinct_tagged_iff.mp distinct
  split_ifs at read with isSelect isCombined
  all_goals simp only [Option.bind_eq_some_iff, Subtype.exists, Json.field?_eq_some_iff,
    Option.some.injEq] at read
  · subst isSelect
    rcases read with ⟨statement, readStatement, rfl⟩
    exact WrittenAs.select (Select.writtenAs_of_ofJson? distinctContent readStatement)
  · subst isCombined
    rcases read with
      ⟨kind, _, ⟨fields, rfl, foundKind⟩, operator, readKind, leftJson, _, ⟨_, ⟨⟩, foundLeft⟩,
        left, readLeft, rightJson, _, ⟨_, ⟨⟩, foundRight⟩, right, readRight, rfl⟩
    apply WrittenAs.combined
    · exact SetOperator.ofJson?_eq_some_iff.mp readKind
    · exact writtenAs_of_ofJson? (distinctContent.of_lookup foundLeft) readLeft
    · exact writtenAs_of_ofJson? (distinctContent.of_lookup foundRight) readRight
    · apply Json.HasFields.of_lookup distinctContent
      · simp
      · simp [foundKind, foundLeft, foundRight]
termination_by sizeOf query

/-- Every query comes back from its written form, and a value of distinct names is read as
a query exactly when it is one of the query's written forms. -/
theorem ofJson?_toJson_and_iff_writtenAs :
    (∀ query : Query, query.WrittenAs query.toJson ∧ ofJson? query.toJson = some query) ∧
      ∀ json : Json, json.Distinct →
        ∀ query, ofJson? json = some query ↔ query.WrittenAs json := by
  constructor
  · intro query
    have written := query.writtenAs_toJson
    exact ⟨written, ofJson?_of_writtenAs written⟩
  · intro json distinct query
    constructor
    · exact writtenAs_of_ofJson? distinct
    · exact ofJson?_of_writtenAs

/-- Fields in another order, unknown fields, no alias, no filter and tags with null. -/
theorem writtenAs_of_relaxed_fields :
    let first : Json := .tagged "select" (.object
      [("from", .object [("source", .string "t"), ("schema", .string "public")]),
        ("columns", .array [.object [("expression", .tagged "asterisk" .null)]])])
    let second : Json := .tagged "select" (.object
      [("columns", .array
          [.object [("alias", .string "n"), ("expression", .tagged "identifier" (.string "a"))]]),
        ("where", .null), ("from", .object [("alias", .null), ("source", .string "u")]),
        ("limit", .number 5 0)])
    let json : Json := .tagged "set_operation" (.object
      [("right", second), ("kind", .tagged "union_all" .null), ("left", first)])
    let query : Query := .combined .unionAll
      (.select ⟨[⟨.asterisk, none⟩], ⟨"t", none⟩, none⟩)
      (.select ⟨[⟨.identifier "a", some "n"⟩], ⟨"u", none⟩, none⟩)
    json.Distinct ∧ ofJson? json = some query ∧ query.WrittenAs json := by
  intro first second json query
  have distinct : json.Distinct := by
    simp [json, first, second, Json.distinct_tagged_iff, Json.distinct_object_iff,
      Json.distinct_array_iff, Json.Distinct.null, Json.Distinct.string, Json.Distinct.number]
  have read : ofJson? json = some query := by decide +kernel
  exact ⟨distinct, read, (ofJson?_toJson_and_iff_writtenAs.2 json distinct query).mp read⟩

end Query

end SelectQuery
