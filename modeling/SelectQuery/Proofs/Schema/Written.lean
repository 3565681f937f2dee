import SelectQuery.Proofs.Schema.Fields
import SelectQuery.Query.Schema

/-!
# The written forms of a query

`toJson` gives one written form.  The others differ from it in the order of fields, in
an absent alias or filter that is left out, in unknown fields of a structure, and in a
bare tag that is an object with null as content.  `WrittenAs` describes them type by
type, without regard to how they are read.
-/

namespace SelectQuery

/-! ## Tags and options -/

namespace Json

/-- The written forms of a tag that holds nothing. -/
inductive WrittenTag (tag : String) : Json → Prop
  | bare : WrittenTag tag (.string tag)
  | null : WrittenTag tag (.tagged tag .null)

/-- The written forms of what may be absent, as the content of a field if there is one. -/
inductive WrittenOption {α : Type} (WrittenAs : α → Json → Prop) :
    Option α → Option Json → Prop
  | omitted : WrittenOption WrittenAs none none
  | null : WrittenOption WrittenAs none (some .null)
  | present {value : α} {json : Json} (written : WrittenAs value json) :
      WrittenOption WrittenAs (some value) (some json)

/-- The one written form of a text. -/
def WrittenText (text : String) (json : Json) : Prop :=
  json = .string text

theorem writtenText_string (text : String) : WrittenText text (.string text) :=
  rfl

/-- Stating null for what is absent gives a written form. -/
theorem writtenOption_ofOption {α : Type} {WrittenAs : α → Json → Prop} {encode : α → Json}
    (each : ∀ value, WrittenAs value (encode value)) (value? : Option α) :
    WrittenOption WrittenAs value? (some (ofOption encode value?)) := by
  cases value? with
  | none => exact WrittenOption.null
  | some value => exact WrittenOption.present (each value)

theorem WrittenOption.imp {α : Type} {First Second : α → Json → Prop} {value? : Option α}
    {json? : Option Json} (written : WrittenOption First value? json?)
    (each : ∀ json, json? = some json → ∀ value, First value json → Second value json) :
    WrittenOption Second value? json? := by
  cases written with
  | omitted => exact WrittenOption.omitted
  | null => exact WrittenOption.null
  | present written => exact WrittenOption.present (each _ rfl _ written)

end Json

/-! ## Operators -/

/-- The written forms of a comparator. -/
def Comparator.WrittenAs (comparator : Comparator) (json : Json) : Prop :=
  json.WrittenTag comparator.tag

/-- The written forms of a connective. -/
def Connective.WrittenAs (connective : Connective) (json : Json) : Prop :=
  json.WrittenTag connective.tag

/-- The written forms of a set operator. -/
def SetOperator.WrittenAs (operator : SetOperator) (json : Json) : Prop :=
  json.WrittenTag operator.tag

/-! ## Expressions -/

namespace Expression

/-- The written forms of an expression. -/
inductive WrittenAs : Expression → Json → Prop
  | identifier (name : String) :
      WrittenAs (.identifier name) (.tagged "identifier" (.string name))
  | stringLiteral (text : String) :
      WrittenAs (.stringLiteral text) (.tagged "string_literal" (.string text))
  | asterisk {json : Json} (tag : json.WrittenTag "asterisk") : WrittenAs .asterisk json
  | functionCall {name : String} {arguments : List String} {fields : List (String × Json)}
      (has : Json.HasFields
        [("name", some (.string name)), ("arguments", some (.ofStrings arguments))] fields) :
      WrittenAs (.functionCall name arguments) (.tagged "function_call" (.object fields))
  | concatenation {parts : List Expression} {items : List Json} {fields : List (String × Json)}
      (each : List.Forall₂ WrittenAs parts items)
      (has : Json.HasFields [("parts", some (.array items))] fields) :
      WrittenAs (.concatenation parts) (.tagged "concatenation" (.object fields))
  | parenthesized {inner : Expression} {json : Json} {fields : List (String × Json)}
      (written : WrittenAs inner json) (has : Json.HasFields [("inner", some json)] fields) :
      WrittenAs (.parenthesized inner) (.tagged "parenthesized" (.object fields))

/-- Writing gives a written form. -/
theorem writtenAs_toJson (expression : Expression) : expression.WrittenAs expression.toJson := by
  induction expression using inductionOn with
  | identifier name => exact WrittenAs.identifier name
  | stringLiteral text => exact WrittenAs.stringLiteral text
  | asterisk => exact WrittenAs.asterisk Json.WrittenTag.bare
  | functionCall name arguments => exact WrittenAs.functionCall (Json.HasFields.all _)
  | concatenation parts inductionHypothesis =>
      have each : List.Forall₂ WrittenAs parts (toJsonAll parts) := by
        rw [toJsonAll_eq_map, List.forall₂_map_right_iff, List.forall₂_same]
        exact inductionHypothesis
      exact WrittenAs.concatenation each (Json.HasFields.all _)
  | parenthesized inner inductionHypothesis =>
      exact WrittenAs.parenthesized inductionHypothesis (Json.HasFields.all _)

end Expression

/-! ## Clauses -/

namespace Column

/-- The written forms of a column. -/
inductive WrittenAs (column : Column) : Json → Prop
  | object {expression : Json} {alias? : Option Json} {fields : List (String × Json)}
      (writtenExpression : column.expression.WrittenAs expression)
      (writtenAlias : Json.WrittenOption Json.WrittenText column.alias? alias?)
      (has : Json.HasFields [("expression", some expression), ("alias", alias?)] fields) :
      WrittenAs column (.object fields)

theorem writtenAs_toJson (column : Column) : column.WrittenAs column.toJson := by
  apply WrittenAs.object
  · exact column.expression.writtenAs_toJson
  · exact Json.writtenOption_ofOption Json.writtenText_string column.alias?
  · exact Json.HasFields.all _

end Column

namespace Source

/-- The written forms of a source. -/
inductive WrittenAs (source : Source) : Json → Prop
  | object {alias? : Option Json} {fields : List (String × Json)}
      (writtenAlias : Json.WrittenOption Json.WrittenText source.alias? alias?)
      (has : Json.HasFields [("source", some (.string source.name)), ("alias", alias?)] fields) :
      WrittenAs source (.object fields)

theorem writtenAs_toJson (source : Source) : source.WrittenAs source.toJson := by
  apply WrittenAs.object
  · exact Json.writtenOption_ofOption Json.writtenText_string source.alias?
  · exact Json.HasFields.all _

end Source

namespace Condition

/-- The written forms of a condition. -/
inductive WrittenAs : Condition → Json → Prop
  | comparison {comparator : Comparator} {left right : Expression}
      {operator leftJson rightJson : Json} {fields : List (String × Json)}
      (writtenOperator : comparator.WrittenAs operator) (writtenLeft : left.WrittenAs leftJson)
      (writtenRight : right.WrittenAs rightJson)
      (has : Json.HasFields
        [("operator", some operator), ("left", some leftJson), ("right", some rightJson)]
        fields) :
      WrittenAs (.comparison comparator left right) (.tagged "comparison" (.object fields))
  | logical {connective : Connective} {left right : Condition}
      {operator leftJson rightJson : Json} {fields : List (String × Json)}
      (writtenOperator : connective.WrittenAs operator) (writtenLeft : WrittenAs left leftJson)
      (writtenRight : WrittenAs right rightJson)
      (has : Json.HasFields
        [("operator", some operator), ("left", some leftJson), ("right", some rightJson)]
        fields) :
      WrittenAs (.logical connective left right) (.tagged "logical" (.object fields))

theorem writtenAs_toJson (condition : Condition) : condition.WrittenAs condition.toJson := by
  induction condition with
  | comparison comparator left right =>
      exact WrittenAs.comparison Json.WrittenTag.bare left.writtenAs_toJson
        right.writtenAs_toJson (Json.HasFields.all _)
  | logical connective left right writtenLeft writtenRight =>
      exact WrittenAs.logical Json.WrittenTag.bare writtenLeft writtenRight
        (Json.HasFields.all _)

end Condition

namespace Select

/-- The written forms of a `SELECT`. -/
inductive WrittenAs (select : Select) : Json → Prop
  | object {items : List Json} {source : Json} {filter? : Option Json}
      {fields : List (String × Json)}
      (writtenColumns : List.Forall₂ Column.WrittenAs select.columns items)
      (writtenSource : select.source.WrittenAs source)
      (writtenFilter : Json.WrittenOption Condition.WrittenAs select.filter filter?)
      (has : Json.HasFields
        [("columns", some (.array items)), ("from", some source), ("where", filter?)] fields) :
      WrittenAs select (.object fields)

theorem writtenAs_toJson (select : Select) : select.WrittenAs select.toJson := by
  apply WrittenAs.object
  · rw [List.forall₂_map_right_iff, List.forall₂_same]
    intro column _
    exact column.writtenAs_toJson
  · exact select.source.writtenAs_toJson
  · exact Json.writtenOption_ofOption Condition.writtenAs_toJson select.filter
  · exact Json.HasFields.all _

end Select

/-! ## Queries -/

namespace Query

/-- The written forms of a query. -/
inductive WrittenAs : Query → Json → Prop
  | select {statement : Select} {json : Json} (written : statement.WrittenAs json) :
      WrittenAs (.select statement) (.tagged "select" json)
  | combined {operator : SetOperator} {left right : Query} {kind leftJson rightJson : Json}
      {fields : List (String × Json)} (writtenKind : operator.WrittenAs kind)
      (writtenLeft : WrittenAs left leftJson) (writtenRight : WrittenAs right rightJson)
      (has : Json.HasFields
        [("kind", some kind), ("left", some leftJson), ("right", some rightJson)] fields) :
      WrittenAs (.combined operator left right) (.tagged "set_operation" (.object fields))

theorem writtenAs_toJson (query : Query) : query.WrittenAs query.toJson := by
  induction query with
  | select statement => exact WrittenAs.select statement.writtenAs_toJson
  | combined operator left right writtenLeft writtenRight =>
      exact WrittenAs.combined Json.WrittenTag.bare writtenLeft writtenRight
        (Json.HasFields.all _)

end Query

end SelectQuery
