import Mathlib.Data.List.Forall2
import Mathlib.Data.List.Nodup
import SelectQuery.Json

/-!
# Objects with known and unknown fields

A reader asks an object for the fields that it knows, each by its name.  This file
says from the outside which objects it takes the same values from: those whose
fields, in any order, are the known ones that are written together with others of
other names.  For an object whose names are distinct the two descriptions agree.
-/

namespace SelectQuery

namespace Json

/-! ## Distinct names -/

/-- In every object inside the value, no two fields have the same name. -/
inductive Distinct : Json → Prop
  | null : Distinct .null
  | bool (value : Bool) : Distinct (.bool value)
  | number (mantissa : Int) (exponent : Nat) : Distinct (.number mantissa exponent)
  | string (text : String) : Distinct (.string text)
  | array {items : List Json} (each : ∀ item ∈ items, Distinct item) : Distinct (.array items)
  | object {fields : List (String × Json)} (names : (fields.map Prod.fst).Nodup)
      (each : ∀ field ∈ fields, Distinct field.2) : Distinct (.object fields)

theorem distinct_array_iff {items : List Json} :
    Distinct (.array items) ↔ ∀ item ∈ items, item.Distinct := by
  constructor
  · rintro ⟨⟩
    assumption
  · exact Distinct.array

theorem distinct_object_iff {fields : List (String × Json)} :
    Distinct (.object fields) ↔
      (fields.map Prod.fst).Nodup ∧ ∀ field ∈ fields, field.2.Distinct := by
  constructor
  · rintro ⟨⟩
    constructor <;> assumption
  · rintro ⟨names, each⟩
    exact Distinct.object names each

theorem distinct_tagged_iff {tag : String} {content : Json} :
    (tagged tag content).Distinct ↔ content.Distinct := by
  simp [tagged, distinct_object_iff]

/-! ## Lookups -/

section Lookup

variable {fields : List (String × Json)} {name : String}

theorem mem_of_lookup {α : Type} {contents : List (String × α)} {content : α}
    (found : contents.lookup name = some content) : (name, content) ∈ contents := by
  rcases List.lookup_eq_some_iff.mp found with ⟨before, after, rfl, _⟩
  simp

/-- Among distinct names, a name has one content. -/
theorem content_eq_of_mem {α : Type} {contents : List (String × α)} {first second : α}
    (names : (contents.map Prod.fst).Nodup) (memFirst : (name, first) ∈ contents)
    (memSecond : (name, second) ∈ contents) : first = second :=
  congrArg Prod.snd (List.inj_on_of_nodup_map names memFirst memSecond rfl)

/-- What a lookup finds is the content of any field of that name, if there is but one content. -/
theorem lookup_eq_of_mem_iff {value? : Option Json}
    (only : ∀ value, (name, value) ∈ fields ↔ value? = some value) :
    fields.lookup name = value? := by
  cases found : fields.lookup name with
  | some value => exact ((only value).mp (mem_of_lookup found)).symm
  | none =>
      cases value? with
      | none => rfl
      | some value =>
          have absent := List.lookup_eq_none_iff.mp found _ ((only value).mpr rfl)
          simp at absent

/-- Among distinct names, a lookup finds exactly the fields. -/
theorem mem_iff_lookup_eq (names : (fields.map Prod.fst).Nodup) {value : Json} :
    (name, value) ∈ fields ↔ fields.lookup name = some value := by
  constructor
  · intro member
    apply lookup_eq_of_mem_iff
    intro other
    constructor
    · intro otherMember
      exact congrArg some (content_eq_of_mem names member otherMember)
    · rintro ⟨⟩
      exact member
  · exact mem_of_lookup

theorem Distinct.of_lookup (distinct : Distinct (.object fields)) {value : Json}
    (found : fields.lookup name = some value) : value.Distinct :=
  (distinct_object_iff.mp distinct).2 _ (mem_of_lookup found)

end Lookup

/-! ## Items -/

/-- Items that correspond do so in another way if each member of the lists does. -/
theorem forall₂_imp_of_mem {α β : Type} {First Second : α → β → Prop} {values : List α}
    {items : List β} (all : List.Forall₂ First values items)
    (each : ∀ value ∈ values, ∀ item ∈ items, First value item → Second value item) :
    List.Forall₂ Second values items := by
  induction all with
  | nil => exact List.Forall₂.nil
  | cons first _ inductionHypothesis =>
      apply List.Forall₂.cons
      · exact each _ List.mem_cons_self _ List.mem_cons_self first
      · apply inductionHypothesis
        intro value memValue item memItem
        exact each value (List.mem_cons_of_mem _ memValue) item (List.mem_cons_of_mem _ memItem)

/-- A list is read item by item. -/
theorem mapM_eq_some_iff {α β : Type} {read : α → Option β} {items : List α} {values : List β} :
    items.mapM read = some values ↔
      List.Forall₂ (fun value item => read item = some value) values items := by
  induction items generalizing values with
  | nil => simp [eq_comm]
  | cons item items inductionHypothesis =>
      simp only [List.mapM_cons, Option.bind_eq_bind, Option.pure_def, Option.bind_eq_some_iff,
        Option.some.injEq, inductionHypothesis, List.forall₂_cons_right_iff]
      constructor
      · rintro ⟨value, first, others, rest, rfl⟩
        exact ⟨value, others, first, rest, rfl⟩
      · rintro ⟨value, others, first, rest, rfl⟩
        exact ⟨value, first, others, rest, rfl⟩

/-- The items of an array are read in turn, whatever proofs of their sizes go with them. -/
theorem exists_items?_iff {α : Type} {json : Json} {read : Json → Option α} {values : List α} :
    (∃ parts, json.items? = some parts ∧ parts.mapM (fun part => read part.1) = some values) ↔
      ∃ items, json = .array items ∧
        List.Forall₂ (fun value item => read item = some value) values items := by
  constructor
  · rintro ⟨parts, foundParts, readParts⟩
    cases json with
    | array items =>
        rcases exists_items?_array items with ⟨_, found, sameItems⟩
        cases found.symm.trans foundParts
        refine ⟨items, rfl, ?_⟩
        rw [← sameItems, List.unattach, List.forall₂_map_right_iff]
        exact mapM_eq_some_iff.mp readParts
    | null | bool | number | string | object => cases foundParts
  · rintro ⟨items, rfl, readItems⟩
    rcases exists_items?_array items with ⟨parts, found, sameItems⟩
    refine ⟨parts, found, ?_⟩
    rw [← sameItems, List.unattach, List.forall₂_map_right_iff] at readItems
    exact mapM_eq_some_iff.mpr readItems

/-! ## Known and unknown fields -/

/-- The fields that are written, of those that may be left out. -/
def written (known : List (String × Option Json)) : List (String × Json) :=
  known.filterMap fun field => field.2.map (field.1, ·)

/-- The fields are, in some order, the known ones that are written and unknown ones. -/
def HasFields (known : List (String × Option Json)) (fields : List (String × Json)) : Prop :=
  ∃ unknown, fields.Perm (written known ++ unknown) ∧
    ∀ field ∈ unknown, field.1 ∉ known.map Prod.fst

section Known

variable {known : List (String × Option Json)} {fields : List (String × Json)}

theorem mem_written_iff {name : String} {value : Json} :
    (name, value) ∈ written known ↔ (name, some value) ∈ known := by
  simp only [written, List.mem_filterMap, Option.map_eq_some_iff, Prod.mk.injEq]
  constructor
  · rintro ⟨⟨_, _⟩, member, _, rfl, rfl, rfl⟩
    exact member
  · intro member
    exact ⟨_, member, value, rfl, rfl, rfl⟩

theorem nodup_written (names : (known.map Prod.fst).Nodup) : (written known).Nodup := by
  have distinct : known.Nodup := List.Nodup.of_map _ names
  apply distinct.filterMap
  rintro ⟨name, value?⟩ ⟨other, other?⟩ field first second
  simp only [Option.mem_def, Option.map_eq_some_iff] at first second
  rcases first with ⟨value, rfl, rfl⟩
  rcases second with ⟨_, rfl, same⟩
  cases same
  rfl

/-- A known field is found with its content, or not found if it is left out. -/
theorem HasFields.lookup_eq (has : HasFields known fields) (names : (known.map Prod.fst).Nodup)
    {name : String} {value? : Option Json} (member : (name, value?) ∈ known) :
    fields.lookup name = value? := by
  rcases has with ⟨unknown, order, others⟩
  apply lookup_eq_of_mem_iff
  intro value
  rw [order.mem_iff, List.mem_append, mem_written_iff]
  constructor
  · rintro (wanted | foreign)
    · exact content_eq_of_mem names member wanted
    · exact absurd (List.mem_map_of_mem member) (others _ foreign)
  · rintro rfl
    exact Or.inl member

/-- A field that is written has a known name. -/
theorem mem_names_of_mem_written {name : String} {value : Json}
    (member : (name, value) ∈ written known) : name ∈ known.map Prod.fst :=
  List.mem_map.mpr ⟨_, mem_written_iff.mp member, rfl⟩

/-- Under a known name, an object of distinct names that gives each known field its content
has the field that is written and no other. -/
theorem mem_iff_mem_written (distinct : (fields.map Prod.fst).Nodup)
    (names : (known.map Prod.fst).Nodup)
    (each : ∀ field ∈ known, fields.lookup field.1 = field.2) {name : String} {value : Json}
    (isKnown : name ∈ known.map Prod.fst) :
    (name, value) ∈ fields ↔ (name, value) ∈ written known := by
  rcases List.mem_map.mp isKnown with ⟨⟨_, value?⟩, member, rfl⟩
  rw [mem_iff_lookup_eq distinct, each _ member, mem_written_iff]
  constructor
  · rintro rfl
    exact member
  · intro wanted
    exact content_eq_of_mem names member wanted

/-- An object of distinct names that gives each known field its content has no other
fields than unknown ones. -/
theorem HasFields.of_lookup (distinctObject : Distinct (.object fields))
    (names : (known.map Prod.fst).Nodup)
    (each : ∀ field ∈ known, fields.lookup field.1 = field.2) : HasFields known fields := by
  have distinct := (distinct_object_iff.mp distinctObject).1
  have unknown_of_mem : ∀ field ∈ fields.filter (fun field => field.1 ∉ known.map Prod.fst),
      field.1 ∉ known.map Prod.fst := by
    intro field member
    simpa using (List.mem_filter.mp member).2
  refine ⟨fields.filter fun field => field.1 ∉ known.map Prod.fst, ?_, unknown_of_mem⟩
  rw [List.perm_ext_iff_of_nodup (List.Nodup.of_map _ distinct)]
  · rintro ⟨name, value⟩
    rw [List.mem_append, List.mem_filter, decide_eq_true_iff]
    by_cases isKnown : name ∈ known.map Prod.fst
    · simp only [mem_iff_mem_written distinct names each isKnown, isKnown, not_true_eq_false,
        and_false, or_false]
    · have unwritten : (name, value) ∉ written known := fun member =>
        isKnown (mem_names_of_mem_written member)
      simp only [unwritten, isKnown, not_false_eq_true, and_true, false_or]
  · apply List.Nodup.append (nodup_written names)
    · exact (List.Nodup.of_map _ distinct).filter _
    · rintro ⟨name, value⟩ wanted foreign
      exact unknown_of_mem _ foreign (mem_names_of_mem_written wanted)

/-- Written with all fields and no others. -/
theorem HasFields.all (fields : List (String × Json)) :
    HasFields (fields.map fun field => (field.1, some field.2)) fields := by
  refine ⟨[], ?_, ?_⟩
  · simp [written, List.filterMap_map]
  · simp

end Known

end Json

end SelectQuery
