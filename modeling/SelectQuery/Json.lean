/-!
# JSON values

The values that a query is exchanged as.  An object is the list of its fields; an
array and an object are larger than what they hold, so each look inside yields a
`Part`, a value together with the proof that it is smaller, and a reader that goes
from part to part is total.
-/

namespace SelectQuery

/-- A JSON value. -/
inductive Json
  | null
  | bool (value : Bool)
  /-- The number `mantissa · 10 ^ (-exponent)`. -/
  | number (mantissa : Int) (exponent : Nat)
  | string (text : String)
  | array (items : List Json)
  | object (fields : List (String × Json))
  deriving Inhabited

namespace Json

/-- A value within another one. -/
abbrev Part (json : Json) : Type :=
  { part : Json // sizeOf part < sizeOf json }

/-! ## Writing -/

/-- An optional value, with null for none. -/
def ofOption {α : Type} (encode : α → Json) : Option α → Json
  | none => .null
  | some value => encode value

/-- An array of texts. -/
def ofStrings (texts : List String) : Json :=
  .array (texts.map .string)

/-- A tag with content: an object with that single field. -/
def tagged (tag : String) (content : Json) : Json :=
  .object [(tag, content)]

/-! ## Reading -/

/-- The text of a string. -/
def string? : Json → Option String
  | .string text => some text
  | _ => none

theorem string?_eq_some_iff {json : Json} {text : String} :
    json.string? = some text ↔ json = .string text := by
  cases json <;> simp [string?]

/-- The items of an array, each smaller than the array. -/
def items? : (json : Json) → Option (List json.Part)
  | .array items =>
      some (items.attach.map fun item =>
        ⟨item.1, by
          have smaller := List.sizeOf_lt_of_mem item.2
          simp only [array.sizeOf_spec]
          omega⟩)
  | _ => none

/-- Without the proofs of their sizes, the items are those of the array. -/
theorem exists_items?_array (items : List Json) :
    ∃ parts, items? (.array items) = some parts ∧ parts.unattach = items := by
  refine ⟨_, rfl, ?_⟩
  rw [List.unattach, List.map_map]
  exact List.attach_map_subtype_val items

/-- The texts of an array of strings. -/
def strings? : Json → Option (List String)
  | .array items => items.mapM string?
  | _ => none

/-- What a lookup finds is smaller than the list. -/
theorem sizeOf_lt_of_lookup {fields : List (String × Json)} {name : String} {value : Json}
    (found : fields.lookup name = some value) : sizeOf value < sizeOf fields := by
  induction fields with
  | nil => cases found
  | cons field fields inductionHypothesis =>
      rcases field with ⟨key, content⟩
      simp only [List.cons.sizeOf_spec, Prod.mk.sizeOf_spec]
      rw [List.lookup_cons] at found
      split at found
      · cases found
        omega
      · have smaller := inductionHypothesis found
        omega

/-- The value of a field of an object, smaller than the object. -/
def field? (name : String) : (json : Json) → Option json.Part
  | .object fields =>
      match found : fields.lookup name with
      | none => none
      | some value =>
          some ⟨value, by
            have smaller := sizeOf_lt_of_lookup found
            simp only [object.sizeOf_spec]
            omega⟩
  | _ => none

/-- Without the proof of its size, the value of a field is a lookup. -/
@[simp]
theorem unattach_field?_object (name : String) (fields : List (String × Json)) :
    (field? name (.object fields)).unattach = fields.lookup name := by
  rw [field?]
  split <;> simp [*]

/-- A field is found in an object, by its first entry. -/
theorem field?_eq_some_iff {json : Json} {name : String} {part : json.Part} :
    json.field? name = some part ↔
      ∃ fields, json = .object fields ∧ fields.lookup name = some part.1 := by
  cases json with
  | object fields =>
      rw [field?]
      split
      · rename_i missing
        simp [missing]
      · rename_i value found
        simp [found, Subtype.ext_iff]
  | null | bool | number | string | array => simp [field?]

theorem field?_object {fields : List (String × Json)} {name : String} {value : Json}
    (found : fields.lookup name = some value) :
    field? name (.object fields) = some ⟨value, by
      have smaller := sizeOf_lt_of_lookup found
      simp only [object.sizeOf_spec]
      omega⟩ :=
  field?_eq_some_iff.mpr ⟨fields, rfl, found⟩

/-- The texts of a written array read back. -/
@[simp]
theorem strings?_ofStrings (texts : List String) : (ofStrings texts).strings? = some texts := by
  induction texts with
  | nil => rfl
  | cons text texts inductionHypothesis =>
      simp only [ofStrings, strings?] at inductionHypothesis ⊢
      simp [inductionHypothesis, string?]

/-- Texts are read from an array of strings alone. -/
theorem strings?_eq_some_iff {json : Json} {texts : List String} :
    json.strings? = some texts ↔ json = .ofStrings texts := by
  constructor
  · intro read
    cases json with
    | array items =>
        rw [strings?] at read
        induction items generalizing texts with
        | nil =>
            cases read
            rfl
        | cons item items inductionHypothesis =>
            simp only [List.mapM_cons, Option.bind_eq_bind, Option.pure_def,
              Option.bind_eq_some_iff, Option.some.injEq, string?_eq_some_iff] at read
            rcases read with ⟨text, rfl, others, readOthers, rfl⟩
            have same := inductionHypothesis readOthers
            simp only [ofStrings, array.injEq] at same
            rw [same]
            rfl
    | null | bool | number | string | object => cases read
  · rintro rfl
    exact strings?_ofStrings texts

/-- The single field of an object: a tag and its content. -/
def tagged? : (json : Json) → Option (String × json.Part)
  | .object [(tag, content)] =>
      some (tag, ⟨content, by
        simp only [object.sizeOf_spec, List.cons.sizeOf_spec, Prod.mk.sizeOf_spec]
        omega⟩)
  | _ => none

/-- A tag with content is read from nothing but its written form. -/
theorem tagged?_eq_some_iff {json : Json} {tag : String} {part : json.Part} :
    json.tagged? = some (tag, part) ↔ json = .tagged tag part.1 := by
  unfold tagged?
  split
  · simp [tagged, Subtype.ext_iff]
  · rename_i noSingleField
    constructor
    · intro read
      cases read
    · intro written
      exact absurd written (noSingleField _ _)

/-- A tag without content: a string, or an object whose single field is null. -/
def bareTag? : Json → Option String
  | .string tag => some tag
  | .object [(tag, .null)] => some tag
  | _ => none

/-- A bare tag has two written forms. -/
theorem bareTag?_eq_some_iff {json : Json} {tag : String} :
    json.bareTag? = some tag ↔ json = .string tag ∨ json = .tagged tag .null := by
  unfold bareTag?
  split
  · simp [tagged]
  · simp [tagged]
  · rename_i noString noNull
    constructor
    · intro read
      cases read
    · rintro (written | written)
      · exact absurd written (noString _)
      · exact absurd written (noNull _)

/-- Read a field that may be absent or null. -/
def optionalField? {α : Type} (name : String) (read : Json → Option α) (json : Json) :
    Option (Option α) :=
  match json.field? name with
  | none => some none
  | some ⟨.null, _⟩ => some none
  | some ⟨value, _⟩ => (read value).map some

end Json

end SelectQuery
