import RowAlgebra.Value.FieldType

/-! Contents of a declared type as values. A value is read as a content only if it is the
encoding of one, and every encoding is read; what is read from it is the content itself, but
for present optionals whose encoding is null, which come back absent. Only where an optional
holds something that can be null are there such contents. -/

namespace RowAlgebra.FieldType

def takesNull : FieldType → Bool
  | value | option _ => true
  | text | checked .. | list _ => false
  | boxed inner => inner.takesNull

/-- Whether no optional anywhere in the type is of something that can be stored as null. -/
def unambiguous : FieldType → Bool
  | value | text | checked .. => true
  | option inner => !inner.takesNull && inner.unambiguous
  | list inner | boxed inner => inner.unambiguous

/-- The content without present optionals that are stored as null: they are absent. -/
def settled : (type : FieldType) → type.Carrier → type.Carrier
  | value, content => content
  | text, content => content
  | checked _ _, content => content
  | option _, none => none
  | option inner, some content => if (inner.toValue content).isNull then none else some (inner.settled content)
  | list inner, contents => List.map inner.settled contents
  | boxed inner, content => inner.settled content

/-- How contents become values without their declared type. Nothing that is boxed does. -/
def conversion? : (type : FieldType) → Option (ToValue type.Carrier)
  | value => some (inferInstanceAs (ToValue Value))
  | text => some (inferInstanceAs (ToValue String))
  | checked .bool accepts => some (inferInstanceAs (ToValue { flag : Bool // accepts flag = true }))
  | checked .int accepts => some (inferInstanceAs (ToValue { number : Int64 // accepts number = true }))
  | checked .float accepts => some (inferInstanceAs (ToValue { number : Float64 // accepts number = true }))
  | option inner =>
    match inner.conversion? with
    | some _ => some (inferInstanceAs (ToValue (Option inner.Carrier)))
    | none => none
  | list inner =>
    match inner.conversion? with
    | some _ => some (inferInstanceAs (ToValue (List inner.Carrier)))
    | none => none
  | boxed _ => none

theorem takesNull_iff (type : FieldType) :
    type.takesNull = true ↔ ∃ content, (type.toValue content).isNull = true := by
  induction type with
  | value => exact ⟨fun _ => ⟨Value.null, rfl⟩, fun _ => rfl⟩
  | option inner _ => exact ⟨fun _ => ⟨(none : Option inner.Carrier), rfl⟩, fun _ => rfl⟩
  | text | list =>
    constructor
    · exact fun impossible => nomatch impossible
    · exact fun ⟨_, impossible⟩ => nomatch impossible
  | checked payload accepts =>
    constructor
    · exact fun impossible => nomatch impossible
    · intro ⟨content, null⟩
      cases payload with
      | bool | int | float => cases null
  | boxed inner ih => exact ih

section
variable {inner : FieldType}

private theorem fromValue?_null {stored : Value} (null : stored.isNull = true) :
    (option inner).fromValue? stored = some (none : Option inner.Carrier) := if_pos null

private theorem fromValue?_present {stored : Value} (present : ¬stored.isNull = true) :
    (option inner).fromValue? stored = (inner.fromValue? stored).map some := if_neg present

private theorem settled_null {held : inner.Carrier} (null : (inner.toValue held).isNull = true) :
    (option inner).settled (some held) = none := if_pos null

private theorem settled_present {held : inner.Carrier} (present : ¬(inner.toValue held).isNull = true) :
    (option inner).settled (some held) = some (inner.settled held) := if_neg present

end

theorem wrap_of_unwrap? {payload : Payload} {stored : Value} {content : payload.Carrier}
    (found : payload.unwrap? stored = some content) : payload.wrap content = stored := by
  cases payload with
  | bool | int | float =>
    cases stored
    all_goals cases found
    rfl

theorem unwrap?_wrap (payload : Payload) (content : payload.Carrier) :
    payload.unwrap? (payload.wrap content) = some content := by
  cases payload with
  | bool | int | float => rfl

/-- What reading comes to depends on the type, so there are no equations to rewrite with. -/
theorem fromValue?_checked_iff {payload : Payload} {accepts : payload.Carrier → Bool} {stored : Value}
    {content : (checked payload accepts).Carrier} :
    (checked payload accepts).fromValue? stored = some content ↔ payload.unwrap? stored = some content.val := by
  obtain ⟨content, accepted⟩ := content
  conv => lhs; lhs; whnf
  cases payload.unwrap? stored with
  | none => simp
  | some carried =>
    constructor
    · intro found
      dsimp only at found
      split at found
      next => exact congrArg (some ·.val) (Option.some.inj found)
      next => cases found
    · intro same
      cases same
      exact dif_pos accepted

theorem map_of_mapM {read : α → Option β} {write : β → α}
    (undone : ∀ stored content, read stored = some content → write content = stored)
    {items : List α} {contents : List β} (found : items.mapM read = some contents) : contents.map write = items := by
  induction items generalizing contents with
  | nil =>
    cases found
    rfl
  | cons item rest ih =>
    simp only [List.mapM_cons, Option.bind_eq_bind, Option.bind_eq_some_iff, Option.pure_def, Option.some.injEq] at found
    obtain ⟨content, first, others, later, rfl⟩ := found
    rw [List.map_cons, undone _ _ first, ih later]

theorem mapM_map {read : α → Option β} {write : γ → α} {settle : γ → β}
    (done : ∀ content, read (write content) = some (settle content)) (contents : List γ) :
    (contents.map write).mapM read = some (contents.map settle) := by
  induction contents with
  | nil => rfl
  | cons content rest ih =>
    rw [List.map_cons, List.mapM_cons, done, ih]
    rfl

theorem toValue_of_fromValue? (type : FieldType) (stored : Value) (content : type.Carrier)
    (found : type.fromValue? stored = some content) : type.toValue content = stored := by
  induction type generalizing stored with
  | value =>
    cases found
    rfl
  | text =>
    cases stored
    all_goals cases found
    rfl
  | checked payload accepts => exact wrap_of_unwrap? (fromValue?_checked_iff.mp found)
  | option inner ih =>
    by_cases null : stored.isNull = true
    · rw [fromValue?_null null] at found
      cases found
      cases stored
      all_goals cases null
      rfl
    · rw [fromValue?_present null] at found
      obtain ⟨held, read, rfl⟩ := Option.map_eq_some_iff.mp found
      exact ih stored held read
  | list inner ih =>
    cases stored with
    | list items => exact congrArg Value.list (map_of_mapM ih found)
    | null | bool | int | float | text | blob | map => cases found
  | boxed inner ih => exact ih stored content found

theorem fromValue?_toValue (type : FieldType) (content : type.Carrier) :
    type.fromValue? (type.toValue content) = some (type.settled content) := by
  induction type with
  | value | text => rfl
  | checked payload accepts => exact fromValue?_checked_iff.mpr (unwrap?_wrap payload content.val)
  | option inner ih =>
    cases content with
    | none => rfl
    | some held =>
      change (option inner).fromValue? (inner.toValue held) = _
      by_cases null : (inner.toValue held).isNull = true
      · rw [fromValue?_null null, settled_null null]
        rfl
      · rw [fromValue?_present null, settled_present null, ih]
        rfl
  | list inner ih => exact mapM_map ih content
  | boxed inner ih => exact ih content

theorem toValue_settled (type : FieldType) (content : type.Carrier) :
    type.toValue (type.settled content) = type.toValue content :=
  type.toValue_of_fromValue? _ _ (type.fromValue?_toValue content)

theorem toValue_eq_iff (type : FieldType) (first second : type.Carrier) :
    type.toValue first = type.toValue second ↔ type.settled first = type.settled second := by
  constructor
  · intro same
    have read := type.fromValue?_toValue first
    rw [same, type.fromValue?_toValue second] at read
    exact (Option.some.inj read).symm
  · intro same
    rw [← type.toValue_settled first, same, type.toValue_settled]

theorem settled_eq_self {type : FieldType} (clear : type.unambiguous = true) (content : type.Carrier) :
    type.settled content = content := by
  induction type with
  | value | text | checked => rfl
  | option inner ih =>
    rw [unambiguous, Bool.and_eq_true, Bool.not_eq_true'] at clear
    cases content with
    | none => rfl
    | some held =>
      have present : ¬(inner.toValue held).isNull = true := fun null =>
        Bool.eq_false_iff.mp clear.1 (inner.takesNull_iff.mpr ⟨held, null⟩)
      rw [settled_present present, ih clear.2]
  | list inner ih => exact (congrArg (List.map · content) (funext (ih clear))).trans (List.map_id _)
  | boxed inner ih => exact ih clear content

theorem exists_settled_ne {type : FieldType} (unclear : type.unambiguous = false) :
    ∃ content, type.settled content ≠ content := by
  induction type with
  | value | text | checked => cases unclear
  | option inner ih =>
    cases taken : inner.takesNull with
    | true =>
      obtain ⟨held, null⟩ := inner.takesNull_iff.mp taken
      refine ⟨some held, ?_⟩
      rw [settled_null null]
      exact fun same => nomatch same
    | false =>
      rw [unambiguous, taken] at unclear
      obtain ⟨held, moved⟩ := ih unclear
      refine ⟨some held, ?_⟩
      rw [settled_present (fun null => Bool.eq_false_iff.mp taken (inner.takesNull_iff.mpr ⟨held, null⟩))]
      exact fun same => moved (Option.some.inj same)
  | list inner ih =>
    obtain ⟨item, moved⟩ := ih unclear
    exact ⟨[item], fun same => moved (List.singleton_inj.mp same)⟩
  | boxed inner ih => exact ih unclear

theorem settled_eq_self_iff (type : FieldType) :
    (∀ content, type.settled content = content) ↔ type.unambiguous = true := by
  constructor
  · intro same
    cases clear : type.unambiguous with
    | true => rfl
    | false =>
      obtain ⟨content, moved⟩ := exists_settled_ne clear
      exact absurd (same content) moved
  · exact settled_eq_self

theorem toValue_injective_iff (type : FieldType) : Function.Injective type.toValue ↔ type.unambiguous = true := by
  rw [← settled_eq_self_iff]
  constructor
  · exact fun injective content => injective (type.toValue_settled content)
  · intro same first second shared
    have settled := (type.toValue_eq_iff first second).mp shared
    rwa [same, same] at settled

theorem toValue_of_conversion? {type : FieldType} {conversion : ToValue type.Carrier}
    (given : type.conversion? = some conversion) (content : type.Carrier) :
    conversion.toValue content = type.toValue content := by
  induction type with
  | value | text =>
    cases given
    rfl
  | checked payload accepts =>
    cases payload with
    | bool | int | float =>
      cases given
      rfl
  | option inner ih =>
    rw [conversion?] at given
    split at given
    next other found =>
      cases given
      cases content with
      | none => rfl
      | some held => exact ih found held
    next => cases given
  | list inner ih =>
    rw [conversion?] at given
    split at given
    next other found =>
      cases given
      exact congrArg Value.list (congrArg (List.map · content) (funext (ih found)))
    next => cases given
  | boxed => cases given

end RowAlgebra.FieldType

namespace RowAlgebra.Proofs.ContentEncoding
open FieldType

/-- A declared type reads a value as a content only if that content is stored as the value, and
it reads every value that a content is stored as. Every content comes back as it was just where
the type has no optional of something that can be stored as null; these are the types of which
no two contents are stored alike. Converting a content stores it as its declared type does. -/
theorem fromValue?_accepts_encodings (type : FieldType) :
    (∀ stored content, type.fromValue? stored = some content → type.toValue content = stored) ∧
    (∀ content, type.fromValue? (type.toValue content) = some (type.settled content) ∧
      type.toValue (type.settled content) = type.toValue content) ∧
    ((∀ content, type.settled content = content) ↔ type.unambiguous = true) ∧
    (Function.Injective type.toValue ↔ type.unambiguous = true) ∧
    ∀ conversion, type.conversion? = some conversion →
      ∀ content, conversion.toValue content = type.toValue content :=
  ⟨type.toValue_of_fromValue?, fun content => ⟨type.fromValue?_toValue content, type.toValue_settled content⟩,
    type.settled_eq_self_iff, type.toValue_injective_iff, fun _ => toValue_of_conversion?⟩

/-- Of optionals within optionals an absent one is stored like a present one that holds an
absent one, and only the former comes back. -/
theorem nested_optionals_settle :
    let type := FieldType.list (.option (.option .uint8))
    let stored : Value := .list [.null, .int 255]
    let absent : type.Carrier := [none, some (some ⟨(255 : Int64), by decide⟩)]
    let holdsAbsent : type.Carrier := [some none, some (some ⟨(255 : Int64), by decide⟩)]
    (type.fromValue? stored = some absent ∧ type.toValue absent = stored) ∧
      type.fromValue? (type.toValue holdsAbsent) = some absent ∧ absent ≠ holdsAbsent ∧ type.unambiguous = false ∧
      ∃ conversion, type.conversion? = some conversion ∧ conversion.toValue holdsAbsent = stored := by
  intro type stored absent holdsAbsent
  obtain ⟨only, every, _, _, converts⟩ := fromValue?_accepts_encodings type
  have read : type.fromValue? stored = some absent := rfl
  have different : absent ≠ holdsAbsent := fun same => nomatch (List.cons.inj same).1
  exact ⟨⟨read, only stored absent read⟩, (every holdsAbsent).1, different, rfl, _, rfl, converts _ rfl holdsAbsent⟩

end RowAlgebra.Proofs.ContentEncoding
