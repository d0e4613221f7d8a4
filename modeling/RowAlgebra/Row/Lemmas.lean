import RowAlgebra.Row.Basic

/-! A row is known by what it holds under each name: writing a field changes that field
and no other, and rows that agree under every name are equal. -/

namespace RowAlgebra.Row

@[simp] theorem get?_empty (name : String) : (∅ : Row).get? name = none := rfl

private theorem lookup_place (name other : String) (value : Value) (entries : List (String × Value)) :
    (place name value entries).lookup other = if other = name then some value else entries.lookup other := by
  induction entries with
  | nil =>
    rw [place, List.lookup_cons]
    split <;> simp_all
  | cons head rest ih =>
    obtain ⟨first, held⟩ := head
    rw [place]
    split
    · rw [List.lookup_cons]
      split <;> simp_all
    · split
      next same =>
        subst same
        rw [List.lookup_cons, List.lookup_cons]
        split <;> simp_all
      next different =>
        rw [List.lookup_cons, List.lookup_cons, ih]
        split
        next found =>
          have same : other = first := by simpa using found
          rw [if_neg (fun equal => different (equal.symm.trans same))]
        next => rfl

/-- A field that is given a value has that value, and every other field keeps its own. -/
@[simp] theorem get?_insert (row : Row) (name other : String) (value : Value) :
    (row.insert name value).get? other = if other = name then some value else row.get? other :=
  lookup_place name other value row.entries

theorem lookup_eq_none_of_above {name : String} {entries : List (String × Value)}
    (above : ∀ entry ∈ entries, name < entry.1) : entries.lookup name = none := by
  induction entries with
  | nil => rfl
  | cons head rest ih =>
    obtain ⟨first, held⟩ := head
    have less : name < first := above (first, held) List.mem_cons_self
    have different : (name == first) = false := by
      rw [beq_eq_false_iff_ne]
      intro same
      exact String.lt_irrefl name (same ▸ less)
    rw [List.lookup_cons, different]
    exact ih fun entry member => above entry (List.mem_cons_of_mem _ member)

/-- A row that holds a name does not start above it. -/
private theorem head_le {name other : String} {value : Value} {rest : List (String × Value)}
    (above : ∀ entry ∈ rest, other < entry.1) (found : ((other, value) :: rest).lookup name ≠ none) : other ≤ name := by
  refine String.not_lt.mp fun less => found (lookup_eq_none_of_above fun entry member => ?_)
  rcases List.mem_cons.mp member with rfl | member
  · exact less
  · exact String.lt_trans less (above entry member)

private theorem entries_eq {first second : List (String × Value)}
    (ascending : first.Pairwise fun a b => a.1 < b.1) (otherAscending : second.Pairwise fun a b => a.1 < b.1)
    (same : ∀ name, first.lookup name = second.lookup name) : first = second := by
  induction ascending generalizing second with
  | nil =>
    cases second with
    | nil => rfl
    | cons head rest =>
      obtain ⟨name, value⟩ := head
      have found := same name
      simp at found
  | @cons head rest above ascending ih =>
    obtain ⟨name, value⟩ := head
    cases second with
    | nil =>
      have found := same name
      simp at found
    | cons other otherRest =>
      obtain ⟨otherName, otherValue⟩ := other
      obtain ⟨otherAbove, otherRestAscending⟩ := List.pairwise_cons.mp otherAscending
      have sameName : name = otherName := by
        have atOther : ((name, value) :: rest).lookup otherName ≠ none := by
          rw [same otherName]
          simp
        have atName : ((otherName, otherValue) :: otherRest).lookup name ≠ none := by
          rw [← same name]
          simp
        exact String.le_antisymm (head_le above atOther) (head_le otherAbove atName)
      subst sameName
      have sameValue : value = otherValue := by simpa using same name
      subst sameValue
      have sameRest : rest = otherRest := by
        refine ih otherRestAscending fun wanted => ?_
        by_cases equal : wanted = name
        · subst equal
          rw [lookup_eq_none_of_above above, lookup_eq_none_of_above otherAbove]
        · have found := same wanted
          have different : (wanted == name) = false := beq_eq_false_iff_ne.mpr equal
          rw [List.lookup_cons, List.lookup_cons, different] at found
          exact found
      rw [sameRest]

/-- Rows that hold the same values are equal. -/
theorem ext_get? {first second : Row} (same : ∀ name, first.get? name = second.get? name) : first = second := by
  obtain ⟨entries, ascending⟩ := first
  obtain ⟨others, othersAscending⟩ := second
  have equal : entries = others := entries_eq ascending othersAscending same
  subst equal
  rfl

theorem contains_iff_mem_names {row : Row} {name : String} : row.contains name = true ↔ name ∈ row.names := by
  rw [contains, get?, names, List.mem_map, List.lookup_isSome_iff]
  constructor
  · intro ⟨entry, member, same⟩
    exact ⟨entry, member, (beq_iff_eq.mp same).symm⟩
  · intro ⟨entry, member, same⟩
    exact ⟨entry, member, beq_iff_eq.mpr same.symm⟩

@[simp] theorem contains_insert (row : Row) (name other : String) (value : Value) :
    (row.insert name value).contains other = (decide (other = name) || row.contains other) := by
  by_cases same : other = name
  · simp [contains, same]
  · simp [contains, same]

private theorem names_place {name : String} {value : Value} {entries : List (String × Value)}
    (ascending : entries.Pairwise fun a b => a.1 < b.1) (present : name ∈ entries.map Prod.fst) :
    (place name value entries).map Prod.fst = entries.map Prod.fst := by
  induction ascending with
  | nil => simp at present
  | @cons head rest above ascending ih =>
    obtain ⟨other, held⟩ := head
    rw [place]
    split
    next less =>
      obtain ⟨entry, member, same⟩ := List.mem_map.mp present
      rcases List.mem_cons.mp member with first | later
      · subst first
        exact absurd less (same ▸ String.lt_irrefl _)
      · exact absurd (String.lt_trans less (above entry later)) (same ▸ String.lt_irrefl _)
    next notLess =>
      split
      next same => simp [same]
      next different =>
        have later : name ∈ rest.map Prod.fst := by simpa [different] using present
        rw [List.map_cons, List.map_cons, ih later]

/-- Writing a field that the row has leaves its names as they are. -/
theorem names_insert {row : Row} {name : String} (value : Value) (present : row.contains name = true) :
    (row.insert name value).names = row.names :=
  names_place row.ascending (contains_iff_mem_names.mp present)

end RowAlgebra.Row
