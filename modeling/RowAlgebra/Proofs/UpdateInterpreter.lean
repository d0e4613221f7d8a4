import RowAlgebra.Row.Lemmas
import RowAlgebra.Update.Evaluation

/-! Updates computed on the side and written at the end do what updates done one at a
time on a copy do. What is staged, laid over the row, is the copy at every moment; only
fields of the row are ever staged, so every one of them can be written. -/

namespace RowAlgebra.Proofs.UpdateInterpreter
open Update

def performed (copy : Row) (update : Update) : Except EvalError Row :=
  match copy.get? update.field with
  | none => .error (.missingField update.field)
  | some stored =>
    match update.next stored with
    | .error error => .error error
    | .ok value => .ok (copy.insert update.field value)

def interpret : List Update → Row → Except EvalError Row
  | [], copy => .ok copy
  | update :: rest, copy =>
    match performed copy update with
    | .error error => .error error
    | .ok next => interpret rest next

theorem performed_ok {copy next : Row} {update : Update} (done : performed copy update = .ok next) :
    ∃ stored value, copy.get? update.field = some stored ∧ update.next stored = .ok value ∧
      next = copy.insert update.field value := by
  unfold performed at done
  split at done
  next => cases done
  next stored found =>
    split at done
    next => cases done
    next value computed => exact ⟨stored, value, found, computed, (Except.ok.inj done).symm⟩

theorem performed_names {copy next : Row} {update : Update} (done : performed copy update = .ok next) :
    next.names = copy.names := by
  obtain ⟨stored, value, found, -, rfl⟩ := performed_ok done
  exact Row.names_insert value (by rw [Row.contains, found, Option.isSome_some])

theorem performed_other {copy next : Row} {update : Update} (done : performed copy update = .ok next)
    {name : String} (other : name ≠ update.field) : next.get? name = copy.get? name := by
  obtain ⟨stored, value, -, -, rfl⟩ := performed_ok done
  rw [Row.get?_insert, if_neg other]

theorem interpret_cons_ok_iff {update : Update} {rest : List Update} {copy final : Row} :
    interpret (update :: rest) copy = .ok final ↔
      ∃ next, performed copy update = .ok next ∧ interpret rest next = .ok final := by
  rw [interpret]
  cases performed copy update with
  | error error => simp
  | ok next => simp

theorem interpret_names {updates : List Update} {copy final : Row} (done : interpret updates copy = .ok final) :
    final.names = copy.names := by
  induction updates generalizing copy with
  | nil => cases done; rfl
  | cons update rest ih =>
    obtain ⟨next, stepped, done⟩ := interpret_cons_ok_iff.mp done
    exact (ih done).trans (performed_names stepped)

theorem interpret_other {updates : List Update} {copy final : Row} (done : interpret updates copy = .ok final)
    {name : String} (unnamed : name ∉ updates.map Update.field) : final.get? name = copy.get? name := by
  induction updates generalizing copy with
  | nil => cases done; rfl
  | cons update rest ih =>
    obtain ⟨other, others⟩ : name ≠ update.field ∧ name ∉ rest.map Update.field := by simpa using unnamed
    obtain ⟨next, stepped, done⟩ := interpret_cons_ok_iff.mp done
    exact (ih done others).trans (performed_other stepped other)

/-- The staged values laid over the row are the copy. -/
structure Simulates (row staged copy : Row) : Prop where
  reads : ∀ name, (staged.get? name).or (row.get? name) = copy.get? name
  present : ∀ name, staged.contains name = true → row.contains name = true

theorem simulates_start (row : Row) : Simulates row ∅ row := by
  refine ⟨fun name => by simp, fun name impossible => ?_⟩
  simp [Row.contains] at impossible

theorem Simulates.insert {row staged copy : Row} (simulates : Simulates row staged copy)
    {name : String} (value : Value) (present : copy.contains name = true) :
    Simulates row (staged.insert name value) (copy.insert name value) := by
  constructor
  · intro other
    rw [Row.get?_insert, Row.get?_insert, ← simulates.reads]
    split
    · rfl
    · rfl
  · intro other
    rw [Row.contains_insert, Bool.or_eq_true, decide_eq_true_eq]
    intro written
    rcases written with same | before
    · subst same
      rw [Row.contains, ← simulates.reads, Option.isSome_or, Bool.or_eq_true] at present
      rcases present with staged | stored
      · exact simulates.present other staged
      · exact stored
    · exact simulates.present other before

/-- Staging goes wrong where the copy does, with the same error, and otherwise ends with
values that laid over the row are the finished copy. -/
theorem stage_simulates (updates : List Update) {row staged copy : Row} (simulates : Simulates row staged copy) :
    match interpret updates copy with
    | .ok final => ∃ all, stage row updates staged = .ok all ∧ Simulates row all final
    | .error error => stage row updates staged = .error error := by
  induction updates generalizing staged copy with
  | nil => exact ⟨staged, rfl, simulates⟩
  | cons update rest ih =>
    rw [interpret, performed, stage, simulates.reads]
    cases found : copy.get? update.field with
    | none => rfl
    | some stored =>
      cases computed : update.next stored with
      | error error => simp only [computed]
      | ok value =>
        have present : copy.contains update.field = true := by rw [Row.contains, found, Option.isSome_some]
        simpa only [computed] using ih (simulates.insert value present)

theorem commit_present (entries : List (String × Value)) (row : Row)
    (ascending : entries.Pairwise fun first second => first.1 < second.1)
    (present : ∀ entry ∈ entries, row.contains entry.1 = true) :
    ∃ final, commit [] entries row = (.ok (), final) ∧
      ∀ name, final.get? name = (entries.lookup name).or (row.get? name) := by
  induction ascending generalizing row with
  | nil => exact ⟨row, rfl, fun name => by simp⟩
  | @cons head rest above ascending ih =>
    obtain ⟨first, value⟩ := head
    have known : row.contains first = true := present (first, value) List.mem_cons_self
    obtain ⟨final, committed, reads⟩ := ih (row.insert first value) (by
      intro entry member
      rw [Row.contains_insert, present entry (List.mem_cons_of_mem _ member), Bool.or_true])
    refine ⟨final, ?_, ?_⟩
    · rw [commit, if_neg (by simp [known]), committed]
    · intro name
      rw [reads, Row.get?_insert, List.lookup_cons]
      by_cases same : name = first
      · subst same
        rw [Row.lookup_eq_none_of_above above]
        simp
      · have different : (name == first) = false := beq_eq_false_iff_ne.mpr same
        rw [if_neg same, different]

theorem Simulates.commit {row staged copy : Row} (simulates : Simulates row staged copy) :
    Update.commit [] staged.entries row = (.ok (), copy) := by
  obtain ⟨final, committed, reads⟩ := commit_present staged.entries row staged.ascending (by
    intro entry member
    apply simulates.present
    exact Row.contains_iff_mem_names.mpr (List.mem_map_of_mem member))
  have same : final = copy := Row.ext_get? fun name => (reads name).trans (simulates.reads name)
  rw [committed, same]

/-- A row under a list of updates ends as the copy on which they are done one at a time,
or stays as it was if one of them fails; writing the staged values never fails. -/
theorem apply_eq_interpret (row : Row) (updates : List Update) :
    match interpret updates row with
    | .ok copy =>
      row.apply updates = (.ok (), copy) ∧ copy.names = row.names ∧
        (∀ name, name ∉ updates.map Update.field → copy.get? name = row.get? name) ∧
        ∃ staged, stage row updates ∅ = .ok staged ∧ Update.commit [] staged.entries row = (.ok (), copy)
    | .error error => stage row updates ∅ = .error error ∧ row.apply updates = (.error error, row) := by
  have staging := stage_simulates updates (simulates_start row)
  cases done : interpret updates row with
  | error error =>
    rw [done] at staging
    exact ⟨staging, by rw [Row.apply, applyAll, staging]⟩
  | ok copy =>
    rw [done] at staging
    obtain ⟨staged, computed, simulates⟩ := staging
    refine ⟨?_, interpret_names done, fun name unnamed => interpret_other done unnamed, staged, computed, simulates.commit⟩
    rw [Row.apply, applyAll, computed]
    exact simulates.commit

/-- Two updates of one field, the second one working on the result of the first. -/
theorem apply_same_field_twice :
    let row : Row := ⟨[("count", .int 1), ("note", .null)], by decide⟩
    let updates : List Update := [⟨"count", .add, .int 2⟩, ⟨"count", .multiply, .int 5⟩]
    row.apply updates = (.ok (), ⟨[("count", .int 15), ("note", .null)], by decide⟩) ∧
      "note" ∉ updates.map Update.field ∧ (row.apply updates).2.get? "note" = row.get? "note" := by
  intro row updates
  have done : interpret updates row = .ok ⟨[("count", .int 15), ("note", .null)], by decide⟩ := by rfl
  have applied := apply_eq_interpret row updates
  rw [done] at applied
  obtain ⟨result, -, kept, -⟩ := applied
  have unnamed : "note" ∉ updates.map Update.field := by decide
  exact ⟨result, unnamed, by rw [result]; exact kept "note" unnamed⟩

end RowAlgebra.Proofs.UpdateInterpreter
