import RowAlgebra.Proofs.StableSort
import RowAlgebra.Proofs.UpdateInterpreter

/-! Fields are updated independently. What is staged for a field depends on the value that
the row has there and on the updates of that field, in their order, and on nothing else; so
it does not matter how the fields take turns. Nor does it matter where a list of updates is
cut in two, since what the first part writes is what the second one would have seen staged. -/

namespace RowAlgebra.Proofs.FieldIndependence
open Update UpdateInterpreter

def ofField (name : String) (updates : List Update) : List Update := updates.filter (·.field = name)

/-- What is staged for a field by its own updates. -/
def stageField (held : Option Value) : List Update → Option Value → Except EvalError (Option Value)
  | [], staged => .ok staged
  | update :: rest, staged =>
    match staged.or held with
    | none => .error (.missingField update.field)
    | some stored =>
      match update.next stored with
      | .error error => .error error
      | .ok value => stageField held rest (some value)

theorem ofField_own (update : Update) (rest : List Update) :
    ofField update.field (update :: rest) = update :: ofField update.field rest :=
  List.filter_cons_of_pos (decide_eq_true rfl)

theorem ofField_other {name : String} {update : Update} (other : name ≠ update.field) (rest : List Update) :
    ofField name (update :: rest) = ofField name rest :=
  List.filter_cons_of_neg (by simpa using other.symm)

variable {row staged all : Row} {update : Update} {rest : List Update}

theorem stageField_cons_ok_iff {held before after : Option Value} :
    stageField held (update :: rest) before = .ok after ↔
      ∃ stored value, before.or held = some stored ∧ update.next stored = .ok value ∧
        stageField held rest (some value) = .ok after := by
  rw [stageField]
  cases before.or held with
  | none => simp
  | some stored =>
    cases computed : update.next stored with
    | error error => simp [computed]
    | ok value => simp [computed]

theorem stage_cons_ok_iff : stage row (update :: rest) staged = .ok all ↔
    ∃ stored value, (staged.get? update.field).or (row.get? update.field) = some stored ∧
      update.next stored = .ok value ∧ stage row rest (staged.insert update.field value) = .ok all := by
  rw [stage]
  cases (staged.get? update.field).or (row.get? update.field) with
  | none => simp
  | some stored =>
    cases computed : update.next stored with
    | error error => simp [computed]
    | ok value => simp [computed]

/-- A step of staging is a step for its own field and none for any other. -/
theorem stageField_step {stored value : Value} (found : (staged.get? update.field).or (row.get? update.field) = some stored)
    (computed : update.next stored = .ok value) (rest : List Update) (name : String) :
    stageField (row.get? name) (ofField name (update :: rest)) (staged.get? name) =
      stageField (row.get? name) (ofField name rest) ((staged.insert update.field value).get? name) := by
  rw [Row.get?_insert]
  by_cases same : name = update.field
  · subst same
    rw [ofField_own, stageField, found, if_pos rfl]
    simp only [computed]
  · rw [ofField_other same, if_neg same]

theorem stage_ok_iff (updates : List Update) : stage row updates staged = .ok all ↔
    ∀ name, stageField (row.get? name) (ofField name updates) (staged.get? name) = .ok (all.get? name) := by
  induction updates generalizing staged with
  | nil =>
    constructor
    · intro done name
      cases done
      rfl
    · intro each
      exact congrArg _ (Row.ext_get? fun name => Except.ok.inj (each name))
  | cons update rest ih =>
    constructor
    · intro done name
      obtain ⟨stored, value, found, computed, done⟩ := stage_cons_ok_iff.mp done
      rw [stageField_step found computed]
      exact ih.mp done name
    · intro each
      have own := each update.field
      rw [ofField_own] at own
      obtain ⟨stored, value, found, computed, -⟩ := stageField_cons_ok_iff.mp own
      refine stage_cons_ok_iff.mpr ⟨stored, value, found, computed, ih.mpr fun name => ?_⟩
      rw [← stageField_step found computed]
      exact each name

/-- The updates in another order, in which no update overtakes one of the same field. -/
def Reorders (updates others : List Update) : Prop :=
  ∃ arranged : List (Update × Nat), arranged.Perm updates.zipIdx ∧
    (arranged.Pairwise fun first second => first.1.field = second.1.field → first.2 < second.2) ∧
    arranged.map Prod.fst = others

theorem ofField_map_fst (name : String) (entries : List (Update × Nat)) :
    ofField name (entries.map Prod.fst) = (entries.filter (·.1.field = name)).map Prod.fst := by
  rw [ofField, List.filter_map]
  rfl

theorem ofField_reordered {updates others : List Update} (reorders : Reorders updates others) (name : String) :
    ofField name others = ofField name updates := by
  obtain ⟨arranged, rearranged, kept, rfl⟩ := reorders
  have ascending : (arranged.filter (·.1.field = name)).Pairwise fun first second => first.2 < second.2 := by
    refine List.pairwise_filter.mpr (kept.imp ?_)
    intro first second inOrder isFirst isSecond
    exact inOrder ((of_decide_eq_true isFirst).trans (of_decide_eq_true isSecond).symm)
  have same : arranged.filter (·.1.field = name) = updates.zipIdx.filter (·.1.field = name) := by
    refine List.Perm.eq_of_pairwise ?_ ascending ((StableSort.pairwise_zipIdx updates).filter _) (rearranged.filter _)
    intro first second _ _ before behind
    omega
  rw [ofField_map_fst, same, ← ofField_map_fst, List.zipIdx_map_fst]

theorem stage_reordered {updates others : List Update} (reorders : Reorders updates others) :
    stage row others staged = .ok all ↔ stage row updates staged = .ok all := by
  simp only [stage_ok_iff, ofField_reordered reorders]

theorem interpret_append {first second : List Update} {final : Row} :
    interpret (first ++ second) row = .ok final ↔
      ∃ middle, interpret first row = .ok middle ∧ interpret second middle = .ok final := by
  induction first generalizing row with
  | nil => simp [interpret]
  | cons update rest ih =>
    rw [List.cons_append, interpret, interpret]
    cases performed row update with
    | error error => simp
    | ok next => exact ih

theorem contains_staged {updates : List Update} (done : stage row updates staged = .ok all) (name : String) :
    all.contains name = true ↔ staged.contains name = true ∨ name ∈ updates.map Update.field := by
  induction updates generalizing staged with
  | nil =>
    cases done
    simp
  | cons update rest ih =>
    obtain ⟨stored, value, -, -, done⟩ := stage_cons_ok_iff.mp done
    rw [ih done, Row.contains_insert, Bool.or_eq_true, decide_eq_true_eq, List.map_cons, List.mem_cons,
      or_assoc, or_left_comm]

theorem commit_ok_iff {frozen : List String} {entries : List (String × Value)} {final : Row} :
    commit frozen entries row = (.ok (), final) ↔
      (∀ entry ∈ entries, entry.1 ∉ frozen) ∧ commit [] entries row = (.ok (), final) := by
  induction entries generalizing row with
  | nil => simp [commit]
  | cons entry rest ih =>
    obtain ⟨name, value⟩ := entry
    rw [commit, commit, List.forall_mem_cons]
    by_cases isFrozen : name ∈ frozen
    · simp [isFrozen]
    · cases row.contains name with
      | false => simp
      | true => simp [isFrozen, ih]

theorem applyAll_ok_iff {frozen : List String} {updates : List Update} {final : Row} :
    applyAll frozen updates row = (.ok (), final) ↔
      (∀ name ∈ updates.map Update.field, name ∉ frozen) ∧ interpret updates row = .ok final := by
  have staging := stage_simulates updates (simulates_start row)
  rw [applyAll]
  cases done : interpret updates row with
  | error error =>
    rw [done] at staging
    rw [staging]
    simp
  | ok copy =>
    rw [done] at staging
    obtain ⟨all, computed, simulates⟩ := staging
    have names (name : String) : name ∈ all.names ↔ name ∈ updates.map Update.field := by
      rw [← Row.contains_iff_mem_names, contains_staged computed]
      simp [Row.contains]
    simp only [computed, commit_ok_iff, simulates.commit, ← names, Row.names, List.forall_mem_map]
    simp

/-- Rows, of which some fields may be frozen, do not show in which order their fields took
turns: updates in another order go through or fail alike, and leave the same row. And two
lists of updates go through as one where they do in two calls, with the same row. -/
theorem applyAll_independent (frozen : List String) (row : Row) :
    (∀ updates others, Reorders updates others →
      (applyAll frozen others row).1.isOk = (applyAll frozen updates row).1.isOk ∧
        (applyAll frozen others row).2 = (applyAll frozen updates row).2) ∧
    ∀ first second final, applyAll frozen (first ++ second) row = (.ok (), final) ↔
      ∃ middle, applyAll frozen first row = (.ok (), middle) ∧ applyAll frozen second middle = (.ok (), final) := by
  constructor
  · intro updates others reorders
    have same (all : Row) : stage row others ∅ = .ok all ↔ stage row updates ∅ = .ok all := stage_reordered reorders
    rw [applyAll, applyAll]
    cases computed : stage row updates ∅ with
    | ok all =>
      rw [(same all).mpr computed]
      exact ⟨rfl, rfl⟩
    | error error =>
      cases computed' : stage row others ∅ with
      | ok all =>
        rw [(same all).mp computed'] at computed
        cases computed
      | error error' => exact ⟨rfl, rfl⟩
  · intro first second final
    simp only [applyAll_ok_iff, interpret_append, List.map_append, List.forall_mem_append]
    constructor
    · rintro ⟨⟨free, free'⟩, middle, done, done'⟩
      exact ⟨middle, ⟨free, done⟩, free', done'⟩
    · rintro ⟨middle, ⟨free, done⟩, free', done'⟩
      exact ⟨⟨free, free'⟩, middle, done, done'⟩

/-- An update of another field moves to the front, in a row that has a frozen field. -/
theorem reordered_past_other_field :
    let row : Row := ⟨[("count", .int 1), ("id", .int 9), ("note", .null)], by decide⟩
    let updates : List Update :=
      [⟨"count", .add, .int 2⟩, ⟨"count", .multiply, .int 5⟩, ⟨"note", .assign, .text "new"⟩]
    let others : List Update :=
      [⟨"note", .assign, .text "new"⟩, ⟨"count", .add, .int 2⟩, ⟨"count", .multiply, .int 5⟩]
    let final : Row := ⟨[("count", .int 15), ("id", .int 9), ("note", .text "new")], by decide⟩
    Reorders updates others ∧ applyAll ["id"] updates row = (.ok (), final) ∧
      (applyAll ["id"] others row).1.isOk = true ∧ (applyAll ["id"] others row).2 = final := by
  intro row updates others final
  have reorders : Reorders updates others :=
    ⟨[(⟨"note", .assign, .text "new"⟩, 2), (⟨"count", .add, .int 2⟩, 0), (⟨"count", .multiply, .int 5⟩, 1)],
      by decide, by decide, rfl⟩
  have applied : applyAll ["id"] updates row = (.ok (), final) := by rfl
  have same := (applyAll_independent ["id"] row).1 updates others reorders
  rw [applied] at same
  exact ⟨reorders, applied, same.1, same.2⟩

end RowAlgebra.Proofs.FieldIndependence
