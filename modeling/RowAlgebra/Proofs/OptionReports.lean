import Mathlib.Data.List.Forall2
import RowAlgebra.Proofs.OptionFold

/-! What is reported when select options are folded, read off the list itself: each number that a
later one of its slot overrides, from the back to the front, with the number that stays. A plan takes
its numbers from the options behind where they give any, zeros too. Written out as options again it
folds into itself without a report, and only so. -/

namespace RowAlgebra

def Slot.option : Slot → UInt32 → SelectOption
  | limit => .limitTo
  | offset => .offsetBy

def SelectPlan.number (plan : SelectPlan) : Slot → UInt32
  | .limit => plan.limit
  | .offset => plan.offset

/-- The options that a plan comes down to. A slot of 0 needs none. -/
def SelectPlan.written (plan : SelectPlan) : List SelectOption :=
  (if plan.limit = 0 then [] else [.limitTo plan.limit]) ++
    (if plan.offset = 0 then [] else [.offsetBy plan.offset]) ++ plan.remaining

namespace Proofs.OptionReports
open SelectPlan OptionFold

def given : Slot → SelectOption → Option UInt32
  | .limit => givenLimit
  | .offset => givenOffset

def numbers (slot : Slot) (options : List SelectOption) : List UInt32 := options.filterMap (given slot)

def Sets (slot : Slot) (options : List SelectOption) : Prop := ∃ number, slot.option number ∈ options

/-- The report on the option of a place that is not the last one of its slot. -/
inductive Reported (options : List SelectOption) : Nat → Event → Prop where
  | overridden {place later : Nat} {slot : Slot} {dropped other : UInt32} (own : options[place]? = some (slot.option dropped))
      (behind : place < later) (again : options[later]? = some (slot.option other)) :
      Reported options place (.optionOverridden slot ((ofOptions options).1.number slot) dropped)

/-- Every place with a report has it, and the places stand from the back to the front. -/
def Reports (options : List SelectOption) (events : List Event) : Prop :=
  ∃ places : List Nat, places.Pairwise (· > ·) ∧ (∀ place, place ∈ places ↔ ∃ event, Reported options place event) ∧
    List.Forall₂ (Reported options) places events

variable {slot : Slot} {option : SelectOption} {options : List SelectOption}

theorem given_eq_some_iff {number : UInt32} : given slot option = some number ↔ option = slot.option number := by
  cases slot with
  | limit => cases option <;> simp [given, givenLimit, Slot.option]
  | offset => cases option <;> simp [given, givenOffset, Slot.option]

theorem number_ofOptions : (ofOptions options).1.number slot = (numbers slot options).getLast?.getD 0 := by
  rw [ofOptions_plan]
  cases slot with
  | limit => rfl
  | offset => rfl

theorem numbers_append (first second : List SelectOption) : numbers slot (first ++ second) = numbers slot first ++ numbers slot second :=
  List.filterMap_append

theorem numbers_cons (option : SelectOption) (rest : List SelectOption) :
    numbers slot (option :: rest) = (given slot option).toList ++ numbers slot rest := by
  rw [numbers, List.filterMap_cons]
  cases given slot option with
  | none => rfl
  | some number => rfl

theorem getLast?_cons (option : SelectOption) (rest : List SelectOption) :
    (numbers slot (option :: rest)).getLast? = (numbers slot rest).getLast?.or (given slot option) := by
  rw [numbers_cons, List.getLast?_append]
  cases given slot option with
  | none => rfl
  | some number => rfl

theorem numbers_ne_nil_iff : numbers slot options ≠ [] ↔ Sets slot options := by
  constructor
  · intro nonempty
    obtain ⟨number, found⟩ := List.exists_mem_of_ne_nil _ nonempty
    obtain ⟨option, member, gives⟩ := List.mem_filterMap.mp found
    exact ⟨number, given_eq_some_iff.mp gives ▸ member⟩
  · rintro ⟨number, member⟩
    exact List.ne_nil_of_mem (List.mem_filterMap.mpr ⟨_, member, given_eq_some_iff.mpr rfl⟩)

theorem exists_getLast?_iff : (∃ kept, (numbers slot options).getLast? = some kept) ↔ Sets slot options := by
  rw [← Option.isSome_iff_exists, List.getLast?_isSome, numbers_ne_nil_iff]

instance (slot : Slot) (options : List SelectOption) : Decidable (Sets slot options) :=
  decidable_of_iff _ numbers_ne_nil_iff

/-- The report on an option in front of others of which the last numbers are known. -/
def overriding (later : Slot → Option UInt32) : SelectOption → Option Event
  | .limitTo dropped => (later .limit).map (.optionOverridden .limit · dropped)
  | .offsetBy dropped => (later .offset).map (.optionOverridden .offset · dropped)
  | .orderBy _ => none

theorem overriding_eq_some_iff {later : Slot → Option UInt32} {event : Event} :
    overriding later option = some event ↔
      ∃ slot kept dropped, option = slot.option dropped ∧ later slot = some kept ∧ .optionOverridden slot kept dropped = event := by
  constructor
  · intro found
    cases option with
    | limitTo dropped =>
      obtain ⟨kept, held, same⟩ := Option.map_eq_some_iff.mp found
      exact ⟨.limit, kept, dropped, rfl, held, same⟩
    | offsetBy dropped =>
      obtain ⟨kept, held, same⟩ := Option.map_eq_some_iff.mp found
      exact ⟨.offset, kept, dropped, rfl, held, same⟩
    | orderBy clause => cases found
  · rintro ⟨slot, kept, dropped, rfl, held, rfl⟩
    cases slot with
    | limit => exact Option.map_eq_some_iff.mpr ⟨kept, held, rfl⟩
    | offset => exact Option.map_eq_some_iff.mpr ⟨kept, held, rfl⟩

theorem overriding_eq_none_iff {later : Slot → Option UInt32} :
    overriding later option = none ↔ ∀ slot, given slot option = none ∨ later slot = none := by
  constructor
  · intro silent slot
    cases gives : given slot option with
    | none => exact .inl rfl
    | some dropped =>
      cases held : later slot with
      | none => exact .inr rfl
      | some kept =>
        rw [overriding_eq_some_iff.mpr ⟨slot, kept, dropped, given_eq_some_iff.mp gives, held, rfl⟩] at silent
        cases silent
  · intro free
    rw [Option.eq_none_iff_forall_ne_some]
    intro event found
    obtain ⟨slot, kept, dropped, rfl, held, rfl⟩ := overriding_eq_some_iff.mp found
    rcases free slot with unset | empty
    · rw [given_eq_some_iff.mpr rfl] at unset
      cases unset
    · rw [held] at empty
      cases empty

theorem meet_events (scan : Scan) : (Scan.meet option scan).events = scan.events ++
    (overriding (fun | .limit => scan.limit | .offset => scan.offset) option).toList := by
  cases option with
  | limitTo dropped | offsetBy dropped =>
    simp only [Scan.meet, overriding]
    split
    next free =>
      rw [free]
      exact (List.append_nil _).symm
    next kept held =>
      rw [held]
      rfl
  | orderBy clause => exact (List.append_nil _).symm

theorem events_cons (option : SelectOption) (rest : List SelectOption) : (ofOptions (option :: rest)).2 =
    (ofOptions rest).2 ++ (overriding (fun slot => (numbers slot rest).getLast?) option).toList := by
  have held : (fun slot => (numbers slot rest).getLast?) = fun
      | .limit => (rest.foldr Scan.meet .start).limit
      | .offset => (rest.foldr Scan.meet .start).offset := by
    funext slot
    cases slot with
    | limit => exact (scan_limit rest).symm
    | offset => exact (scan_offset rest).symm
  rw [held]
  exact meet_events _

theorem number_cons (option : SelectOption) {rest : List SelectOption} {kept : UInt32}
    (held : (numbers slot rest).getLast? = some kept) : (ofOptions (option :: rest)).1.number slot = kept := by
  rw [number_ofOptions, getLast?_cons, held, Option.some_or, Option.getD_some]

theorem reported_cons_zero_iff {rest : List SelectOption} {event : Event} :
    Reported (option :: rest) 0 event ↔ overriding (fun slot => (numbers slot rest).getLast?) option = some event := by
  rw [overriding_eq_some_iff]
  constructor
  · intro reported
    cases reported with
    | @overridden later slot dropped other own behind again =>
      obtain ⟨place, rfl⟩ := Nat.exists_eq_add_one_of_ne_zero (Nat.ne_zero_of_lt behind)
      rw [List.getElem?_cons_succ] at again
      obtain ⟨kept, held⟩ := exists_getLast?_iff.mpr ⟨other, List.mem_of_getElem? again⟩
      exact ⟨slot, kept, dropped, Option.some.inj own, held, by rw [number_cons option held]⟩
  · rintro ⟨slot, kept, dropped, rfl, held, rfl⟩
    obtain ⟨other, member⟩ := exists_getLast?_iff.mp ⟨kept, held⟩
    obtain ⟨place, again⟩ := List.mem_iff_getElem?.mp member
    rw [← number_cons (slot.option dropped) held]
    exact .overridden rfl (Nat.zero_lt_succ place) again

theorem reported_cons_succ_iff {rest : List SelectOption} {place : Nat} {event : Event} :
    Reported (option :: rest) (place + 1) event ↔ Reported rest place event := by
  have level {slot : Slot} {later : Nat} {other : UInt32} (again : rest[later]? = some (slot.option other)) :
      (ofOptions (option :: rest)).1.number slot = (ofOptions rest).1.number slot := by
    obtain ⟨kept, held⟩ := exists_getLast?_iff.mpr ⟨other, List.mem_of_getElem? again⟩
    rw [number_cons option held, number_ofOptions, held, Option.getD_some]
  constructor
  · intro reported
    cases reported with
    | @overridden later slot dropped other own behind again =>
      obtain ⟨next, rfl⟩ := Nat.exists_eq_add_one_of_ne_zero (Nat.ne_zero_of_lt behind)
      rw [level again]
      exact .overridden own (Nat.lt_of_succ_lt_succ behind) again
  · intro reported
    cases reported with
    | overridden own behind again =>
      rw [← level again]
      exact .overridden own (Nat.succ_lt_succ behind) again

theorem ofOptions_reports (options : List SelectOption) : Reports options (ofOptions options).2 := by
  induction options with
  | nil =>
    refine ⟨[], .nil, fun place => ?_, .nil⟩
    refine iff_of_false List.not_mem_nil fun ⟨event, reported⟩ => ?_
    cases reported with
    | overridden own => cases own
  | cons option rest ih =>
    obtain ⟨places, sorted, all, each⟩ := ih
    have shifted : List.Forall₂ (Reported (option :: rest)) (places.map (· + 1)) (ofOptions rest).2 := by
      rw [List.forall₂_map_left_iff]
      exact each.imp fun place event reported => reported_cons_succ_iff.mpr reported
    have moved : (places.map (· + 1)).Pairwise (· > ·) :=
      List.pairwise_map.mpr (sorted.imp fun behind => Nat.succ_lt_succ behind)
    have behind (place : Nat) : place + 1 ∈ places.map (· + 1) ↔ ∃ event, Reported (option :: rest) (place + 1) event := by
      simp only [List.mem_map, Nat.add_right_cancel_iff, exists_eq_right, all, reported_cons_succ_iff]
    rw [events_cons]
    cases first : overriding (fun slot => (numbers slot rest).getLast?) option with
    | none =>
      rw [Option.toList_none, List.append_nil]
      refine ⟨_, moved, fun place => ?_, shifted⟩
      cases place with
      | zero => simp [reported_cons_zero_iff, first]
      | succ place => exact behind place
    | some event =>
      refine ⟨places.map (· + 1) ++ [0], ?_, fun place => ?_, List.rel_append shifted (.cons (reported_cons_zero_iff.mpr first) .nil)⟩
      · exact List.pairwise_append.mpr ⟨moved, List.pairwise_singleton _ _, by simp⟩
      · cases place with
        | zero => simp [reported_cons_zero_iff, first]
        | succ place =>
          rw [← behind]
          simp

/-- Every slot has the number of the plan and no other, or none if that is 0. -/
structure Spells (plan : SelectPlan) (options : List SelectOption) : Prop where
  number : ∀ slot, numbers slot options = [plan.number slot] ∨ (numbers slot options = [] ∧ plan.number slot = 0)
  clauses : options.filter SelectOption.isOrder = plan.remaining

theorem plan_ext {first second : SelectPlan} (number : ∀ slot, first.number slot = second.number slot)
    (remaining : first.remaining = second.remaining) : first = second := by
  have order : first.order = second.order := List.map_injective_iff.mpr (fun _ _ => SelectOption.orderBy.inj) remaining
  have limit : first.limit = second.limit := number .limit
  have offset : first.offset = second.offset := number .offset
  cases first
  cases second
  simp_all

theorem remaining_ofOptions (options : List SelectOption) :
    (ofOptions options).1.remaining = options.filter SelectOption.isOrder := by
  rw [ofOptions_plan]
  change (clauses options).map SelectOption.orderBy = _
  rw [clauses, List.map_filterMap, ← List.filterMap_eq_filter]
  refine congrArg (options.filterMap ·) (funext fun option => ?_)
  cases option with
  | limitTo | offsetBy | orderBy => rfl

theorem events_eq_nil_iff : (ofOptions options).2 = [] ↔ ∀ slot, (numbers slot options).length ≤ 1 := by
  induction options with
  | nil => exact iff_of_true rfl fun _ => Nat.zero_le 1
  | cons option rest ih =>
    rw [events_cons, List.append_eq_nil_iff, Option.toList_eq_nil_iff, overriding_eq_none_iff, ih, ← forall_and]
    refine forall_congr' fun slot => ?_
    rw [numbers_cons, List.length_append, List.getLast?_eq_none_iff]
    cases given slot option with
    | none => simp
    | some number =>
      simp only [Option.toList_some, List.length_singleton, reduceCtorEq, false_or, ← List.length_eq_zero_iff]
      omega

theorem ofOptions_eq_iff {plan : SelectPlan} : ofOptions options = (plan, []) ↔ Spells plan options := by
  constructor
  · intro folded
    have single := events_eq_nil_iff.mp (congrArg Prod.snd folded)
    obtain rfl : (ofOptions options).1 = plan := congrArg Prod.fst folded
    constructor
    case number =>
      intro slot
      rw [number_ofOptions]
      have few := single slot
      cases found : numbers slot options with
      | nil => exact .inr ⟨rfl, rfl⟩
      | cons number others =>
        rw [found, List.length_cons] at few
        obtain rfl : others = [] := List.eq_nil_of_length_eq_zero (by omega)
        exact .inl rfl
    case clauses => exact (remaining_ofOptions options).symm
  · intro spells
    refine Prod.ext (plan_ext (fun slot => ?_) ?_) ?_
    · rw [number_ofOptions]
      rcases spells.number slot with only | ⟨none, zero⟩
      · rw [only]
        rfl
      · rw [none, zero]
        rfl
    · rw [remaining_ofOptions, spells.clauses]
    · refine events_eq_nil_iff.mpr fun slot => ?_
      rcases spells.number slot with only | ⟨none, -⟩
      · rw [only]
        exact Nat.le_refl 1
      · rw [none]
        exact Nat.zero_le 1

theorem written_spells (plan : SelectPlan) : Spells plan plan.written := by
  have silent (slot : Slot) : numbers slot plan.remaining = [] := by
    rw [numbers, SelectPlan.remaining, List.filterMap_map, List.filterMap_eq_nil_iff]
    intro clause _
    cases slot with
    | limit => rfl
    | offset => rfl
  constructor
  case number =>
    intro slot
    rw [SelectPlan.written, numbers_append, numbers_append, silent, List.append_nil]
    cases slot with
    | limit | offset =>
      split <;> split <;> simp_all [numbers, given, givenLimit, givenOffset, number]
  case clauses =>
    rw [SelectPlan.written, List.filter_append, List.filter_append]
    split <;> split <;> simp [SelectPlan.remaining, SelectOption.isOrder]

/-- What a list of options folds into, and what is reported. -/
structure Folds (options : List SelectOption) : Prop where
  limit : (ofOptions options).1.limit = lastLimit options
  offset : (ofOptions options).1.offset = lastOffset options
  remaining : (ofOptions options).1.remaining = options.filter SelectOption.isOrder
  reports : Reports options (ofOptions options).2

structure Joins (first second : List SelectOption) : Prop where
  number : ∀ slot, (ofOptions (first ++ second)).1.number slot =
    if Sets slot second then (ofOptions second).1.number slot else (ofOptions first).1.number slot
  remaining : (ofOptions (first ++ second)).1.remaining = (ofOptions first).1.remaining ++ (ofOptions second).1.remaining

/-- The last number of a slot counts and all others are reported, in a list of any length; and what
a plan comes down to folds into that plan again, without a report. -/
theorem options_fold : (∀ options, Folds options) ∧ (∀ first second, Joins first second) ∧
    ∀ plan, ofOptions plan.written = (plan, []) ∧ ∀ options, ofOptions options = (plan, []) ↔ Spells plan options := by
  refine ⟨fun options => ?_, fun first second => ?_, fun plan => ⟨?_, fun options => ofOptions_eq_iff⟩⟩
  · constructor
    case limit => rw [ofOptions_plan]
    case offset => rw [ofOptions_plan]
    case remaining => exact remaining_ofOptions options
    case reports => exact ofOptions_reports options
  · constructor
    case number =>
      intro slot
      rw [number_ofOptions, number_ofOptions, number_ofOptions, numbers_append, List.getLast?_append]
      split
      next sets =>
        obtain ⟨kept, held⟩ := exists_getLast?_iff.mpr sets
        rw [held, Option.some_or]
      next unset =>
        rw [not_not.mp fun nonempty => unset (numbers_ne_nil_iff.mp nonempty), List.getLast?_nil, Option.none_or]
    case remaining => rw [remaining_ofOptions, remaining_ofOptions, remaining_ofOptions, List.filter_append]
  · exact ofOptions_eq_iff.mpr (written_spells plan)

/-- A limit of 0 overrides like any other, though it keeps everything. -/
example : ofOptions [.limitTo 5, .limitTo 0] = (⟨0, 0, []⟩, [.optionOverridden .limit 0 5]) := by decide

end Proofs.OptionReports

end RowAlgebra
