import RowAlgebra.Select.Basic

/-! What select options come down to, read off the list itself: the last limit, the last
offset and all order clauses. The scan from the back keeps the first number that it meets
in a slot, which is the last one given; every other number is reported. -/

namespace RowAlgebra.Proofs.OptionFold
open SelectPlan

def givenLimit : SelectOption → Option UInt32
  | .limitTo count => some count
  | _ => none

def givenOffset : SelectOption → Option UInt32
  | .offsetBy count => some count
  | _ => none

def givenClause : SelectOption → Option OrderClause
  | .orderBy clause => some clause
  | _ => none

/-- The last limit given, 0 if there is none. -/
def lastLimit (options : List SelectOption) : UInt32 := (options.filterMap givenLimit).getLast?.getD 0

/-- The last offset given, 0 if there is none. -/
def lastOffset (options : List SelectOption) : UInt32 := (options.filterMap givenOffset).getLast?.getD 0

def clauses (options : List SelectOption) : List OrderClause := options.filterMap givenClause

variable (option : SelectOption) (scan : Scan)

theorem meet_limit : (Scan.meet option scan).limit = scan.limit.or (givenLimit option) := by
  cases option with
  | limitTo count =>
    simp only [Scan.meet, givenLimit]
    split
    next free => rw [free, Option.none_or]
    next kept held => rw [held, Option.some_or]
  | offsetBy count =>
    simp only [Scan.meet, givenLimit, Option.or_none]
    split
    all_goals rfl
  | orderBy clause => simp only [Scan.meet, givenLimit, Option.or_none]

theorem meet_offset : (Scan.meet option scan).offset = scan.offset.or (givenOffset option) := by
  cases option with
  | limitTo count =>
    simp only [Scan.meet, givenOffset, Option.or_none]
    split
    all_goals rfl
  | offsetBy count =>
    simp only [Scan.meet, givenOffset]
    split
    next free => rw [free, Option.none_or]
    next kept held => rw [held, Option.some_or]
  | orderBy clause => simp only [Scan.meet, givenOffset, Option.or_none]

theorem meet_order : (Scan.meet option scan).order = (givenClause option).toList ++ scan.order := by
  cases option with
  | limitTo count | offsetBy count =>
    simp only [Scan.meet]
    split
    all_goals rfl
  | orderBy clause => rfl

/-- A number met in a slot that is taken. -/
def Overrides (event : Event) : Prop := ∃ slot kept dropped, event = .optionOverridden slot kept dropped

theorem meet_overrides (only : ∀ event ∈ scan.events, Overrides event) :
    ∀ event ∈ (Scan.meet option scan).events, Overrides event := by
  have added (slot : Slot) (kept dropped : UInt32) :
      ∀ event ∈ scan.events ++ [.optionOverridden slot kept dropped], Overrides event := by
    intro event member
    rcases List.mem_append.mp member with before | last
    · exact only event before
    · exact ⟨slot, kept, dropped, List.mem_singleton.mp last⟩
  cases option with
  | limitTo count | offsetBy count =>
    simp only [Scan.meet]
    split
    · exact only
    · exact added _ _ _
  | orderBy clause => exact only

variable (options : List SelectOption)

private theorem getLast?_filterMap_cons (read : α → Option β) (item : α) (items : List α) :
    ((item :: items).filterMap read).getLast? = (items.filterMap read).getLast?.or (read item) := by
  cases found : read item with
  | none => rw [List.filterMap_cons_none found, Option.or_none]
  | some value =>
    rw [List.filterMap_cons_some found, List.getLast?_cons]
    cases (items.filterMap read).getLast?
    all_goals rfl

theorem scan_limit : (options.foldr Scan.meet .start).limit = (options.filterMap givenLimit).getLast? := by
  induction options with
  | nil => rfl
  | cons option options ih => rw [List.foldr_cons, meet_limit, ih, getLast?_filterMap_cons]

theorem scan_offset : (options.foldr Scan.meet .start).offset = (options.filterMap givenOffset).getLast? := by
  induction options with
  | nil => rfl
  | cons option options ih => rw [List.foldr_cons, meet_offset, ih, getLast?_filterMap_cons]

theorem scan_order : (options.foldr Scan.meet .start).order = clauses options := by
  induction options with
  | nil => rfl
  | cons option options ih =>
    rw [List.foldr_cons, meet_order, ih, clauses, clauses, List.filterMap_cons]
    cases givenClause option
    all_goals rfl

theorem ofOptions_plan : (ofOptions options).1 = ⟨lastLimit options, lastOffset options, clauses options⟩ := by
  simp only [ofOptions, Scan.plan, scan_limit, scan_offset, scan_order, lastLimit, lastOffset]

theorem ofOptions_overrides : ∀ event ∈ (ofOptions options).2, Overrides event := by
  change ∀ event ∈ (options.foldr Scan.meet .start).events, Overrides event
  induction options with
  | nil => simp [Scan.start]
  | cons option options ih => exact meet_overrides option _ ih

theorem lastLimit_orderBy (given : List OrderClause) : lastLimit (given.map .orderBy) = 0 := by
  have none_given : (given.map SelectOption.orderBy).filterMap givenLimit = [] := by simp [givenLimit]
  rw [lastLimit, none_given, List.getLast?_nil, Option.getD_none]

theorem lastOffset_orderBy (given : List OrderClause) : lastOffset (given.map .orderBy) = 0 := by
  have none_given : (given.map SelectOption.orderBy).filterMap givenOffset = [] := by simp [givenOffset]
  rw [lastOffset, none_given, List.getLast?_nil, Option.getD_none]

theorem clauses_orderBy (given : List OrderClause) : clauses (given.map .orderBy) = given := by
  induction given with
  | nil => rfl
  | cons clause given ih => exact congrArg (clause :: ·) ih

end RowAlgebra.Proofs.OptionFold
