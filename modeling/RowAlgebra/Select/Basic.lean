import RowAlgebra.Event

/-! Select options and the plan they fold into. Of several limits the last one counts, and
likewise of several offsets; each one that is overridden is reported. Order clauses all
stay, in the order given. -/

namespace RowAlgebra

inductive Direction where
  | asc
  | desc
deriving DecidableEq

instance : Inhabited Direction := ⟨.asc⟩

def Direction.name : Direction → String
  | asc => "Asc"
  | desc => "Desc"

structure OrderClause where
  field : String
  direction : Direction
deriving DecidableEq

inductive SelectOption where
  | limitTo (count : UInt32)
  | offsetBy (count : UInt32)
  | orderBy (clause : OrderClause)
deriving DecidableEq

namespace SelectOption

def isOrder : SelectOption → Bool
  | orderBy _ => true
  | limitTo _ | offsetBy _ => false

end SelectOption

/-- What select options come down to. A limit of 0 keeps everything. -/
structure SelectPlan where
  limit : UInt32
  offset : UInt32
  order : List OrderClause
deriving DecidableEq

namespace SelectPlan

def limit? (plan : SelectPlan) : Option UInt32 := if plan.limit = 0 then none else some plan.limit

def remaining (plan : SelectPlan) : List SelectOption := plan.order.map .orderBy

/-- A scan of the options from the last to the first. The first number it meets in a slot
is kept. -/
structure Scan where
  limit : Option UInt32
  offset : Option UInt32
  order : List OrderClause
  events : List Event

def Scan.start : Scan := ⟨none, none, [], []⟩

def Scan.meet (option : SelectOption) (scan : Scan) : Scan :=
  match option with
  | .limitTo count =>
    match scan.limit with
    | none => { scan with limit := some count }
    | some kept => { scan with events := scan.events ++ [.optionOverridden .limit kept count] }
  | .offsetBy count =>
    match scan.offset with
    | none => { scan with offset := some count }
    | some kept => { scan with events := scan.events ++ [.optionOverridden .offset kept count] }
  | .orderBy clause => { scan with order := clause :: scan.order }

def Scan.plan (scan : Scan) : SelectPlan := ⟨scan.limit.getD 0, scan.offset.getD 0, scan.order⟩

/-- Folds options into a plan, with the reports on what was overridden, last option first. -/
def ofOptions (options : List SelectOption) : SelectPlan × List Event :=
  let scan := options.foldr Scan.meet Scan.start
  (scan.plan, scan.events)

end SelectPlan

end RowAlgebra
