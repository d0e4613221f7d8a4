import RowAlgebra.Proofs.NearestDouble
import RowAlgebra.Proofs.SignedArithmetic

/-! What one update makes of a value. Integers are computed exactly and fail where 64 bits do not hold
the result. With a float on either side both numbers are widened to doubles and the exact result of
these is rounded once, which fails where the rounding would be infinite. Division by zero is told from
overflow, and a null stays what it is whatever the operand. -/

namespace RowAlgebra.Float64

variable (x y : Float64)

theorem add?_isRounding : IsRounding .even (x.rational + y.rational) (x.add? y) := by
  have rounding := ofRatio?_isRounding (x.units + y.units) unitsPerOne_pos
  rwa [Int.cast_add, add_div, ← rational_units, ← rational_units] at rounding

theorem sub?_isRounding : IsRounding .even (x.rational - y.rational) (x.sub? y) := by
  have rounding := ofRatio?_isRounding (x.units - y.units) unitsPerOne_pos
  rwa [Int.cast_sub, sub_div, ← rational_units, ← rational_units] at rounding

theorem mul?_isRounding : IsRounding .even (x.rational * y.rational) (x.mul? y) := by
  have rounding := ofRatio?_isRounding (x.units * y.units) (Nat.mul_pos unitsPerOne_pos unitsPerOne_pos)
  rwa [Int.cast_mul, Nat.cast_mul, mul_div_mul_comm, ← rational_units, ← rational_units] at rounding

/-- The sign of the divisor goes to the dividend. -/
theorem div?_isRounding {y : Float64} (nonzero : y ≠ 0) : IsRounding .even (x.rational / y.rational) (x.div? y) := by
  have divisor : y.units ≠ 0 := fun nothing => nonzero (units_inj.mp nothing)
  have rounding := ofRatio?_isRounding (x.units * y.units.sign) (Int.natAbs_pos.mpr divisor)
  have unit : (unitsPerOne : ℚ) ≠ 0 := Nat.cast_ne_zero.mpr unitsPerOne_pos.ne'
  have exact : x.rational / y.rational = ((x.units * y.units.sign : Int) : ℚ) / y.units.natAbs := by
    have magnitude : (y.units.natAbs : ℚ) = y.units.sign * y.units := by
      rw [← Int.cast_mul, Int.sign_mul_self_eq_natAbs, Int.cast_natCast]
    have sign : (y.units.sign : ℚ) ≠ 0 := Int.cast_ne_zero.mpr (mt Int.sign_eq_zero_iff_zero.mp divisor)
    rw [rational_units, rational_units, div_div_div_cancel_right₀ unit, magnitude, Int.cast_mul, mul_comm,
      mul_div_mul_left _ _ sign]
  rw [div?, if_neg divisor, exact]
  exact rounding

end RowAlgebra.Float64

namespace RowAlgebra.Update
open Float64 (IsRounding Nearest add?_isRounding sub?_isRounding mul?_isRounding div?_isRounding)

/-- The exact result on integers, a quotient cut off toward zero. -/
def Operation.whole : Operation → Int → Int → Int
  | add, m, n => m + n
  | subtract, m, n => m - n
  | multiply, m, n => m * n
  | divide, m, n => m.tdiv n

def Operation.exact : Operation → ℚ → ℚ → ℚ
  | add, p, q => p + q
  | subtract, p, q => p - q
  | multiply, p, q => p * q
  | divide, p, q => p / q

/-- What comes of an operation that may be undefined, or have a result beyond all that can be held. -/
inductive Gives {α : Type} (undefined exceeding : Prop) (isResult : α → Prop) : Except Failure α → Prop where
  | divisionByZero (divides : undefined) : Gives undefined exceeding isResult (.error .divisionByZero)
  | overflow (defined : ¬undefined) (exceeds : exceeding) : Gives undefined exceeding isResult (.error .overflow)
  | result {a : α} (defined : ¬undefined) (held : isResult a) : Gives undefined exceeding isResult (.ok a)

def IntsGive (operation : Operation) (a b : Int64) : Except Failure Int64 → Prop :=
  Gives (operation = .divide ∧ b = 0)
    (operation.whole a.toInt b.toInt < -2 ^ 63 ∨ 2 ^ 63 ≤ operation.whole a.toInt b.toInt)
    (fun n => n.toInt = operation.whole a.toInt b.toInt)

def FloatsGive (operation : Operation) (a b : Float64) : Except Failure Float64 → Prop :=
  Gives (operation = .divide ∧ b = 0) (Float64.overflow ≤ |operation.exact a.rational b.rational|)
    (Nearest .even (operation.exact a.rational b.rational))

/-- A result is held, or there is none as it exceeds everything that is. -/
structure Fits {α : Type} (exceeding : Prop) (isResult : α → Prop) (fitted : Except Failure α) : Prop where
  ok_iff : ∀ a, fitted = .ok a ↔ isResult a
  error_iff : ∀ failure, fitted = .error failure ↔ failure = .overflow ∧ exceeding

section
variable {α : Type} {undefined exceeding : Prop} {isResult : α → Prop} {fitted result : Except Failure α}

theorem gives_of_undefined (divides : undefined) :
    .error .divisionByZero = result ↔ Gives undefined exceeding isResult result := by
  constructor
  · rintro rfl
    exact .divisionByZero divides
  · intro gives
    cases gives with
    | divisionByZero => rfl
    | overflow defined | result defined => exact absurd divides defined

theorem Fits.gives_iff (fits : Fits exceeding isResult fitted) (defined : ¬undefined) :
    fitted = result ↔ Gives undefined exceeding isResult result := by
  constructor
  · intro same
    cases result with
    | ok a => exact .result defined ((fits.ok_iff a).mp same)
    | error failure =>
      obtain ⟨rfl, exceeds⟩ := (fits.error_iff failure).mp same
      exact .overflow defined exceeds
  · intro gives
    cases gives with
    | divisionByZero divides => exact absurd divides defined
    | overflow _ exceeds => exact (fits.error_iff _).mpr ⟨rfl, exceeds⟩
    | result _ held => exact (fits.ok_iff _).mpr held

end

theorem fitInt_fits (m : Int) : Fits (m < -2 ^ 63 ∨ 2 ^ 63 ≤ m) (fun n => n.toInt = m) (fitInt m) := by
  have least : Int64.minValue.toInt = -2 ^ 63 := rfl
  have greatest : Int64.maxValue.toInt = 2 ^ 63 - 1 := rfl
  unfold fitInt
  split
  next within =>
    constructor
    case ok_iff =>
      intro n
      rw [Except.ok.injEq, ← Int64.toInt_inj, Int64.toInt_ofIntLE, eq_comm]
    case error_iff => exact fun failure => iff_of_false nofun fun outside => by omega
  next outside =>
    constructor
    case ok_iff =>
      intro n
      have low := n.le_toInt
      have high := n.toInt_lt
      exact iff_of_false nofun fun same => by omega
    case error_iff =>
      intro failure
      rw [Except.error.injEq, eq_comm, and_iff_left]
      omega

theorem onInts_whole {operation : Operation} {a b : Int64} (defined : ¬(operation = .divide ∧ b = 0)) :
    operation.onInts a b = fitInt (operation.whole a.toInt b.toInt) := by
  cases operation with
  | add | subtract | multiply => rfl
  | divide => exact if_neg fun zero => defined ⟨rfl, zero⟩

theorem onInts_iff {operation : Operation} {a b : Int64} {result : Except Failure Int64} :
    operation.onInts a b = result ↔ IntsGive operation a b result := by
  by_cases divides : operation = .divide ∧ b = 0
  · rw [divides.1, Operation.onInts, if_pos divides.2]
    exact gives_of_undefined ⟨rfl, divides.2⟩
  · rw [onInts_whole divides]
    exact (fitInt_fits _).gives_iff divides

theorem fitFloat_fits {q : ℚ} {answer : Option Float64} (rounding : IsRounding .even q answer) :
    Fits (Float64.overflow ≤ |q|) (Nearest .even q) (fitFloat answer) := by
  constructor
  case ok_iff =>
    intro x
    rw [← rounding.some_iff]
    cases answer with
    | none => exact iff_of_false nofun nofun
    | some y => rw [fitFloat, Except.ok.injEq, Option.some.injEq]
  case error_iff =>
    intro failure
    rw [← rounding.none_iff]
    cases answer with
    | none => rw [fitFloat, Except.error.injEq, eq_comm, and_iff_left rfl]
    | some y => exact iff_of_false nofun fun both => nomatch both.2

theorem onFloats_exact {operation : Operation} {a b : Float64} (defined : ¬(operation = .divide ∧ b = 0)) :
    ∃ answer, operation.onFloats a b = fitFloat answer ∧
      IsRounding .even (operation.exact a.rational b.rational) answer := by
  cases operation with
  | add => exact ⟨_, rfl, add?_isRounding a b⟩
  | subtract => exact ⟨_, rfl, sub?_isRounding a b⟩
  | multiply => exact ⟨_, rfl, mul?_isRounding a b⟩
  | divide =>
    have nonzero : b ≠ 0 := fun zero => defined ⟨rfl, zero⟩
    exact ⟨_, if_neg nonzero, div?_isRounding a nonzero⟩

theorem onFloats_iff {operation : Operation} {a b : Float64} {result : Except Failure Float64} :
    operation.onFloats a b = result ↔ FloatsGive operation a b result := by
  by_cases divides : operation = .divide ∧ b = 0
  · rw [divides.1, Operation.onFloats, if_pos divides.2]
    exact gives_of_undefined ⟨rfl, divides.2⟩
  · obtain ⟨answer, same, rounding⟩ := onFloats_exact divides
    rw [same]
    exact (fitFloat_fits rounding).gives_iff divides

inductive Widened : Value → Float64 → Prop where
  | int {n : Int64} {x : Float64} (nearest : Nearest .even n.toInt x) : Widened (.int n) x
  | float (x : Float64) : Widened (.float x) x

/-- What an update makes of the value stored in its field. -/
inductive Steps (update : Update) : Value → Except EvalError Value → Prop where
  | assign {stored : Value} (assigns : update.kind = .assign) : Steps update stored (.ok update.operand)
  | null (arithmetic : update.kind.isArithmetic = true) : Steps update .null (.ok .null)
  | nonNumeric {stored : Value} (arithmetic : update.kind.isArithmetic = true) (held : stored ≠ .null)
      (other : stored.isNumeric = false ∨ update.operand.isNumeric = false) :
      Steps update stored (.error (.nonNumeric update.field update.kind stored.kind update.operand.kind))
  | ints {operation : Operation} {a b : Int64} {result : Except Failure Int64}
      (arithmetic : update.kind.operation? = some operation) (operand : update.operand = .int b)
      (gives : IntsGive operation a b result) :
      Steps update (.int a) ((result.map Value.int).mapError (Failure.onField update.field))
  | floats {operation : Operation} {stored : Value} {a b : Float64} {result : Except Failure Float64}
      (arithmetic : update.kind.operation? = some operation)
      (mixed : stored.kind = .float64 ∨ update.operand.kind = .float64) (first : Widened stored a)
      (second : Widened update.operand b) (gives : FloatsGive operation a b result) :
      Steps update stored ((result.map Value.float).mapError (Failure.onField update.field))

theorem widened_iff {value : Value} {x : Float64} : Widened value x ↔ value.float? = some x := by
  constructor
  · intro widened
    cases widened with
    | @int n x nearest => exact congrArg some ((Float64.ofInt64_nearest n).unique nearest)
    | float => rfl
  · intro found
    cases value with
    | int n =>
      cases found
      exact .int (Float64.ofInt64_nearest n)
    | float y =>
      cases found
      exact .float x
    | null | bool | text | blob | list | map => cases found

theorem isArithmetic_iff {kind : Update.Kind} : kind.isArithmetic = true ↔ ∃ operation, kind.operation? = some operation := by
  cases kind with
  | assign => exact iff_of_false nofun fun ⟨_, found⟩ => nomatch found
  | add | subtract | multiply | divide => exact iff_of_true rfl ⟨_, rfl⟩

theorem operands_cases (stored operand : Value) :
    (stored.isNumeric = false ∨ operand.isNumeric = false) ∨ (∃ a b, stored = .int a ∧ operand = .int b) ∨
      ((stored.kind = .float64 ∨ operand.kind = .float64) ∧ ∃ a b, stored.float? = some a ∧ operand.float? = some b) := by
  cases stored with
  | null | bool | text | blob | list | map => exact .inl (.inl rfl)
  | int a =>
    cases operand with
    | null | bool | text | blob | list | map => exact .inl (.inr rfl)
    | int b => exact .inr (.inl ⟨a, b, rfl, rfl⟩)
    | float b => exact .inr (.inr ⟨.inr rfl, _, b, rfl, rfl⟩)
  | float a =>
    cases operand with
    | null | bool | text | blob | list | map => exact .inl (.inr rfl)
    | int b => exact .inr (.inr ⟨.inl rfl, a, _, rfl, rfl⟩)
    | float b => exact .inr (.inr ⟨.inl rfl, a, b, rfl, rfl⟩)

theorem onValues?_mixed (operation : Operation) {stored operand : Value} {a b : Float64}
    (mixed : stored.kind = .float64 ∨ operand.kind = .float64) (first : stored.float? = some a)
    (second : operand.float? = some b) : operation.onValues? stored operand = some ((operation.onFloats a b).map Value.float) := by
  unfold Operation.onValues?
  split
  next => rcases mixed with kind | kind <;> cases kind
  next => rw [first, second]

theorem onValues?_other (operation : Operation) {stored operand : Value}
    (other : stored.isNumeric = false ∨ operand.isNumeric = false) : operation.onValues? stored operand = none := by
  have silent {value : Value} (nonNumeric : value.isNumeric = false) : value.float? = none := by
    cases value with
    | int | float => cases nonNumeric
    | null | bool | text | blob | list | map => rfl
  unfold Operation.onValues?
  split
  next => rcases other with numeric | numeric <;> cases numeric
  next =>
    rcases other with nonNumeric | nonNumeric
    · rw [silent nonNumeric]
    · rw [silent nonNumeric]
      cases stored.float? with
      | none => rfl
      | some a => rfl

section
variable {update : Update} {stored : Value} {operation : Operation}

theorem next_assign (assigns : update.kind = .assign) : update.next stored = .ok update.operand := by
  rw [next, assigns]
  rfl

theorem next_null (arithmetic : update.kind.isArithmetic = true) : update.next .null = .ok .null := by
  obtain ⟨operation, found⟩ := isArithmetic_iff.mp arithmetic
  rw [next, found]
  rfl

theorem next_nonNumeric (arithmetic : update.kind.isArithmetic = true) (held : stored ≠ .null)
    (other : stored.isNumeric = false ∨ update.operand.isNumeric = false) :
    update.next stored = .error (.nonNumeric update.field update.kind stored.kind update.operand.kind) := by
  obtain ⟨operation, found⟩ := isArithmetic_iff.mp arithmetic
  rw [next, found]
  dsimp only
  rw [onValues?_other operation other, if_neg (fun null => held (Value.isNull_iff.mp null))]

theorem next_computed {result : Except Failure Value} (arithmetic : update.kind.operation? = some operation)
    (held : stored ≠ .null) (computed : operation.onValues? stored update.operand = some result) :
    update.next stored = result.mapError (Failure.onField update.field) := by
  rw [next, arithmetic]
  dsimp only
  rw [computed, if_neg (fun null => held (Value.isNull_iff.mp null))]
  cases result with
  | ok value => rfl
  | error failure => rfl

theorem next_whole {a b : Int64} (arithmetic : update.kind.operation? = some operation) (operand : update.operand = .int b) :
    update.next (.int a) = ((operation.onInts a b).map Value.int).mapError (Failure.onField update.field) := by
  have held : Value.int a ≠ .null := nofun
  refine next_computed arithmetic held ?_
  rw [operand]
  rfl

theorem next_mixed {a b : Float64} (arithmetic : update.kind.operation? = some operation)
    (mixed : stored.kind = .float64 ∨ update.operand.kind = .float64) (first : stored.float? = some a)
    (second : update.operand.float? = some b) :
    update.next stored = ((operation.onFloats a b).map Value.float).mapError (Failure.onField update.field) := by
  refine next_computed arithmetic ?_ (onValues?_mixed operation mixed first second)
  rintro rfl
  cases first

end

theorem next_steps (update : Update) (stored : Value) : Steps update stored (update.next stored) := by
  cases found : update.kind.operation? with
  | none =>
    have assigns : update.kind = .assign := by
      cases kind : update.kind with
      | assign => rfl
      | add | subtract | multiply | divide =>
        rw [kind] at found
        cases found
    rw [next_assign assigns]
    exact .assign assigns
  | some operation =>
    have arithmetic := isArithmetic_iff.mpr ⟨operation, found⟩
    by_cases held : stored = .null
    · rw [held, next_null arithmetic]
      exact .null arithmetic
    · rcases operands_cases stored update.operand with other | ⟨a, b, rfl, operand⟩ | ⟨mixed, a, b, first, second⟩
      · rw [next_nonNumeric arithmetic held other]
        exact .nonNumeric arithmetic held other
      · rw [next_whole found operand]
        exact .ints found operand (onInts_iff.mp rfl)
      · rw [next_mixed found mixed first second]
        exact .floats found mixed (widened_iff.mpr first) (widened_iff.mpr second) (onFloats_iff.mp rfl)

theorem Steps.next_eq {update : Update} {stored : Value} {result : Except EvalError Value} (steps : Steps update stored result) :
    update.next stored = result := by
  cases steps with
  | assign assigns => exact next_assign assigns
  | null arithmetic => exact next_null arithmetic
  | nonNumeric arithmetic held other => exact next_nonNumeric arithmetic held other
  | ints found operand gives => rw [next_whole found operand, onInts_iff.mpr gives]
  | floats found mixed first second gives =>
    rw [next_mixed found mixed (widened_iff.mp first) (widened_iff.mp second), onFloats_iff.mpr gives]

theorem Steps.kind_iff {update : Update} {stored value : Value} (steps : Steps update stored (.ok value))
    (arithmetic : update.kind.isArithmetic = true) :
    value.kind = .int ↔ stored.kind = .int ∧ update.operand.kind = .int := by
  generalize done : Except.ok value = result at steps
  cases steps with
  | assign assigns =>
    rw [assigns] at arithmetic
    cases arithmetic
  | null =>
    cases done
    exact iff_of_false nofun fun both => nomatch both.1
  | nonNumeric => cases done
  | @ints _ a b result _ operand =>
    cases result with
    | ok n =>
      cases done
      exact iff_of_true rfl ⟨rfl, congrArg Value.kind operand⟩
    | error failure => cases done
  | @floats _ _ _ _ result _ mixed =>
    cases result with
    | ok x =>
      cases done
      refine iff_of_false nofun fun both => ?_
      rcases mixed with float | float
      · cases float.symm.trans both.1
      · cases float.symm.trans both.2
    | error failure => cases done

end RowAlgebra.Update

namespace RowAlgebra.Proofs.UpdateStep
open Update

/-- One update gives what is said of it and nothing else, and where its arithmetic succeeds there is
an integer exactly from two integers. -/
theorem update_steps (update : Update) (stored : Value) :
    (∀ result, update.next stored = result ↔ Steps update stored result) ∧
    (update.kind.isArithmetic = true → ∀ value, update.next stored = .ok value →
      (value.kind = .int ↔ stored.kind = .int ∧ update.operand.kind = .int)) := by
  constructor
  · intro result
    constructor
    · rintro rfl
      exact next_steps update stored
    · exact Steps.next_eq
  · intro arithmetic value done
    exact (done ▸ next_steps update stored).kind_iff arithmetic

/-- The least integer can be halved, but it has no opposite. -/
theorem halved_least :
    Update.next ⟨"n", .divide, .int 2⟩ (.int Int64.minValue) = .ok (.int (-4611686018427387904)) ∧
    Steps ⟨"n", .divide, .int (-1)⟩ (.int Int64.minValue) (.error (.overflow "n")) ∧
    (Value.int (-4611686018427387904)).kind = .int := by
  have done : Update.next ⟨"n", .divide, .int 2⟩ (.int Int64.minValue) = .ok (.int (-4611686018427387904)) := by
    decide +kernel
  refine ⟨done, ?_, ?_⟩
  · exact ((update_steps ⟨"n", .divide, .int (-1)⟩ (.int Int64.minValue)).1 _).mp (by decide +kernel)
  · exact ((update_steps ⟨"n", .divide, .int 2⟩ (.int Int64.minValue)).2 rfl _ done).mpr ⟨rfl, rfl⟩

end RowAlgebra.Proofs.UpdateStep
