import RowAlgebra.Proofs.FieldIndependence
import RowAlgebra.Proofs.ReadContents
import RowAlgebra.Proofs.SignedArithmetic

/-! Every float in a value is finite and is not the negative zero, whichever way it came in. The
doubles that bit patterns, texts, foreign data and arithmetic offer may well be one of those; what
is stored is the canonical number of the double, and a double without one is refused. -/

namespace RowAlgebra

namespace Value

def ownFloat? : Value → Option Float64
  | float number => some number
  | _ => none

def floats (value : Value) : List Float64 := value.leaves.filterMap ownFloat?

def itemsFloats (items : List Value) : List Float64 := (itemsLeaves items).filterMap ownFloat?

def entriesFloats (entries : List (String × Value)) : List Float64 := (entriesLeaves entries).filterMap ownFloat?

theorem itemsFloats_cons (item : Value) (rest : List Value) : itemsFloats (item :: rest) = item.floats ++ itemsFloats rest :=
  List.filterMap_append

theorem entriesFloats_cons (key : String) (value : Value) (rest : List (String × Value)) :
    entriesFloats ((key, value) :: rest) = value.floats ++ entriesFloats rest :=
  List.filterMap_append

def Canonical (value : Value) : Prop := ∀ number ∈ value.floats, Float64.Canonical number.toBits

theorem canonical (value : Value) : value.Canonical := fun number _ => number.canonical_toBits

end Value

namespace Wire

/-- The double for an unsigned integer that the integers of a value cannot hold. -/
def Double.widened? (number : UInt64) : Option Double :=
  if number.toNat < 2 ^ 63 then none else some (nearest false (number.toNat * Float64.unitsPerOne) 1)

theorem Double.canonical?_widened? (number : UInt64) :
    (widened? number).map canonical? = (Value.ofUInt64 number).ownFloat?.map some := by
  unfold widened? Value.ofUInt64
  split
  next => rfl
  next =>
    have within := Float64.nearestRank_lt_rankLimit number.toNat_lt
    have rounded : Float64.ofRank? false (Float64.nearestRank (number.toNat * Float64.unitsPerOne) 1) =
        some (Float64.ofUInt64 number) := dif_pos within
    exact congrArg some ((canonical?_nearest ..).trans rounded)

namespace Node

mutual

/-- The doubles that a node offers, each as it is before it is stored. -/
def doubles : Node → List Double
  | double offered => [offered]
  | single offered => [offered.toSingle]
  | uint64 number => (Double.widened? number).toList
  | present inner => inner.doubles
  | sequence items => itemsDoubles items
  | map entries => entriesDoubles entries
  | _ => []

def itemsDoubles : List Node → List Double
  | [] => []
  | item :: rest => item.doubles ++ itemsDoubles rest

def entriesDoubles : List (Node × Node) → List Double
  | [] => []
  | (_, item) :: rest => item.doubles ++ entriesDoubles rest

end

theorem readDouble_floats {offered : Double} {value : Value} (done : readDouble offered = .ok value) :
    [offered].map Double.canonical? = value.floats.map some := by
  rw [Double.readDouble_eq] at done
  rw [List.map_singleton]
  cases found : offered.canonical? with
  | none =>
    rw [found] at done
    cases done
  | some number =>
    rw [found] at done
    cases done
    rfl

theorem widened_floats (number : UInt64) :
    (Double.widened? number).toList.map Double.canonical? = (Value.ofUInt64 number).floats.map some := by
  rw [← Option.toList_map, Double.canonical?_widened?, Option.toList_map]
  unfold Value.ofUInt64
  split
  all_goals rfl

theorem readItems_cons_ok {item : Node} {rest : List Node} {values : List Value}
    (done : readItems (item :: rest) = .ok values) :
    ∃ value others, item.read = .ok value ∧ readItems rest = .ok others ∧ values = value :: others := by
  rw [readItems] at done
  cases first : item.read with
  | error error =>
    rw [first] at done
    cases done
  | ok value =>
    rw [first] at done
    obtain ⟨others, later, rfl⟩ := map_ok_iff.mp done
    exact ⟨value, others, rfl, later, rfl⟩

theorem readEntries_cons_ok {key item : Node} {rest : List (Node × Node)} {entries : List (String × Value)}
    (done : readEntries ((key, item) :: rest) = .ok entries) :
    ∃ name value others, key.readKey = .ok name ∧ item.read = .ok value ∧ readEntries rest = .ok others ∧
      entries = (name, value) :: others := by
  rw [readEntries] at done
  cases named : key.readKey with
  | error error =>
    rw [named] at done
    cases done
  | ok name =>
    cases first : item.read with
    | error error =>
      rw [named, first] at done
      cases done
    | ok value =>
      rw [named, first] at done
      obtain ⟨others, later, rfl⟩ := map_ok_iff.mp done
      exact ⟨name, value, others, rfl, rfl, later, rfl⟩

mutual

theorem read_floats : (node : Node) → {value : Value} → node.read = .ok value →
    node.doubles.map Double.canonical? = value.floats.map some
  | null, _, done | absent, _, done | bool _, _, done | int64 _, _, done | text _, _, done | bytes _, _, done => by
    cases done
    rfl
  | int128 _, _, done | uint128 _, _, done | wrapped _, _, done => nomatch done
  | double _, _, done | single _, _, done => readDouble_floats done
  | uint64 number, value, done => by
    cases done
    exact widened_floats number
  | present inner, _, done => read_floats inner done
  | sequence items, value, done => by
    rw [read] at done
    obtain ⟨values, found, rfl⟩ := map_ok_iff.mp done
    exact readItems_floats items found
  | map entries, value, done => by
    rw [read] at done
    obtain ⟨values, found, rfl⟩ := map_ok_iff.mp done
    exact readEntries_floats entries found

theorem readItems_floats : (items : List Node) → {values : List Value} → readItems items = .ok values →
    (itemsDoubles items).map Double.canonical? = (Value.itemsFloats values).map some
  | [], _, done => by
    cases done
    rfl
  | item :: rest, values, done => by
    obtain ⟨value, others, first, later, rfl⟩ := readItems_cons_ok done
    rw [itemsDoubles, Value.itemsFloats_cons, List.map_append, List.map_append, read_floats item first,
      readItems_floats rest later]

theorem readEntries_floats : (entries : List (Node × Node)) → {values : List (String × Value)} →
    readEntries entries = .ok values → (entriesDoubles entries).map Double.canonical? = (Value.entriesFloats values).map some
  | [], _, done => by
    cases done
    rfl
  | (key, item) :: rest, values, done => by
    obtain ⟨name, value, others, -, first, later, rfl⟩ := readEntries_cons_ok done
    rw [entriesDoubles, Value.entriesFloats_cons, List.map_append, List.map_append, read_floats item first,
      readEntries_floats rest later]

end

end Node

end Wire

namespace Json
open Wire (Double)

/-- The double that a scalar of a text offers, if it is no integer of 64 bits. -/
def Scalar.double? : Scalar → Option Double
  | number (.natural n) => Double.widened? n
  | number .minusZero => some .negativeZero
  | number (.float x) => some (.finite x)
  | _ => none

theorem Scalar.canonical?_double? (scalar : Scalar) :
    scalar.double?.map Double.canonical? = scalar.value.ownFloat?.map some := by
  cases scalar with
  | number number =>
    cases number with
    | natural n => exact Double.canonical?_widened? n
    | negative | minusZero | float => rfl
  | null | bool | text => rfl

def doubles (text : List Char) : List Double := (scalars text).filterMap Scalar.double?

theorem read_floats {text : List Char} {value : Value} (done : read text = .ok value) :
    (doubles text).map Double.canonical? = value.floats.map some := by
  rw [doubles, Value.floats, read_leaves done, List.filterMap_map, List.map_filterMap, List.map_filterMap]
  exact congrArg (List.filterMap · _) (funext Scalar.canonical?_double?)

end Json

def Row.HoldsFloat (row : Row) (number : Float64) : Prop :=
  ∃ name value, row.get? name = some value ∧ number ∈ value.floats

namespace Update
open Wire (Double)
open Proofs.UpdateInterpreter Proofs.FieldIndependence

/-- How an update brings a float into a row: with what it assigns, or as the canonical number
of what the machine computes. -/
inductive Brings (row : Row) (update : Update) (number : Float64) : Prop where
  | assigned (assigns : update.kind.operation? = none) (given : number ∈ update.operand.floats)
  | computed {operation : Operation} {stored : Value} {a b : Float64}
      (arithmetic : update.kind.operation? = some operation) (found : row.get? update.field = some stored)
      (left : stored.float? = some a) (right : update.operand.float? = some b)
      (result : (operation.double a b).canonical? = some number)

theorem onValues?_floats {operation : Operation} {stored operand value : Value} {number : Float64}
    (done : operation.onValues? stored operand = some (.ok value)) (member : number ∈ value.floats) :
    ∃ a b, stored.float? = some a ∧ operand.float? = some b ∧ (operation.double a b).canonical? = some number := by
  unfold Operation.onValues? at done
  split at done
  next a b =>
    obtain ⟨result, -, rfl⟩ := map_ok_iff.mp (Option.some.inj done)
    cases member
  next =>
    split at done
    next a b left right =>
      obtain ⟨result, computed, rfl⟩ := map_ok_iff.mp (Option.some.inj done)
      obtain rfl := List.mem_singleton.mp member
      exact ⟨a, b, left, right, canonical?_of_onFloats a b computed⟩
    next => cases done

theorem next_floats {row : Row} {update : Update} {stored value : Value} {number : Float64}
    (found : row.get? update.field = some stored) (done : update.next stored = .ok value)
    (member : number ∈ value.floats) : Brings row update number := by
  unfold next at done
  split at done
  next assigns =>
    cases done
    exact .assigned assigns member
  next operation arithmetic =>
    split at done
    next =>
      cases done
      cases member
    next =>
      split at done
      next computed =>
        cases done
        obtain ⟨a, b, left, right, result⟩ := onValues?_floats computed member
        exact .computed arithmetic found left right result
      next => cases done
      next => cases done

theorem performed_floats {row next : Row} {update : Update} {number : Float64} (done : performed row update = .ok next)
    (holds : next.HoldsFloat number) : row.HoldsFloat number ∨ Brings row update number := by
  obtain ⟨stored, result, found, computed, rfl⟩ := performed_ok done
  obtain ⟨name, value, present, member⟩ := holds
  rw [Row.get?_insert] at present
  split at present
  next =>
    cases present
    exact .inr (next_floats found computed member)
  next => exact .inl ⟨name, value, present, member⟩

theorem interpret_floats {updates : List Update} {row final : Row} {number : Float64}
    (done : interpret updates row = .ok final) (holds : final.HoldsFloat number) :
    row.HoldsFloat number ∨ ∃ before update after middle, updates = before ++ update :: after ∧
      interpret before row = .ok middle ∧ Brings middle update number := by
  induction updates generalizing row with
  | nil =>
    cases done
    exact .inl holds
  | cons first rest ih =>
    obtain ⟨next, stepped, done⟩ := interpret_cons_ok_iff.mp done
    rcases ih done with held | ⟨before, update, after, middle, rfl, reached, brings⟩
    · rcases performed_floats stepped held with held | brings
      · exact .inl held
      · exact .inr ⟨[], first, rest, row, rfl, rfl, brings⟩
    · exact .inr ⟨first :: before, update, after, middle, rfl, interpret_cons_ok_iff.mpr ⟨next, stepped, reached⟩, brings⟩

theorem applyAll_floats {frozen : List String} {updates : List Update} {row final : Row} {number : Float64}
    (done : applyAll frozen updates row = (.ok (), final)) (holds : final.HoldsFloat number) :
    row.HoldsFloat number ∨ ∃ before update after middle, updates = before ++ update :: after ∧
      applyAll frozen before row = (.ok (), middle) ∧ Brings middle update number := by
  obtain ⟨free, done⟩ := applyAll_ok_iff.mp done
  rcases interpret_floats done holds with held | ⟨before, update, after, middle, rfl, reached, brings⟩
  · exact .inl held
  · rw [List.map_append, List.forall_mem_append] at free
    exact .inr ⟨before, update, after, middle, rfl, applyAll_ok_iff.mpr ⟨free.1, reached⟩, brings⟩

end Update

namespace Proofs.CanonicalFloat
open Wire (Double Node)

/-- Every float at any depth of any value is finite and is not the negative zero. Bit patterns
that are not finite are refused, and every other one is kept but for the negative zero. What is
read from texts and foreign data are the canonical numbers of the doubles on offer. Arithmetic
gives the canonical number of what the machine computes, so updates that go through keep the floats
of the row, bring in those of their operands, or store such a number. Among canonical numbers,
equality, one place in the order, one exact value and one bit pattern are the same. -/
theorem floats_canonical :
    (∀ value : Value, value.Canonical) ∧
    (∀ bits : UInt64, (Double.ofBits bits).canonical? = Float64.ofBits? bits ∧
      (Float64.IsFinite bits → ∃ number, Float64.ofBits? bits = some number ∧
        Value.ofBits? bits = some (.float number) ∧
        number.toBits = if bits = Float64.negativeZero then 0 else bits) ∧
      (¬Float64.IsFinite bits → Float64.ofBits? bits = none ∧ Value.ofBits? bits = none)) ∧
    (∀ (text : String) (value : Value), Value.ofJson text = .ok value →
      value.Canonical ∧ (Json.doubles text.toList).map Double.canonical? = value.floats.map some) ∧
    (∀ (node : Node) (value : Value), node.read = .ok value →
      value.Canonical ∧ node.doubles.map Double.canonical? = value.floats.map some) ∧
    (∀ (operation : Update.Operation) (a b : Float64), operation.onFloats a b =
      if operation = .divide ∧ b = 0 then .error .divisionByZero
      else Update.fitFloat (operation.double a b).canonical?) ∧
    (∀ (frozen : List String) (updates : List Update) (row final : Row),
      Update.applyAll frozen updates row = (.ok (), final) →
      ∀ name value, final.get? name = some value → value.Canonical ∧ ∀ number ∈ value.floats,
        row.HoldsFloat number ∨ ∃ before update after middle, updates = before ++ update :: after ∧
          Update.applyAll frozen before row = (.ok (), middle) ∧ update.Brings middle number) ∧
    ∀ x y : Float64, ((x == y) = true ↔ x.toBits = y.toBits) ∧ (compare x y = .eq ↔ x.toBits = y.toBits) ∧
      (x.units = y.units ↔ x.toBits = y.toBits) := by
  refine ⟨Value.canonical, fun bits => ⟨Double.canonical?_ofBits bits, ?_, ?_⟩, ?_, ?_,
    fun operation a b => Update.onFloats_eq a b operation, ?_, ?_⟩
  · intro isFinite
    cases found : Float64.ofBits? bits with
    | none => exact absurd isFinite ((Float64.ofBits?_eq_none_iff bits).mp found)
    | some number => exact ⟨number, rfl, by rw [Value.ofBits?, found, Option.map_some], Float64.toBits_of_ofBits? found⟩
  · intro notFinite
    have refused := (Float64.ofBits?_eq_none_iff bits).mpr notFinite
    exact ⟨refused, by rw [Value.ofBits?, refused, Option.map_none]⟩
  · intro text value done
    exact ⟨value.canonical, Json.read_floats (Json.ofJson_ok_iff.mp done)⟩
  · intro node value done
    exact ⟨value.canonical, node.read_floats done⟩
  · intro frozen updates row final done name value found
    exact ⟨value.canonical, fun number member => Update.applyAll_floats done ⟨name, value, found, member⟩⟩
  · intro x y
    rw [beq_iff_eq, Float64.compare_eq_iff, Float64.units_inj, Float64.toBits_inj]
    exact ⟨Iff.rfl, Iff.rfl, Iff.rfl⟩

/-- A negative zero as a pattern, in a text beside an integer of 64 bits, in foreign data, and as
a product that vanishes; and the pattern of an infinity. -/
theorem negative_zeros_lose_their_sign :
    let large : Float64 := .ofUInt64 18446744073709551615
    let quarter := Float64.signed true (1021 * 2 ^ 52) (by decide)
    let text := "[-0.0,18446744073709551615]"
    let node : Node := .map [(.text "rate", .sequence [.single .negativeZero, .uint64 18446744073709551615])]
    let row : Row := ⟨[("rate", .float ⟨1, by decide⟩)], by decide⟩
    let updates : List Update := [⟨"rate", .multiply, .float quarter⟩]
    (Float64.IsFinite Float64.negativeZero ∧ ∃ number, Float64.ofBits? Float64.negativeZero = some number ∧ number.toBits = 0) ∧
    (¬Float64.IsFinite 0x7FF0000000000000 ∧ Value.ofBits? 0x7FF0000000000000 = none) ∧
    (Value.ofJson text = .ok (.list [.float 0, .float large]) ∧
      (Json.doubles text.toList).map Double.canonical? = [some 0, some large]) ∧
    (node.read = .ok (.map [("rate", .list [.float 0, .float large])]) ∧
      node.doubles.map Double.canonical? = [some 0, some large]) ∧
    (Update.applyAll [] updates row = (.ok (), ⟨[("rate", .float 0)], by decide⟩) ∧
      (row.HoldsFloat 0 ∨ ∃ before update after middle, updates = before ++ update :: after ∧
        Update.applyAll [] before row = (.ok (), middle) ∧ update.Brings middle 0)) := by
  intro large quarter text node row updates
  obtain ⟨-, patterns, texts, nodes, -, runs, -⟩ := floats_canonical
  have isFinite : Float64.IsFinite Float64.negativeZero := by decide
  have notFinite : ¬Float64.IsFinite 0x7FF0000000000000 := by decide
  have parsed : Value.ofJson text = .ok (.list [.float 0, .float large]) := by decide +kernel
  have read : node.read = .ok (.map [("rate", .list [.float 0, .float large])]) := by rfl
  have applied : Update.applyAll [] updates row = (.ok (), ⟨[("rate", .float 0)], by decide⟩) := by decide +kernel
  obtain ⟨number, found, -, pattern⟩ := (patterns _).2.1 isFinite
  have stored := (runs [] updates row _ applied "rate" (.float 0) rfl).2 0 (List.mem_singleton.mpr rfl)
  exact ⟨⟨isFinite, number, found, pattern⟩, ⟨notFinite, ((patterns _).2.2 notFinite).2⟩,
    ⟨parsed, (texts text _ parsed).2⟩, ⟨read, (nodes node _ read).2⟩, applied, stored⟩

end Proofs.CanonicalFloat

end RowAlgebra
