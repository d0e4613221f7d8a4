import RowAlgebra.Proofs.CanonicalFloat
import RowAlgebra.Proofs.NearestDouble

/-! Reading foreign data. What is read of a tree are its values, each before what it holds, and the
keys of its maps, each before its value. The first of these places that offends settles the error.
Where none does, the tree stands for one value, with the order and the repetitions of its sequences
and maps, and every value has a tree that stands for it. -/

namespace RowAlgebra.Wire

theorem text?_eq_some_iff {bytes : List UInt8} {name : String} :
    text? bytes = some name ↔ bytes = name.toUTF8.data.toList := by
  unfold text? String.fromUTF8?
  constructor
  · intro decoded
    split at decoded
    · cases decoded
      rfl
    · cases decoded
  · rintro rfl
    rw [Array.toArray_toList]
    exact dif_pos name.isValidUTF8

theorem readDouble_ok_iff {number : Double} {value : Value} :
    readDouble number = .ok value ↔ ∃ finite, number.canonical? = some finite ∧ .float finite = value := by
  rw [Double.readDouble_eq]
  cases number.canonical? with
  | none => simp
  | some finite => simp

theorem readDouble_error_iff {number : Double} {error : Error} :
    readDouble number = .error error ↔ number.canonical? = none ∧ .nonFinite = error := by
  rw [Double.readDouble_eq]
  cases number.canonical? with
  | none => simp
  | some finite => simp

def refusal? {α : Type} : Except Error α → Option Error
  | .error error => some error
  | .ok _ => none

theorem refusal?_map {α β : Type} (f : α → β) (result : Except Error α) : refusal? (result.map f) = refusal? result := by
  cases result with
  | error error => rfl
  | ok a => rfl

theorem refusal?_eq_some_iff {α : Type} {result : Except Error α} {error : Error} :
    refusal? result = some error ↔ result = .error error := by
  cases result with
  | error other => simp [refusal?]
  | ok a => simp [refusal?]

theorem refusal?_eq_none_iff {α : Type} {result : Except Error α} :
    refusal? result = none ↔ ∃ a, result = .ok a := by
  cases result with
  | error error => simp [refusal?]
  | ok a => simp [refusal?]

namespace Node

inductive Names : Node → String → Prop where
  | text (name : String) : Names (text name) name
  | bytes (name : String) : Names (bytes name.toUTF8.data.toList) name

theorem readKey_ok_iff {key : Node} {name : String} : key.readKey = .ok name ↔ key.Names name := by
  constructor
  · intro done
    unfold readKey at done
    split at done
    · cases done
      exact .text name
    next content =>
      split at done
      next decoded found =>
        cases done
        rw [text?_eq_some_iff.mp found]
        exact .bytes name
      · cases done
    · cases done
  · intro names
    cases names with
    | text => rfl
    | bytes => rw [readKey, text?_eq_some_iff.mpr rfl]

end Node

inductive Position where
  | value (node : Node)
  | key (node : Node)

namespace Position

/-- What is refused at a place, and how. -/
inductive Offends : Position → Error → Prop where
  | int128 (number : Int) :
      Offends (value (.int128 number)) (.invalidType s!"integer `{number}` as i128" "a persisted value")
  | uint128 (number : Nat) :
      Offends (value (.uint128 number)) (.invalidType s!"integer `{number}` as u128" "a persisted value")
  | wrapped (inner : Node) : Offends (value (.wrapped inner)) (.invalidType "newtype struct" "a persisted value")
  | double {number : Double} (infinite : number.canonical? = none) : Offends (value (.double number)) .nonFinite
  | single {number : Double} (infinite : number.toSingle.canonical? = none) : Offends (value (.single number)) .nonFinite
  | bytes {content : List UInt8} (garbled : ∀ name : String, content ≠ name.toUTF8.data.toList) :
      Offends (key (.bytes content)) (.invalidValue "byte array" "a string")
  | key {node : Node} (noText : ∀ name, node ≠ .text name) (noBytes : ∀ content, node ≠ .bytes content) :
      Offends (key node) (.invalidType node.describe "a string")

/-- What is taken at a place: a value unless it is of a type that no value can hold, a key if it is a text. -/
def Accepted : Position → Prop
  | value (.int128 _) | value (.uint128 _) | value (.wrapped _) => False
  | value (.double number) => ∃ finite, number.canonical? = some finite
  | value (.single number) => ∃ finite, number.toSingle.canonical? = some finite
  | value _ => True
  | key node => ∃ name, node.Names name

/-- The error of a place by itself, whatever it holds. -/
def offence? : Position → Option Error
  | value (.present _) | value (.sequence _) | value (.map _) => none
  | value node => refusal? node.read
  | key node => refusal? node.readKey

theorem offence?_value_iff {node : Node} {error : Error} :
    (value node).offence? = some error ↔ (value node).Offends error := by
  constructor
  · intro refused
    cases node with
    | int128 number =>
      cases refused
      exact .int128 number
    | uint128 number =>
      cases refused
      exact .uint128 number
    | wrapped inner =>
      cases refused
      exact .wrapped inner
    | double number =>
      obtain ⟨infinite, rfl⟩ := readDouble_error_iff.mp (refusal?_eq_some_iff.mp refused)
      exact .double infinite
    | single number =>
      obtain ⟨infinite, rfl⟩ := readDouble_error_iff.mp (refusal?_eq_some_iff.mp refused)
      exact .single infinite
    | null | absent | bool | int64 | uint64 | text | bytes | present | sequence | map => cases refused
  · intro offends
    cases offends with
    | int128 | uint128 | wrapped => rfl
    | double infinite | single infinite =>
      exact refusal?_eq_some_iff.mpr (readDouble_error_iff.mpr ⟨infinite, rfl⟩)

theorem offence?_key_iff {node : Node} {error : Error} : (key node).offence? = some error ↔ (key node).Offends error := by
  change refusal? node.readKey = some error ↔ _
  rw [refusal?_eq_some_iff]
  constructor
  · intro refused
    unfold Node.readKey at refused
    split at refused
    · cases refused
    next content =>
      split at refused
      · cases refused
      next unnamed =>
        cases refused
        refine .bytes fun name same => ?_
        rw [text?_eq_some_iff.mpr same] at unnamed
        cases unnamed
    next noText noBytes =>
      cases refused
      exact .key noText noBytes
  · intro offends
    cases offends with
    | @bytes content garbled =>
      have unnamed : text? content = none := Option.eq_none_iff_forall_ne_some.mpr fun name found =>
        garbled name (text?_eq_some_iff.mp found)
      rw [Node.readKey, unnamed]
      rfl
    | key noText noBytes =>
      unfold Node.readKey
      split
      next name => exact absurd rfl (noText name)
      next content => exact absurd rfl (noBytes content)
      next => rfl

theorem offence?_iff {position : Position} {error : Error} : position.offence? = some error ↔ position.Offends error := by
  cases position with
  | value node => exact offence?_value_iff
  | key node => exact offence?_key_iff

theorem offence?_eq_none_iff {position : Position} : position.offence? = none ↔ position.Accepted := by
  have stored (number : Double) :
      refusal? (readDouble number) = none ↔ ∃ finite, number.canonical? = some finite := by
    simp only [refusal?_eq_none_iff, readDouble_ok_iff, exists_comm, exists_and_left, exists_eq', and_true]
  cases position with
  | value node =>
    cases node with
    | int128 | uint128 | wrapped => exact iff_of_false nofun id
    | double number => exact stored number
    | single number => exact stored number.toSingle
    | null | absent | bool | int64 | uint64 | text | bytes | present | sequence | map => exact iff_of_true rfl trivial
  | key node =>
    refine refusal?_eq_none_iff.trans ?_
    simp only [Node.readKey_ok_iff, Accepted]

end Position

namespace Node
open Position (offence? offence?_iff offence?_eq_none_iff)

mutual

/-- The places of a tree in the order in which they are read. -/
def positions : Node → List Position
  | present inner => .value (present inner) :: inner.positions
  | sequence items => .value (sequence items) :: itemsPositions items
  | map entries => .value (map entries) :: entriesPositions entries
  | node => [.value node]

def itemsPositions : List Node → List Position
  | [] => []
  | item :: rest => item.positions ++ itemsPositions rest

def entriesPositions : List (Node × Node) → List Position
  | [] => []
  | (key, item) :: rest => .key key :: (item.positions ++ entriesPositions rest)

end

mutual

theorem refusal?_read : (node : Node) → refusal? node.read = node.positions.findSome? offence?
  | null | absent | bool _ | int64 _ | uint64 _ | int128 _ | uint128 _ | double _ | single _ | text _ | bytes _
  | wrapped _ => List.findSome?_singleton.symm
  | present inner => refusal?_read inner
  | sequence items => by
    rw [read, refusal?_map, refusal?_readItems items]
    rfl
  | map entries => by
    rw [read, refusal?_map, refusal?_readEntries entries]
    rfl

theorem refusal?_readItems : (items : List Node) → refusal? (readItems items) = (itemsPositions items).findSome? offence?
  | [] => rfl
  | item :: rest => by
    rw [itemsPositions, List.findSome?_append, ← refusal?_read item, ← refusal?_readItems rest, readItems]
    cases item.read with
    | error error => rfl
    | ok value => exact refusal?_map _ _

theorem refusal?_readEntries : (entries : List (Node × Node)) →
    refusal? (readEntries entries) = (entriesPositions entries).findSome? offence?
  | [] => rfl
  | (key, item) :: rest => by
    rw [entriesPositions, List.findSome?_cons, List.findSome?_append, ← refusal?_read item, ← refusal?_readEntries rest,
      readEntries, offence?]
    cases key.readKey with
    | error error => rfl
    | ok name =>
      cases item.read with
      | error error => rfl
      | ok value => exact refusal?_map _ _

end

/-- The value that a tree stands for. -/
inductive Stands : Node → Value → Prop where
  | null : Stands null .null
  | absent : Stands absent .null
  | bool (flag : Bool) : Stands (bool flag) (.bool flag)
  | int64 (number : Int64) : Stands (int64 number) (.int number)
  | small {number : UInt64} {same : Int64} (equal : same.toInt = number.toNat) : Stands (uint64 number) (.int same)
  | large {number : UInt64} {x : Float64} (beyond : 2 ^ 63 ≤ number.toNat) (nearest : Float64.Nearest .even number.toNat x) :
      Stands (uint64 number) (.float x)
  | double {number : Double} {finite : Float64} (stored : number.canonical? = some finite) :
      Stands (double number) (.float finite)
  | single {number : Double} {finite : Float64} (stored : number.toSingle.canonical? = some finite) :
      Stands (single number) (.float finite)
  | text (content : String) : Stands (text content) (.text content)
  | bytes (content : List UInt8) : Stands (bytes content) (.blob content)
  | present {inner : Node} {value : Value} (stands : Stands inner value) : Stands (present inner) value
  | sequence {items : List Node} {values : List Value} (each : List.Forall₂ Stands items values) :
      Stands (sequence items) (.list values)
  | map {entries : List (Node × Node)} {values : List (String × Value)}
      (named : List.Forall₂ Names (entries.map Prod.fst) (values.map Prod.fst))
      (each : List.Forall₂ Stands (entries.map Prod.snd) (values.map Prod.snd)) : Stands (map entries) (.map values)

theorem ofUInt64_eq_iff {number : UInt64} {value : Value} : Value.ofUInt64 number = value ↔ (uint64 number).Stands value := by
  have spelled : number.toInt64 = Int64.ofInt number.toNat := by
    rw [Int64.ofInt_eq_ofNat, ← UInt64.toInt64_ofNat', UInt64.ofNat_toNat]
  unfold Value.ofUInt64
  rw [spelled]
  constructor
  · rintro rfl
    split
    next within => exact .small (Int64.toInt_ofInt_of_le (by omega) (by omega))
    next beyond => exact .large (Nat.le_of_not_lt beyond) (Float64.ofUInt64_nearest number)
  · intro stands
    cases stands with
    | @small _ same equal =>
      have bounded := same.toInt_lt
      rw [if_pos (by omega), ← equal, Int64.ofInt_toInt]
    | large beyond nearest =>
      rw [if_neg (Nat.not_lt.mpr beyond), nearest.unique (Float64.ofUInt64_nearest number)]

mutual

theorem read_ok_iff : (node : Node) → (value : Value) → (node.read = .ok value ↔ node.Stands value)
  | null, _ | absent, _ | bool _, _ | int64 _, _ | text _, _ | bytes _, _ => by
    constructor
    · intro done
      cases done
      constructor
    · intro stands
      cases stands
      rfl
  | int128 _, _ | uint128 _, _ | wrapped _, _ => ⟨nofun, nofun⟩
  | uint64 number, value => by
    rw [read, Except.ok.injEq]
    exact ofUInt64_eq_iff
  | double number, value => by
    rw [read, readDouble_ok_iff]
    constructor
    · rintro ⟨finite, stored, rfl⟩
      exact .double stored
    · intro stands
      cases stands with
      | double stored => exact ⟨_, stored, rfl⟩
  | single number, value => by
    rw [read, readDouble_ok_iff]
    constructor
    · rintro ⟨finite, stored, rfl⟩
      exact .single stored
    · intro stands
      cases stands with
      | single stored => exact ⟨_, stored, rfl⟩
  | present inner, value => by
    rw [read, read_ok_iff inner value]
    constructor
    · exact .present
    · intro stands
      cases stands with
      | present stands => exact stands
  | sequence items, value => by
    rw [read, map_ok_iff]
    constructor
    · rintro ⟨values, done, rfl⟩
      exact .sequence ((readItems_ok_iff items values).mp done)
    · intro stands
      cases stands with
      | sequence each => exact ⟨_, (readItems_ok_iff items _).mpr each, rfl⟩
  | map entries, value => by
    rw [read, map_ok_iff]
    constructor
    · rintro ⟨values, done, rfl⟩
      obtain ⟨named, each⟩ := (readEntries_ok_iff entries values).mp done
      exact .map named each
    · intro stands
      cases stands with
      | map named each => exact ⟨_, (readEntries_ok_iff entries _).mpr ⟨named, each⟩, rfl⟩

theorem readItems_ok_iff : (items : List Node) → (values : List Value) →
    (readItems items = .ok values ↔ List.Forall₂ Stands items values)
  | [], values => by
    constructor
    · intro done
      cases done
      exact .nil
    · intro each
      cases each
      rfl
  | item :: rest, values => by
    constructor
    · intro done
      obtain ⟨value, others, first, later, rfl⟩ := readItems_cons_ok done
      exact .cons ((read_ok_iff item value).mp first) ((readItems_ok_iff rest others).mp later)
    · intro each
      cases each with
      | cons first later =>
        rw [readItems, (read_ok_iff item _).mpr first, (readItems_ok_iff rest _).mpr later]
        rfl

theorem readEntries_ok_iff : (entries : List (Node × Node)) → (values : List (String × Value)) →
    (readEntries entries = .ok values ↔
      List.Forall₂ Names (entries.map Prod.fst) (values.map Prod.fst) ∧
      List.Forall₂ Stands (entries.map Prod.snd) (values.map Prod.snd))
  | [], [] => ⟨fun _ => ⟨.nil, .nil⟩, fun _ => rfl⟩
  | [], _ :: _ => ⟨nofun, nofun⟩
  | (key, item) :: rest, values => by
    constructor
    · intro done
      obtain ⟨name, value, others, called, first, later, rfl⟩ := readEntries_cons_ok done
      obtain ⟨named, each⟩ := (readEntries_ok_iff rest others).mp later
      exact ⟨.cons (readKey_ok_iff.mp called) named, .cons ((read_ok_iff item value).mp first) each⟩
    · rintro ⟨named, each⟩
      cases values with
      | nil => cases each
      | cons entry others =>
        cases named with
        | cons called named =>
          cases each with
          | cons first each =>
            rw [readEntries, readKey_ok_iff.mpr called, (read_ok_iff item _).mpr first,
              (readEntries_ok_iff rest _).mpr ⟨named, each⟩]
            rfl

end

end Node

end RowAlgebra.Wire

namespace RowAlgebra.Value
open Wire (Node)

mutual

/-- The tree that offers each part of a value as what it is. -/
def tree : Value → Node
  | null => .null
  | bool flag => .bool flag
  | int number => .int64 number
  | float number => .double (.finite number)
  | text content => .text content
  | blob bytes => .bytes bytes
  | list items => .sequence (itemsTrees items)
  | map entries => .map (entriesTrees entries)

def itemsTrees : List Value → List Node
  | [] => []
  | item :: rest => item.tree :: itemsTrees rest

def entriesTrees : List (String × Value) → List (Node × Node)
  | [] => []
  | (name, value) :: rest => (.text name, value.tree) :: entriesTrees rest

end

theorem entriesTrees_named (entries : List (String × Value)) :
    List.Forall₂ Node.Names ((entriesTrees entries).map Prod.fst) (entries.map Prod.fst) := by
  induction entries with
  | nil => exact .nil
  | cons entry rest ih => exact .cons (.text entry.1) ih

mutual

theorem tree_stands : (value : Value) → value.tree.Stands value
  | null | bool _ | int _ | text _ | blob _ => by constructor
  | float _ => .double rfl
  | list items => .sequence (itemsTrees_stand items)
  | map entries => .map (entriesTrees_named entries) (entriesTrees_stand entries)

theorem itemsTrees_stand : (items : List Value) → List.Forall₂ Node.Stands (itemsTrees items) items
  | [] => .nil
  | item :: rest => .cons item.tree_stands (itemsTrees_stand rest)

theorem entriesTrees_stand : (entries : List (String × Value)) →
    List.Forall₂ Node.Stands ((entriesTrees entries).map Prod.snd) (entries.map Prod.snd)
  | [] => .nil
  | (_, value) :: rest => .cons value.tree_stands (entriesTrees_stand rest)

end

end RowAlgebra.Value

namespace RowAlgebra.Proofs.ForeignData
open Wire

structure Reads (node : Node) : Prop where
  succeeds_iff : (∃ value, node.read = .ok value) ↔ ∀ position ∈ node.positions, position.Accepted
  value_iff : ∀ value, node.read = .ok value ↔ node.Stands value
  error_iff : ∀ error, node.read = .error error ↔ ∃ before offender after,
    node.positions = before ++ offender :: after ∧ offender.Offends error ∧ ∀ position ∈ before, position.Accepted

/-- A tree without offence is read as the value it stands for, any other one fails with its first
offence, and no value is without a tree. -/
theorem trees_are_read : (∀ node : Node, Reads node) ∧ ∀ value : Value, value.tree.read = .ok value := by
  constructor
  · intro node
    constructor
    case succeeds_iff =>
      rw [← refusal?_eq_none_iff, Node.refusal?_read, List.findSome?_eq_none_iff]
      exact forall₂_congr fun position _ => Position.offence?_eq_none_iff
    case value_iff => exact node.read_ok_iff
    case error_iff =>
      intro error
      rw [← refusal?_eq_some_iff, Node.refusal?_read, List.findSome?_eq_some_iff]
      simp only [Position.offence?_iff, Position.offence?_eq_none_iff]
  · intro value
    exact (value.tree.read_ok_iff value).mpr value.tree_stands

/-- Of a key and a value that both offend, the key settles the error. -/
example : (Node.map [(.int64 5, .wrapped .null)]).read = .error (.invalidType "integer `5`" "a string") := by
  decide

end RowAlgebra.Proofs.ForeignData
