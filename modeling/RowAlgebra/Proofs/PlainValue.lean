import RowAlgebra.Json.Codec

/-! What a JSON text keeps of a value. A blob is written as the list of its bytes and cannot be
told from it afterwards; nothing else is lost. -/

namespace RowAlgebra.Value

/-- What holds of a list and of a map once it holds of everything in them, holds of all values. -/
@[elab_as_elim]
theorem byParts {motive : Value → Prop} (null : motive .null) (bool : ∀ flag, motive (.bool flag))
    (int : ∀ number, motive (.int number)) (float : ∀ number, motive (.float number))
    (text : ∀ content, motive (.text content)) (blob : ∀ bytes, motive (.blob bytes))
    (list : ∀ items, (∀ item ∈ items, motive item) → motive (.list items))
    (map : ∀ entries, (∀ entry ∈ entries, motive entry.2) → motive (.map entries)) (value : Value) : motive value := by
  refine @Value.rec motive (fun items => ∀ item ∈ items, motive item) (fun entries => ∀ entry ∈ entries, motive entry.2)
    (fun entry => motive entry.2) null bool int float text blob list map ?noItems ?items ?noEntries ?entries ?entry value
  case noItems => exact List.forall_mem_nil _
  case items => exact fun _ _ first others => List.forall_mem_cons.mpr ⟨first, others⟩
  case noEntries => exact List.forall_mem_nil _
  case entries => exact fun _ _ first others => List.forall_mem_cons.mpr ⟨first, others⟩
  case entry => exact fun _ _ second => second

def ofByte (byte : UInt8) : Value := int (Int64.ofNat byte.toNat)

mutual

/-- How many lists and maps the text of a value opens within one another. -/
def depth : Value → Nat
  | null | bool _ | int _ | float _ | text _ => 0
  | blob _ => 1
  | list items => 1 + itemsDepth items
  | map entries => 1 + entriesDepth entries

def itemsDepth : List Value → Nat
  | [] => 0
  | item :: rest => max item.depth (itemsDepth rest)

def entriesDepth : List (String × Value) → Nat
  | [] => 0
  | (_, value) :: rest => max value.depth (entriesDepth rest)

end

mutual

/-- The value with the list of its bytes in the place of every blob. -/
def plain : Value → Value
  | blob bytes => list (bytes.map ofByte)
  | list items => list (plainItems items)
  | map entries => map (plainEntries entries)
  | scalar => scalar

def plainItems : List Value → List Value
  | [] => []
  | item :: rest => item.plain :: plainItems rest

def plainEntries : List (String × Value) → List (String × Value)
  | [] => []
  | (key, value) :: rest => (key, value.plain) :: plainEntries rest

end

mutual

def holdsBlob : Value → Bool
  | blob _ => true
  | list items => itemsHoldBlob items
  | map entries => entriesHoldBlob entries
  | _ => false

def itemsHoldBlob : List Value → Bool
  | [] => false
  | item :: rest => item.holdsBlob || itemsHoldBlob rest

def entriesHoldBlob : List (String × Value) → Bool
  | [] => false
  | (_, value) :: rest => value.holdsBlob || entriesHoldBlob rest

end

mutual

/-- Only blobs are lost. -/
theorem plain_eq_self_iff : (value : Value) → (value.plain = value ↔ value.holdsBlob = false)
  | null | bool _ | int _ | float _ | text _ => ⟨fun _ => rfl, fun _ => rfl⟩
  | blob bytes => by
    rw [plain, holdsBlob]
    exact iff_of_false (fun same => nomatch same) (fun absent => nomatch absent)
  | list items => by
    rw [plain, holdsBlob, list.injEq]
    exact plainItems_eq_self_iff items
  | map entries => by
    rw [plain, holdsBlob, map.injEq]
    exact plainEntries_eq_self_iff entries

theorem plainItems_eq_self_iff : (items : List Value) → (plainItems items = items ↔ itemsHoldBlob items = false)
  | [] => ⟨fun _ => rfl, fun _ => rfl⟩
  | item :: rest => by
    rw [plainItems, itemsHoldBlob, List.cons.injEq, Bool.or_eq_false_iff]
    exact and_congr (plain_eq_self_iff item) (plainItems_eq_self_iff rest)

theorem plainEntries_eq_self_iff :
    (entries : List (String × Value)) → (plainEntries entries = entries ↔ entriesHoldBlob entries = false)
  | [] => ⟨fun _ => rfl, fun _ => rfl⟩
  | (key, value) :: rest => by
    rw [plainEntries, entriesHoldBlob, List.cons.injEq, Prod.mk.injEq, Bool.or_eq_false_iff]
    exact and_congr ((and_iff_right rfl).trans (plain_eq_self_iff value)) (plainEntries_eq_self_iff rest)

end

theorem itemsDepth_bytes (bytes : List UInt8) : itemsDepth (bytes.map ofByte) = 0 := by
  induction bytes with
  | nil => rfl
  | cons byte rest hypothesis =>
    rw [List.map_cons, itemsDepth, hypothesis]
    rfl

theorem plainItems_bytes (bytes : List UInt8) : plainItems (bytes.map ofByte) = bytes.map ofByte := by
  induction bytes with
  | nil => rfl
  | cons byte rest hypothesis =>
    rw [List.map_cons, plainItems, hypothesis]
    rfl

theorem write_ofByte (byte : UInt8) : Json.write (ofByte byte) = Json.natChars byte.toNat := by
  have small := byte.toNat_lt
  rw [ofByte, Json.write, Int64.toInt_ofNat_of_lt (by omega), Json.intChars, if_neg (by omega), Int.natAbs_natCast]

theorem writeMoreItems_bytes (bytes : List UInt8) :
    Json.writeMoreItems (bytes.map ofByte) = Json.writeMoreBytes bytes := by
  induction bytes with
  | nil => rfl
  | cons byte rest hypothesis => rw [List.map_cons, Json.writeMoreItems, Json.writeMoreBytes, write_ofByte, hypothesis]

theorem write_blob (bytes : List UInt8) : Json.write (blob bytes) = Json.write (list (bytes.map ofByte)) := by
  cases bytes with
  | nil => rfl
  | cons byte rest =>
    rw [Json.write, Json.write, List.map_cons, Json.writeItems, Json.writeBytes, write_ofByte, writeMoreItems_bytes]

theorem intercalate_comma {α : Type} (chars : α → List Char) (first : α) (rest : List α) :
    [','].intercalate ((first :: rest).map chars) = chars first ++ rest.flatMap fun item => ',' :: chars item := by
  induction rest generalizing first with
  | nil => rw [List.map_singleton, List.intercalate_singleton, List.flatMap_nil, List.append_nil]
  | cons next rest hypothesis =>
    rw [List.map_cons, List.map_cons, List.intercalate_cons_cons, ← List.map_cons, hypothesis, List.flatMap_cons,
      List.append_assoc]
    rfl

theorem writeMoreItems_eq (items : List Value) :
    Json.writeMoreItems items = items.flatMap fun item => ',' :: Json.write item := by
  induction items with
  | nil => rfl
  | cons item rest hypothesis => rw [Json.writeMoreItems, hypothesis, List.flatMap_cons, List.cons_append]

theorem writeMoreEntries_eq (entries : List (String × Value)) :
    Json.writeMoreEntries entries = entries.flatMap fun entry => ',' :: entryChars entry := by
  induction entries with
  | nil => rfl
  | cons entry rest hypothesis =>
    rw [Json.writeMoreEntries, hypothesis, List.flatMap_cons, entryChars, List.cons_append, List.append_assoc,
      List.cons_append]

theorem listToJson_eq (items : List Value) : listToJson items = (list items).toJson := by
  rw [listToJson, toJson, Json.write]
  cases items with
  | nil => rfl
  | cons first rest => rw [intercalate_comma, Json.writeItems, writeMoreItems_eq]

theorem entriesToJson_eq (entries : List (String × Value)) : entriesToJson entries = (map entries).toJson := by
  rw [entriesToJson, toJson, Json.write]
  cases entries with
  | nil => rfl
  | cons first rest =>
    rw [intercalate_comma, Json.writeEntries, writeMoreEntries_eq, entryChars]
    simp only [List.append_assoc, List.cons_append]

end RowAlgebra.Value
