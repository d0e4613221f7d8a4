import RowAlgebra.Proofs.JsonRoundTrip

/-! Maps whose keys are values. Data is written as it asks to be, in one of two places: as a value,
where everything has a text, or as the key of a map, where only text, whole numbers, doubles and
truth values have one, which is put into quotes. A value asks for the same thing in both places. So
no value fails as a value, at any depth, and a map fails just for its keys; where it does not, it is
read again with the texts of its keys. -/

namespace RowAlgebra

/-- What data asks to be written as. -/
inductive Json.Request where
  | unit
  | bool (flag : Bool)
  | int64 (number : Int64)
  | byte (number : UInt8)
  | double (number : Float64)
  | text (content : String)
  | sequence (items : List Request)
  | map (entries : List (Request × Request))

namespace Json.Request

def quoted (chars : List Char) : List Char := '"' :: (chars ++ ['"'])

/-- The key that is written for a request. What is no text is not escaped. -/
def writeKey : Request → Except Error (List Char)
  | bool flag => .ok (quoted (boolChars flag))
  | int64 number => .ok (quoted (intChars number.toInt))
  | byte number => .ok (quoted (natChars number.toNat))
  | double number => .ok (quoted (Float64.jsonFormat.chars number))
  | text content => .ok (quote content.toList)
  | unit | sequence _ | map _ => .error .keyNotString

mutual

def write : Request → Except Error (List Char)
  | unit => .ok ['n', 'u', 'l', 'l']
  | bool flag => .ok (boolChars flag)
  | int64 number => .ok (intChars number.toInt)
  | byte number => .ok (natChars number.toNat)
  | double number => .ok (Float64.jsonFormat.chars number)
  | text content => .ok (quote content.toList)
  | sequence items => (writeItems items).map fun parts => '[' :: ([','].intercalate parts ++ [']'])
  | map entries => (writeEntries entries).map fun parts => '\x7b' :: ([','].intercalate parts ++ ['\x7d'])

def writeItems : List Request → Except Error (List (List Char))
  | [] => .ok []
  | item :: rest =>
    match item.write with
    | .error error => .error error
    | .ok chars => (writeItems rest).map (chars :: ·)

def writeEntries : List (Request × Request) → Except Error (List (List Char))
  | [] => .ok []
  | (key, item) :: rest =>
    match key.writeKey with
    | .error error => .error error
    | .ok name =>
      match item.write with
      | .error error => .error error
      | .ok chars => (writeEntries rest).map ((name ++ ':' :: chars) :: ·)

end

def toJson (request : Request) : Except CodecError String := (request.write.map String.ofList).mapError .encode

end Json.Request

namespace Value
open Json (Request)

mutual

/-- A blob asks to be written as a sequence of bytes, and anything else as what it is. -/
def request : Value → Request
  | null => .unit
  | bool flag => .bool flag
  | int number => .int64 number
  | float number => .double number
  | text content => .text content
  | blob bytes => .sequence (bytes.map .byte)
  | list items => .sequence (itemsRequests items)
  | map entries => .map (entriesRequests entries)

def itemsRequests : List Value → List Request
  | [] => []
  | item :: rest => item.request :: itemsRequests rest

def entriesRequests : List (String × Value) → List (Request × Request)
  | [] => []
  | (name, value) :: rest => (.text name, value.request) :: entriesRequests rest

end

def keyKinds : List Kind := [.text, .int, .bool, .float64]

/-- The key that a value is read as once it was written as one. -/
def keyName : Value → String
  | text content => content
  | other => other.toJson

end Value

def keyedRequest (entries : List (Value × Value)) : Json.Request :=
  .map (entries.map fun (key, value) => (key.request, value.request))

namespace Json

theorem quote_plain {chars : List Char} (plain : ∀ char ∈ chars, escapeChar char = [char]) :
    quote chars = Request.quoted chars := by
  have same : chars.flatMap escapeChar = chars := by
    induction chars with
    | nil => rfl
    | cons char rest ih =>
      obtain ⟨first, others⟩ := List.forall_mem_cons.mp plain
      rw [List.flatMap_cons, first, ih others, List.singleton_append]
  rw [quote, same, Request.quoted]

theorem escapeChar_digit {char : Char} (digit : char.isDigit = true) : escapeChar char = [char] := by
  have range := Char.isDigit_iff_toNat.mp digit
  have printable : ¬char.toNat < 0x20 := by
    have zero : '0'.toNat = 48 := rfl
    omega
  have bare : ¬(char = '"' ∨ char = '\\') := by
    rintro (rfl | rfl)
    all_goals cases digit
  rw [escapeChar, if_neg bare, if_neg printable]

theorem Literal.escapeChar_chars (literal : Literal) : ∀ char ∈ literal.chars, escapeChar char = [char] := by
  have sign : ∀ char ∈ (if literal.isNegative then ['-'] else []), escapeChar char = [char] := by
    split
    · exact List.forall_mem_singleton.mpr rfl
    · exact List.forall_mem_nil _
  have fraction : ∀ char ∈ literal.fractionChars, escapeChar char = [char] := by
    unfold fractionChars
    split
    · exact List.forall_mem_nil _
    · exact List.forall_mem_cons.mpr ⟨rfl, fun char member => escapeChar_digit (literal.fractionNumeric char member)⟩
  have scale : ∀ char ∈ literal.scaleChars, escapeChar char = [char] := by
    unfold scaleChars
    split
    · exact List.forall_mem_nil _
    next scale _ =>
      have signed : ∀ char ∈ scale.sign.toList, escapeChar char = [char] := by
        intro char member
        rcases scale.signs char (Option.mem_toList.mp member) with rfl | rfl <;> rfl
      have marked : escapeChar scale.mark = [scale.mark] := by
        rcases scale.marks with mark | mark <;> rw [mark] <;> rfl
      refine List.forall_mem_cons.mpr ⟨marked, List.forall_mem_append.mpr ⟨signed, ?_⟩⟩
      exact fun char member => escapeChar_digit (scale.numeric char member)
  unfold chars
  simp only [List.forall_mem_append]
  exact ⟨⟨⟨sign, fun char member => escapeChar_digit (literal.wholeNumeric char member)⟩, fraction⟩, scale⟩

theorem quote_intChars (n : Int) : quote (intChars n) = Request.quoted (intChars n) := by
  apply quote_plain
  rw [← Literal.chars_ofInt]
  exact (Literal.ofInt n).escapeChar_chars

theorem quote_floatChars (x : Float64) :
    quote (Float64.jsonFormat.chars x) = Request.quoted (Float64.jsonFormat.chars x) := by
  obtain ⟨literal, spelled, _⟩ := Literal.spells_float x
  apply quote_plain
  rw [← spelled]
  exact literal.escapeChar_chars

theorem quote_boolChars (flag : Bool) : quote (boolChars flag) = Request.quoted (boolChars flag) := by
  cases flag <;> rfl

theorem writeKey_request (key : Value) :
    key.request.writeKey = match keyText? key with
      | some name => .ok (quote name)
      | none => .error .keyNotString := by
  cases key with
  | null | text | blob | list | map => rfl
  | bool flag => exact congrArg Except.ok (quote_boolChars flag).symm
  | int number => exact congrArg Except.ok (quote_intChars number.toInt).symm
  | float number => exact congrArg Except.ok (quote_floatChars number).symm

theorem writeItems_bytes (bytes : List UInt8) :
    Request.writeItems (bytes.map .byte) = .ok ((bytes.map Value.ofByte).map write) := by
  induction bytes with
  | nil => rfl
  | cons byte rest ih =>
    simp only [List.map_cons, Request.writeItems, Request.write, ih, Except.map, Value.write_ofByte]

theorem write_list (items : List Value) : write (.list items) = '[' :: ([','].intercalate (items.map write) ++ [']']) :=
  (String.ofList_inj.mp (Value.listToJson_eq items)).symm

theorem write_map (entries : List (String × Value)) :
    write (.map entries) = '\x7b' :: ([','].intercalate (entries.map entryChars) ++ ['\x7d']) :=
  (String.ofList_inj.mp (Value.entriesToJson_eq entries)).symm

mutual

/-- Every value has a text, at any depth, and it is that of its request. -/
theorem write_request : (value : Value) → value.request.write = .ok (write value)
  | .null | .bool _ | .int _ | .float _ | .text _ => rfl
  | .blob bytes => by
    rw [Value.write_blob, write_list, Value.request, Request.write, writeItems_bytes]
    rfl
  | .list items => by
    rw [write_list, Value.request, Request.write, writeItems_requests items]
    rfl
  | .map entries => by
    rw [write_map, Value.request, Request.write, writeEntries_requests entries]
    rfl

theorem writeItems_requests :
    (items : List Value) → Request.writeItems (Value.itemsRequests items) = .ok (items.map write)
  | [] => rfl
  | item :: rest => by
    simp only [Value.itemsRequests, Request.writeItems, write_request item, writeItems_requests rest, Except.map,
      List.map_cons]

theorem writeEntries_requests : (entries : List (String × Value)) →
    Request.writeEntries (Value.entriesRequests entries) = .ok (entries.map entryChars)
  | [] => rfl
  | (name, value) :: rest => by
    simp only [Value.entriesRequests, Request.writeEntries, Request.writeKey, write_request value,
      writeEntries_requests rest, Except.map, List.map_cons, entryChars]

end

/-- As a map of which they are keys and values, pairs fail at the first key without a text. -/
theorem writeEntries_keyed (entries : List (Value × Value)) :
    Request.writeEntries (entries.map fun (key, value) => (key.request, value.request)) =
      (keyEntries entries).map (List.map entryChars) := by
  induction entries with
  | nil => rfl
  | cons entry rest ih =>
    obtain ⟨key, value⟩ := entry
    rw [List.map_cons, Request.writeEntries, writeKey_request, keyEntries]
    cases keyText? key with
    | none => rfl
    | some name =>
      simp only [write_request, ih]
      cases keyEntries rest with
      | error error => rfl
      | ok named => simp only [Except.map, List.map_cons, entryChars, String.toList_ofList]

theorem toJson_keyedRequest (entries : List (Value × Value)) :
    (keyedRequest entries).toJson = keyedToJson entries := by
  rw [keyedRequest, Request.toJson, Request.write, writeEntries_keyed, keyedToJson]
  cases keyEntries entries with
  | error error => rfl
  | ok named => rfl

theorem keyText?_eq (key : Value) :
    keyText? key = if key.kind ∈ Value.keyKinds then some key.keyName.toList else none := by
  cases key with
  | null | blob | list | map | text => rfl
  | bool | int | float => exact congrArg some String.toList_ofList.symm

def named (entries : List (Value × Value)) : List (String × Value) :=
  entries.map fun (key, value) => (key.keyName, value)

theorem keyEntries_eq (entries : List (Value × Value)) :
    keyEntries entries =
      if ∀ entry ∈ entries, entry.1.kind ∈ Value.keyKinds then .ok (named entries) else .error .keyNotString := by
  induction entries with
  | nil => rfl
  | cons entry rest ih =>
    obtain ⟨key, value⟩ := entry
    rw [keyEntries, keyText?_eq, ih]
    simp only [List.forall_mem_cons]
    by_cases kind : key.kind ∈ Value.keyKinds
    · rw [if_pos kind]
      by_cases others : ∀ entry ∈ rest, entry.1.kind ∈ Value.keyKinds
      · rw [if_pos others, if_pos ⟨kind, others⟩]
        simp only [Except.map, String.ofList_toList, named, List.map_cons]
      · rw [if_neg others, if_neg fun all => others all.2]
        rfl
    · have refused : ¬(key.kind ∈ Value.keyKinds ∧ ∀ entry ∈ rest, entry.1.kind ∈ Value.keyKinds) := fun all => kind all.1
      rw [if_neg kind, if_neg refused]

end Json

namespace Value

theorem itemsRequests_eq_map (items : List Value) : itemsRequests items = items.map request := by
  induction items with
  | nil => rfl
  | cons item rest ih => rw [itemsRequests, ih, List.map_cons]

theorem entriesRequests_eq_map (entries : List (String × Value)) :
    entriesRequests entries = entries.map fun (name, value) => (.text name, value.request) := by
  induction entries with
  | nil => rfl
  | cons entry rest ih => rw [entriesRequests, ih, List.map_cons]

theorem toJson_request (value : Value) : value.request.toJson = .ok value.toJson := by
  rw [Json.Request.toJson, Json.write_request]
  rfl

theorem plainEntries_eq_map (entries : List (String × Value)) :
    plainEntries entries = entries.map fun (name, value) => (name, value.plain) := by
  induction entries with
  | nil => rfl
  | cons entry rest ih => rw [plainEntries, ih, List.map_cons]

theorem entriesDepth_le_iff {entries : List (String × Value)} {bound : Nat} :
    entriesDepth entries ≤ bound ↔ ∀ entry ∈ entries, entry.2.depth ≤ bound := by
  induction entries with
  | nil => simp [entriesDepth]
  | cons entry rest ih => rw [entriesDepth, Nat.max_le, ih, List.forall_mem_cons]

end Value

end RowAlgebra

namespace RowAlgebra.Proofs.MapKeys
open Json (Request)

structure Encodes (entries : List (Value × Value)) : Prop where
  requested : (keyedRequest entries).toJson = keyedToJson entries
  succeeds_iff : (∃ text, keyedToJson entries = .ok text) ↔ ∀ entry ∈ entries, entry.1.kind ∈ Value.keyKinds
  refused_iff : ∀ error, keyedToJson entries = .error error ↔
    error = .encode .keyNotString ∧ ∃ entry ∈ entries, entry.1.kind ∉ Value.keyKinds
  readBack : ∀ text, keyedToJson entries = .ok text → Value.ofJson text =
    if ∀ entry ∈ entries, entry.2.depth ≤ 126 then
      .ok (.map (entries.map fun (key, value) => (key.keyName, value.plain)))
    else .error (.decode .recursionLimit)

theorem keyedToJson_eq (entries : List (Value × Value)) :
    keyedToJson entries = if ∀ entry ∈ entries, entry.1.kind ∈ Value.keyKinds then
      .ok (Value.map (Json.named entries)).toJson else .error (.encode .keyNotString) := by
  rw [keyedToJson, Json.keyEntries_eq, ← Value.entriesToJson_eq]
  split <;> rfl

theorem ofJson_named (entries : List (Value × Value)) :
    Value.ofJson (Value.map (Json.named entries)).toJson =
      if ∀ entry ∈ entries, entry.2.depth ≤ 126 then
        .ok (.map (entries.map fun (key, value) => (key.keyName, value.plain)))
      else .error (.decode .recursionLimit) := by
  have depth : (Value.map (Json.named entries)).depth ≤ Json.depthLimit ↔ ∀ entry ∈ entries, entry.2.depth ≤ 126 := by
    have shifted : 1 + Value.entriesDepth (Json.named entries) ≤ 127 ↔ Value.entriesDepth (Json.named entries) ≤ 126 := by
      omega
    rw [Value.depth, Json.depthLimit, shifted, Value.entriesDepth_le_iff, Json.named, List.forall_mem_map]
  have plain : (Value.map (Json.named entries)).plain =
      .map (entries.map fun (key, value) => (key.keyName, value.plain)) := by
    rw [Value.plain, Value.plainEntries_eq_map, Json.named, List.map_map]
    rfl
  rw [Value.ofJson, Value.toJson, String.toList_ofList, Json.read_write, plain]
  simp only [depth]
  split <;> rfl

theorem encodes (entries : List (Value × Value)) : Encodes entries := by
  have result := keyedToJson_eq entries
  constructor
  case requested => exact Json.toJson_keyedRequest entries
  case succeeds_iff =>
    rw [result]
    split
    next all => exact iff_of_true ⟨_, rfl⟩ all
    next some => exact iff_of_false (fun ⟨_, done⟩ => nomatch done) some
  case refused_iff =>
    intro error
    have offender : (∃ entry ∈ entries, entry.1.kind ∉ Value.keyKinds) ↔
        ¬∀ entry ∈ entries, entry.1.kind ∈ Value.keyKinds := by
      simp only [not_forall, exists_prop]
    rw [result, offender]
    split
    next all => exact iff_of_false nofun fun refused => refused.2 all
    next some =>
      constructor
      · intro same
        exact ⟨(Except.error.inj same).symm, some⟩
      · rintro ⟨rfl, -⟩
        rfl
  case readBack =>
    intro text done
    rw [result] at done
    split at done
    · cases done
      exact ofJson_named entries
    · cases done

/-- Pairs of values have a text as a map unless one of the keys is null, a blob, a list or a map, and
that text is read as the map of the pairs. A value, several values and values with names always have
a text. -/
theorem requests_encode (pairs : List (Value × Value)) (value : Value) (items : List Value)
    (entries : List (String × Value)) :
    Encodes pairs ∧ Json.Error.keyNotString.message = "key must be a string" ∧
    value.request.toJson = .ok value.toJson ∧
    (Request.sequence (items.map Value.request)).toJson = .ok (listToJson items) ∧
    (Request.map (entries.map fun (name, value) => (.text name, value.request))).toJson = .ok (entriesToJson entries) := by
  refine ⟨encodes pairs, rfl, value.toJson_request, ?_, ?_⟩
  · rw [Value.listToJson_eq, ← Value.itemsRequests_eq_map]
    exact (Value.list items).toJson_request
  · rw [Value.entriesToJson_eq, ← Value.entriesRequests_eq_map]
    exact (Value.map entries).toJson_request

/-- The number of a key is read as text, and a key that comes twice stays twice. -/
example : keyedToJson [(.int (-5), .blob [1]), (.text "-5", .null), (.bool true, .list [])] =
    .ok "\x7b\"-5\":[1],\"-5\":null,\"true\":[]\x7d" := by
  cbv

end RowAlgebra.Proofs.MapKeys
