import RowAlgebra.Proofs.PlainValue
import RowAlgebra.Proofs.StringLiteral
import RowAlgebra.Proofs.WrittenNumber

/-! A value that is written as JSON and read again is the same value, but for its blobs, as long
as its lists and maps are not nested too deep. The reader carries the text of a value from the
place in front of it to the place behind it, whatever lists and maps are open around it; lists
and maps keep that of their items, and the nesting limit is reached just where the depth of the
value says. -/

namespace RowAlgebra.Json

/-- The reader takes the text of the value for the value, if there is room for it within the
lists and maps that are open. Only a number has to be told from what follows it. -/
def Reads (value : Value) : Prop :=
  ∀ frames rest, frames.length ≤ depthLimit → (value.isNumeric = true → Ends rest) →
    outcome (.at (.value frames)) (write value ++ rest) =
      if frames.length + value.depth ≤ depthLimit then outcome (.at (.after frames value.plain)) rest
      else .error .recursionLimit

theorem ends_cons {char : Char} (rest : List Char)
    (other : char.isDigit = false ∧ char ≠ '.' ∧ char ≠ 'e' ∧ char ≠ 'E') : Ends (char :: rest) := by
  intro first member
  obtain rfl := Option.some.inj member
  exact other

theorem ends_nil : Ends [] := fun _ member => nomatch member

/-- A character that can begin a value in a list. -/
def Opens (char : Char) : Prop := isBlank char = false ∧ char ≠ ']'

theorem begin_number {char : Char} {part : NumberPart} (starts : NumberPart.start? char = some part) (frames : List Frame) :
    Opens char ∧ (Place.value frames).read char = .ok (.within frames (.number part)) := by
  have other : ∀ wrong, NumberPart.start? wrong = none → char ≠ wrong := by
    intro wrong none same
    rw [same, none] at starts
    cases starts
  refine ⟨⟨?_, other _ rfl⟩, ?_⟩
  · simp only [isBlank, other ' ' rfl, other '\t' rfl, other '\n' rfl, other '\r' rfl, decide_false, Bool.or_false]
  · simp only [Place.read, State.begin, ScalarPart.start?, other '[' rfl, other '\x7b' rfl, other 'n' rfl, other 't' rfl,
      other 'f' rfl, other '"' rfl, if_false, starts, Option.map_some]

theorem opens_write (value : Value) : ∃ first rest, write value = first :: rest ∧ Opens first := by
  have number : ∀ literal : Literal, ∃ first rest, literal.chars = first :: rest ∧ Opens first := by
    intro literal
    obtain ⟨first, rest, _, _, spelled, starts, _⟩ := literal.reads
    exact ⟨first, rest, spelled, (begin_number starts []).1⟩
  cases value with
  | null => exact ⟨_, _, rfl, rfl, by decide⟩
  | bool flag => cases flag <;> exact ⟨_, _, rfl, rfl, by decide⟩
  | int n =>
    rw [write, ← Literal.chars_ofInt]
    exact number _
  | float x =>
    obtain ⟨literal, spelled, _⟩ := Literal.spells_float x
    rw [write, ← spelled]
    exact number literal
  | text | blob | list | map => exact ⟨_, _, rfl, rfl, by decide⟩

theorem outcome_item {place : Place} {frames : List Frame}
    (same : ∀ char, char ≠ ']' → place.read char = (Place.value frames).read char) (value : Value) (rest : List Char) :
    outcome (.at place) (write value ++ rest) = outcome (.at (.value frames)) (write value ++ rest) := by
  obtain ⟨first, more, spelled, inked, inside⟩ := opens_write value
  rw [spelled]
  apply outcome_congr
  rw [step_inked _ inked, step_inked _ inked, same first inside]

theorem reads_scalar {value : Value} (flat : value.depth = 0) (same : value.plain = value)
    (read : ∀ frames rest, (value.isNumeric = true → Ends rest) →
      outcome (.at (.value frames)) (write value ++ rest) = outcome (.at (.after frames value)) rest) : Reads value := by
  intro frames rest room ends
  rw [flat, same, Nat.add_zero, if_pos room]
  exact read frames rest ends

theorem outcome_literal (literal : Literal) {number : Number} (value : literal.number = .ok number) (frames : List Frame)
    {rest : List Char} (ends : Ends rest) :
    outcome (.at (.value frames)) (literal.chars ++ rest) = outcome (.at (.after frames number.value)) rest := by
  obtain ⟨first, more, begun, stage, spelled, starts, taken, complete⟩ := literal.reads
  obtain ⟨⟨inked, _⟩, begins⟩ := begin_number starts frames
  rw [spelled, List.cons_append, outcome_place _ inked begins, outcome_through (follows_number frames) _ taken]
  exact outcome_number frames (complete.trans value) ends

theorem reads_null : Reads .null := by
  apply reads_scalar rfl rfl
  intro frames rest ends
  rfl

theorem reads_bool (flag : Bool) : Reads (.bool flag) := by
  apply reads_scalar rfl rfl
  intro frames rest ends
  cases flag <;> rfl

theorem reads_int (n : Int64) : Reads (.int n) := by
  obtain ⟨number, value, same⟩ := Literal.number_ofInt n
  apply reads_scalar rfl rfl
  intro frames rest ends
  rw [write, ← Literal.chars_ofInt, outcome_literal _ value frames (ends rfl), same]

theorem reads_float (x : Float64) : Reads (.float x) := by
  obtain ⟨literal, spelled, value, _⟩ := Literal.spells_float x
  apply reads_scalar rfl rfl
  intro frames rest ends
  rw [write, ← spelled, outcome_literal literal value frames (ends rfl)]
  rfl

theorem reads_text (content : String) : Reads (.text content) := by
  apply reads_scalar rfl rfl
  intro frames rest ends
  have opening : (Place.value frames).read '"' = .ok (.within frames (.text ⟨.none, []⟩)) := rfl
  rw [write, quote, List.cons_append, outcome_place _ rfl opening, List.append_assoc]
  exact outcome_text frames content rest

theorem read_firstItem (frames : List Frame) (char : Char) (inside : char ≠ ']') :
    (Place.firstItem frames).read char = (Place.value (.list [] :: frames)).read char := if_neg inside

theorem read_nextItem (frames : List Frame) (reversed : List Value) (char : Char) (inside : char ≠ ']') :
    (Place.nextItem frames reversed).read char = (Place.value (.list reversed :: frames)).read char := if_neg inside

theorem ends_moreItems (items : List Value) (rest : List Char) : Ends (writeMoreItems items ++ ']' :: rest) := by
  cases items with
  | nil => exact ends_cons rest (by decide)
  | cons item more => exact ends_cons _ (by decide)

/-- From the place in front of an item the reader goes on to the end of the list, unless that
item or a later one is nested too deep. -/
theorem outcome_items {frames : List Frame} (inside : frames.length < depthLimit) (rest : List Char) {item : Value}
    {more : List Value} (reads : ∀ other ∈ item :: more, Reads other) (reversed : List Value) :
    outcome (.at (.value (.list reversed :: frames))) (write item ++ (writeMoreItems more ++ ']' :: rest)) =
      if frames.length + (1 + max item.depth (Value.itemsDepth more)) ≤ depthLimit then
        outcome (.at (.after frames (.list (reversed.reverse ++ item.plain :: Value.plainItems more)))) rest
      else .error .recursionLimit := by
  induction more generalizing item reversed with
  | nil =>
    have first : Reads item := reads _ List.mem_cons_self
    rw [first (.list reversed :: frames) _ inside (fun _ => ends_moreItems [] rest),
      List.length_cons, Value.itemsDepth, Nat.max_zero, ← Nat.add_assoc]
    split
    next =>
      have closing : (Place.afterItem frames (item.plain :: reversed)).read ']' =
          .ok (.at (.after frames (.list (item.plain :: reversed).reverse))) := rfl
      rw [List.reverse_cons] at closing
      exact outcome_place rest rfl closing
    next => rfl
  | cons next more hypothesis =>
    have first : Reads item := reads _ List.mem_cons_self
    rw [first (.list reversed :: frames) _ inside (fun _ => ends_moreItems (next :: more) rest), List.length_cons, Value.itemsDepth]
    split
    next fits =>
      have comma : (Place.afterItem frames (item.plain :: reversed)).read ',' =
          .ok (.at (.nextItem frames (item.plain :: reversed))) := rfl
      have others := hypothesis (fun other member => reads other (List.mem_cons_of_mem _ member)) (item.plain :: reversed)
      rw [Place.after, writeMoreItems, List.cons_append, List.append_assoc, outcome_place _ rfl comma,
        outcome_item (read_nextItem frames _), others, List.reverse_cons, List.append_assoc, List.singleton_append]
      congr 1
      exact propext (by omega)
    next deep => rw [if_neg (by omega)]

theorem reads_list {items : List Value} (reads : ∀ item ∈ items, Reads item) : Reads (.list items) := by
  intro frames rest room ends
  rw [write, List.cons_append, List.append_assoc, List.singleton_append, Value.depth, Value.plain]
  by_cases inside : frames.length < depthLimit
  · have opening : (Place.value frames).read '[' = .ok (.at (.firstItem frames)) := if_pos inside
    rw [outcome_place _ rfl opening]
    cases items with
    | nil =>
      have closing : (Place.firstItem frames).read ']' = .ok (.at (.after frames (.list []))) := rfl
      rw [Value.itemsDepth, if_pos (by omega)]
      exact outcome_place rest rfl closing
    | cons item more =>
      rw [writeItems, List.append_assoc, outcome_item (read_firstItem frames), outcome_items inside rest reads]
      rfl
  · have opening : (Place.value frames).read '[' = .error .recursionLimit := if_neg inside
    rw [if_neg (by omega)]
    apply outcome_error
    exact opening

theorem ends_moreEntries (entries : List (String × Value)) (rest : List Char) :
    Ends (writeMoreEntries entries ++ '\x7d' :: rest) := by
  cases entries with
  | nil => exact ends_cons rest (by decide)
  | cons entry more => exact ends_cons _ (by decide)

theorem outcome_entry {place : Place} {frames : List Frame} {reversed : List (String × Value)}
    (opening : place.read '"' = .ok (.withinKey frames reversed ⟨.none, []⟩)) (key : String) (rest : List Char) :
    outcome (.at place) (quote key.toList ++ ':' :: rest) = outcome (.at (.value (.map reversed key :: frames))) rest := by
  have colon : (Place.afterKey frames reversed key).read ':' = .ok (.at (.value (.map reversed key :: frames))) := rfl
  rw [quote, List.cons_append, outcome_place _ rfl opening, List.append_assoc, List.singleton_append, outcome_key]
  exact outcome_place rest rfl colon

theorem outcome_entries {frames : List Frame} (inside : frames.length < depthLimit) (rest : List Char) {key : String}
    {value : Value} {more : List (String × Value)} (reads : ∀ entry ∈ (key, value) :: more, Reads entry.2)
    (reversed : List (String × Value)) :
    outcome (.at (.value (.map reversed key :: frames))) (write value ++ (writeMoreEntries more ++ '\x7d' :: rest)) =
      if frames.length + (1 + max value.depth (Value.entriesDepth more)) ≤ depthLimit then
        outcome (.at (.after frames (.map (reversed.reverse ++ (key, value.plain) :: Value.plainEntries more)))) rest
      else .error .recursionLimit := by
  induction more generalizing key value reversed with
  | nil =>
    have first : Reads value := reads _ List.mem_cons_self
    rw [first (.map reversed key :: frames) _ inside (fun _ => ends_moreEntries [] rest),
      List.length_cons, Value.entriesDepth, Nat.max_zero, ← Nat.add_assoc]
    split
    next =>
      have closing : (Place.afterEntry frames ((key, value.plain) :: reversed)).read '\x7d' =
          .ok (.at (.after frames (.map ((key, value.plain) :: reversed).reverse))) := rfl
      rw [List.reverse_cons] at closing
      exact outcome_place rest rfl closing
    next => rfl
  | cons next more hypothesis =>
    obtain ⟨nextKey, next⟩ := next
    have first : Reads value := reads _ List.mem_cons_self
    rw [first (.map reversed key :: frames) _ inside (fun _ => ends_moreEntries ((nextKey, next) :: more) rest),
      List.length_cons, Value.entriesDepth]
    split
    next fits =>
      have comma : (Place.afterEntry frames ((key, value.plain) :: reversed)).read ',' =
          .ok (.at (.nextKey frames ((key, value.plain) :: reversed))) := rfl
      have opening : (Place.nextKey frames ((key, value.plain) :: reversed)).read '"' =
          .ok (.withinKey frames ((key, value.plain) :: reversed) ⟨.none, []⟩) := rfl
      have others := hypothesis (fun entry member => reads entry (List.mem_cons_of_mem _ member))
        ((key, value.plain) :: reversed)
      rw [Place.after, writeMoreEntries, List.cons_append, List.append_assoc, List.cons_append, List.append_assoc,
        outcome_place _ rfl comma, outcome_entry opening, others, List.reverse_cons, List.append_assoc,
        List.singleton_append]
      congr 1
      exact propext (by omega)
    next deep => rw [if_neg (by omega)]

theorem reads_map {entries : List (String × Value)} (reads : ∀ entry ∈ entries, Reads entry.2) : Reads (.map entries) := by
  intro frames rest room ends
  rw [write, List.cons_append, List.append_assoc, List.singleton_append, Value.depth, Value.plain]
  by_cases inside : frames.length < depthLimit
  · have opening : (Place.value frames).read '\x7b' = .ok (.at (.firstKey frames)) := if_pos inside
    rw [outcome_place _ rfl opening]
    cases entries with
    | nil =>
      have closing : (Place.firstKey frames).read '\x7d' = .ok (.at (.after frames (.map []))) := rfl
      rw [Value.entriesDepth, if_pos (by omega)]
      exact outcome_place rest rfl closing
    | cons entry more =>
      have opening : (Place.firstKey frames).read '"' = .ok (.withinKey frames [] ⟨.none, []⟩) := rfl
      rw [writeEntries, List.append_assoc, List.cons_append, List.append_assoc, outcome_entry opening,
        outcome_entries inside rest reads]
      rfl
  · have opening : (Place.value frames).read '\x7b' = .error .recursionLimit := if_neg inside
    rw [if_neg (by omega)]
    apply outcome_error
    exact opening

theorem reads_blob (bytes : List UInt8) : Reads (.blob bytes) := by
  have scalars : ∀ item ∈ bytes.map Value.ofByte, Reads item := by
    intro item member
    obtain ⟨byte, _, rfl⟩ := List.mem_map.mp member
    exact reads_int _
  have depth : (Value.blob bytes).depth = (Value.list (bytes.map Value.ofByte)).depth := by
    rw [Value.depth, Value.depth, Value.itemsDepth_bytes]
  have plain : (Value.blob bytes).plain = (Value.list (bytes.map Value.ofByte)).plain := by
    rw [Value.plain, Value.plain, Value.plainItems_bytes]
  intro frames rest room ends
  rw [Value.write_blob, depth, plain]
  exact reads_list scalars frames rest room ends

theorem reads (value : Value) : Reads value := by
  induction value using Value.byParts with
  | null => exact reads_null
  | bool flag => exact reads_bool flag
  | int n => exact reads_int n
  | float x => exact reads_float x
  | text content => exact reads_text content
  | blob bytes => exact reads_blob bytes
  | list items hypothesis => exact reads_list hypothesis
  | map entries hypothesis => exact reads_map hypothesis

theorem read_write (value : Value) :
    read (write value) = if value.depth ≤ depthLimit then .ok value.plain else .error .recursionLimit := by
  have whole := reads value [] [] (Nat.zero_le _) fun _ => ends_nil
  rw [List.append_nil, List.length_nil, Nat.zero_add] at whole
  rw [read_eq_outcome, State.start, whole]
  rfl

end RowAlgebra.Json

namespace RowAlgebra.Proofs.JsonRoundTrip

/-- Writing a value as JSON and reading it again gives the value back, with lists of bytes in
the place of its blobs, unless it is nested too deep. A value without blobs comes back as it
was. The texts of several values at once are those of a list or a map. -/
theorem ofJson_toJson (value : Value) (items : List Value) (entries : List (String × Value)) :
    Value.ofJson value.toJson =
      (if value.depth ≤ 127 then .ok value.plain else .error (.decode .recursionLimit)) ∧
    Json.Error.recursionLimit.message = "recursion limit exceeded" ∧
    (value.plain = value ↔ value.holdsBlob = false) ∧
    listToJson items = (Value.list items).toJson ∧
    entriesToJson entries = (Value.map entries).toJson := by
  refine ⟨?_, rfl, Value.plain_eq_self_iff value, Value.listToJson_eq items, Value.entriesToJson_eq entries⟩
  rw [Value.ofJson, Value.toJson, String.toList_ofList, Json.read_write, Json.depthLimit]
  split <;> rfl

end RowAlgebra.Proofs.JsonRoundTrip
