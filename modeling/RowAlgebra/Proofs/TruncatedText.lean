import RowAlgebra.Proofs.PartialNumber

/-! Texts that are cut off, and texts with something behind them. Wherever the text of a value is
cut, the reader waits for more: between two characters it is nowhere at an end, in front of a value
or behind it, in a word, a string or a number, at any depth. Only a bare number may end before its
text does. What stands around the text is of no account if it is blank, and refused behind it if not. -/

namespace RowAlgebra.Json
open Float64 (overflow)

def Short (state : State) (text : List Char) : Prop :=
  ∃ error, outcome state text = .error error ∧ error.category = .eof

/-- No less than the whole text will do. -/
def NeedsAll (state : State) (text : List Char) : Prop :=
  ∀ first second, text = first ++ second → second ≠ [] → Short state first

section
variable {state next : State}

theorem needsAll_cons {char : Char} {rest : List Char} (waits : Short state []) (taken : state.step char = .ok next)
    (onward : NeedsAll next rest) : NeedsAll state (char :: rest) := by
  intro first second split more
  cases first with
  | nil => exact waits
  | cons head first =>
    obtain ⟨rfl, behind⟩ := List.cons.inj split
    rw [Short, outcome_cons _ taken]
    exact onward first second behind more

theorem needsAll_last (char : Char) (waits : Short state []) : NeedsAll state [char] := by
  intro first second split more
  obtain ⟨rfl, -⟩ | ⟨-, rfl⟩ := List.append_eq_singleton_iff.mp split.symm
  · exact waits
  · exact absurd rfl more

theorem needsAll_congr {char : Char} {rest : List Char} (waits : Short state []) (same : state.step char = next.step char)
    (needs : NeedsAll next (char :: rest)) : NeedsAll state (char :: rest) := by
  intro first second split more
  cases first with
  | nil => exact waits
  | cons head first =>
    obtain ⟨rfl, -⟩ := List.cons.inj split
    rw [Short, outcome_congr _ same]
    exact needs (char :: first) second split more

theorem needsAll_append {leading trailing : List Char} (needs : NeedsAll state leading)
    (reached : ∀ rest, rest <+: trailing → outcome state (leading ++ rest) = outcome next rest)
    (onward : NeedsAll next trailing) : NeedsAll state (leading ++ trailing) := by
  have behind : ∀ first second, trailing = first ++ second → second ≠ [] → Short state (leading ++ first) := by
    intro first second split more
    rw [Short, reached first ⟨second, split.symm⟩]
    exact onward first second split more
  intro first second split more
  rcases List.append_eq_append_iff.mp split with ⟨further, rfl, rest⟩ | ⟨missing, whole, rfl⟩
  · exact behind further second rest more
  · by_cases none : missing = []
    · rw [none, List.append_nil] at whole
      rw [none, List.nil_append] at more
      have ending := behind [] trailing rfl more
      rwa [List.append_nil, whole] at ending
    · exact needs first missing whole none

/-- What a scanner takes is needed, if the text is short wherever it ends in the scanner. -/
theorem needsAll_through {α : Type} {step : α → Char → Except Error (Option α)} {inside : α → State}
    (follows : ∀ part char longer, step part char = .ok (some longer) → (inside part).step char = .ok (inside longer))
    {part longer : α} {chars : List Char} (taken : through step part chars = some longer)
    (waits : ∀ first second middle, through step part first = some middle → through step middle second = some longer →
      Short (inside middle) []) : NeedsAll (inside part) chars := by
  rintro first second rfl -
  obtain ⟨middle, before, behind⟩ := through_middle taken
  have carried := outcome_through follows [] before
  rw [List.append_nil] at carried
  rw [Short, carried]
  exact waits first second middle before behind

end

theorem short_after (frame : Frame) (frames : List Frame) (value : Value) :
    Short (.at (.after (frame :: frames) value)) [] := by
  cases frame with
  | list => exact ⟨_, rfl, rfl⟩
  | map => exact ⟨_, rfl, rfl⟩

theorem short_number (frame : Frame) (frames : List Frame) {part : NumberPart} (within : part.reach < overflow) :
    Short (.within (frame :: frames) (.number part)) [] := by
  rcases NumberPart.finish_of_reach within with waits | ⟨number, complete⟩
  · refine ⟨.eofInValue, ?_, rfl⟩
    simp only [outcome_nil, State.finish, ScalarPart.finish, waits, Except.map, Except.bind]
  · rw [Short, outcome_number _ complete ends_nil]
    exact short_after frame frames number.value

/-- The text of the value is short wherever it is cut, unless it is a number that stands alone. -/
def Needs (value : Value) : Prop :=
  ∀ frames, frames.length + value.depth ≤ depthLimit → (value.isNumeric = true → frames ≠ []) →
    NeedsAll (.at (.value frames)) (write value)

/-- Each beginning of a number in a list or a map is a number in range or none yet, and the list or the
map does not end with either. -/
theorem needsAll_literal {literal : Literal} {number : Number} (found : literal.number = .ok number)
    (single : literal.scale = none ∨ literal.whole.length = 1) (frame : Frame) (frames : List Frame) :
    NeedsAll (.at (.value (frame :: frames))) literal.chars := by
  obtain ⟨first, rest, begun, stage, spelled, starts, taken, _⟩ := literal.reads
  obtain ⟨⟨inked, _⟩, begins⟩ := begin_number starts (frame :: frames)
  rw [spelled]
  apply needsAll_cons ⟨_, rfl, rfl⟩ ((step_inked _ inked).trans begins)
  apply needsAll_through (follows_number _) taken
  intro _ _ middle before behind
  obtain ⟨early, _⟩ := NumberPart.through_reach (NumberPart.start?_early starts) before
  obtain ⟨_, further⟩ := NumberPart.through_reach early behind
  exact short_number frame frames (further.trans_lt (Literal.reach_lt_overflow found single stage))

theorem needs_number {value : Value} {literal : Literal} {number : Number} (spelled : literal.chars = write value)
    (found : literal.number = .ok number) (single : literal.scale = none ∨ literal.whole.length = 1)
    (numeric : value.isNumeric = true) : Needs value := by
  intro frames fits inside
  cases frames with
  | nil => exact absurd rfl (inside numeric)
  | cons frame frames =>
    rw [← spelled]
    exact needsAll_literal found single frame frames

theorem needs_null : Needs .null := by
  intro frames fits inside
  iterate 3 refine needsAll_cons ⟨_, rfl, rfl⟩ rfl ?_
  exact needsAll_last 'l' ⟨_, rfl, rfl⟩

theorem needs_bool (flag : Bool) : Needs (.bool flag) := by
  intro frames fits inside
  cases flag with
  | true =>
    iterate 3 refine needsAll_cons ⟨_, rfl, rfl⟩ rfl ?_
    exact needsAll_last 'e' ⟨_, rfl, rfl⟩
  | false =>
    iterate 4 refine needsAll_cons ⟨_, rfl, rfl⟩ rfl ?_
    exact needsAll_last 'e' ⟨_, rfl, rfl⟩

theorem needs_int (n : Int64) : Needs (.int n) := by
  obtain ⟨number, found, _⟩ := Literal.number_ofInt n
  exact needs_number (Literal.chars_ofInt n.toInt) found (.inl rfl) rfl

theorem needs_float (x : Float64) : Needs (.float x) := by
  obtain ⟨literal, spelled, found, single⟩ := Literal.spells_float x
  exact needs_number spelled found single rfl

/-- Between its quotes a string, or a key, is never at an end. -/
theorem needsAll_content {inside : TextPart → State}
    (follows : ∀ part char longer, part.step char = .ok (some longer) → (inside part).step char = .ok (inside longer))
    (waits : ∀ part, Short (inside part) []) (content : String) :
    NeedsAll (inside ⟨.none, []⟩) (content.toList.flatMap escapeChar ++ ['"']) := by
  have taken := through_content content.toList []
  apply needsAll_append
  · exact needsAll_through follows taken fun _ _ middle _ _ => waits middle
  · exact fun rest _ => outcome_through follows rest taken
  · exact needsAll_last '"' (waits _)

theorem needs_text (content : String) : Needs (.text content) := by
  intro frames fits inside
  have opening : (Place.value frames).read '"' = .ok (.within frames (.text ⟨.none, []⟩)) := rfl
  apply needsAll_cons ⟨_, rfl, rfl⟩ ((step_inked _ rfl).trans opening)
  exact needsAll_content (follows_text frames) (fun _ => ⟨_, rfl, rfl⟩) content

theorem needsAll_value {value : Value} (needs : Needs value) {frame : Frame} {frames : List Frame}
    (fits : (frame :: frames).length + value.depth ≤ depthLimit) {behind : List Char} (ends : Ends behind)
    (onward : NeedsAll (.at (.after (frame :: frames) value.plain)) behind) :
    NeedsAll (.at (.value (frame :: frames))) (write value ++ behind) := by
  apply needsAll_append (needs _ fits fun _ => List.cons_ne_nil _ _) _ onward
  rintro rest ⟨missing, rfl⟩
  have endsRest : Ends rest := fun char member => ends char (by rw [List.head?_append, member]; rfl)
  rw [reads value _ rest (by omega) fun _ => endsRest, if_pos fits]

theorem needsAll_item {place : Place} {frames : List Frame} (waits : Short (.at place) [])
    (same : ∀ char, char ≠ ']' → place.read char = (Place.value frames).read char) {value : Value} {behind : List Char}
    (needs : NeedsAll (.at (.value frames)) (write value ++ behind)) : NeedsAll (.at place) (write value ++ behind) := by
  obtain ⟨first, more, spelled, inked, inside⟩ := opens_write value
  rw [spelled] at needs ⊢
  apply needsAll_congr waits _ needs
  rw [step_inked _ inked, step_inked _ inked, same first inside]

theorem needsAll_items {frames : List Frame} {item : Value} {more : List Value} (needs : ∀ other ∈ item :: more, Needs other)
    (reversed : List Value) (fits : frames.length + (1 + max item.depth (Value.itemsDepth more)) ≤ depthLimit) :
    NeedsAll (.at (.value (.list reversed :: frames))) (write item ++ (writeMoreItems more ++ [']'])) := by
  induction more generalizing item reversed with
  | nil =>
    apply needsAll_value (needs _ List.mem_cons_self) (by rw [List.length_cons]; omega) (ends_moreItems [] [])
    exact needsAll_last ']' ⟨_, rfl, rfl⟩
  | cons next more hypothesis =>
    rw [Value.itemsDepth] at fits
    have comma : (Place.afterItem frames (item.plain :: reversed)).read ',' =
        .ok (.at (.nextItem frames (item.plain :: reversed))) := rfl
    have others := hypothesis (fun other member => needs other (List.mem_cons_of_mem _ member)) (item.plain :: reversed)
      (by omega)
    apply needsAll_value (needs _ List.mem_cons_self) (by rw [List.length_cons]; omega) (ends_moreItems (next :: more) [])
    rw [writeMoreItems, List.cons_append, List.append_assoc]
    apply needsAll_cons ⟨_, rfl, rfl⟩ ((step_inked _ rfl).trans comma)
    exact needsAll_item ⟨_, rfl, rfl⟩ (read_nextItem frames _) others

theorem needs_list {items : List Value} (needs : ∀ item ∈ items, Needs item) : Needs (.list items) := by
  intro frames fits inside
  rw [Value.depth] at fits
  have opening : (Place.value frames).read '[' = .ok (.at (.firstItem frames)) := if_pos (by omega)
  rw [write]
  apply needsAll_cons ⟨_, rfl, rfl⟩ ((step_inked _ rfl).trans opening)
  cases items with
  | nil => exact needsAll_last ']' ⟨_, rfl, rfl⟩
  | cons item more =>
    rw [writeItems, List.append_assoc]
    exact needsAll_item ⟨_, rfl, rfl⟩ (read_firstItem frames) (needsAll_items needs [] fits)

theorem needs_blob (bytes : List UInt8) : Needs (.blob bytes) := by
  have scalars : ∀ item ∈ bytes.map Value.ofByte, Needs item := by
    intro item member
    obtain ⟨byte, _, rfl⟩ := List.mem_map.mp member
    exact needs_int _
  intro frames fits inside
  rw [Value.write_blob]
  apply needs_list scalars frames _ nofun
  rw [Value.depth, Value.itemsDepth_bytes]
  exact fits

theorem needsAll_entry {place : Place} {frames : List Frame} {reversed : List (String × Value)} (waits : Short (.at place) [])
    (opening : place.read '"' = .ok (.withinKey frames reversed ⟨.none, []⟩)) (key : String) {behind : List Char}
    (onward : NeedsAll (.at (.value (.map reversed key :: frames))) behind) :
    NeedsAll (.at place) (quote key.toList ++ ':' :: behind) := by
  have colon : (Place.afterKey frames reversed key).read ':' = .ok (.at (.value (.map reversed key :: frames))) := rfl
  apply needsAll_append
  · apply needsAll_cons waits ((step_inked place rfl).trans opening)
    exact needsAll_content (follows_key frames reversed) (fun _ => ⟨_, rfl, rfl⟩) key
  · intro rest _
    rw [quote, List.cons_append, outcome_place _ rfl opening, List.append_assoc, List.singleton_append, outcome_key]
  · exact needsAll_cons ⟨_, rfl, rfl⟩ ((step_inked _ rfl).trans colon) onward

theorem needsAll_entries {frames : List Frame} {key : String} {value : Value} {more : List (String × Value)}
    (needs : ∀ entry ∈ (key, value) :: more, Needs entry.2) (reversed : List (String × Value))
    (fits : frames.length + (1 + max value.depth (Value.entriesDepth more)) ≤ depthLimit) :
    NeedsAll (.at (.value (.map reversed key :: frames))) (write value ++ (writeMoreEntries more ++ ['\x7d'])) := by
  induction more generalizing key value reversed with
  | nil =>
    have first : Needs value := needs _ List.mem_cons_self
    apply needsAll_value first (by rw [List.length_cons]; omega) (ends_moreEntries [] [])
    exact needsAll_last '\x7d' ⟨_, rfl, rfl⟩
  | cons next more hypothesis =>
    obtain ⟨nextKey, next⟩ := next
    have first : Needs value := needs _ List.mem_cons_self
    rw [Value.entriesDepth] at fits
    have comma : (Place.afterEntry frames ((key, value.plain) :: reversed)).read ',' =
        .ok (.at (.nextKey frames ((key, value.plain) :: reversed))) := rfl
    have others := hypothesis (fun entry member => needs entry (List.mem_cons_of_mem _ member))
      ((key, value.plain) :: reversed) (by omega)
    apply needsAll_value first (by rw [List.length_cons]; omega) (ends_moreEntries ((nextKey, next) :: more) [])
    rw [writeMoreEntries, List.cons_append, List.append_assoc, List.cons_append, List.append_assoc]
    apply needsAll_cons ⟨_, rfl, rfl⟩ ((step_inked _ rfl).trans comma)
    exact needsAll_entry ⟨_, rfl, rfl⟩ rfl nextKey others

theorem needs_map {entries : List (String × Value)} (needs : ∀ entry ∈ entries, Needs entry.2) : Needs (.map entries) := by
  intro frames fits inside
  rw [Value.depth] at fits
  have opening : (Place.value frames).read '\x7b' = .ok (.at (.firstKey frames)) := if_pos (by omega)
  rw [write]
  apply needsAll_cons ⟨_, rfl, rfl⟩ ((step_inked _ rfl).trans opening)
  cases entries with
  | nil => exact needsAll_last '\x7d' ⟨_, rfl, rfl⟩
  | cons entry more =>
    rw [writeEntries, List.append_assoc, List.cons_append, List.append_assoc]
    exact needsAll_entry ⟨_, rfl, rfl⟩ rfl entry.1 (needsAll_entries needs [] fits)

theorem needs (value : Value) : Needs value := by
  induction value using Value.byParts with
  | null => exact needs_null
  | bool flag => exact needs_bool flag
  | int n => exact needs_int n
  | float x => exact needs_float x
  | text content => exact needs_text content
  | blob bytes => exact needs_blob bytes
  | list items hypothesis => exact needs_list hypothesis
  | map entries hypothesis => exact needs_map hypothesis

theorem outcome_blanks {blanks : List Char} (blank : ∀ char ∈ blanks, isBlank char = true) (place : Place) (rest : List Char) :
    outcome (.at place) (blanks ++ rest) = outcome (.at place) rest := by
  induction blanks with
  | nil => rfl
  | cons char blanks hypothesis =>
    have stays : (State.at place).step char = .ok (.at place) := if_pos (blank char List.mem_cons_self)
    rw [List.cons_append, outcome_cons _ stays]
    exact hypothesis fun other member => blank other (List.mem_cons_of_mem _ member)

theorem outcome_trailing (value : Value) {behind : List Char} (inked : ∃ char ∈ behind, isBlank char = false) :
    outcome (.at (.done value)) behind = .error .trailingCharacters := by
  induction behind with
  | nil =>
    obtain ⟨char, member, _⟩ := inked
    cases member
  | cons char rest hypothesis =>
    by_cases blank : isBlank char = true
    · have stays : (State.at (.done value)).step char = .ok (.at (.done value)) := if_pos blank
      obtain ⟨other, member, different⟩ := inked
      rw [outcome_cons _ stays]
      refine hypothesis ⟨other, (List.mem_cons.mp member).resolve_left ?_, different⟩
      rintro rfl
      exact absurd blank (Bool.eq_false_iff.mp different)
    · apply outcome_error
      exact step_inked _ (Bool.eq_false_iff.mpr blank)

theorem ends_blanks {blanks : List Char} (blank : ∀ char ∈ blanks, isBlank char = true) : Ends blanks := by
  intro char member
  have among := blank char (List.mem_of_mem_head? member)
  have white : char = ' ' ∨ char = '\t' ∨ char = '\n' ∨ char = '\r' := by
    simpa only [isBlank, Bool.or_eq_true, decide_eq_true_eq, or_assoc] using among
  rcases white with rfl | rfl | rfl | rfl <;> decide

end RowAlgebra.Json

namespace RowAlgebra.Proofs.TruncatedText
open Json

def Blank (text : String) : Prop := ∀ char ∈ text.toList, isBlank char = true

/-- Where the text of a value ends can be told from the text, and nothing that is not blank may stand
behind it. -/
structure Delimited (value : Value) : Prop where
  cut : ∀ first second, value.toJson = first ++ second → second ≠ "" →
    ∃ error, Value.ofJson first = .error (.decode error) ∧ error.category = .eof
  padded : ∀ before behind, Blank before → Blank behind →
    Value.ofJson (before ++ value.toJson ++ behind) = Value.ofJson value.toJson
  trailing : ∀ behind, ¬Blank behind → Value.ofJson (value.toJson ++ behind) = .error (.decode .trailingCharacters)

theorem ofJson_eq_outcome (text : String) : Value.ofJson text = (outcome .start text.toList).mapError .decode := by
  rw [Value.ofJson, read_eq_outcome]

theorem toList_toJson (value : Value) : value.toJson.toList = write value := by
  rw [Value.toJson, String.toList_ofList]

theorem outcome_padded (value : Value) {before behind : List Char} (blankBefore : ∀ char ∈ before, isBlank char = true)
    (blankBehind : ∀ char ∈ behind, isBlank char = true) :
    outcome .start (before ++ write value ++ behind) = outcome .start (write value) := by
  have alone := reads value [] [] (Nat.zero_le _) fun _ => ends_nil
  rw [List.append_nil] at alone
  rw [State.start, List.append_assoc, outcome_blanks blankBefore,
    reads value [] behind (Nat.zero_le _) fun _ => ends_blanks blankBehind, alone]
  split
  next =>
    have ending := outcome_blanks blankBehind (.after [] value.plain) []
    rwa [List.append_nil] at ending
  next => rfl

/-- The text of a value that is no bare number and not nested too deep is short wherever it is cut,
is read as it is between blanks, and has nothing else behind it. -/
theorem texts_delimited (value : Value) (nested : value.depth ≤ 127) (other : value.isNumeric = false) :
    Delimited value ∧ Json.Error.trailingCharacters.message = "trailing characters" := by
  have unlike : ¬value.isNumeric = true := Bool.eq_false_iff.mp other
  have room : ([] : List Frame).length + value.depth ≤ depthLimit := (Nat.zero_add _).trans_le nested
  refine ⟨⟨?cut, ?padded, ?trailing⟩, rfl⟩
  case cut =>
    intro first second split more
    have chars : write value = first.toList ++ second.toList := by rw [← toList_toJson, split, String.toList_append]
    obtain ⟨error, short, eof⟩ := needs value [] room (fun numeric => absurd numeric unlike) first.toList second.toList chars
      (String.toList_eq_nil_iff.not.mpr more)
    refine ⟨error, ?_, eof⟩
    rw [ofJson_eq_outcome, State.start, short]
    rfl
  case padded =>
    intro before behind blankBefore blankBehind
    rw [ofJson_eq_outcome, ofJson_eq_outcome, String.toList_append, String.toList_append, toList_toJson,
      outcome_padded value blankBefore blankBehind]
  case trailing =>
    intro behind inked
    have some : ∃ char ∈ behind.toList, isBlank char = false := by
      simpa only [Blank, not_forall, exists_prop, Bool.not_eq_true] using inked
    rw [ofJson_eq_outcome, String.toList_append, toList_toJson, State.start,
      reads value [] behind.toList (Nat.zero_le _) fun numeric => absurd numeric unlike, if_pos room, Place.after,
      outcome_trailing _ some]
    rfl

/-- A number that stands alone may end before its text does. -/
example : (Value.int 12).toJson = "1" ++ "2" ∧ Value.ofJson "1" = .ok (.int 1) := by decide +kernel

/-- A map whose text holds escapes, a word and an exponent. -/
def sample : Value := .map [("a\"b", .list [.null, .float (.ofInt64 (-1500000000000000000)), .text "\n"]), ("c", .blob [7])]

theorem sample_delimited : sample.toJson = "\x7b\"a\\\"b\":[null,-1.5e+18,\"\\n\"],\"c\":[7]\x7d" ∧
    sample.depth ≤ 127 ∧ sample.isNumeric = false ∧ Delimited sample :=
  ⟨by decide +kernel, by decide, rfl, (texts_delimited sample (by decide) rfl).1⟩

end RowAlgebra.Proofs.TruncatedText
