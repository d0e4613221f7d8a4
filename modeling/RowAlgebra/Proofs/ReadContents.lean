import RowAlgebra.Proofs.PlainValue
import RowAlgebra.Proofs.ReaderRun

/-! What a value that was read from a text is made of. Its leaves are the scalars of the text,
in their order, and its lists and maps are nested no deeper than the reader allows. The reader
is followed by what the lists and maps hold that are open: a character opens one of them, closes
one or leaves them as they are, and before that it may have completed a scalar. -/

theorem RowAlgebra.map_ok_iff {ε α β : Type} {f : α → β} {result : Except ε α} {b : β} :
    result.map f = .ok b ↔ ∃ a, result = .ok a ∧ f a = b := by
  cases result with
  | error error => simp [Except.map]
  | ok a => simp [Except.map]

namespace RowAlgebra.Value

mutual

/-- Everything in the value that is no list or map, in order. -/
def leaves : Value → List Value
  | list items => itemsLeaves items
  | map entries => entriesLeaves entries
  | scalar => [scalar]

def itemsLeaves : List Value → List Value
  | [] => []
  | item :: rest => item.leaves ++ itemsLeaves rest

def entriesLeaves : List (String × Value) → List Value
  | [] => []
  | (_, value) :: rest => value.leaves ++ entriesLeaves rest

end

theorem itemsLeaves_append (first second : List Value) :
    itemsLeaves (first ++ second) = itemsLeaves first ++ itemsLeaves second := by
  induction first with
  | nil => rfl
  | cons item rest ih => rw [List.cons_append, itemsLeaves, itemsLeaves, ih, List.append_assoc]

theorem entriesLeaves_eq (entries : List (String × Value)) : entriesLeaves entries = itemsLeaves (entries.map Prod.snd) := by
  induction entries with
  | nil => rfl
  | cons entry rest ih => rw [entriesLeaves, ih, List.map_cons, itemsLeaves]

theorem entriesDepth_eq (entries : List (String × Value)) : entriesDepth entries = itemsDepth (entries.map Prod.snd) := by
  induction entries with
  | nil => rfl
  | cons entry rest ih => rw [entriesDepth, ih, List.map_cons, itemsDepth]

theorem itemsDepth_append (first second : List Value) :
    itemsDepth (first ++ second) = max (itemsDepth first) (itemsDepth second) := by
  induction first with
  | nil => exact (Nat.zero_max _).symm
  | cons item rest ih => rw [List.cons_append, itemsDepth, itemsDepth, ih, Nat.max_assoc]

theorem itemsDepth_reverse (items : List Value) : itemsDepth items.reverse = itemsDepth items := by
  induction items with
  | nil => rfl
  | cons item rest ih => rw [List.reverse_cons, itemsDepth_append, ih, itemsDepth, itemsDepth, itemsDepth, Nat.max_zero, Nat.max_comm]

mutual

theorem holdsBlob_eq_false_iff : (value : Value) → (value.holdsBlob = false ↔ ∀ leaf ∈ value.leaves, leaf.kind ≠ .blob)
  | null | bool _ | int _ | float _ | text _ | blob _ => by simp [holdsBlob, leaves, kind]
  | list items => itemsHoldBlob_eq_false_iff items
  | map entries => entriesHoldBlob_eq_false_iff entries

theorem itemsHoldBlob_eq_false_iff :
    (items : List Value) → (itemsHoldBlob items = false ↔ ∀ leaf ∈ itemsLeaves items, leaf.kind ≠ .blob)
  | [] => by simp [itemsHoldBlob, itemsLeaves]
  | item :: rest => by
    rw [itemsHoldBlob, itemsLeaves, Bool.or_eq_false_iff, List.forall_mem_append]
    exact and_congr (holdsBlob_eq_false_iff item) (itemsHoldBlob_eq_false_iff rest)

theorem entriesHoldBlob_eq_false_iff :
    (entries : List (String × Value)) → (entriesHoldBlob entries = false ↔ ∀ leaf ∈ entriesLeaves entries, leaf.kind ≠ .blob)
  | [] => by simp [entriesHoldBlob, entriesLeaves]
  | (_, value) :: rest => by
    rw [entriesHoldBlob, entriesLeaves, Bool.or_eq_false_iff, List.forall_mem_append]
    exact and_congr (holdsBlob_eq_false_iff value) (entriesHoldBlob_eq_false_iff rest)

end

end RowAlgebra.Value

namespace RowAlgebra.Json
open Value (itemsLeaves itemsDepth)

def State.completed (state : State) (char : Char) : List Scalar :=
  match state with
  | within _ part =>
    match part.step char with
    | .ok (.complete scalar) | .ok (.completeBefore scalar) => [scalar]
    | .ok (.more _) | .error _ => []
  | .at _ | withinKey .. => []

def State.completedAtEnd : State → List Scalar
  | within _ part =>
    match part.finish with
    | .ok scalar => [scalar]
    | .error _ => []
  | .at _ | withinKey .. => []

/-- The scalars that a text completes, keys of maps not counted. -/
def State.scalars (state : State) : List Char → List Scalar
  | [] => state.completedAtEnd
  | char :: rest =>
    match state.step char with
    | .ok next => state.completed char ++ next.scalars rest
    | .error _ => []

def scalars (text : List Char) : List Scalar := State.start.scalars text

theorem scalar_flat (scalar : Scalar) :
    scalar.value.leaves = [scalar.value] ∧ scalar.value.depth = 0 ∧ scalar.value.kind ≠ .blob := by
  cases scalar with
  | number number =>
    cases number with
    | natural n =>
      simp only [Scalar.value, Number.value, Value.ofUInt64]
      split
      all_goals exact ⟨rfl, rfl, Kind.noConfusion⟩
    | negative | minusZero | float => exact ⟨rfl, rfl, Kind.noConfusion⟩
  | null | bool | text => exact ⟨rfl, rfl, Kind.noConfusion⟩

def Frame.held : Frame → List Value
  | list reversed => reversed
  | map reversed _ => reversed.map Prod.snd

/-- The values that open lists and maps hold, level by level, the innermost level and the latest
value first. The outermost level is the text itself. -/
def levels (frames : List Frame) : List (List Value) := frames.map Frame.held ++ [[]]

def Place.levels : Place → List (List Value)
  | value frames => Json.levels frames
  | firstItem frames | firstKey frames => [] :: Json.levels frames
  | nextItem frames reversed | afterItem frames reversed => reversed :: Json.levels frames
  | nextKey frames reversed | afterKey frames reversed _ | afterEntry frames reversed =>
    reversed.map Prod.snd :: Json.levels frames
  | done result => [[result]]

def State.levels : State → List (List Value)
  | .at place => place.levels
  | within frames _ => Json.levels frames
  | withinKey frames reversed _ => reversed.map Prod.snd :: Json.levels frames

def push (value : Value) : List (List Value) → List (List Value)
  | [] => [[value]]
  | held :: outer => (value :: held) :: outer

theorem levels_after (frames : List Frame) (value : Value) : (Place.after frames value).levels = push value (levels frames) := by
  cases frames with
  | nil => rfl
  | cons frame outer => cases frame <;> rfl

/-- What a character does to the levels, apart from a scalar that it completes. -/
inductive Moves : List (List Value) → List (List Value) → Prop where
  | stays {all} : Moves all all
  | opens {outer} (room : outer.length ≤ depthLimit) : Moves outer ([] :: outer)
  | closes {held outer value} (inside : outer ≠ []) (leaves : value.leaves = itemsLeaves held.reverse)
      (depth : value.depth = 1 + itemsDepth held) : Moves (held :: outer) (push value outer)

theorem levels_ne_nil (frames : List Frame) : levels frames ≠ [] := List.append_ne_nil_of_right_ne_nil _ (List.cons_ne_nil _ _)

theorem moves_closeList (frames : List Frame) (reversed : List Value) :
    Moves (reversed :: levels frames) (Place.after frames (.list reversed.reverse)).levels := by
  rw [levels_after]
  refine .closes (levels_ne_nil frames) rfl ?_
  rw [Value.depth, Value.itemsDepth_reverse]

theorem moves_closeMap (frames : List Frame) (reversed : List (String × Value)) :
    Moves (reversed.map Prod.snd :: levels frames) (Place.after frames (.map reversed.reverse)).levels := by
  rw [levels_after]
  refine .closes (levels_ne_nil frames) ?_ ?_
  · rw [Value.leaves, Value.entriesLeaves_eq, List.map_reverse]
  · rw [Value.depth, Value.entriesDepth_eq, List.map_reverse, Value.itemsDepth_reverse]

theorem begin_moves {frames : List Frame} {char : Char} {next : State} (taken : State.begin frames char = .ok next) :
    Moves (levels frames) next.levels := by
  have room : frames.length < depthLimit → (levels frames).length ≤ depthLimit := by
    intro inside
    rw [levels, List.length_append, List.length_map]
    exact inside
  unfold State.begin at taken
  repeat' split at taken
  all_goals cases taken
  next inside => exact .opens (room inside)
  next inside => exact .opens (room inside)
  next => exact .stays

theorem read_moves {place : Place} {char : Char} {next : State} (taken : place.read char = .ok next) :
    Moves place.levels next.levels := by
  cases place with
  | value frames => exact begin_moves taken
  | firstItem frames =>
    rw [Place.read] at taken
    split at taken
    · cases taken
      exact moves_closeList frames []
    · exact begin_moves taken
  | nextItem frames reversed =>
    rw [Place.read] at taken
    split at taken
    · cases taken
    · exact begin_moves taken
  | afterItem frames reversed =>
    rw [Place.read] at taken
    repeat' split at taken
    all_goals cases taken
    · exact moves_closeList frames reversed
    · exact .stays
  | firstKey frames =>
    rw [Place.read] at taken
    repeat' split at taken
    all_goals cases taken
    · exact moves_closeMap frames []
    · exact .stays
  | nextKey frames reversed =>
    rw [Place.read] at taken
    repeat' split at taken
    all_goals cases taken
    exact .stays
  | afterKey frames reversed key =>
    rw [Place.read] at taken
    split at taken
    all_goals cases taken
    exact .stays
  | afterEntry frames reversed =>
    rw [Place.read] at taken
    repeat' split at taken
    all_goals cases taken
    · exact moves_closeMap frames reversed
    · exact .stays
  | done value => cases taken

theorem place_moves {place : Place} {char : Char} {next : State} (taken : place.step char = .ok next) :
    Moves place.levels next.levels := by
  rw [Place.step] at taken
  split at taken
  · cases taken
    exact .stays
  · exact read_moves taken

def pushAll (scalars : List Scalar) (all : List (List Value)) : List (List Value) :=
  scalars.foldl (fun all scalar => push scalar.value all) all

theorem step_moves {state next : State} {char : Char} (taken : state.step char = .ok next) :
    Moves (pushAll (state.completed char) state.levels) next.levels := by
  cases state with
  | «at» place => exact place_moves taken
  | within frames part =>
    rw [State.step] at taken
    rw [State.completed]
    cases stepped : part.step char with
    | error error =>
      rw [stepped] at taken
      cases taken
    | ok progress =>
      rw [stepped] at taken
      cases progress with
      | more longer =>
        cases taken
        exact .stays
      | complete scalar =>
        cases taken
        change Moves (push scalar.value (levels frames)) (Place.after frames scalar.value).levels
        rw [levels_after]
        exact .stays
      | completeBefore scalar =>
        have moves := place_moves taken
        rw [levels_after] at moves
        exact moves
  | withinKey frames reversed part =>
    rw [State.step] at taken
    split at taken
    all_goals cases taken
    all_goals exact .stays

theorem finish_levels {state : State} {value : Value} (done : state.finish = .ok value) :
    pushAll state.completedAtEnd state.levels = [[value]] := by
  have ended : ∀ {place : Place}, place.finish = .ok value → place.levels = [[value]] := by
    intro place found
    cases place
    all_goals cases found
    rfl
  cases state with
  | «at» place => exact ended done
  | within frames part =>
    rw [State.finish] at done
    rw [State.completedAtEnd]
    cases finished : part.finish with
    | error error =>
      rw [finished] at done
      cases done
    | ok scalar =>
      rw [finished] at done
      have last := ended done
      rw [levels_after] at last
      exact last
  | withinKey => cases done

/-- The leaves of all levels, in the order of the text. -/
def gathered : List (List Value) → List Value
  | [] => []
  | held :: outer => gathered outer ++ itemsLeaves held.reverse

/-- What each level holds is nested no deeper than there is room for within the levels around. -/
def Fits : List (List Value) → Prop
  | [] => True
  | held :: outer => outer.length + itemsDepth held ≤ depthLimit ∧ Fits outer

theorem gathered_push (value : Value) (all : List (List Value)) : gathered (push value all) = gathered all ++ value.leaves := by
  have latest : ∀ held : List Value, itemsLeaves (value :: held).reverse = itemsLeaves held.reverse ++ value.leaves := by
    intro held
    rw [List.reverse_cons, Value.itemsLeaves_append, itemsLeaves, itemsLeaves, List.append_nil]
  cases all with
  | nil => exact latest []
  | cons held outer => rw [push, gathered, gathered, latest, List.append_assoc]

theorem gathered_moves {before after : List (List Value)} (moves : Moves before after) : gathered after = gathered before := by
  cases moves with
  | stays => rfl
  | opens room => exact List.append_nil _
  | closes inside leaves depth => rw [gathered_push, leaves, gathered]

theorem fits_push {value : Value} {all : List (List Value)} (fits : Fits all)
    (room : all.length - 1 + value.depth ≤ depthLimit) : Fits (push value all) := by
  cases all with
  | nil =>
    refine ⟨?_, trivial⟩
    rw [itemsDepth, itemsDepth, Nat.max_zero]
    exact room
  | cons held outer =>
    refine ⟨?_, fits.2⟩
    have before := fits.1
    rw [List.length_cons] at room
    rw [itemsDepth]
    omega

theorem fits_moves {before after : List (List Value)} (moves : Moves before after) (fits : Fits before) : Fits after := by
  cases moves with
  | stays => exact fits
  | opens room => exact ⟨room, fits⟩
  | closes inside leaves depth =>
    refine fits_push fits.2 ?_
    have room := fits.1
    have positive := List.length_pos_iff.mpr inside
    omega

theorem gathered_pushAll (scalars : List Scalar) (all : List (List Value)) :
    gathered (pushAll scalars all) = gathered all ++ scalars.map Scalar.value := by
  induction scalars generalizing all with
  | nil => exact (List.append_nil _).symm
  | cons scalar rest ih =>
    rw [pushAll, List.foldl_cons, ← pushAll, ih, gathered_push, (scalar_flat scalar).1, List.append_assoc, List.map_cons,
      List.singleton_append]

theorem fits_pushAll (scalars : List Scalar) {all : List (List Value)} (fits : Fits all) : Fits (pushAll scalars all) := by
  induction scalars generalizing all with
  | nil => exact fits
  | cons scalar rest ih =>
    refine ih (fits_push fits ?_)
    have inside : all.length - 1 ≤ depthLimit := by
      cases all with
      | nil => exact Nat.zero_le _
      | cons held outer => exact Nat.le_trans (Nat.le_add_right _ _) fits.1
    rw [(scalar_flat scalar).2.1]
    exact inside

theorem outcome_cons_ok {state : State} {char : Char} {rest : List Char} {value : Value}
    (found : outcome state (char :: rest) = .ok value) :
    ∃ next, state.step char = .ok next ∧ outcome next rest = .ok value := by
  cases taken : state.step char with
  | error error =>
    rw [outcome_error rest taken] at found
    cases found
  | ok next =>
    rw [outcome_cons rest taken] at found
    exact ⟨next, rfl, found⟩

/-- From any state the reader adds the scalars of the text to the leaves that it has. -/
theorem outcome_leaves {state : State} {text : List Char} {value : Value} (found : outcome state text = .ok value) :
    value.leaves = gathered state.levels ++ (state.scalars text).map Scalar.value := by
  induction text generalizing state with
  | nil =>
    have last := gathered_pushAll state.completedAtEnd state.levels
    rw [finish_levels found] at last
    rw [State.scalars, ← last, gathered, gathered, List.reverse_singleton, itemsLeaves, itemsLeaves, List.append_nil,
      List.nil_append]
  | cons char rest ih =>
    obtain ⟨next, taken, found⟩ := outcome_cons_ok found
    rw [State.scalars, taken, ih found, gathered_moves (step_moves taken), gathered_pushAll, List.map_append,
      List.append_assoc]

theorem outcome_depth {state : State} {text : List Char} {value : Value} (fits : Fits state.levels)
    (found : outcome state text = .ok value) : value.depth ≤ depthLimit := by
  induction text generalizing state with
  | nil =>
    have last := fits_pushAll state.completedAtEnd fits
    rw [finish_levels found] at last
    have inside := last.1
    rw [itemsDepth, itemsDepth, Nat.max_zero, List.length_nil, Nat.zero_add] at inside
    exact inside
  | cons char rest ih =>
    obtain ⟨next, taken, found⟩ := outcome_cons_ok found
    exact ih (fits_moves (step_moves taken) (fits_pushAll _ fits)) found

theorem read_leaves {text : List Char} {value : Value} (found : read text = .ok value) :
    value.leaves = (scalars text).map Scalar.value := by
  rw [read_eq_outcome] at found
  exact outcome_leaves found

theorem read_depth {text : List Char} {value : Value} (found : read text = .ok value) : value.depth ≤ depthLimit := by
  have fits : Fits State.start.levels := ⟨Nat.zero_le _, trivial⟩
  rw [read_eq_outcome] at found
  exact outcome_depth fits found

theorem read_holdsBlob {text : List Char} {value : Value} (found : read text = .ok value) : value.holdsBlob = false := by
  rw [Value.holdsBlob_eq_false_iff, read_leaves found]
  intro leaf member
  obtain ⟨scalar, _, rfl⟩ := List.mem_map.mp member
  exact (scalar_flat scalar).2.2

theorem ofJson_ok_iff {text : String} {value : Value} : Value.ofJson text = .ok value ↔ read text.toList = .ok value := by
  rw [Value.ofJson]
  cases read text.toList with
  | error error =>
    constructor
    all_goals
      intro impossible
      cases impossible
  | ok result =>
    constructor
    all_goals
      intro same
      cases same
      rfl

end RowAlgebra.Json
