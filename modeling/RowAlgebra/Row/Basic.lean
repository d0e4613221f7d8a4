import RowAlgebra.Value.Basic

/-! Rows: values by field name. The names are strictly ascending, so two rows that hold
the same values under the same names are equal. -/

namespace RowAlgebra

/-- Field names in ascending order, each with its value. -/
structure Row where
  entries : List (String × Value)
  ascending : entries.Pairwise fun first second => first.1 < second.1
deriving DecidableEq

namespace Row

instance : EmptyCollection Row := ⟨⟨[], .nil⟩⟩

instance : Inhabited Row := ⟨∅⟩

def get? (row : Row) (name : String) : Option Value := row.entries.lookup name

def contains (row : Row) (name : String) : Bool := (row.get? name).isSome

def names (row : Row) : List String := row.entries.map Prod.fst

/-- Places an entry among ascending ones; an entry of the same name gives way. -/
def place (name : String) (value : Value) : List (String × Value) → List (String × Value)
  | [] => [(name, value)]
  | (other, held) :: rest =>
    if name < other then (name, value) :: (other, held) :: rest
    else if name = other then (name, value) :: rest
    else (other, held) :: place name value rest

theorem mem_place {name : String} {value : Value} {entries : List (String × Value)} {entry : String × Value}
    (member : entry ∈ place name value entries) : entry = (name, value) ∨ entry ∈ entries := by
  induction entries with
  | nil => simpa [place] using member
  | cons head rest ih =>
    obtain ⟨other, held⟩ := head
    simp only [place] at member
    split at member
    · simpa using member
    · split at member
      · simp only [List.mem_cons] at member ⊢
        exact member.imp_right .inr
      · simp only [List.mem_cons] at member ⊢
        rcases member with same | member
        · exact .inr (.inl same)
        · exact (ih member).imp_right .inr

theorem lt_of_not_lt_of_ne {a b : String} (notLess : ¬a < b) (different : a ≠ b) : b < a :=
  Classical.byContradiction fun notGreater => different (String.le_antisymm notGreater notLess)

theorem ascending_place {name : String} {value : Value} {entries : List (String × Value)}
    (ascending : entries.Pairwise fun first second => first.1 < second.1) :
    (place name value entries).Pairwise fun first second => first.1 < second.1 := by
  induction ascending with
  | nil => simp [place]
  | @cons head rest above ascending ih =>
    obtain ⟨other, held⟩ := head
    simp only [place]
    split
    next less =>
      refine .cons ?_ (.cons above ascending)
      intro entry member
      rcases List.mem_cons.mp member with rfl | member
      · exact less
      · exact String.lt_trans less (above entry member)
    next notLess =>
      split
      next same => exact .cons (fun entry member => same ▸ above entry member) ascending
      next different =>
        refine .cons ?_ ih
        intro entry member
        rcases mem_place member with rfl | member
        · exact lt_of_not_lt_of_ne notLess different
        · exact above entry member

def insert (row : Row) (name : String) (value : Value) : Row :=
  ⟨place name value row.entries, ascending_place row.ascending⟩

/-- Of repeated names the last one counts. -/
def ofList (entries : List (String × Value)) : Row :=
  entries.foldl (fun row (name, value) => row.insert name value) ∅

end Row

end RowAlgebra
