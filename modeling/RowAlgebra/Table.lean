import RowAlgebra.Filter.Evaluation
import RowAlgebra.Json.Codec
import RowAlgebra.Select.Evaluation
import RowAlgebra.Update.Evaluation

/-! A table in memory: a list of rows under filters, updates and select options. -/

namespace RowAlgebra

structure Table where
  rows : List Row
deriving DecidableEq

namespace Table

def insert (table : Table) (row : Row) : Table := ⟨table.rows ++ [row]⟩

/-- Applies updates to every row that passes the filters, each row on its own. The results
are those of all rows, none where a row did not pass. -/
def update (table : Table) (filters : List Filter) (updates : List Update) :
    Table × List (Option (Except EvalError Unit)) :=
  let outcomes := table.rows.map fun row =>
    if Filter.matchesRow filters row then
      let (result, updated) := row.apply updates
      (updated, some result)
    else (row, none)
  (⟨outcomes.map Prod.fst⟩, outcomes.map Prod.snd)

def count (table : Table) (filters : List Filter) : Nat := table.rows.countP (Filter.matchesRow filters)

def keep (table : Table) (filters : List Filter) : Table := ⟨(Filter.select filters table.rows).1⟩

def select (table : Table) (options : List SelectOption) : Table := ⟨(selectRows options table.rows).1⟩

def toJson (table : Table) : List String := table.rows.map fun row => entriesToJson row.entries

end Table

end RowAlgebra
