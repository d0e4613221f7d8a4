/-! Tables of a TOML document, and the rules by which its statements fill them: no key is
given twice, and no table is defined twice. -/

namespace RowAlgebra.Toml

/-- How a table came to be, which settles what may be added to it. -/
inductive Origin where
  /-- Named on the way to another table. -/
  | implied
  | header
  /-- Named by a dotted key. -/
  | dotted
  | inline
deriving DecidableEq

inductive Value where
  | text (content : String)
  /-- A number, a boolean, a date or a time, as it was written. -/
  | literal (spelling : String)
  /-- Only a list of tables that headers define can grow. -/
  | list (grows : Bool) (items : List Value)
  | table (origin : Origin) (entries : List (String × Value))

abbrev Entries := List (String × Value)

inductive Statement where
  | pair (path : List String) (value : Value)
  | tableHeader (path : List String)
  | listHeader (path : List String)

namespace Entries

def replace (entries : Entries) (key : String) (value : Value) : Entries :=
  entries.map fun (name, held) => if name = key then (name, value) else (name, held)

def add (entries : Entries) (key : String) (value : Value) : Entries := entries ++ [(key, value)]

/-- Gives a dotted key its value. The tables on the way are new, or were made by dotted
keys or on the way to others. -/
def define : List String → Value → Entries → Option Entries
  | [], _, _ => none
  | [key], value, entries =>
    match entries.lookup key with
    | none => some (entries.add key value)
    | some _ => none
  | key :: path, value, entries =>
    match entries.lookup key with
    | none => (define path value []).map fun inner => entries.add key (.table .dotted inner)
    | some (.table .dotted inner) =>
      (define path value inner).map fun longer => entries.replace key (.table .dotted longer)
    | some (.table .implied inner) =>
      (define path value inner).map fun longer => entries.replace key (.table .implied longer)
    | some _ => none

/-- Changes the table that a path leads to; of a growing list that is its last one. -/
def within (change : Entries → Option Entries) : List String → Entries → Option Entries
  | [], entries => change entries
  | key :: path, entries =>
    match entries.lookup key with
    | some (.table origin inner) =>
      if origin = .inline then none
      else (within change path inner).map fun changed => entries.replace key (.table origin changed)
    | some (.list true items) =>
      match items.getLast? with
      | some (.table origin inner) =>
        (within change path inner).map fun changed =>
          entries.replace key (.list true (items.dropLast ++ [.table origin changed]))
      | _ => none
    | _ => none

/-- Opens a table by its header: it is new, or was only named on the way to another. -/
def openTable (key : String) (entries : Entries) : Option Entries :=
  match entries.lookup key with
  | none => some (entries.add key (.table .header []))
  | some (.table .implied inner) => some (entries.replace key (.table .header inner))
  | some _ => none

def openItem (key : String) (entries : Entries) : Option Entries :=
  match entries.lookup key with
  | none => some (entries.add key (.list true [.table .header []]))
  | some (.list true items) => some (entries.replace key (.list true (items ++ [.table .header []])))
  | some _ => none

/-- Makes the tables on the way to a header that are not there yet. -/
def imply : List String → Entries → Entries
  | [], entries => entries
  | key :: path, entries =>
    match entries.lookup key with
    | none => entries.add key (.table .implied (imply path []))
    | some (.table origin inner) =>
      if origin = .inline then entries else entries.replace key (.table origin (imply path inner))
    | some (.list true items) =>
      match items.getLast? with
      | some (.table origin inner) =>
        entries.replace key (.list true (items.dropLast ++ [.table origin (imply path inner)]))
      | _ => entries
    | some _ => entries

/-- Opens what a header names, behind the tables on the way to it. -/
def openAt (step : String → Entries → Option Entries) (path : List String) (entries : Entries) : Option Entries :=
  match path.getLast? with
  | none => none
  | some key => (imply path.dropLast entries).within (step key) path.dropLast

end Entries

/-- A document in progress: its entries, and the path of the table that is open. -/
structure Document where
  entries : Entries
  path : List String

namespace Document

def empty : Document := ⟨[], []⟩

def add? (document : Document) : Statement → Option Document
  | .pair path value =>
    (document.entries.within (Entries.define path value) document.path).map fun entries => { document with entries }
  | .tableHeader path => (document.entries.openAt Entries.openTable path).map fun entries => ⟨entries, path⟩
  | .listHeader path => (document.entries.openAt Entries.openItem path).map fun entries => ⟨entries, path⟩

def entries? (statements : List Statement) : Option Entries :=
  (statements.foldlM add? empty).map Document.entries

end Document

end RowAlgebra.Toml
