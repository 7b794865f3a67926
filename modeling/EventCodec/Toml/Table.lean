import EventCodec.Ordered
import EventCodec.Toml.Scalar

/-! # Tables

    A document is a table of named entries.  A name stands for one thing
    only: a value, a table, or a row of tables.

    Tables come about in three ways.  A header makes one, and no second
    header can make it again.  A header also makes the tables on the way to
    its own, which a header of their own can still claim.  A dotted key
    makes tables as well; they grow by further dotted keys, and no header
    can claim them. -/

namespace EventCodec.Toml

/-! ### Names -/

/-- A name and the tables on the way to it. -/
structure Path where
  tables : List String
  name : String
deriving DecidableEq, Repr

namespace Path

/-- All names, the last one included. -/
def all (p : Path) : List String :=
  p.tables ++ [p.name]

end Path

/-! ### Tables -/

/-- How a table came about. -/
inductive Origin where
  /-- By a header of its own, or as the document itself. -/
  | header
  /-- On the way to the table of a header. -/
  | way
  /-- By a dotted key. -/
  | dotted
deriving DecidableEq, Repr

inductive Entry where
  | value (value : Value)
  | table (origin : Origin) (entries : List (String × Entry))
  /-- A row of tables, of which the last one can still grow; the others
      are not kept. -/
  | tables (last : List (String × Entry))

structure Table where
  origin : Origin
  entries : List (String × Entry)

namespace Table

def empty : Table :=
  { origin := .header, entries := [] }

def get? (t : Table) (name : String) : Option Entry :=
  Ordered.get? name t.entries

def put (t : Table) (name : String) (entry : Entry) : Table :=
  { t with entries := Ordered.insert name entry t.entries }

/-- Changes the table that some names lead to, making the tables on the
    way that are not there.  A dotted key cannot enter the table of a
    header. -/
def changeAt (dotted : Bool) (change : Table → Option Table) : List String → Table → Option Table
  | [], t => change t
  | name :: names, t =>
    match t.get? name with
    | none =>
      (changeAt dotted change names ⟨if dotted then .dotted else .way, []⟩).map fun made =>
        t.put name (.table made.origin made.entries)
    | some (.table origin entries) =>
      if dotted && origin == .header then none
      else
        (changeAt dotted change names ⟨origin, entries⟩).map fun changed =>
          t.put name (.table changed.origin changed.entries)
    | some (.tables last) =>
      (changeAt dotted change names ⟨.header, last⟩).map fun changed =>
        t.put name (.tables changed.entries)
    | some (.value _) => none

/-- Gives a new name its value.  A dotted key only adds to tables that
    dotted keys have made. -/
def assign (path : Path) (value : Value) : Table → Option Table :=
  changeAt true
    (fun t =>
      if (t.origin == .dotted) == path.tables.isEmpty || (t.get? path.name).isSome then none
      else some (t.put path.name (.value value)))
    path.tables

/-- Opens the table of a header. -/
def openTable (path : Path) : Table → Option Table :=
  changeAt false
    (fun t =>
      match t.get? path.name with
      | none => some (t.put path.name (.table .header []))
      | some (.table .way entries) => some (t.put path.name (.table .header entries))
      | some _ => none)
    path.tables

/-- Opens the next table of a row. -/
def openNext (path : Path) : Table → Option Table :=
  changeAt false
    (fun t =>
      match t.get? path.name with
      | none => some (t.put path.name (.tables []))
      | some (.tables _) => some (t.put path.name (.tables []))
      | some _ => none)
    path.tables

end Table

end EventCodec.Toml
