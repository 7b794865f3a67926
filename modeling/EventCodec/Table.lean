/-! # Maps in no particular order

    A map as a list of entries, for keys of any type.  A key that is put
    in again replaces its entry. -/

namespace EventCodec.Table

variable {κ α : Type} [DecidableEq κ]

/-- The value under a key. -/
def get? (key : κ) (entries : List (κ × α)) : Option α :=
  (entries.find? fun e => e.1 == key).map Prod.snd

/-- Removes the entry under a key. -/
def erase (key : κ) (entries : List (κ × α)) : List (κ × α) :=
  entries.filter fun e => e.1 != key

def insert (key : κ) (value : α) (entries : List (κ × α)) : List (κ × α) :=
  erase key entries ++ [(key, value)]

end EventCodec.Table
