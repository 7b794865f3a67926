/-! # Maps with rising keys

    A map from text as a list of entries whose keys rise.  Two maps with
    the same entries are the same list. -/

namespace EventCodec.Ordered

variable {α : Type}

/-- The value under a key. -/
def get? (key : String) (entries : List (String × α)) : Option α :=
  (entries.find? fun e => e.1 == key).map Prod.snd

/-- Puts an entry in its place, instead of one with the same key. -/
def insert (key : String) (value : α) : List (String × α) → List (String × α)
  | [] => [(key, value)]
  | e :: rest =>
    if key < e.1 then (key, value) :: e :: rest
    else if key = e.1 then (key, value) :: rest
    else e :: insert key value rest

/-- Removes the entry under a key. -/
def erase (key : String) (entries : List (String × α)) : List (String × α) :=
  entries.filter fun e => e.1 != key

end EventCodec.Ordered
