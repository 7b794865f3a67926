/-! # The journal

    What codecs and registries report while they work.  An entry has a
    level, a message and named details; a detail that is not there is
    left out. -/

namespace EventCodec.Journal

inductive Level where
  | debug
  | info
  | warn
deriving DecidableEq, Repr

structure Entry where
  level : Level
  message : String
  /-- The details, by name. -/
  details : List (String × String)
deriving DecidableEq, Repr

/-- A detail that may be missing. -/
def optional (name : String) (value : Option String) : List (String × String) :=
  value.toList.map fun v => (name, v)

/-- A number as a detail. -/
def number (name : String) (n : Nat) : String × String :=
  (name, toString n)

end EventCodec.Journal
