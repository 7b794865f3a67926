import EventCodec.Event.Basic

/-! # Nested messages

    An event type whose messages nest: a node has a value and may hold a
    child, which is a node again.  A node is therefore a chain of values,
    outermost first.

    Reading keeps the ends of all the nodes that are open.  A node that
    occurs again is merged into what was read before, and each level of
    nesting takes one of the recursion budget. -/

namespace EventCodec

open Schema Wire

structure Node where
  value : Int32
  /-- The values of the child, its child, and so on. -/
  below : List Int32
deriving DecidableEq, Repr

namespace Node

/-! ### Writing -/

def valueNumber : UInt32 := 1
def childNumber : UInt32 := 2

/-- The value of one node, left out when it is zero. -/
def encodeValue (v : Int32) : Bytes :=
  if v = 0 then [] else (Piece.ofScalar .int32 v).encode valueNumber

/-- A child in front of which its own children have been written. -/
def encodeChild (v : Int32) (inner : Bytes) : Bytes :=
  Piece.encode childNumber
    { wireType := .lengthDelimited, content := delimited (encodeValue v ++ inner) }

def encode (n : Node) : Bytes :=
  encodeValue n.value ++ n.below.foldr encodeChild []

/-! ### Reading -/

/-- A place in a chain that is being read: the nodes around it, the
    nearest first, the node itself and the nodes inside it. -/
structure Cursor where
  outer : List Int32
  value : Int32
  inner : List Int32

namespace Cursor

/-- Into the child, which is made if there is none. -/
def enter (c : Cursor) : Cursor :=
  match c.inner with
  | [] => { outer := c.value :: c.outer, value := 0, inner := [] }
  | v :: inner => { outer := c.value :: c.outer, value := v, inner }

/-- Back to the parent. -/
def leave (c : Cursor) : Cursor :=
  match c.outer with
  | [] => c
  | v :: outer => { outer, value := v, inner := c.value :: c.inner }

end Cursor

/-- The path to a fault so many levels deep. -/
def place (depth : Nat) : List Place :=
  List.replicate depth { message := "Node", field := "child" }

/-- The path to a fault in the value of a node so many levels deep. -/
def valuePlace (depth : Nat) : List Place :=
  { message := "Node", field := "value" } :: place depth

/-- Reads the start of a child, so many levels deep. -/
def readChild (depth : Nat) (found : WireType) (i : Input) : Except Fault (Nat × Input) :=
  match expectWireType .lengthDelimited found with
  | .error e => .error e
  | .ok () => if recursionBudget ≤ depth then .error .recursionLimit else readLimit i

theorem size_readChild {depth limit : Nat} {found : WireType} {i rest : Input}
    (h : readChild depth found i = .ok (limit, rest)) : rest.size < i.size := by
  unfold readChild at h
  split at h
  · contradiction
  · split at h
    · contradiction
    · exact size_readLimit h

/-- Reads up to the end of the innermost node that is open; `limits` are
    the ends of all open ones below the outermost. -/
def readTo (limits : List Nat) (c : Cursor) (i : Input) : Except Failure Cursor :=
  let limit := limits.headD 0
  let depth := limits.length
  if limit < i.size then
    match _key : Key.read i with
    | .error e => .error { fault := e, path := place depth }
    | .ok (key, rest) =>
      if key.number = valueNumber then
        match _value : readSingle .int32 key.wireType rest with
        | .error e => .error { fault := e, path := valuePlace depth }
        | .ok (v, rest) => readTo limits { c with value := v } rest
      else if key.number = childNumber then
        match _child : readChild depth key.wireType rest with
        | .error e => .error { fault := e, path := place (depth + 1) }
        | .ok (limit, rest) => readTo (limit :: limits) c.enter rest
      else
        match _left : skip (recursionBudget - depth) key rest with
        | .error e => .error { fault := e, path := place depth }
        | .ok rest => readTo limits c rest
  else if i.size = limit then
    match limits with
    | [] => .ok c
    | _ :: outer => readTo outer c.leave i
  else .error { fault := .lengthExceeded, path := place depth }
termination_by (i.size, limits.length)
decreasing_by
  · have := Key.size_read _key
    have := size_readSingle _value
    exact .left _ _ (by omega)
  · have := Key.size_read _key
    have := size_readChild _child
    exact .left _ _ (by omega)
  · have := Key.size_read _key
    have := size_skip _left
    exact .left _ _ (by omega)
  · exact .right _ (by simp)

def decode (bytes : Bytes) : Except Failure Node :=
  match readTo [] { outer := [], value := 0, inner := [] } (.ofBytes bytes) with
  | .error f => .error f
  | .ok c => .ok { value := c.value, below := c.inner }

/-- Nested messages as an event type.  A schema of scalars cannot describe
    a child, so it is declared as the bytes it is made of. -/
def eventType : EventType Node where
  name := "Node"
  describe :=
    ((Builder.new "Node").field valueNumber "value" (.scalar .int32)).field childNumber "child"
      (.scalar .bytes)
  validate _ := none
  encode := Node.encode
  decode := Node.decode
  default := { value := 0, below := [] }

end Node

end EventCodec
