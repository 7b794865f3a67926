import EventCodec.Event.Basic

/-! # Raw payloads

    An event type without fields of its own: a value is written as the
    very bytes it holds, and reading skips everything and tells which
    keys there were. -/

namespace EventCodec.Raw

open Schema Wire

/-- The keys of a payload to the end of the input; `before` are those
    already read, the last one first. -/
def keysFrom (before : List Key) (i : Input) : Except Failure (List Key) :=
  if i.size = 0 then .ok before.reverse
  else
    match _key : Key.read i with
    | .error e => .error (.ofFault e)
    | .ok (key, rest) =>
      match _left : skip recursionBudget key rest with
      | .error e => .error (.ofFault e)
      | .ok rest => keysFrom (key :: before) rest
termination_by i.size
decreasing_by
  have := Key.size_read _key
  have := size_skip _left
  omega

/-- The keys of a payload. -/
def keys (bytes : Bytes) : Except Failure (List Key) :=
  keysFrom [] (.ofBytes bytes)

end EventCodec.Raw
