import EventCodec.Codec.Lifecycle

/-! # Scopes

    A codec for the length of a body: it is opened, handed to the body and
    closed afterwards, whatever the body came to.  The body's error wins
    over one of closing, which is then attached to it.  A body may close
    the codec itself; the scope has nothing left to do then. -/

namespace EventCodec

variable {α β σ : Type}

/-- Puts together what the body and the closing came to. -/
def scopeResult (body : Except CodecError β) (closing : Except CodecError Unit) :
    Except CodecError β :=
  match closing with
  | .ok () => body
  | .error .closedCodec => body
  | .error cleanup =>
    match body with
    | .ok _ => .error cleanup
    | .error e => .error (e.withContext (.detail "cleanup" cleanup.message))

/-- Runs a body with a codec of its own. -/
def withCodec (r : Registry σ) (type : EventType α) (subject : String)
    (body : Codec α → σ → Except CodecError β × Codec α × σ) (s : σ) :
    Except CodecError β × σ :=
  match Codec.open r type subject .unbounded s with
  | (.error e, s) => (.error e, s)
  | (.ok c, s) =>
    match body c s with
    | (result, c, s) =>
      match c.close r .unbounded s with
      | (closing, _, s) => (scopeResult result closing, s)

end EventCodec
