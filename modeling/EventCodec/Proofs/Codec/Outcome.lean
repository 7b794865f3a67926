import EventCodec.Proofs.Codec.Scope
import EventCodec.Proofs.Registry.Recorded

/-! # What a scope comes to

    The registry may answer as it likes.  On record, the subject of an
    open codec is deleted once if the codec is closed, and not at all
    while it is ready (`Owns`).  Bodies keep this up, and at the end the
    scope closes what the body has left open.

    So the last closing fails in one of two ways: the registry did not
    delete the subject, which the caller has to hear of, or the body has
    closed the codec before, which is none of the caller's business. -/

namespace EventCodec

open Registry (Request deletions offRecord)

variable {α β σ : Type} {r : Registry σ} {world : List Request × σ} {subject : String}

/-! ### What calls put on record -/

/-- Fetching deletes nothing. -/
theorem Cache.deletions_getOrFetch (c : Cache) (id : UInt32) (ctx : Context) :
    deletions (c.getOrFetch r.recorded id ctx world).2.2.1 = deletions world.1 := by
  rcases c.getOrFetch_cases r.recorded id ctx world with ⟨d, -, heq⟩ | ⟨e, heq⟩ | ⟨d, -, -, heq⟩
  · rw [heq]
  · rw [heq, Registry.deletions_fetch]
  · rw [heq, Registry.deletions_note, Registry.deletions_fetch]

theorem Bound.deletions_decode (b : Bound α) (data : Bytes) (ctx : Context) :
    deletions (b.decode r.recorded data ctx world).2.2.1 = deletions world.1 := by
  rcases b.decode_cases r.recorded data ctx world with heq | ⟨id, heq⟩
  · rw [heq]
  · rw [heq, Cache.deletions_getOrFetch]

namespace Codec

/-- Reading deletes nothing. -/
theorem deletions_decode (c : Codec α) (data : Bytes) (ctx : Context) :
    deletions (c.decode r.recorded data ctx world).2.2.1 = deletions world.1 := by
  unfold decode
  split
  · exact c.bound.deletions_decode data ctx
  · rfl

theorem deletions_noteOwner (ctx : Context) :
    deletions (noteOwner r.recorded subject ctx world).1 = deletions world.1 := by
  have hlatest : deletions (r.recorded.latest subject ctx world).2.1 = deletions world.1 :=
    Registry.deletions_latest subject ctx
  unfold noteOwner
  generalize r.recorded.latest subject ctx world = outcome at hlatest ⊢
  rcases outcome with ⟨e | live, world'⟩
  · exact hlatest
  · exact hlatest

/-- Neither does opening, whatever comes of it. -/
theorem deletions_open (type : EventType α) (ctx : Context) :
    deletions (Codec.open r.recorded type subject ctx world).2.1 = deletions world.1 := by
  rcases open_cases r.recorded type subject ctx world with ⟨e, heq⟩ | ⟨d, -, heq⟩
  · rw [heq]
  · rw [heq]
    obtain ⟨t, rfl, hcases⟩ := openWith_cases r.recorded type d subject ctx world
    -- the registration is the last of the calls
    have hregister := @Registry.deletions_register σ r
      (noteOwner r.recorded subject ctx (r.recorded.note (registering type subject ctx) world))
      subject d ctx
    rw [deletions_noteOwner, Registry.deletions_note] at hregister
    rcases hcases with ⟨e, t, hanswer, hopen⟩ | ⟨id, t, hanswer, hopen⟩
    · rw [hanswer] at hregister
      rw [hopen]
      exact hregister
    · rw [hanswer] at hregister
      rw [hopen]
      exact hregister

/-- Whoever closes a codec that is ready has its subject deleted. -/
theorem deletions_close {c : Codec α} (ctx : Context) (hready : c.isReady = true) :
    deletions (c.close r.recorded ctx world).2.2.1 = deletions world.1 ++ [c.subject] := by
  rcases c.close_cases r.recorded ctx world with
    ⟨hclosed, -⟩ | ⟨-, answer, s', hdelete, s'', hclose, hs''⟩
  · rw [hready] at hclosed
    contradiction
  · have hrecord : deletions s'.1 = deletions world.1 ++ [c.subject] := by
      have hdeleted := @Registry.deletions_delete σ r world c.subject ctx
      rwa [hdelete] at hdeleted
    rw [hclose]
    -- the journal does not go on record
    rcases hs'' with rfl | ⟨entry, rfl⟩
    · exact hrecord
    · exact hrecord

end Codec

/-! ### While the body runs -/

/-- The subject has been deleted exactly if the codec is closed. -/
structure Codec.Owns (c : Codec α) (subject : String) (record : List Request) : Prop where
  owner : c.subject = subject
  state : c.isReady = false → c.state = .closed
  deletions : deletions record = if c.isReady then [] else [subject]

namespace Codec.Owns

variable {c : Codec α}

/-- A codec that has just been opened owns its subject. -/
theorem of_open {type : EventType α} {s : σ}
    (hopen : Codec.open r.recorded type subject .unbounded ([], s) = (.ok c, world)) :
    c.isReady = true ∧ c.Owns subject world.1 := by
  obtain ⟨howner, hstate⟩ := ready_of_open hopen
  have hready : c.isReady = true := by
    rw [isReady, hstate]
    rfl
  have hrecord :
      Registry.deletions (Codec.open r.recorded type subject .unbounded ([], s)).2.1 = [] :=
    deletions_open type .unbounded
  rw [hopen] at hrecord
  refine ⟨hready, howner, ?_, ?_⟩
  · intro hnever
    rw [hready] at hnever
    contradiction
  · rw [hready]
    exact hrecord

theorem decode (h : c.Owns subject world.1) (data : Bytes) (ctx : Context) :
    (c.decode r.recorded data ctx world).2.1.Owns subject
      (c.decode r.recorded data ctx world).2.2.1 := by
  have hstate := c.state_decode r.recorded data ctx world
  have howner := (c.precedes_decode r.recorded data ctx world).subject
  have hready : (c.decode r.recorded data ctx world).2.1.isReady = c.isReady := by
    rw [isReady, isReady, hstate]
  refine ⟨howner.trans h.owner, ?_, ?_⟩
  · rw [hready, hstate]
    exact h.state
  · rw [hready, c.deletions_decode]
    exact h.deletions

theorem close (h : c.Owns subject world.1) (ctx : Context) :
    (c.close r.recorded ctx world).2.1.Owns subject (c.close r.recorded ctx world).2.2.1 := by
  cases hready : c.isReady with
  | true =>
    obtain ⟨-, hcodec⟩ := close_of_isReady r.recorded ctx world hready
    have hbefore := h.deletions
    rw [hready, if_pos rfl] at hbefore
    rw [hcodec]
    refine ⟨h.owner, fun _ => rfl, ?_⟩
    rw [deletions_close ctx hready, hbefore, h.owner]
    rfl
  | false =>
    rw [close_of_closed r.recorded ctx world hready]
    exact h

end Codec.Owns

namespace Body

/-- Whether a body closes its codec. -/
def closes (r : Registry σ) (wait : Nat → σ → σ) : Body α β → Codec α → σ → Bool
  | done _, _, _ => false
  | .wait duration next, c, s => next.closes r wait c (wait duration s)
  | encode v next, c, s => (next (c.encode v)).closes r wait c s
  | decode data ctx next, c, s =>
    match c.decode r data ctx s with
    | (result, c, s) => (next result).closes r wait c s
  | close _ _, _, _ => true

variable {c : Codec α} {wait : Nat → σ → σ}

/-- A body leaves its codec the codec it is. -/
theorem precedes_run (body : Body α β) (s : σ) : c.Precedes (body.run r wait c s).2.1 := by
  induction body generalizing c s with
  | done result => exact .refl c
  | wait duration next ih => exact ih _
  | encode v next ih => exact ih _ s
  | decode data ctx next ih => exact (c.precedes_decode r data ctx s).trans (ih _ _)
  | close ctx next ih => exact (c.precedes_close r ctx s).trans (ih _ _)

/-- A codec that a body gets ready is ready afterwards, unless the body
    closes it. -/
theorem isReady_run (body : Body α β) (hready : c.isReady = true) (s : σ) :
    (body.run r wait c s).2.1.isReady = !body.closes r wait c s := by
  induction body generalizing c s with
  | done result => exact hready
  | wait duration next ih => exact ih hready _
  | encode v next ih => exact ih _ hready s
  | decode data ctx next ih =>
    have hstate : (c.decode r data ctx s).2.1.isReady = c.isReady := by
      rw [Codec.isReady, Codec.isReady, c.state_decode]
    exact ih _ (hstate.trans hready) _
  | close ctx next ih =>
    -- what is closed is not ready again, whatever the rest of the body does
    show ((next (c.close r ctx s).1).run r wait (c.close r ctx s).2.1 (c.close r ctx s).2.2).2.1.isReady
      = false
    refine Bool.eq_false_iff.mpr fun hagain => ?_
    have hnever : (c.close r ctx s).2.1.isReady = true := (precedes_run _ _).ready hagain
    rw [c.isReady_close] at hnever
    contradiction

/-- Whatever a body does, the subject is deleted exactly if the codec is
    closed. -/
theorem owns_run (body : Body α β) (h : c.Owns subject world.1) :
    (body.run r.recorded (fun duration => offRecord (wait duration)) c world).2.1.Owns subject
      (body.run r.recorded (fun duration => offRecord (wait duration)) c world).2.2.1 := by
  induction body generalizing c world with
  | done result => exact h
  | wait duration next ih => exact ih h
  | encode v next ih => exact ih _ h
  | decode data ctx next ih => exact ih _ (h.decode data ctx)
  | close ctx next ih => exact ih _ (h.close ctx)

end Body

/-! ### The whole scope -/

section

variable {c : Codec α} {type : EventType α} {ctx : Context} {s s' : σ}
  {body : Codec α → σ → Except CodecError β × Codec α × σ} {result : Except CodecError β}

theorem withCodec_of_error {e : CodecError}
    (hopen : Codec.open r type subject .unbounded s = (.error e, s')) :
    withCodec r type subject body s = (.error e, s') := by
  unfold withCodec
  rw [hopen]

theorem withCodec_of_ok (hopen : Codec.open r type subject .unbounded s = (.ok c, s')) :
    withCodec r type subject body s =
      (scopeResult (body c s').1 ((body c s').2.1.close r .unbounded (body c s').2.2).1,
        ((body c s').2.1.close r .unbounded (body c s').2.2).2.2) := by
  unfold withCodec
  rw [hopen]

/-- A scope that finds its codec closed has nothing to add. -/
theorem scopeResult_of_closed (hclosed : c.isReady = false) :
    scopeResult result (c.close r ctx s).1 = result := by
  rw [Codec.close_of_closed r ctx s hclosed]
  rfl

theorem scopeResult_of_deleted {versions : List UInt32} (hready : c.isReady = true)
    (hanswer : (r.delete c.subject ctx s).1 = .ok versions) :
    scopeResult result (c.close r ctx s).1 = result := by
  rw [(Codec.close_of_isReady r ctx s hready).1, hanswer]
  rfl

/-- A deletion that fails is reported if there is nothing else to report,
    and attached to what there is. -/
theorem scopeResult_of_failed {e : RegistryError} (result : Except CodecError β)
    (hready : c.isReady = true)
    (hanswer : (r.delete c.subject ctx s).1 = .error e) :
    scopeResult result (c.close r ctx s).1 =
      match result with
      | .ok _ => .error (.cleanup c.subject e.message)
      | .error f =>
        .error (f.withContext (.detail "cleanup" (CodecError.cleanup c.subject e.message).message)) := by
  rw [(Codec.close_of_isReady r ctx s hready).1, hanswer]
  cases result with
  | ok v => rfl
  | error f => rfl

end

/-- **What a scope comes to**, whatever the registry answers and whatever
    the body does.  Without a codec there is nothing but the error.  With
    one, its subject is deleted once and the codec is closed; the scope
    has the result of the body, unless it was for the scope to delete the
    subject and that failed. -/
theorem withCodec_outcome (r : Registry σ) (wait : Nat → σ → σ) (type : EventType α)
    (subject : String) (body : Body α β) (s : σ) :
    let run := body.run r.recorded fun duration => offRecord (wait duration)
    let closes := body.closes r.recorded fun duration => offRecord (wait duration)
    let opening := Codec.open r.recorded type subject .unbounded ([], s)
    let scope := withCodec r.recorded type subject run ([], s)
    (∀ e world, opening = (.error e, world) → scope = (.error e, world) ∧ deletions world.1 = []) ∧
    (∀ c world, opening = (.ok c, world) →
      let closing := (run c world).2.1.close r.recorded .unbounded (run c world).2.2
      let answer := (r.delete subject .unbounded (run c world).2.2.2).1
      deletions scope.2.1 = [subject] ∧ closing.2.2 = scope.2 ∧ closing.2.1.state = .closed ∧
      closing.2.1.drop r.recorded scope.2 = scope.2 ∧
      (closes c world = true → scope.1 = (run c world).1) ∧
      (closes c world = false → ∀ versions, answer = .ok versions → scope.1 = (run c world).1) ∧
      (closes c world = false → ∀ e, answer = .error e →
        (∀ v, (run c world).1 = .ok v → scope.1 = .error (.cleanup subject e.message)) ∧
        (∀ f, (run c world).1 = .error f →
          ∃ g, scope.1 = .error g ∧ g.kind = f.kind ∧ g.isPerCall = f.isPerCall ∧
            g = f.withContext (.detail "cleanup" (CodecError.cleanup subject e.message).message)))) := by
  intro run closes opening scope
  constructor
  case left =>
    intro e world hopen
    have hopening : deletions opening.2.1 = [] := Codec.deletions_open type .unbounded
    rw [hopen] at hopening
    exact ⟨withCodec_of_error hopen, hopening⟩
  case right =>
    intro c world hopen closing answer
    obtain ⟨hready, howns⟩ := Codec.Owns.of_open hopen
    have hran : (run c world).2.1.Owns subject (run c world).2.2.1 := body.owns_run howns
    have hstill : (run c world).2.1.isReady = !closes c world := body.isReady_run hready world
    have hclosed : closing.2.1.Owns subject closing.2.2.1 := hran.close .unbounded
    have hover : closing.2.1.isReady = false := Codec.isReady_close ..
    have hdeleted := hclosed.deletions
    rw [hover] at hdeleted
    have hscope : scope = (scopeResult (run c world).1 closing.1, closing.2.2) :=
      withCodec_of_ok hopen
    -- the deletion on record is the one the registry answers
    have hanswer : (r.recorded.delete (run c world).2.1.subject .unbounded
        (run c world).2.2).1 = answer := by
      rw [hran.owner]
      rfl
    rw [hscope]
    refine ⟨hdeleted, rfl, hclosed.state hover, ?dropped, ?early, ?deleted, ?failed⟩
    case dropped =>
      rw [Codec.drop, Codec.retire_eq_none hover]
    case early =>
      intro hearly
      rw [hearly] at hstill
      exact scopeResult_of_closed hstill
    case deleted =>
      intro hlate versions hok
      rw [hlate] at hstill
      exact scopeResult_of_deleted hstill (hanswer.trans hok)
    case failed =>
      intro hlate e herror
      rw [hlate] at hstill
      have hresult := scopeResult_of_failed (run c world).1 hstill (hanswer.trans herror)
      rw [hran.owner] at hresult
      constructor
      · intro v hv
        exact hresult.trans (by rw [hv])
      · intro f hf
        exact ⟨_, hresult.trans (by rw [hf]), CodecError.kind_withContext _ _,
          CodecError.isPerCall_withContext _ _, rfl⟩

/-- A registry that answers all deletions the same. -/
def answering (answer : Except RegistryError (List UInt32)) : Registry Unit :=
  { surly with delete := fun _ _ s => (answer, s) }

theorem open_answering (answer : Except RegistryError (List UInt32)) :
    Codec.open (answering answer).recorded blank "orders" .unbounded ([], ()) =
      (.ok { subject := "orders", bound := .new blank 1 .keywords, state := .ready },
        [.latest "orders", .register "orders" .keywords], ()) := by
  rw [Codec.open, resolve_blank]
  rfl

/-- Fails to read anything. -/
def hopeless : Body Unit Unit :=
  .decode [] .unbounded fun
    | .ok _ => .done (.ok ())
    | .error e => .done (.error e)

/-- Closes the codec and goes on all the same. -/
def early : Body Unit Unit :=
  .close .unbounded fun _ => .done (.ok ())

/-- A scope where all deletions are answered the same. -/
def scopeOf (answer : Except RegistryError (List UInt32)) (type : EventType Unit)
    (body : Body Unit Unit) : Except CodecError Unit × List Request × Unit :=
  withCodec (answering answer).recorded type "orders"
    (body.run (answering answer).recorded fun _ => offRecord id) ([], ())

/-- Without a codec, with nothing to do, with a failure on top of another
    one, and with nothing left to delete. -/
theorem scopes_come_out :
    (scopeOf (.ok [1]) nameless early).1 = .error (.unsupportedType "" "非法标识符: \"\"") ∧
    deletions (scopeOf (.ok [1]) nameless early).2.1 = [] ∧
    (scopeOf (.ok [1]) blank (.done (.ok ()))).1 = .ok () ∧
    (scopeOf (.error .timeout) blank (.done (.ok ()))).1 =
      .error (.cleanup "orders" "Request timed out") ∧
    (∃ g, (scopeOf (.error .timeout) blank hopeless).1 = .error g ∧ g.kind = .decode ∧
      g.isPerCall = true) ∧
    (scopeOf (.error .timeout) blank early).1 = .ok () ∧
    deletions (scopeOf (.error .timeout) blank early).2.1 = ["orders"] := by
  have hrefused : Codec.open (answering (.ok [1])).recorded nameless "orders" .unbounded ([], ()) =
      (.error (.unsupportedType "" "非法标识符: \"\""), [], ()) := by
    rw [Codec.open, resolve_nameless]
  have hopen := open_answering (.ok [1])
  have hopen' := open_answering (.error .timeout)
  obtain ⟨hnothing, hnone⟩ :=
    (withCodec_outcome (answering (.ok [1])) (fun _ => id) nameless "orders" early ()).1 _ _ hrefused
  obtain ⟨-, -, -, -, -, hdeleted, -⟩ := (withCodec_outcome (answering (.ok [1])) (fun _ => id) blank
    "orders" (.done (.ok ())) ()).2 _ _ hopen
  obtain ⟨-, -, -, -, -, -, hidle⟩ := (withCodec_outcome (answering (.error .timeout)) (fun _ => id)
    blank "orders" (.done (.ok ())) ()).2 _ _ hopen'
  obtain ⟨-, -, -, -, -, -, hfailed⟩ := (withCodec_outcome (answering (.error .timeout)) (fun _ => id)
    blank "orders" hopeless ()).2 _ _ hopen'
  obtain ⟨hrecord, -, -, -, hearly, -⟩ := (withCodec_outcome (answering (.error .timeout))
    (fun _ => id) blank "orders" early ()).2 _ _ hopen'
  obtain ⟨g, hscope, hkind, hpercall, -⟩ := (hfailed rfl _ rfl).2 _ rfl
  exact ⟨congrArg Prod.fst hnothing, hnone, hdeleted rfl _ rfl, (hidle rfl _ rfl).1 _ rfl,
    ⟨g, hscope, hkind, hpercall⟩, hearly rfl, hrecord⟩

end EventCodec
