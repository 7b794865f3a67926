import EventCodec.Codec.Shared
import EventCodec.Proofs.Codec.Stage

/-! # One deletion at most

    A codec is ready until somebody closes it or lets it go.  Whoever does
    so first finds it ready and decides what becomes of its subject; all
    who come later find it closed and are sent away (`Stands`).

    A step that goes on with a call changes nothing about the life of the
    codec, and never touches a call that is finished (`Continues`).  So
    what a call came to when it was sent away is final. -/

namespace EventCodec

open Schema

namespace Shared

variable {α : Type} {w w' : Shared α} {st : Step α} {steps : List (Step α)} {n : Nat}
  {p : Progress α} {subject : String}

/-! ### What is counted -/

/-- How a call to close stands. -/
inductive Standing where
  /-- The deletion is its own. -/
  | won
  /-- It was told that the codec is closed. -/
  | refused
deriving DecidableEq

/-- How a call stands, if it is one to close. -/
def standing : Progress α → Option Standing
  | .closing => some .won
  | .closed (.error .closedCodec) => some .refused
  | .closed _ => some .won
  | _ => none

/-- How the calls stand, in the order they began. -/
def standings (w : Shared α) : List (Option Standing) :=
  w.calls.map standing

/-- Whether nothing more will come of a call. -/
def isDone : Progress α → Bool
  | .encoded _ | .decoded _ | .closed _ => true
  | _ => false

/-- The subject that is to be deleted. -/
def deleted? : Issued → Option String
  | .fetch .. => none
  | .delete _ subject _ => some subject
  | .deleteLater subject => some subject

/-- The deletions that were asked for, by subject. -/
def deletions (w : Shared α) : List String :=
  w.issued.filterMap deleted?

/-- The call on whose behalf the registry is called. -/
def caller? : Issued → Option Nat
  | .fetch caller .. => some caller
  | .delete caller .. => some caller
  | .deleteLater _ => none

namespace Step

def isClose : Step α → Bool
  | .close _ => true
  | _ => false

/-- Whether the codec is out of service afterwards. -/
def ends : Step α → Bool
  | .close _ | .drop _ => true
  | _ => false

/-- The deletions a step asks for if it finds the codec ready. -/
def deletions (subject : String) : Step α → List String
  | .close _ | .drop true => [subject]
  | _ => []

/-- What the beginning of a call comes to if the codec is closed. -/
def refusal? : Step α → Option (Progress α)
  | .encode _ => some (.encoded (.error .closedCodec))
  | .decode _ _ => some (.decoded (.error .closedCodec))
  | .close _ => some (.closed (.error .closedCodec))
  | _ => none

end Step

/-! ### Going on -/

/-- All that going on with a call can come to. -/
structure Continues (w w' : Shared α) (n : Nat) : Prop where
  subject : w'.codec.subject = w.codec.subject
  state : w'.codec.state = w.codec.state
  /-- Only the call itself has come further, and it was not finished. -/
  calls : ∃ p p', w.calls[n]? = some p ∧ isDone p = false ∧ standing p' = standing p ∧
    w'.calls = w.calls.set n p'
  /-- At most a fetch has been asked for. -/
  issued : w'.issued = w.issued ∨ ∃ id ctx, w'.issued = w.issued ++ [.fetch n id ctx]

/-- A step that goes on with a call. -/
def GoesOn (w w' : Shared α) : Prop :=
  w' = w ∨ ∃ n, w.Continues w' n

theorem continues_setProgress {p' : Progress α} (hcall : w.calls[n]? = some p)
    (hdone : isDone p = false) (hstanding : standing p' = standing p) :
    w.Continues (w.setProgress n p') n :=
  ⟨rfl, rfl, ⟨p, p', hcall, hdone, hstanding, rfl⟩, .inl rfl⟩

/-- The cache is no part of the life of the codec. -/
theorem continues_setFlight {p' : Progress α} (flight : Flight) (hcall : w.calls[n]? = some p)
    (hdone : isDone p = false) (hstanding : standing p' = standing p) :
    w.Continues ((w.setFlight flight).setProgress n p') n :=
  ⟨rfl, rfl, ⟨p, p', hcall, hdone, hstanding, rfl⟩, .inl rfl⟩

theorem continues_proceed {e : Envelope} {number : Nat} {ctx : Context} (flight : Flight)
    (hcall : w.calls[n]? = some p) (hdone : isDone p = false) (hstanding : standing p = none) :
    w.Continues ((w.setFlight flight).proceed n e number ctx) n := by
  unfold proceed
  split
  · exact continues_setFlight flight hcall hdone hstanding.symm
  · have hfetching : standing (.fetching e number : Progress α) = standing p := hstanding.symm
    have hset := continues_setFlight flight hcall hdone hfetching
    exact ⟨hset.subject, hset.state, hset.calls, .inr ⟨e.schemaId, ctx, rfl⟩⟩
  · exact continues_setFlight flight hcall hdone hstanding.symm

theorem goesOn_look (w : Shared α) (n : Nat) : w.GoesOn (w.look n) := by
  unfold look
  split
  · next data ctx hcall =>
    split
    · exact .inr ⟨n, continues_setProgress hcall rfl rfl⟩
    · split
      · exact .inr ⟨n, continues_setProgress hcall rfl rfl⟩
      · exact .inr ⟨n, continues_proceed _ hcall rfl rfl⟩
  · next e number ctx hcall => exact .inr ⟨n, continues_proceed _ hcall rfl rfl⟩
  · exact .inl rfl

theorem goesOn_fetched (w : Shared α) (n : Nat) (answer : Except RegistryError RegisteredSchema) :
    w.GoesOn (w.fetched n answer) := by
  unfold fetched
  split
  · next e number hcall => exact .inr ⟨n, continues_setFlight _ hcall rfl rfl⟩
  · exact .inl rfl

/-- Whatever the answer to the deletion, it is not that the codec is
    closed. -/
theorem standing_closingResult (c : Codec α) (answer : Except RegistryError (List UInt32)) :
    standing (.closed (c.closingResult answer) : Progress α) = some .won := by
  cases answer <;> rfl

theorem goesOn_deleted (w : Shared α) (n : Nat) (answer : Except RegistryError (List UInt32)) :
    w.GoesOn (w.deleted n answer) := by
  unfold deleted
  split
  · next hcall =>
    have hwon := standing_closingResult w.codec answer
    exact .inr ⟨n, continues_setProgress hcall rfl hwon⟩
  · exact .inl rfl

section
variable (h : w.Continues w' n)
include h

theorem Continues.deletions : w'.deletions = w.deletions := by
  rcases h.issued with heq | ⟨id, ctx, heq⟩
  · rw [Shared.deletions, heq, Shared.deletions]
  · rw [Shared.deletions, heq, List.filterMap_append, Shared.deletions]
    exact List.append_nil _

theorem Continues.standings : w'.standings = w.standings := by
  -- the one call that has come further stands as before
  obtain ⟨p, p', hcall, -, hstanding, heq⟩ := h.calls
  have hbefore : (w.calls.map standing)[n]? = some (standing p') := by
    rw [List.getElem?_map, hcall, hstanding]
    rfl
  obtain ⟨hlength, hget⟩ := List.getElem?_eq_some_iff.mp hbefore
  rw [Shared.standings, heq, List.map_set, Shared.standings, ← hget]
  exact List.set_getElem_self hlength

/-- A finished call is another one, and left as it is. -/
theorem Continues.finished {m : Nat} (hcall : w.calls[m]? = some p) (hdone : isDone p = true) :
    w'.calls[m]? = some p ∧ n ≠ m := by
  obtain ⟨q, q', hq, hopen, -, heq⟩ := h.calls
  have hne : n ≠ m := by
    rintro rfl
    obtain rfl := Option.some.inj (hq.symm.trans hcall)
    rw [hdone] at hopen
    contradiction
  rw [heq, List.getElem?_set_ne hne]
  exact ⟨hcall, hne⟩

end

/-! ### What a step does -/

/-- The codec is taken out of service. -/
def retired (w : Shared α) : Shared α :=
  { w with codec := { w.codec with state := .closed } }

theorem close_of_ready (h : w.codec.isReady = true) (ctx : Context) :
    w.close ctx =
      (w.retired.begin .closing).issue (.delete w.calls.length w.codec.subject ctx) := by
  simp only [close, Codec.retire_eq_some h]
  rfl

theorem drop_of_ready (h : w.codec.isReady = true) (inside : Bool) :
    w.drop inside =
      if inside then w.retired.issue (.deleteLater w.codec.subject) else w.retired := by
  simp only [drop, Codec.retire_eq_some h]
  rfl

/-- Whoever calls a closed codec is sent away at once. -/
theorem step_of_closed (h : w.codec.isReady = false) (hst : st.refusal? = some p) :
    w.step st = w.begin p := by
  have hretire : w.codec.retire = none := Codec.retire_eq_none h
  cases st with
  | encode v =>
    obtain rfl := Option.some.inj hst
    simp [step, encode, Codec.encode, h]
  | decode data ctx =>
    obtain rfl := Option.some.inj hst
    simp [step, decode, h]
  | close ctx =>
    obtain rfl := Option.some.inj hst
    simp only [step, close, hretire]
  | look | fetched | deleted | drop => contradiction

/-- That is all that comes of the call. -/
theorem isDone_of_refusal (hst : st.refusal? = some p) : isDone p = true := by
  cases st with
  | encode | decode | close =>
    obtain rfl := Option.some.inj hst
    rfl
  | look | fetched | deleted | drop => contradiction

theorem drop_of_closed (h : w.codec.isReady = false) (inside : Bool) : w.drop inside = w := by
  have hretire : w.codec.retire = none := Codec.retire_eq_none h
  simp only [drop, hretire]

/-- The life of the codec is left as it is: a call begins and does not
    win, or some call goes on. -/
def Spares (w : Shared α) (st : Step α) : Prop :=
  (∃ p, w.step st = w.begin p ∧ standing p = if st.isClose then some .refused else none) ∨
    st.isClose = false ∧ w.GoesOn (w.step st)

/-- Only the first to close or to let go does anything to the life of the
    codec. -/
theorem step_cases (w : Shared α) (st : Step α) :
    (w.codec.isReady = true ∧ ∃ ctx, st = .close ctx ∧ w.step st =
      (w.retired.begin .closing).issue (.delete w.calls.length w.codec.subject ctx)) ∨
    (w.codec.isReady = true ∧ ∃ inside, st = .drop inside ∧ w.step st =
      if inside then w.retired.issue (.deleteLater w.codec.subject) else w.retired) ∨
    (st.ends = true → w.codec.isReady = false) ∧ w.Spares st := by
  cases st with
  | encode v => exact .inr (.inr ⟨nofun, .inl ⟨_, rfl, rfl⟩⟩)
  | decode data ctx =>
    refine .inr (.inr ⟨nofun, .inl ⟨_, rfl, ?_⟩⟩)
    split <;> rfl
  | look n => exact .inr (.inr ⟨nofun, .inr ⟨rfl, w.goesOn_look n⟩⟩)
  | fetched n answer => exact .inr (.inr ⟨nofun, .inr ⟨rfl, w.goesOn_fetched n answer⟩⟩)
  | deleted n answer => exact .inr (.inr ⟨nofun, .inr ⟨rfl, w.goesOn_deleted n answer⟩⟩)
  | close ctx =>
    cases hready : w.codec.isReady with
    | true => exact .inl ⟨rfl, ctx, rfl, close_of_ready hready ctx⟩
    | false => exact .inr (.inr ⟨fun _ => rfl, .inl ⟨_, step_of_closed hready rfl, rfl⟩⟩)
  | drop inside =>
    cases hready : w.codec.isReady with
    | true => exact .inr (.inl ⟨rfl, inside, rfl, drop_of_ready hready inside⟩)
    | false => exact .inr (.inr ⟨fun _ => rfl, .inr ⟨rfl, .inl (drop_of_closed hready inside)⟩⟩)

/-! ### Where the codec stands -/

/-- What has become of a codec on a subject, after the first step that
    ended its service, if there was one. -/
structure Stands (w : Shared α) (subject : String) (ending : Option (Step α)) : Prop where
  owner : w.codec.subject = subject
  state : w.codec.state = if ending.isSome then .closed else .ready
  deletions : w.deletions = ending.elim [] (Step.deletions subject)
  won : w.standings.count (some .won) = if ending.any Step.isClose then 1 else 0

variable {ending : Option (Step α)}

theorem Stands.isReady (h : w.Stands subject ending) : w.codec.isReady = ending.isNone := by
  rw [Codec.isReady, h.state]
  cases ending <;> rfl

theorem standings_begin (w : Shared α) (p : Progress α) :
    (w.begin p).standings = w.standings ++ [standing p] :=
  List.map_append

theorem deletions_issue (w : Shared α) (i : Issued) :
    (w.issue i).deletions = w.deletions ++ (deleted? i).toList := by
  rw [deletions, issue, List.filterMap_append, deletions]
  cases i <;> rfl

theorem Stands.spares (h : w.Stands subject ending) (hst : w.Spares st) :
    (w.step st).Stands subject ending := by
  rcases hst with ⟨p, heq, hp⟩ | ⟨-, heq | ⟨n, hcontinues⟩⟩
  · rw [heq]
    refine ⟨h.owner, h.state, h.deletions, ?_⟩
    have hlost : standing p ≠ some .won := by
      rw [hp]
      split <;> simp
    rw [standings_begin, List.count_append, h.won, List.count_singleton]
    simp [hlost]
  · rw [heq]
    exact h
  · exact ⟨hcontinues.subject.trans h.owner, hcontinues.state.trans h.state,
      hcontinues.deletions.trans h.deletions, hcontinues.standings ▸ h.won⟩

/-- What one step preserves: the first to end the service decides what
    becomes of the subject. -/
theorem Stands.step (h : w.Stands subject ending) (st : Step α) :
    (w.step st).Stands subject (ending.or (if st.ends then some st else none)) := by
  have hready := h.isReady
  rcases w.step_cases st with
    ⟨hfirst, ctx, rfl, heq⟩ | ⟨hfirst, inside, rfl, heq⟩ | ⟨hends, hspares⟩
  · -- the first to close
    obtain rfl : ending = none := Option.isNone_iff_eq_none.mp (hready.symm.trans hfirst)
    rw [heq]
    refine ⟨h.owner, rfl, ?_, ?_⟩
    · rw [deletions_issue]
      exact congrArg₂ (fun before s => before ++ [s]) h.deletions h.owner
    · show (w.retired.begin .closing).standings.count _ = _
      rw [standings_begin, List.count_append]
      exact congrArg (· + 1) h.won
  · -- the first to let go
    obtain rfl : ending = none := Option.isNone_iff_eq_none.mp (hready.symm.trans hfirst)
    rw [heq]
    cases inside with
    | false => exact ⟨h.owner, rfl, h.deletions, h.won⟩
    | true =>
      refine ⟨h.owner, rfl, ?_, h.won⟩
      rw [if_pos rfl, deletions_issue]
      exact congrArg₂ (fun before s => before ++ [s]) h.deletions h.owner
  · -- what ends the service after it has ended does not count
    have hsame : ending.or (if st.ends then some st else none) = ending := by
      cases hcase : st.ends with
      | false => exact Option.or_none
      | true =>
        rw [hends hcase] at hready
        cases ending with
        | none => contradiction
        | some first => rfl
    rw [hsame]
    exact h.spares hspares

/-- What a whole run preserves. -/
theorem Stands.run (h : w.Stands subject ending) (steps : List (Step α)) :
    (Shared.run steps w).Stands subject (ending.or (steps.find? Step.ends)) := by
  -- the first step that ends the service is looked for from the front
  induction steps generalizing w ending with
  | nil => exact Option.or_none ▸ h
  | cons st rest ih =>
    have hrest := ih (h.step st)
    rw [Option.or_assoc] at hrest
    have hfirst : (st :: rest).find? Step.ends =
        (if st.ends then some st else none).or (rest.find? Step.ends) := by
      rw [List.find?_cons]
      cases st.ends <;> rfl
    rw [hfirst]
    exact hrest

/-- Every call to close stands in one way or the other, and no other call
    does. -/
theorem countP_standings_step (w : Shared α) (st : Step α) :
    (w.step st).standings.countP Option.isSome =
      w.standings.countP Option.isSome + if st.isClose then 1 else 0 := by
  rcases w.step_cases st with
    ⟨-, ctx, rfl, heq⟩ | ⟨-, inside, rfl, heq⟩ | ⟨-, ⟨p, heq, hp⟩ | ⟨hother, heq | ⟨n, hcontinues⟩⟩⟩
  · rw [heq]
    show (w.retired.begin .closing).standings.countP _ = _
    rw [standings_begin, List.countP_append]
    rfl
  · rw [heq]
    split <;> rfl
  · rw [heq, standings_begin, List.countP_append, hp]
    cases st.isClose <;> rfl
  · rw [heq, hother]
    rfl
  · rw [hcontinues.standings, hother]
    rfl

theorem countP_standings_run (w : Shared α) (steps : List (Step α)) :
    (run steps w).standings.countP Option.isSome =
      w.standings.countP Option.isSome + steps.countP Step.isClose := by
  induction steps generalizing w with
  | nil => rfl
  | cons st rest ih =>
    rw [run, ih, countP_standings_step, List.countP_cons, Nat.add_assoc, Nat.add_comm (ite _ _ _)]

/-! ### Calls that are finished -/

/-- The call has its result, and the registry was not called for it. -/
structure Settled (w : Shared α) (n : Nat) (p : Progress α) : Prop where
  call : w.calls[n]? = some p
  silent : ∀ i ∈ w.issued, caller? i ≠ some n

theorem Settled.step (h : w.Settled n p) (hdone : isDone p = true) (st : Step α) :
    (w.step st).Settled n p := by
  have hlength : n < w.calls.length := (List.getElem?_eq_some_iff.mp h.call).1
  have hbegin (q : Progress α) : (w.begin q).calls[n]? = some p :=
    (List.getElem?_append_left hlength).trans h.call
  have hissue {i : Issued} (hi : caller? i ≠ some n) : ∀ j ∈ w.issued ++ [i], caller? j ≠ some n := by
    intro j hj
    rcases List.mem_append.mp hj with hold | hnew
    · exact h.silent j hold
    · exact List.mem_singleton.mp hnew ▸ hi
  rcases w.step_cases st with
    ⟨-, ctx, rfl, heq⟩ | ⟨-, inside, rfl, heq⟩ | ⟨-, ⟨q, heq, -⟩ | ⟨-, heq | ⟨m, hcontinues⟩⟩⟩
  · -- the deletion is for the call that begins
    rw [heq]
    exact ⟨hbegin .closing, hissue fun hcaller => Nat.ne_of_gt hlength (Option.some.inj hcaller)⟩
  · rw [heq]
    cases inside with
    | false => exact ⟨h.call, h.silent⟩
    | true => exact ⟨h.call, hissue nofun⟩
  · rw [heq]
    exact ⟨hbegin q, h.silent⟩
  · rw [heq]
    exact h
  · -- some other call goes on, and a fetch is for that one
    obtain ⟨hkept, hne⟩ := hcontinues.finished h.call hdone
    rcases hcontinues.issued with hissued | ⟨id, ctx, hissued⟩
    · exact ⟨hkept, hissued ▸ h.silent⟩
    · exact ⟨hkept, hissued ▸ hissue fun hcaller => hne (Option.some.inj hcaller)⟩

theorem Settled.run (h : w.Settled n p) (hdone : isDone p = true) (steps : List (Step α)) :
    (Shared.run steps w).Settled n p := by
  induction steps generalizing w with
  | nil => exact h
  | cons st rest ih => exact ih (h.step hdone st)

/-- The registry was called only for calls that have begun. -/
def IsAccounted (w : Shared α) : Prop :=
  ∀ i ∈ w.issued, ∀ n, caller? i = some n → n < w.calls.length

theorem IsAccounted.step (h : w.IsAccounted) (st : Step α) : (w.step st).IsAccounted := by
  have hissue {i : Issued} {bound : Nat} (hbound : w.calls.length ≤ bound)
      (hi : ∀ n, caller? i = some n → n < bound) :
      ∀ j ∈ w.issued ++ [i], ∀ n, caller? j = some n → n < bound := by
    intro j hj n hcaller
    rcases List.mem_append.mp hj with hold | hnew
    · exact Nat.lt_of_lt_of_le (h j hold n hcaller) hbound
    · exact hi n (List.mem_singleton.mp hnew ▸ hcaller)
  have hbegin (p : Progress α) : (w.begin p).calls.length = w.calls.length + 1 :=
    List.length_append
  rcases w.step_cases st with
    ⟨-, ctx, rfl, heq⟩ | ⟨-, inside, rfl, heq⟩ | ⟨-, ⟨p, heq, -⟩ | ⟨-, heq | ⟨n, hcontinues⟩⟩⟩
  · rw [heq]
    show ∀ j ∈ w.issued ++ [_], ∀ n, caller? j = some n → n < (w.begin .closing).calls.length
    rw [hbegin]
    exact hissue (Nat.le_succ _) fun n hcaller => Option.some.inj hcaller ▸ Nat.lt_succ_self _
  · rw [heq]
    cases inside with
    | false => exact h
    | true => exact hissue (Nat.le_refl _) nofun
  · rw [heq]
    intro i hi n hcaller
    rw [hbegin]
    exact Nat.lt_succ_of_lt (h i hi n hcaller)
  · rw [heq]
    exact h
  · obtain ⟨p, p', hcall, -, -, hcalls⟩ := hcontinues.calls
    have hlength : n < w.calls.length := (List.getElem?_eq_some_iff.mp hcall).1
    unfold IsAccounted
    rw [hcalls, List.length_set]
    rcases hcontinues.issued with hissued | ⟨id, ctx, hissued⟩
    · exact hissued ▸ h
    · rw [hissued]
      exact hissue (Nat.le_refl _) fun m hcaller => Option.some.inj hcaller ▸ hlength

theorem IsAccounted.run (h : w.IsAccounted) (steps : List (Step α)) :
    (Shared.run steps w).IsAccounted := by
  induction steps generalizing w with
  | nil => exact h
  | cons st rest ih => exact ih (h.step st)

/-- A call that is sent away at once is settled for good. -/
theorem IsAccounted.settled_begin (h : w.IsAccounted) (p : Progress α) :
    (w.begin p).Settled w.calls.length p := by
  refine ⟨List.getElem?_concat_length, fun i hi hcaller => ?_⟩
  exact Nat.lt_irrefl _ (h i hi _ hcaller)

/-! ### The whole life -/

theorem stands_ofCodec {c : Codec α} (hsubject : c.subject = subject) (hstate : c.state = .ready) :
    (ofCodec c).Stands subject none :=
  ⟨hsubject, hstate, rfl, rfl⟩

theorem isAccounted_ofCodec (c : Codec α) : (ofCodec c).IsAccounted := by
  intro i hi
  contradiction

/-- A call to close that does not win is refused. -/
theorem count_won_add_refused (l : List (Option Standing)) :
    l.count (some .won) + l.count (some .refused) = l.countP Option.isSome := by
  induction l with
  | nil => rfl
  | cons x l ih =>
    rw [List.count_cons, List.count_cons, List.countP_cons, ← ih]
    rcases x with _ | _ | _ <;> simp <;> omega

/-- **One deletion at most**: a codec that was opened on a subject, on
    whatever registry, is ready until the first call to close or until it
    is let go, and closed ever after.  It has its subject deleted when that
    happens, unless it is let go where nothing runs in the background, and
    at no other time.  Of the calls to close one has won if one was the
    first, and all others are refused.  And whoever calls a closed codec is
    sent away at once and for good, without the registry hearing of it. -/
theorem deletes_once {σ : Type} {r : Registry σ} {type : EventType α} {ctx : Context} {s s' : σ}
    {c : Codec α} (hopen : Codec.open r type subject ctx s = (.ok c, s')) (steps : List (Step α)) :
    let w := run steps (.ofCodec c)
    let ending := steps.find? Step.ends
    w.codec.state = (if ending.isSome then .closed else .ready) ∧
    w.deletions = ending.elim [] (Step.deletions subject) ∧
    w.standings.count (some .won) = (if ending.any Step.isClose then 1 else 0) ∧
    w.standings.count (some .won) + w.standings.count (some .refused) =
      steps.countP Step.isClose ∧
    (w.codec.state = .closed → ∀ (st : Step α) (p : Progress α), st.refusal? = some p →
      w.step st = w.begin p ∧
        ∀ later : List (Step α), (run later (w.begin p)).Settled w.calls.length p) := by
  intro w ending
  obtain ⟨hsubject, hstate⟩ := Codec.ready_of_open hopen
  have hstands : w.Stands subject ending := (stands_ofCodec hsubject hstate).run steps
  have haccounted : w.IsAccounted := (isAccounted_ofCodec c).run steps
  have hcloses : w.standings.countP Option.isSome = steps.countP Step.isClose :=
    (countP_standings_run (ofCodec c) steps).trans (Nat.zero_add _)
  refine ⟨hstands.state, hstands.deletions, hstands.won,
    (count_won_add_refused w.standings).trans hcloses, fun hclosed st p hst => ?_⟩
  have hready : w.codec.isReady = false := by simp [Codec.isReady, hclosed]
  refine ⟨step_of_closed hready hst, fun later => ?_⟩
  exact (haccounted.settled_begin p).run (isDone_of_refusal hst) later

/-- Two calls to close, a call that comes too late, and the failure of the
    deletion before the codec is let go. -/
def contest : List (Step Unit) :=
  [.close .unbounded, .close .unbounded, .encode (), .deleted 0 (.error .timeout), .drop true]

theorem contest_deletes_once :
    ∃ c, Codec.open surly blank "orders" .unbounded () = (.ok c, ()) ∧
      (run contest (.ofCodec c)).codec.state = .closed ∧
      (run contest (.ofCodec c)).deletions = ["orders"] ∧
      (run contest (.ofCodec c)).standings.count (some .won) = 1 := by
  have hopen : Codec.open surly blank "orders" .unbounded () =
      (.ok { subject := "orders", bound := .new blank 1 .keywords, state := .ready }, ()) := by
    rw [Codec.open, resolve_blank]
    rfl
  obtain ⟨hstate, hdeletions, hwon, -⟩ := deletes_once hopen contest
  exact ⟨_, hopen, hstate, hdeletions, hwon⟩

end Shared

end EventCodec
