import EventCodec.Proofs.Registry.Overrun
import EventCodec.Proofs.Rest.Calls
import Mathlib.Data.List.Forall2

/-! # A client behaves like the registry behind its service

    A client asks a service that is a registry in memory.  Each call ends
    as the same call to a registry in memory does, and leaves the service
    with the same memory (`send_agrees`); so two registries that start
    empty stay alike along every run (`client_refines_memory`).

    What HTTP cannot carry is left out: a correlation ID that is no header
    and a URL that is too long are refused before the service is asked.
    So is a base whose own query asks for good, and a counter of IDs that
    has run over (`not_refines`). -/

namespace EventCodec.Rest

open Schema
open Facade
open Registry (Reply)

variable {c : Client} {f : Facade} {m : Memory} {now : Nat} {ctx : Context} {α : Type}

/-! ### Any call -/

/-- The subject of a call. -/
def subjectOf? : Registry.Request → Option String
  | .register subject _ => some subject
  | .delete subject => some subject
  | .latest subject => some subject
  | .fetch _ => none
  | .subjects => none

/-- The URLs that a client asks for in a call. -/
def Client.urls (c : Client) : Registry.Request → List Url
  | .register subject _ => [c.registerUrl subject]
  | .fetch id => [c.schemaUrl id]
  | .delete subject =>
    c.subjectUrl subject ::
      if c.config.permanentDelete then [(c.subjectUrl subject).addQuery "permanent" "true"] else []
  | .latest subject => [c.latestUrl subject]
  | .subjects => [c.subjectsUrl]

/-- A client can make a call: its subject is named on its own, and each of
    its requests can be built. -/
structure Client.CanCall (c : Client) (ctx : Context) (request : Registry.Request) : Prop where
  named : ∀ subject ∈ subjectOf? request, IsNamed subject
  asks : ∀ url ∈ c.urls request, IsAskable ctx url

/-- Whether a subject is named on its own. -/
def isNamed (subject : String) : Bool :=
  subject.toList.all (!Url.isLayout ·) && subject != "." && subject != ".." && subject != ""

theorem isNamed_eq_true {subject : String} (h : isNamed subject = true) : IsNamed subject := by
  simp only [isNamed, Bool.and_eq_true, List.all_eq_true, Bool.not_eq_true', bne_iff_ne] at h
  obtain ⟨⟨⟨hlayout, hdot⟩, hdots⟩, hsome⟩ := h
  exact ⟨⟨hlayout, hdot, hdots⟩, hsome⟩

/-- Whether a client can make a call without a correlation ID. -/
def Client.canCall (c : Client) (request : Registry.Request) : Bool :=
  (subjectOf? request).all isNamed && (c.urls request).all (Client.isRequestable ·.takeUser.2)

theorem Client.canCall_eq_true {request : Registry.Request} (h : c.canCall request = true) :
    c.CanCall .unbounded request := by
  obtain ⟨hsubject, hurls⟩ := Bool.and_eq_true_iff.mp h
  refine ⟨?_, ?_⟩
  · intro subject hmem
    obtain heq := Option.mem_def.mp hmem
    rw [heq] at hsubject
    exact isNamed_eq_true hsubject
  · exact fun url hmem => ⟨rfl, List.all_eq_true.mp hurls url hmem⟩

/-- What an answer is seen as does not make a difference. -/
theorem Agrees.reply {via : Except RegistryError α × Facade}
    {does : Except RegistryError α × Memory} (h : Agrees via does now) (kind : α → Reply) :
    Agrees (Registry.reply kind via) (Registry.reply kind does) now :=
  ⟨h.answer.map kind, h.holds⟩

/-- **One call**: a client is answered as the memory behind its service
    would answer. -/
theorem send_agrees (h : f.Holds m now) (hlive : IsLive ctx now)
    (hquery : isForGood (c.base.query.getD "").toList = false) {request : Registry.Request}
    (hcan : c.CanCall ctx request) :
    Agrees ((c.registry (peer (addressOf c))).send ctx f request)
      (seen request (m.perform request).1, (m.perform request).2) now := by
  cases request with
  | register subject d =>
    have hagrees := (register_spec h hlive (hcan.named subject rfl)
      (hcan.asks _ List.mem_cons_self) d).1.reply .id
    rwa [Registry.reply, Registry.reply, Registry.map_registered] at hagrees
  | fetch id => exact (fetch_agrees h hlive (hcan.asks _ List.mem_cons_self)).reply .schema
  | delete subject =>
    refine (delete_agrees h hlive (hcan.named subject rfl) hquery
      (hcan.asks _ List.mem_cons_self) ?_).reply .versions
    intro hpermanent
    apply hcan.asks
    rw [Client.urls, if_pos hpermanent]
    exact List.mem_cons_of_mem _ List.mem_cons_self
  | latest subject =>
    have hagrees := (latest_agrees h hlive (hcan.named subject rfl)
      (hcan.asks _ List.mem_cons_self)).reply .schema
    rwa [Registry.reply, Registry.reply, map_seen] at hagrees
  | subjects => exact (subjects_agrees h hlive (hcan.asks _ List.mem_cons_self)).reply .subjects

/-! ### Runs -/

open Staged (Visit)

/-- A visit to the service by way of a client. -/
def Client.visit (c : Client) (f : Facade) (v : Visit) : Except RegistryError Reply × Facade :=
  (c.registry (peer (addressOf c))).send v.context
    ((peer (addressOf c)).passTo (f.stage.now + v.idle) f) v.request

/-- What a client is answered along some visits. -/
def Client.replies (c : Client) : List Visit → Facade → List (Except RegistryError Reply)
  | [], _ => []
  | v :: rest, f => (c.visit f v).1 :: c.replies rest (c.visit f v).2

/-- What a registry in memory answers along the same visits. -/
def replies : List Visit → Staged → List (Except RegistryError Reply)
  | [], _ => []
  | v :: rest, s => (s.visit v).1 :: replies rest (s.visit v).2

/-- No context ends before its visit does. -/
def LiveFrom : Nat → List Visit → Prop
  | _, [] => True
  | now, v :: rest => IsLive v.context (now + v.idle) ∧ LiveFrom (now + v.idle) rest

variable {s : Staged}

/-- What a client makes of the answers to some visits. -/
def seenAll (visits : List Visit) (answers : List (Except RegistryError Reply)) :
    List (Except RegistryError Reply) :=
  List.zipWith (fun v answer => seen v.request answer) visits answers

/-- **One visit**: the service is left as the registry is, and both answer
    the same. -/
theorem visit_agrees (h : f.Holds s.memory s.now) (hs : s.IsQuiet)
    (hquery : isForGood (c.base.query.getD "").toList = false) {v : Visit}
    (hlive : IsLive v.context (s.now + v.idle)) (hcan : c.CanCall v.context v.request) :
    Agrees (c.visit f v) (seen v.request (s.visit v).1, (s.visit v).2.memory) (s.visit v).2.now := by
  have hdirect : s.memory.perform v.request = ((s.visit v).1, (s.visit v).2.memory) :=
    (hs.visit_of_live hlive.kept).symm
  have hnow : (s.visit v).2.now = s.now + v.idle := by
    rw [(hs.visit_spec v).now, hs.now_passTo, Nat.max_eq_right (Nat.le_add_right _ _)]
  have hagrees := send_agrees (h.passTo (addressOf c) v.idle) hlive hquery hcan
  rw [hdirect] at hagrees
  rw [hnow]
  exact hagrees

/-- **Any run**: a service and a registry that are alike answer alike. -/
theorem replies_agree (h : f.Holds s.memory s.now) (hs : s.IsQuiet)
    (hquery : isForGood (c.base.query.getD "").toList = false) {visits : List Visit}
    (hlive : LiveFrom s.now visits) (hcan : ∀ v ∈ visits, c.CanCall v.context v.request) :
    List.Forall₂ SameAnswer (c.replies visits f) (seenAll visits (replies visits s)) := by
  -- after each visit the service holds the memory of the registry
  induction visits generalizing f s with
  | nil => exact .nil
  | cons v rest ih =>
    obtain ⟨hv, hrest⟩ := hlive
    have hagrees := visit_agrees h hs hquery hv (hcan v List.mem_cons_self)
    have hnow : (s.visit v).2.now = s.now + v.idle := by
      rw [(hs.visit_spec v).now, hs.now_passTo, Nat.max_eq_right (Nat.le_add_right _ _)]
    rw [← hnow] at hrest
    refine .cons hagrees.answer (ih hagrees.holds (hs.visit_spec v).quiet hrest ?_)
    exact fun w hw => hcan w (List.mem_cons_of_mem v hw)

/-- Nothing is seen as something else but a schema that is lost. -/
theorem seen_eq {request : Registry.Request} {answer : Except RegistryError α}
    (h : ∀ subject id, request = .latest subject → answer ≠ .error (.schemaNotFound id)) :
    seen request answer = answer := by
  cases request with
  | latest subject =>
    cases answer with
    | ok a => rfl
    | error e =>
      cases e with
      | schemaNotFound id => exact absurd rfl (h subject id rfl)
      | _ => rfl
  | register | fetch | delete | subjects => rfl

/-- An orderly registry loses nothing as long as there are IDs to give
    out, so that each answer is seen as it is. -/
theorem seenAll_replies (h : s.IsOrderly) {visits : List Visit}
    (hroom : s.memory.nextId.toNat + Staged.allocations visits s < 2 ^ 32) :
    seenAll visits (replies visits s) = replies visits s := by
  induction visits generalizing s with
  | nil => rfl
  | cons v rest ih =>
    rw [Staged.allocations] at hroom
    obtain ⟨hvisit, hlater⟩ := Memory.room_of_step (h.quiet.nextId_visit v) hroom
    have hkept : seen v.request (s.visit v).1 = (s.visit v).1 :=
      seen_eq fun subject id hrequest => h.visit_latest hrequest id
    have hrest := ih (h.visit v hvisit) hlater
    rw [seenAll] at hrest
    rw [replies, seenAll, List.zipWith_cons_cons, hkept, hrest]

theorem holds_fresh : Facade.fresh.Holds Staged.empty.memory Staged.empty.now :=
  ⟨Staged.isQuiet_empty, rfl, rfl⟩

/-- A client of a service that is a registry in memory is answered, call by
    call, as a registry in memory that is asked directly: with the same
    value, or with the same error about the same thing.  An exception is a
    newest schema that the memory has lost, and it loses none as long as
    the counter of IDs has not run over. -/
theorem client_refines_memory (c : Client) (visits : List Visit)
    (hquery : isForGood (c.base.query.getD "").toList = false) (hlive : LiveFrom 0 visits)
    (hcan : ∀ v ∈ visits, c.CanCall v.context v.request) :
    List.Forall₂ SameAnswer (c.replies visits .fresh) (seenAll visits (replies visits .empty)) ∧
      (Staged.allocations visits .empty < 2 ^ 32 - 1 →
        List.Forall₂ SameAnswer (c.replies visits .fresh) (replies visits .empty)) := by
  have hagree := replies_agree holds_fresh Staged.isQuiet_empty hquery hlive hcan
  refine ⟨hagree, ?_⟩
  intro hroom
  have hnext : Staged.empty.memory.nextId.toNat = 1 := rfl
  rwa [seenAll_replies Staged.isOrderly_empty (by omega)] at hagree

/-- A client of a service on the same machine. -/
def loopback : Client where
  config := .ofUrl "http://[::1]:8081"
  base := {
    scheme := .http, user := none, host := .ipv6 [0, 0, 0, 0, 0, 0, 0, 1]
    portNumber := some 8081, path := [""], query := none, fragment := none }

theorem ofConfig_loopback (names : Url.Names) :
    Client.ofConfigBy names (.ofUrl "http://[::1]:8081") = .ok loopback := by
  rfl

/-- A subject that is deleted for good, and looked for afterwards. -/
def farewell (d : Descriptor) : List Visit :=
  [{ idle := 0, context := .unbounded, request := .register "orders" d },
    { idle := 5, context := .unbounded, request := .latest "orders" },
    { idle := 0, context := .unbounded, request := .delete "orders" },
    { idle := 0, context := .unbounded, request := .fetch 1 },
    { idle := 0, context := .unbounded, request := .subjects }]

theorem loopback_refines_memory :
    isForGood (loopback.base.query.getD "").toList = false ∧
      LiveFrom 0 (farewell Descriptor.keywords) ∧
      (∀ v ∈ farewell Descriptor.keywords, loopback.CanCall v.context v.request) ∧
      Staged.allocations (farewell Descriptor.keywords) .empty < 2 ^ 32 - 1 ∧
      List.Forall₂ SameAnswer (loopback.replies (farewell Descriptor.keywords) .fresh)
        (replies (farewell Descriptor.keywords) .empty) := by
  have hquery : isForGood (loopback.base.query.getD "").toList = false := by decide
  have hlive : LiveFrom 0 (farewell Descriptor.keywords) := by
    refine ⟨?_, ?_, ?_, ?_, ?_, trivial⟩
    all_goals exact ⟨rfl, rfl⟩
  have hcan : ∀ v ∈ farewell Descriptor.keywords, loopback.CanCall v.context v.request := by
    have hcalls : (farewell Descriptor.keywords).all (loopback.canCall ·.request) = true := by decide
    simp only [List.all_eq_true, farewell, List.forall_mem_cons] at hcalls ⊢
    obtain ⟨hregister, hlatest, hdelete, hfetch, hsubjects, -⟩ := hcalls
    exact ⟨Client.canCall_eq_true hregister, Client.canCall_eq_true hlatest,
      Client.canCall_eq_true hdelete, Client.canCall_eq_true hfetch,
      Client.canCall_eq_true hsubjects, nofun⟩
  have hroom : Staged.allocations (farewell Descriptor.keywords) .empty < 2 ^ 32 - 1 :=
    Nat.lt_of_le_of_lt (Staged.allocations_le_length _ _) (by decide)
  exact ⟨hquery, hlive, hcan, hroom,
    (client_refines_memory loopback _ hquery hlive hcan).2 hroom⟩

/-! ### Limits -/

/-- Visits over which a client is not answered as a registry in memory is,
    though all contexts are live and all subjects are named on their own. -/
structure Differs (c : Client) (visits : List Visit) : Prop where
  /-- Whatever becomes of names beyond ASCII. -/
  accepted : ∃ config, ∀ names, Client.ofConfigBy names config = .ok c
  live : LiveFrom 0 visits
  named : ∀ v ∈ visits, ∀ subject ∈ subjectOf? v.request, IsNamed subject
  answers : ¬ List.Forall₂ SameAnswer (c.replies visits .fresh) (replies visits .empty)

/-- A call with a correlation ID of two lines. -/
def garbled : Visit :=
  { idle := 0
    context := { Context.unbounded with correlationId := some "a\nb" }
    request := .subjects }

/-- An ID that is no header. -/
theorem differs_garbled : Differs loopback [garbled] where
  accepted := ⟨_, ofConfig_loopback⟩
  live := ⟨⟨rfl, rfl⟩, trivial⟩
  named := by simp [garbled, subjectOf?]
  answers := by
    have hclient : loopback.replies [garbled] .fresh = [.error (.transport "builder error")] := rfl
    have hdirect : replies [garbled] .empty = [.ok (.subjects [])] := rfl
    rw [hclient, hdirect]
    intro hsame
    cases hsame with
    | cons hanswer _ => contradiction

section Refused

variable {subject : String}

theorem named_latest (hnamed : IsNamed subject) :
    ∀ v ∈ [Visit.atOnce (.latest subject)], ∀ name ∈ subjectOf? v.request, IsNamed name := by
  rintro v hv name hname
  obtain rfl := List.mem_singleton.mp hv
  obtain rfl : subject = name := Option.mem_some.mp hname
  exact hnamed

/-- Where a subject cannot be asked for, a registry in memory answers that
    it is not there. -/
theorem Differs.of_refused (haccepted : ∃ config, ∀ names, Client.ofConfigBy names config = .ok c)
    (hnamed : IsNamed subject) (hrefused : ¬ IsAskable .unbounded (c.latestUrl subject)) :
    Differs c [.atOnce (.latest subject)] where
  accepted := haccepted
  live := ⟨⟨rfl, rfl⟩, trivial⟩
  named := named_latest hnamed
  answers := by
    -- the service is not even asked
    let f := (peer (addressOf c)).passTo 0 .fresh
    have hlive : IsLive .unbounded f.stage.now := ⟨rfl, rfl⟩
    obtain ⟨reason, hsend⟩ := send_refused c (addressOf c) latest? (.subject subject) .get none
      hlive hrefused
    have hclient : (c.visit .fresh (.atOnce (.latest subject))).1 = .error (.transport reason) := by
      show (c.latest (peer (addressOf c)) subject .unbounded f).1.map Reply.schema = _
      rw [Client.latest, hsend]
      rfl
    have hdirect : (Staged.empty.visit (.atOnce (.latest subject))).1 =
        .error (.subjectNotFound subject) := rfl
    intro hsame
    cases hsame with
    | cons hanswer _ =>
      rw [hclient, hdirect] at hanswer
      have hwordless : RegistryError.transport "" = .subjectNotFound subject :=
        Except.error.inj hanswer
      contradiction

end Refused

/-- A subject of so many letters. -/
def lengthy (n : Nat) : String :=
  String.ofList (List.replicate n 'a')

theorem length_lengthy (n : Nat) : (lengthy n).length = n := by
  rw [lengthy, String.length_ofList, List.length_replicate]

theorem isNamed_lengthy {n : Nat} (h : 0 < n) : IsNamed (lengthy n) := by
  have hletters : ∀ c ∈ (lengthy n).toList, c = 'a' := by
    intro c hc
    rw [lengthy, String.toList_ofList] at hc
    exact List.eq_of_mem_replicate hc
  have hother : ∀ other : String, other.toList.contains '.' = true → lengthy n ≠ other := by
    rintro other hdot rfl
    have hletter := hletters '.' (List.contains_iff_mem.mp hdot)
    contradiction
  refine ⟨⟨?_, hother _ (by decide), hother _ (by decide)⟩, ?_⟩
  · intro c hc
    obtain rfl := hletters c hc
    decide
  · intro hempty
    have hlength := congrArg String.length hempty
    rw [length_lengthy] at hlength
    exact absurd hlength (Nat.ne_of_gt h)

/-- A subject that fits no URL. -/
theorem differs_lengthy {n : Nat} (h : Client.longestUrl < n) :
    Differs loopback [.atOnce (.latest (lengthy n))] := by
  have hnamed : IsNamed (lengthy n) := isNamed_lengthy (Nat.zero_lt_of_lt h)
  refine .of_refused ⟨_, ofConfig_loopback⟩ hnamed ?_
  intro hasks
  have hfits := hnamed.length_le_longestUrl (isWord_after (by simp)) hasks
  rw [length_lengthy] at hfits
  omega

/-- A client of a service that is named by a double quote. -/
def oddly : Client where
  config := .ofUrl "http://\""
  base := { loopback.base with host := .domain "\"", portNumber := none }

theorem ofConfig_oddly (names : Url.Names) :
    Client.ofConfigBy names (.ofUrl "http://\"") = .ok oddly := by
  rfl

/-- A host that no request can name. -/
theorem differs_oddly {subject : String} (hnamed : IsNamed subject) :
    Differs oddly [.atOnce (.latest subject)] := by
  refine .of_refused ⟨_, ofConfig_oddly⟩ hnamed ?_
  intro hasks
  have hhost : (oddly.latestUrl subject).takeUser.2.host.text.toList.contains '"' = true := by
    rw [Client.latestUrl, Url.takeUser_append]
    show oddly.base.takeUser.2.host.text.toList.contains '"' = true
    decide
  have hurl := hasks.url
  rw [Client.isRequestable, hhost, Bool.not_true, Bool.and_false] at hurl
  contradiction

/-! ### A base that asks for good -/

/-- A client whose requests all ask for good. -/
def final : Client where
  config := .ofUrl "http://[::1]:8081?permanent=true"
  base := { loopback.base with query := some "permanent=true" }

theorem ofConfig_final (names : Url.Names) :
    Client.ofConfigBy names (.ofUrl "http://[::1]:8081?permanent=true") = .ok final := by
  rfl

theorem isNamed_orders : IsNamed "orders" :=
  isNamed_eq_true (by decide)

section ForGood

variable {subject : String} {d : Descriptor}

/-- A registration gives the service nothing to remember. -/
theorem deleted_visit_register (hcan : c.CanCall .unbounded (.register subject d)) :
    (c.visit .fresh (.atOnce (.register subject d))).2.deleted = [] := by
  obtain ⟨-, hdeleted⟩ := register_spec (holds_fresh.passTo (addressOf c) 0) ⟨rfl, rfl⟩
    (hcan.named subject rfl) (hcan.asks _ List.mem_cons_self) d
  exact hdeleted

/-- Where the base asks for good, a subject cannot be deleted at once. -/
theorem visit_delete_of_forGood (hquery : isForGood (c.base.query.getD "").toList = true)
    (hcan : c.CanCall .unbounded (.delete subject)) (hdeleted : f.deleted = []) :
    (c.visit f (.atOnce (.delete subject))).1 =
      .error (relayed (.subject subject) (.subjectNotFound subject)) := by
  let f' := (peer (addressOf c)).passTo (f.stage.now + 0) f
  have hremembers : Table.get? subject f'.deleted = none := by
    show Table.get? subject f.deleted = none
    rw [hdeleted]
    rfl
  have hlive : IsLive .unbounded f'.stage.now := ⟨rfl, rfl⟩
  have hgone := delete_of_forGood hlive (hcan.named subject rfl) hquery
    (hcan.asks _ List.mem_cons_self) hremembers
  exact congrArg (Except.map Reply.versions) hgone

end ForGood

/-- A deletion that skips its first step does not find what to delete. -/
theorem differs_final (d : Descriptor) :
    Differs final [.atOnce (.register "orders" d), .atOnce (.delete "orders")] where
  accepted := ⟨_, ofConfig_final⟩
  live := ⟨⟨rfl, rfl⟩, ⟨rfl, rfl⟩, trivial⟩
  named := by
    intro v hv subject hsubject
    simp only [List.mem_cons, List.not_mem_nil, or_false] at hv
    rcases hv with rfl | rfl
    all_goals
      obtain rfl : "orders" = subject := Option.mem_some.mp hsubject
      exact isNamed_orders
  answers := by
    have hregister : final.CanCall .unbounded (.register "orders" d) := Client.canCall_eq_true rfl
    have hdelete : final.CanCall .unbounded (.delete "orders") := Client.canCall_eq_true rfl
    -- the registry deletes the subject that the service will not delete at once
    have hclient := visit_delete_of_forGood (by decide) hdelete (deleted_visit_register hregister)
    have hdirect : ((Staged.empty.visit (.atOnce (.register "orders" d))).2.visit
        (.atOnce (.delete "orders"))).1 = .ok (.versions [1]) := rfl
    intro hsame
    cases hsame with
    | cons _ hrest =>
      cases hrest with
      | cons hanswer _ =>
        rw [hdirect] at hanswer
        have hgone := hanswer.symm.trans (congrArg _ hclient)
        contradiction

/-! ### A counter that has run over -/

theorem length_replies (visits : List Visit) (s : Staged) :
    (replies visits s).length = visits.length := by
  induction visits generalizing s with
  | nil => rfl
  | cons v rest ih => exact congrArg (· + 1) (ih (s.visit v).2)

theorem replies_append (first rest : List Visit) (s : Staged) :
    replies (first ++ rest) s = replies first s ++ replies rest (Staged.run first s) := by
  induction first generalizing s with
  | nil => rfl
  | cons v first ih => exact congrArg ((s.visit v).1 :: ·) (ih (s.visit v).2)

/-- Answers that a client shares with the registry are seen as they are. -/
theorem sameAnswer_of_shared {visits : List Visit}
    {shared answers : List (Except RegistryError Reply)}
    (hseen : List.Forall₂ SameAnswer shared (seenAll visits answers))
    (hsame : List.Forall₂ SameAnswer shared answers) :
    ∀ e ∈ visits.zip answers, SameAnswer e.2 (seen e.1.request e.2) := by
  induction hsame generalizing visits with
  | nil => simp
  | cons hanswer _ ih =>
    cases visits with
    | nil => simp
    | cons v visits =>
      cases hseen with
      | cons hfirst hrest =>
        rw [List.zip_cons_cons, List.forall_mem_cons]
        exact ⟨Eq.trans hanswer.symm hfirst, ih hrest⟩

/-- Calls that wear a registry out, and a look at what they have left. -/
def worn (d d' : Descriptor) (n : Nat) : List Registry.Request :=
  Memory.wearing d d' n ++ [.latest "a"]

theorem canCall_worn {d d' : Descriptor} {n : Nat} :
    ∀ v ∈ (worn d d' n).map Visit.atOnce, loopback.CanCall v.context v.request := by
  have hcan : ∀ request ∈ ([.register "a" d, .delete "a", .register "b" d', .delete "b",
      .latest "a"] : List Registry.Request), loopback.canCall request = true := by
    simp only [List.forall_mem_cons]
    exact ⟨rfl, rfl, rfl, rfl, rfl, nofun⟩
  rw [List.forall_mem_map]
  intro request hmem
  apply Client.canCall_eq_true
  apply hcan
  rcases List.mem_append.mp hmem with hwearing | hlatest
  · have hfew := Memory.wearing_subset d d' n hwearing
    exact List.mem_append_left [.latest "a"] hfew
  · obtain rfl := List.mem_singleton.mp hlatest
    simp [Visit.atOnce]

theorem liveFrom_atOnce (now : Nat) (requests : List Registry.Request) :
    LiveFrom now (requests.map .atOnce) := by
  induction requests generalizing now with
  | nil => exact trivial
  | cons request rest ih => exact ⟨⟨rfl, rfl⟩, ih _⟩

theorem differs_worn {d d' : Descriptor} (htext : d.text ≠ d'.text) {n : Nat} (hn : n + 1 = 2 ^ 32) :
    Differs loopback ((worn d d' n).map .atOnce) where
  accepted := ⟨_, ofConfig_loopback⟩
  live := liveFrom_atOnce 0 _
  named := fun v hv => (canCall_worn v hv).named
  answers := by
    intro hsame
    have hseen := replies_agree holds_fresh Staged.isQuiet_empty (by decide)
      (liveFrom_atOnce 0 (worn d d' n)) canCall_worn
    have hshared := sameAnswer_of_shared hseen hsame
    rw [worn, List.map_append, replies_append, List.zip_append (length_replies _ _).symm] at hshared
    -- the last call finds that the newest schema is lost
    let s := Staged.run ((Memory.wearing d d' n).map Visit.atOnce) .empty
    have hlast : SameAnswer (s.visit (.atOnce (.latest "a"))).1
        (seen (.latest "a") (s.visit (.atOnce (.latest "a"))).1) :=
      hshared (.atOnce (.latest "a"), _) (List.mem_append_right _ List.mem_cons_self)
    rw [Staged.visit_worn htext hn] at hlast
    have hwordless : RegistryError.schemaNotFound 1 = .server 404 "" := Except.error.inj hlast
    contradiction

/-- Not all calls end for a client as for a registry in memory.  A
    correlation ID may be no header, a URL too long, and a host no part of
    a request; the base may ask for good; and the counter of IDs may run
    over. -/
theorem not_refines :
    Differs loopback [garbled] ∧
      Differs loopback [.atOnce (.latest (lengthy 70000))] ∧
      Differs oddly [.atOnce (.latest "orders")] ∧
      Differs final [.atOnce (.register "orders" .keywords), .atOnce (.delete "orders")] ∧
      Differs loopback ((worn .keywords .signal (2 ^ 32 - 1)).map .atOnce) := by
  have hlong : Client.longestUrl < 70000 := by decide
  exact ⟨differs_garbled, differs_lengthy hlong, differs_oddly isNamed_orders,
    differs_final .keywords, differs_worn Descriptor.text_keywords_ne rfl⟩

end EventCodec.Rest
