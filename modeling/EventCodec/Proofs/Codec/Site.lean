import EventCodec.Proofs.Codec.Stage

/-! # Codecs side by side on one registry

    A site is a registry in memory with the codecs on it, however many and
    of whatever types.  Requests come in and codecs are opened, used and
    let go, one action after the other.

    Whatever the action, the registry is asked for at most one thing, a
    codec remains the codec it is, and nothing gets into a cache but what
    the registry knows at that moment (`Leads`).  The ID of an entry has
    then been given out, and stands for nothing else ever after.  So what
    the caches know outlives the deletion of the schemas without ever
    becoming wrong. -/

namespace EventCodec

open Schema
open Registry (Request)
open Staged (registry)

/-! ### Codecs in use -/

/-- A codec with a subject of its own, or one that is only bound to an
    ID. -/
inductive Handle (α : Type) where
  | opened (codec : Codec α)
  | bound (codec : Bound α)

namespace Handle

variable {α : Type} {s : Staged}

/-- What is in the codec's cache. -/
def entries : Handle α → List (UInt32 × Descriptor)
  | opened c => c.bound.cache.entries
  | bound b => b.cache.entries

def isReady : Handle α → Bool
  | opened c => c.isReady
  | bound _ => true

def decode (data : Bytes) (ctx : Context) (h : Handle α) (s : Staged) :
    Except CodecError α × Handle α × Staged :=
  match h with
  | opened c =>
    match c.decode registry data ctx s with
    | (result, c, s) => (result, opened c, s)
  | bound b =>
    match b.decode registry data ctx s with
    | (result, b, s) => (result, bound b, s)

/-- There is nothing to close where there is no subject. -/
def close (ctx : Context) (h : Handle α) (s : Staged) : Handle α × Staged :=
  match h with
  | opened c =>
    match c.close registry ctx s with
    | (_, c, s) => (opened c, s)
  | bound b => (bound b, s)

/-- Lets the codec go, where deletions run in the background or outside.
    It remains in its place, out of service. -/
def letGo (inside : Bool) (h : Handle α) (s : Staged) : Handle α × Staged :=
  match h with
  | opened c =>
    (opened { c with state := .closed }, if inside then c.drop registry s else c.dropOutside registry s)
  | bound b => (bound b, s)

/-- The same codec, later on. -/
inductive Precedes : Handle α → Handle α → Prop where
  | opened {c c' : Codec α} : c.Precedes c' → Precedes (opened c) (opened c')
  | bound {b b' : Bound α} : b.Precedes b' → Precedes (bound b) (bound b')

theorem Precedes.refl : ∀ h : Handle α, h.Precedes h
  | .opened c => .opened (.refl c)
  | .bound b => .bound (.refl b)

theorem Precedes.trans {h h' h'' : Handle α} (hfirst : h.Precedes h') (hthen : h'.Precedes h'') :
    h.Precedes h'' := by
  cases hfirst with
  | opened hfirst =>
    cases hthen with
    | opened hthen => exact .opened (hfirst.trans hthen)
  | bound hfirst =>
    cases hthen with
    | bound hthen => exact .bound (hfirst.trans hthen)

/-- What a codec has read once it reads again as long as it is ready. -/
theorem decode_again {h h' : Handle α} {data : Bytes} {ctx : Context} {v : α}
    (hread : (h.decode data ctx s).1 = .ok v) (hlater : (h.decode data ctx s).2.1.Precedes h')
    (hready : h'.isReady = true) (ctx' : Context) (t : Staged) :
    (h'.decode data ctx' t).1 = .ok v := by
  cases h with
  | opened c =>
    cases hlater with
    | opened hlater => exact Codec.decode_again hread hlater hready registry ctx' t
  | bound b =>
    cases hlater with
    | bound hlater => exact Bound.decode_again hread hlater registry ctx' t

/-- All a use of a codec can come to. -/
structure Leads (s : Staged) (h : Handle α) (outcome : Handle α × Staged) : Prop where
  stage : s.Advances outcome.2
  handle : h.Precedes outcome.1
  entries : ∀ e ∈ outcome.1.entries, e ∈ h.entries ∨ s.memory.text? e.1 = some e.2.text

theorem leads_decode (hs : s.IsOrderly) (h : Handle α) (data : Bytes) (ctx : Context) :
    h.Leads s (h.decode data ctx s).2 := by
  cases h with
  | opened c =>
    exact ⟨(hs.quiet.keeps_decode c data ctx).advances,
      .opened (c.precedes_decode registry data ctx s), fun e he => hs.mem_decode he⟩
  | bound b =>
    exact ⟨(hs.quiet.keeps_bound_decode b data ctx).advances,
      .bound (b.precedes_decode registry data ctx s), fun e he => hs.mem_bound_decode he⟩

theorem leads_close (hs : s.IsOrderly) (h : Handle α) (ctx : Context) :
    h.Leads s (h.close ctx s) := by
  cases h with
  | opened c =>
    refine ⟨hs.quiet.advances_close c ctx, .opened (c.precedes_close registry ctx s), ?_⟩
    intro e he
    have hmem : e ∈ (c.close registry ctx s).2.1.bound.cache.entries := he
    rw [c.bound_close] at hmem
    exact .inl hmem
  | bound b => exact ⟨hs.quiet.keeps.advances, .refl _, fun e he => .inl he⟩

theorem leads_letGo (hs : s.IsOrderly) (h : Handle α) (inside : Bool) :
    h.Leads s (h.letGo inside s) := by
  cases h with
  | opened c =>
    refine ⟨?_, .opened c.precedes_retired, fun e he => .inl he⟩
    cases inside with
    | true => exact hs.quiet.advances_drop c
    | false => exact (hs.quiet.keeps_dropOutside c).advances
  | bound b => exact ⟨hs.quiet.keeps.advances, .refl _, fun e he => .inl he⟩

end Handle

/-! ### Sites -/

structure Site where
  stage : Staged
  /-- All codecs there have been, in the order they were opened or bound. -/
  codecs : List (Sigma Handle)

namespace Site

def empty : Site :=
  { stage := .empty, codecs := [] }

/-- What can be done on a site. -/
inductive Action : Type 1 where
  /-- Lets time pass. -/
  | wait (duration : Nat)
  /-- Makes a request of the registry. -/
  | request (request : Request) (ctx : Context)
  | «open» {α : Type} (type : EventType α) (subject : String) (ctx : Context)
  | bind {α : Type} (type : EventType α) (id : UInt32) (d : Descriptor)
  /-- Uses the codec in a place. -/
  | decode (place : Nat) (data : Bytes) (ctx : Context)
  | close (place : Nat) (ctx : Context)
  | letGo (place : Nat) (inside : Bool)

/-- Uses the codec in a place, if there is one. -/
def use (w : Site) (place : Nat) (f : (α : Type) → Handle α → Staged → Handle α × Staged) : Site :=
  match w.codecs[place]? with
  | none => w
  | some ⟨α, h⟩ =>
    match f α h w.stage with
    | (h, stage) => { stage, codecs := w.codecs.set place ⟨α, h⟩ }

def act (w : Site) : Action → Site
  | .wait duration => { w with stage := w.stage.passTo (w.stage.now + duration) }
  | .request request ctx => { w with stage := (registry.send ctx w.stage request).2 }
  | .open type subject ctx =>
    match Codec.open registry type subject ctx w.stage with
    | (.error _, stage) => { w with stage }
    | (.ok c, stage) => { stage, codecs := w.codecs ++ [⟨_, .opened c⟩] }
  | .bind type id d => { w with codecs := w.codecs ++ [⟨_, .bound (.new type id d)⟩] }
  | .decode place data ctx => w.use place fun _ h s => (h.decode data ctx s).2
  | .close place ctx => w.use place fun _ h s => h.close ctx s
  | .letGo place inside => w.use place fun _ h s => h.letGo inside s

/-- The site after some actions. -/
def run : List Action → Site → Site
  | [], w => w
  | a :: rest, w => run rest (w.act a)

/-- How many new IDs are given out on the way. -/
def allocations : List Action → Site → Nat
  | [], _ => 0
  | a :: rest, w =>
    (if (w.act a).stage.memory.nextId = w.stage.memory.nextId then 0 else 1) +
      allocations rest (w.act a)

variable {w w' w'' : Site} {a : Action} {id : UInt32} {d : Descriptor}

theorem run_append (before after : List Action) (w : Site) :
    run (before ++ after) w = run after (run before w) := by
  induction before generalizing w with
  | nil => rfl
  | cons a before ih => exact ih (w.act a)

theorem allocations_append (before after : List Action) (w : Site) :
    allocations (before ++ after) w = allocations before w + allocations after (run before w) := by
  induction before generalizing w with
  | nil => exact (Nat.zero_add _).symm
  | cons a before ih =>
    simp only [List.cons_append, allocations, run, ih]
    omega

theorem allocations_le_length (actions : List Action) (w : Site) :
    allocations actions w ≤ actions.length := by
  induction actions generalizing w with
  | nil => exact Nat.le_refl 0
  | cons a rest ih =>
    have hrest := ih (w.act a)
    simp only [allocations, List.length_cons]
    split <;> omega

/-! ### One action -/

/-- The entry is in the cache of some codec. -/
def Caches (w : Site) (e : UInt32 × Descriptor) : Prop :=
  ∃ x ∈ w.codecs, e ∈ x.2.entries

/-- Every codec is still in its place. -/
def KeepsCodecs (w w' : Site) : Prop :=
  ∀ (place : Nat) (α : Type) (h : Handle α), w.codecs[place]? = some ⟨α, h⟩ →
    ∃ h', w'.codecs[place]? = some ⟨α, h'⟩ ∧ h.Precedes h'

/-- All an action can come to. -/
structure Leads (w w' : Site) : Prop where
  stage : w.stage.Advances w'.stage
  codecs : w.KeepsCodecs w'
  /-- What gets into a cache is what the registry knows. -/
  entries : ∀ e, w'.Caches e → w.Caches e ∨ w.stage.memory.text? e.1 = some e.2.text

theorem KeepsCodecs.refl (w : Site) : w.KeepsCodecs w :=
  fun _ _ h hh => ⟨h, hh, .refl h⟩

theorem KeepsCodecs.trans (h : w.KeepsCodecs w') (h' : w'.KeepsCodecs w'') : w.KeepsCodecs w'' := by
  intro place α c hc
  obtain ⟨c', hc', hprecedes⟩ := h place α c hc
  obtain ⟨c'', hc'', hprecedes'⟩ := h' place α c' hc'
  exact ⟨c'', hc'', hprecedes.trans hprecedes'⟩

/-- Nothing is done to the codecs. -/
theorem leads_stage {stage : Staged} (h : w.stage.Advances stage) : w.Leads { w with stage } :=
  ⟨h, .refl w, fun _ he => .inl he⟩

/-- A new codec comes with an empty cache. -/
theorem leads_append {stage : Staged} {x : Sigma Handle} (h : w.stage.Advances stage)
    (hx : x.2.entries = []) : w.Leads { stage, codecs := w.codecs ++ [x] } := by
  refine ⟨h, ?_, ?_⟩
  · intro place α c hc
    have hplace : place < w.codecs.length := (List.getElem?_eq_some_iff.mp hc).1
    exact ⟨c, (List.getElem?_append_left hplace).trans hc, .refl c⟩
  · rintro e ⟨y, hy, he⟩
    rcases List.mem_append.mp hy with hold | hnew
    · exact .inl ⟨y, hold, he⟩
    · obtain rfl := List.mem_singleton.mp hnew
      rw [hx] at he
      contradiction

/-- It is enough to look at the codec that is used. -/
theorem leads_use (hquiet : w.stage.IsQuiet) (place : Nat)
    {f : (α : Type) → Handle α → Staged → Handle α × Staged}
    (hf : ∀ (α : Type) (h : Handle α), h.Leads w.stage (f α h w.stage)) :
    w.Leads (w.use place f) := by
  unfold use
  cases hplace : w.codecs[place]? with
  | none => exact leads_stage hquiet.keeps.advances
  | some x =>
    obtain ⟨α, h⟩ := x
    have hleads := hf α h
    have hlength : place < w.codecs.length := (List.getElem?_eq_some_iff.mp hplace).1
    refine ⟨hleads.stage, ?_, ?_⟩
    · -- the codec that is used comes further, all others are as they were
      intro other β c hc
      by_cases hother : place = other
      · subst hother
        obtain ⟨rfl, hsame⟩ := Sigma.mk.inj (Option.some.inj (hplace.symm.trans hc))
        obtain rfl := eq_of_heq hsame
        exact ⟨_, List.getElem?_set_self hlength, hleads.handle⟩
      · exact ⟨c, (List.getElem?_set_ne hother).trans hc, .refl c⟩
    · -- so an entry that is new is in the cache of the one that is used
      rintro e ⟨y, hy, he⟩
      rcases List.mem_or_eq_of_mem_set hy with hold | rfl
      · exact .inl ⟨y, hold, he⟩
      · rcases hleads.entries e he with hbefore | hknown
        · exact .inl ⟨_, List.mem_of_getElem? hplace, hbefore⟩
        · exact .inr hknown

theorem leads_act (hs : w.stage.IsOrderly) (a : Action) : w.Leads (w.act a) := by
  cases a with
  | wait duration =>
    exact leads_stage ⟨hs.quiet.passTo _, .inl (hs.quiet.memory_passTo _)⟩
  | request request ctx =>
    have hserves := hs.quiet.serves_send ctx request
    refine leads_stage ⟨hserves.quiet, ?_⟩
    rcases hserves.memory with hmemory | hmemory
    · exact .inl hmemory
    · exact .inr ⟨request, hmemory⟩
  | «open» type subject ctx =>
    rcases hs.quiet.open_spec type subject ctx with
      ⟨e, s, hopen, hkeeps⟩ | ⟨d, r, s, hopen, hquiet, hregister⟩
    · simp only [act, hopen]
      exact leads_stage hkeeps.advances
    · simp only [act, hopen]
      have hmemory : s.memory = (w.stage.memory.perform (.register subject d)).2 :=
        (congrArg Prod.snd hregister).symm
      exact leads_append ⟨hquiet, .inr ⟨_, hmemory⟩⟩ rfl
  | bind type id d => exact leads_append hs.quiet.keeps.advances rfl
  | decode place data ctx =>
    show w.Leads (w.use place fun _ h s => (h.decode data ctx s).2)
    exact leads_use hs.quiet place fun _ h => h.leads_decode hs data ctx
  | close place ctx =>
    show w.Leads (w.use place fun _ h s => h.close ctx s)
    exact leads_use hs.quiet place fun _ h => h.leads_close hs ctx
  | letGo place inside =>
    show w.Leads (w.use place fun _ h s => h.letGo inside s)
    exact leads_use hs.quiet place fun _ h => h.leads_letGo hs inside

/-! ### What stays -/

/-- An orderly stage, on which every entry of a cache has been given
    out. -/
structure IsOrderly (w : Site) : Prop where
  stage : w.stage.IsOrderly
  vouched : ∀ e, w.Caches e → w.stage.memory.Vouches e.1 e.2

theorem isOrderly_empty : empty.IsOrderly where
  stage := Staged.isOrderly_empty
  vouched := by
    rintro e ⟨x, hx, -⟩
    contradiction

theorem IsOrderly.leads (h : w.IsOrderly) (hleads : w.Leads w')
    (hroom : w.stage.memory.HasRoom w'.stage.memory) : w'.IsOrderly := by
  have hprecedes := hleads.stage.precedes hroom
  refine ⟨hleads.stage.isOrderly h.stage hroom, fun e he => ?_⟩
  rcases hleads.entries e he with hold | hknown
  · exact (h.vouched e hold).later hprecedes
  · exact (h.stage.consistent.vouches hknown).later hprecedes

/-- The site may come to be the other one. -/
structure Precedes (w w' : Site) : Prop where
  memory : w.stage.memory.Precedes w'.stage.memory
  codecs : w.KeepsCodecs w'

theorem Precedes.refl (w : Site) : w.Precedes w :=
  ⟨.refl _, .refl w⟩

theorem Precedes.trans (h : w.Precedes w') (h' : w'.Precedes w'') : w.Precedes w'' :=
  ⟨h.memory.trans h'.memory, h.codecs.trans h'.codecs⟩

theorem Leads.precedes (h : w.Leads w') (hroom : w.stage.memory.HasRoom w'.stage.memory) :
    w.Precedes w' :=
  ⟨h.stage.precedes hroom, h.codecs⟩

/-- The ID has been given to the descriptor, and no cache has another. -/
structure Knows (w : Site) (id : UInt32) (d : Descriptor) : Prop where
  vouches : w.stage.memory.Vouches id d
  cached : ∀ e, w.Caches (id, e) → e = d

theorem Knows.leads (h : w.Knows id d) (hleads : w.Leads w')
    (hroom : w.stage.memory.HasRoom w'.stage.memory) : w'.Knows id d := by
  refine ⟨h.vouches.later (hleads.stage.precedes hroom), fun e he => ?_⟩
  rcases hleads.entries (id, e) he with hold | hknown
  · exact h.cached e hold
  · exact h.vouches.eq_of_text? hknown

/-- A live ID is known: the caches vouch for it as well. -/
theorem IsOrderly.knows (h : w.IsOrderly) (hid : w.stage.memory.text? id = some d.text) :
    w.Knows id d :=
  ⟨h.stage.consistent.vouches hid, fun e he => ((h.vouched (id, e) he).eq_of_text? hid).symm⟩

/-! ### Runs -/

/-- What every action keeps that has room on an orderly site, a run keeps
    as long as there are IDs to give out, and leaves those for later. -/
theorem IsOrderly.along {P : Site → Prop} {later : Nat} (h : w.IsOrderly) (hw : P w)
    (hstep : ∀ t u : Site, t.IsOrderly → t.Leads u → t.stage.memory.HasRoom u.stage.memory →
      P t → P u)
    (actions : List Action)
    (hroom : w.stage.memory.nextId.toNat + (allocations actions w + later) < 2 ^ 32) :
    (Site.run actions w).IsOrderly ∧ P (Site.run actions w) ∧
      (Site.run actions w).stage.memory.nextId.toNat + later < 2 ^ 32 := by
  -- the counter and the IDs still to be given out stay below the limit
  induction actions generalizing w with
  | nil =>
    rw [allocations, Nat.zero_add] at hroom
    exact ⟨h, hw, hroom⟩
  | cons a rest ih =>
    have hleads := leads_act h.stage a
    rw [allocations, Nat.add_assoc] at hroom
    obtain ⟨hact, hrest⟩ := Memory.room_of_step hleads.stage.nextId hroom
    exact ih (h.leads hleads hact) (hstep w (w.act a) h hleads hact hw) hrest

/-- What is known stays known, and every codec stays what it is. -/
theorem IsOrderly.run_precedes (h : w.IsOrderly) (actions : List Action) {later : Nat}
    (hroom : w.stage.memory.nextId.toNat + (allocations actions w + later) < 2 ^ 32) :
    (Site.run actions w).IsOrderly ∧
      (w.Precedes (Site.run actions w) ∧
        ∀ id d, w.Knows id d → (Site.run actions w).Knows id d) ∧
      (Site.run actions w).stage.memory.nextId.toNat + later < 2 ^ 32 := by
  let keeps (t : Site) : Prop := w.Precedes t ∧ ∀ id d, w.Knows id d → t.Knows id d
  have hstart : keeps w := ⟨.refl w, fun _ _ hd => hd⟩
  refine h.along hstart (fun t u _ hleads hact hkeeps => ?_) actions hroom
  exact ⟨hkeeps.1.trans (hleads.precedes hact), fun id d hd => (hkeeps.2 id d hd).leads hleads hact⟩

/-! ### IDs that are given out -/

/-- The action is answered with an ID for a descriptor. -/
inductive Issues (w : Site) : Action → UInt32 → Descriptor → Prop where
  | register {subject : String} {d : Descriptor} {ctx : Context} {id : UInt32} :
    (registry.register subject d ctx w.stage).1 = .ok id →
      w.Issues (.request (.register subject d) ctx) id d
  | «open» {α : Type} {type : EventType α} {subject : String} {ctx : Context} {c : Codec α} :
    (Codec.open registry type subject ctx w.stage).1 = .ok c →
      w.Issues (.open type subject ctx) c.bound.schemaId c.bound.descriptor

/-- The ID stands for the descriptor afterwards. -/
theorem IsOrderly.text?_of_issues (h : w.IsOrderly) (hissues : w.Issues a id d) :
    (w.act a).stage.memory.text? id = some d.text := by
  have hsound := h.stage.consistent.toIsSound
  cases hissues with
  | @register subject d ctx id hanswer =>
    obtain ⟨r, rfl, hregister⟩ := h.stage.quiet.register_of_ok hanswer
    exact hsound.text?_of_register hregister
  | @«open» α type subject ctx c hanswer =>
    simp only [act]
    rcases h.stage.quiet.open_spec type subject ctx with
      ⟨e, s, hopen, -⟩ | ⟨d, r, s, hopen, -, hregister⟩
    · rw [hopen] at hanswer
      contradiction
    · rw [hopen] at hanswer ⊢
      obtain rfl := Except.ok.inj hanswer
      exact hsound.text?_of_register hregister

/-- An ID that was given out and has gone is not given out again. -/
theorem IsOrderly.not_issues (h : w.IsOrderly) (hroom : w.stage.memory.HasRoom (w.act a).stage.memory)
    (hgiven : id < w.stage.memory.nextId) (hgone : w.stage.memory.text? id = none) :
    ¬ w.Issues a id d := by
  intro hissues
  have hprecedes := (leads_act h.stage a).stage.precedes hroom
  have hstill := hprecedes.text?_eq_none hgiven hgone
  rw [h.text?_of_issues hissues] at hstill
  contradiction

/-- An ID that is known is fetched with its descriptor or not at all. -/
theorem Knows.fetch (h : w.Knows id d) (hw : w.IsOrderly) (ctx : Context) :
    ctx.isCancelled w.stage.now = true ∧
        (registry.fetch id ctx w.stage).1 = .error .cancelled ∨
      (∃ schema, (registry.fetch id ctx w.stage).1 = .ok schema ∧ schema.descriptor = .ok d) ∨
      (registry.fetch id ctx w.stage).1 = .error (.schemaNotFound id) := by
  have hanswer := congrArg Prod.fst (hw.stage.quiet.serves_fetch id ctx).result
  cases hcancelled : ctx.isCancelled w.stage.now with
  | true =>
    rw [hcancelled] at hanswer
    exact .inl ⟨rfl, hanswer⟩
  | false =>
    rw [hcancelled] at hanswer
    refine .inr ?_
    show (∃ schema, _ = _ ∧ _) ∨ _
    cases hid : w.stage.memory.text? id with
    | none => exact .inr (hanswer.trans (Memory.fetch_of_gone hid))
    | some text =>
      rw [h.vouches.text text hid] at hid
      obtain ⟨schema, hfetch, hdescriptor⟩ := Memory.fetch_of_text? hid
      exact .inl ⟨schema, hanswer.trans hfetch, hdescriptor⟩

/-- An ID is not found exactly if it has gone. -/
theorem IsOrderly.fetch_of_gone (h : w.IsOrderly) (hgone : w.stage.memory.text? id = none)
    {ctx : Context} (hlive : ctx.isCancelled w.stage.now = false) :
    (registry.fetch id ctx w.stage).1 = .error (.schemaNotFound id) := by
  have hanswer := congrArg Prod.fst ((h.stage.quiet.serves_fetch id ctx).of_live hlive)
  exact hanswer.trans (Memory.fetch_of_gone hgone)

theorem IsOrderly.gone_of_fetch (h : w.IsOrderly) {ctx : Context}
    (hanswer : (registry.fetch id ctx w.stage).1 = .error (.schemaNotFound id)) :
    w.stage.memory.text? id = none := by
  rcases (h.stage.quiet.serves_fetch id ctx).answer with hcancelled | hfetch
  · rw [hanswer] at hcancelled
    exact absurd hcancelled (by simp)
  · exact Memory.text?_of_fetch (hfetch.symm.trans hanswer)

/-- What has gone stays away over whole runs. -/
theorem IsOrderly.gone_for_good (h : w.IsOrderly) (hgiven : id < w.stage.memory.nextId)
    (hgone : w.stage.memory.text? id = none) (actions : List Action)
    (hroom : w.stage.memory.nextId.toNat + allocations actions w < 2 ^ 32) :
    (Site.run actions w).stage.memory.text? id = none ∧
      ∀ (soon : List Action) (b : Action) (rest : List Action), actions = soon ++ b :: rest →
        ∀ e, ¬ (Site.run soon w).Issues b id e := by
  obtain ⟨-, ⟨hprecedes, -⟩, -⟩ := @IsOrderly.run_precedes w h actions 0 hroom
  refine ⟨hprecedes.memory.text?_eq_none hgiven hgone, ?_⟩
  rintro soon b rest rfl e
  -- up to the action nothing has changed, and there is room for it
  rw [allocations_append] at hroom
  obtain ⟨hsoon, ⟨hbefore, -⟩, hleft⟩ := h.run_precedes soon hroom
  rw [allocations] at hleft
  obtain ⟨hact, -⟩ := Memory.room_of_step (leads_act hsoon.stage b).stage.nextId hleft
  refine hsoon.not_issues hact ?_ (hbefore.memory.text?_eq_none hgiven hgone)
  exact Std.lt_of_lt_of_le hgiven hbefore.memory.nextId

/-- Where a codec has been used for reading, it is found as reading has
    left it. -/
theorem codecs_act_decode {place : Nat} {data : Bytes} {ctx : Context} {α : Type} {c : Handle α}
    (hc : w.codecs[place]? = some ⟨α, c⟩) :
    (w.act (.decode place data ctx)).codecs[place]? =
      some ⟨α, (c.decode data ctx w.stage).2.1⟩ := by
  have hlength : place < w.codecs.length := (List.getElem?_eq_some_iff.mp hc).1
  simp only [act, use, hc]
  exact List.getElem?_set_self hlength

/-- **Immutability**: an ID that a descriptor was registered under stands
    for it ever after.  Fetching it comes to the descriptor, or to nothing
    once the schema is deleted, and then to nothing for good: the ID is not
    given out again.  No cache has anything else under it.  And what a codec
    has read once it reads again as long as it is ready. -/
theorem ids_are_immutable (past later evenLater : List Action) (a : Action)
    (hroom : allocations (past ++ a :: (later ++ evenLater)) .empty < 2 ^ 32 - 1) :
    let before := run past .empty
    let now := run later (before.act a)
    let afterwards := run evenLater now
    (∀ (id : UInt32) (d : Descriptor), before.Issues a id d →
      (∀ ctx, ctx.isCancelled now.stage.now = true ∧
          (registry.fetch id ctx now.stage).1 = .error .cancelled ∨
        (∃ schema, (registry.fetch id ctx now.stage).1 = .ok schema ∧ schema.descriptor = .ok d) ∨
        (registry.fetch id ctx now.stage).1 = .error (.schemaNotFound id)) ∧
      (∀ ctx, (registry.fetch id ctx now.stage).1 = .error (.schemaNotFound id) →
        (∀ ctx', ctx'.isCancelled afterwards.stage.now = false →
          (registry.fetch id ctx' afterwards.stage).1 = .error (.schemaNotFound id)) ∧
        ∀ (soon : List Action) (b : Action) (rest : List Action), evenLater = soon ++ b :: rest →
          ∀ e, ¬ (run soon now).Issues b id e) ∧
      (∀ e, now.Caches (id, e) → e = d)) ∧
    (∀ (place : Nat) (data : Bytes) (ctx : Context) (α : Type) (c : Handle α) (v : α),
      a = .decode place data ctx → before.codecs[place]? = some ⟨α, c⟩ →
      (c.decode data ctx before.stage).1 = .ok v →
      ∃ c', now.codecs[place]? = some ⟨α, c'⟩ ∧
        (c'.isReady = true → ∀ ctx', (c'.decode data ctx' now.stage).1 = .ok v)) := by
  intro before now afterwards
  have hnext : empty.stage.memory.nextId.toNat = 1 := rfl
  rw [allocations_append] at hroom
  have hroom' : empty.stage.memory.nextId.toNat +
      (allocations past empty + allocations (a :: (later ++ evenLater)) (run past empty)) < 2 ^ 32 := by
    omega
  obtain ⟨hbefore, -, hrest⟩ := isOrderly_empty.run_precedes past hroom'
  -- there is room for the action, for what comes later and for what comes after that
  have hleads := leads_act hbefore.stage a
  rw [allocations] at hrest
  obtain ⟨hact, hrest⟩ := Memory.room_of_step hleads.stage.nextId hrest
  rw [allocations_append] at hrest
  have hacted := hbefore.leads hleads hact
  obtain ⟨hnow, ⟨hprecedes, hknows⟩, hleft⟩ := hacted.run_precedes later hrest
  refine ⟨fun id d hissues => ?_, ?_⟩
  · -- right after the action the ID is live, and what is known then stays known
    have hknown := hknows id d (hacted.knows (hbefore.text?_of_issues hissues))
    refine ⟨hknown.fetch hnow, fun ctx hanswer => ?_, hknown.cached⟩
    have hgone := hnow.gone_of_fetch hanswer
    obtain ⟨hstill, hnever⟩ := hnow.gone_for_good hknown.vouches.given hgone evenLater hleft
    obtain ⟨hafterwards, -⟩ := @IsOrderly.run_precedes now hnow evenLater 0 hleft
    exact ⟨fun ctx' hlive => hafterwards.fetch_of_gone hstill hlive, hnever⟩
  · rintro place data ctx α c v rfl hc hread
    obtain ⟨c', hc', hlater⟩ := hprecedes.codecs place α _ (codecs_act_decode hc)
    exact ⟨c', hc', fun hready ctx' => Handle.decode_again hread hlater hready ctx' now.stage⟩

/-- Registers a schema for the orders. -/
def enlist (d : Descriptor) : Action :=
  .request (.register "orders" d) .unbounded

/-- Deletes what the orders had. -/
def strike : Action :=
  .request (.delete "orders") .unbounded

/-- A type without fields, which reads everything. -/
def stub : EventType Unit where
  name := "Stub"
  describe := { name := "Stub", declarations := [] }
  validate := fun _ => none
  encode := fun _ => []
  decode := fun _ => .ok ()
  default := ()

def stubDescriptor : Descriptor where
  name := "Stub"
  fields := #[]
  isIdentifier_name := by decide
  isFieldSet := by decide

/-- A codec that is bound to an ID of its own. -/
def reader : Action :=
  .bind stub 7 stubDescriptor

/-- Reads an envelope under the orders' ID. -/
def peruse : Action :=
  .decode 0 [0, 0, 0, 0, 1] .unbounded

theorem peruse_reads (d : Descriptor) :
    ((Handle.bound (Bound.new stub 7 stubDescriptor)).decode [0, 0, 0, 0, 1] .unbounded
      (run [enlist d, reader] empty).stage).1 = .ok () := by
  have hparse : Envelope.parse [0, 0, 0, 0, 1] = .ok { schemaId := 1, payload := [] } := by decide
  have hfetch : (registry.fetch 1 .unbounded (run [enlist d, reader] empty).stage).1 =
      .ok { id := 1, subject := none, version := none, schemaType := .protobuf, text := d.text } :=
    rfl
  have hwriter : Cache.interpret 1 (registry.fetch 1 .unbounded
      (run [enlist d, reader] empty).stage).1 = .ok d := by
    rw [hfetch, Cache.interpret, RegisteredSchema.descriptor, d.ofText_text]
    rfl
  have hempty : (Bound.new stub 7 stubDescriptor).cache.get? 1 = none := rfl
  simp only [Handle.decode, Bound.decode, hparse]
  simp only [Cache.getOrFetch, hempty, hwriter]
  rfl

/-- The orders' schema has been registered, and deleted again. -/
def struck : Site :=
  run [strike] (empty.act (enlist .keywords))

/-- Before it was deleted, a codec has read an envelope with it. -/
def perused : Site :=
  run [strike] ((run [enlist .keywords, reader] empty).act peruse)

theorem orders_immutable :
    empty.Issues (enlist .keywords) 1 .keywords ∧
      (registry.fetch 1 .unbounded struck.stage).1 = .error (.schemaNotFound 1) ∧
      (registry.fetch 1 .unbounded (run [enlist .keywords, .wait 5] struck).stage).1 =
        .error (.schemaNotFound 1) ∧
      ∃ c : Handle Unit, perused.codecs[0]? = some ⟨Unit, c⟩ ∧
        (c.isReady = true → ∀ ctx, (c.decode [0, 0, 0, 0, 1] ctx perused.stage).1 = .ok ()) := by
  have hissues : empty.Issues (enlist .keywords) 1 .keywords := .register rfl
  have hgone : (registry.fetch 1 .unbounded struck.stage).1 = .error (.schemaNotFound 1) := rfl
  -- the same schema is registered again, and does not get its ID back
  have hroom : allocations ([] ++ enlist .keywords :: ([strike] ++ [enlist .keywords, .wait 5]))
      empty < 2 ^ 32 - 1 := Nat.lt_of_le_of_lt (allocations_le_length _ _) (by decide)
  obtain ⟨hids, -⟩ := ids_are_immutable [] [strike] [enlist .keywords, .wait 5] _ hroom
  obtain ⟨-, hstay, -⟩ := hids 1 .keywords hissues
  have hstill := (hstay .unbounded hgone).1 .unbounded rfl
  -- what has been read is read once more
  have hroom' : allocations ([enlist .keywords, reader] ++ peruse :: ([strike] ++ []))
      empty < 2 ^ 32 - 1 := Nat.lt_of_le_of_lt (allocations_le_length _ _) (by decide)
  obtain ⟨-, hreads⟩ := ids_are_immutable [enlist .keywords, reader] [strike] [] peruse hroom'
  have hread := hreads 0 _ _ Unit _ () rfl rfl (peruse_reads .keywords)
  exact ⟨hissues, hgone, hstill, hread⟩

end Site

end EventCodec
