import EventCodec.Proofs.Registry.Run

/-! # When the counter of IDs runs over

    A schema that is registered and deleted again takes an ID.  After
    enough of them the counter comes round to an ID that is in use
    (`performAll_passing`), and then one ID is the answer to two texts
    (`visit_round`).  Once it is free again only the second text is
    forgotten; under the first, a subject is registered that has no schema
    (`visit_frayed`, `visit_worn`).

    So what is said of the memory where IDs are given out once would not
    hold without a bound on how many are given out. -/

namespace EventCodec

open Schema
open Registry (Request)

namespace Memory

/-- A memory after some calls. -/
def performAll (m : Memory) (requests : List Request) : Memory :=
  requests.foldl (fun m request => (m.perform request).2) m

theorem performAll_append (m : Memory) (first rest : List Request) :
    m.performAll (first ++ rest) = (m.performAll first).performAll rest :=
  List.foldl_append

/-- A schema under a subject that is deleted again. -/
def passing (d : Descriptor) : List Request :=
  [.register "b" d, .delete "b"]

theorem performAll_passing_eq (m : Memory) (d : Descriptor) :
    m.performAll (passing d) = ((m.register "b" d).2.delete "b").2 :=
  rfl

/-- One schema, under another subject. -/
def single (text : String) (next : UInt32) : Memory :=
  { nextId := next, schemas := [(1, text)], ids := [(text, 1)], subjects := [("a", [1])] }

variable {text : String} {d d' : Descriptor} {next : UInt32}

theorem register_single (htext : text ≠ d.text) :
    ((single text next).register "b" d).2 =
      { nextId := next + 1
        schemas := Table.insert next d.text [(1, text)]
        ids := [(text, 1), (d.text, next)]
        subjects := [("a", [1]), ("b", [next])] } := by
  have hother : ("a" == "b") = false := by decide
  have hafter : ¬ "b" < "a" := by decide
  simp [register, single, versions?, Ordered.get?, hother, add, assign, id?, Table.get?, htext,
    store, setVersions, Table.insert, Table.erase, Ordered.insert, hafter]

/-- A schema that comes and goes takes an ID. -/
theorem performAll_passing (htext : text ≠ d.text) (hnext : next ≠ 1) :
    (single text next).performAll (passing d) = single text (next + 1) := by
  have hother : ("a" == "b") = false := by decide
  rw [performAll_passing_eq, register_single htext]
  simp [delete, versions?, Ordered.get?, hother, without, dropSubject, Ordered.erase, release,
    isReferenced, hnext, text?, Table.get?, hnext.symm, Table.insert, remove, Table.erase, htext,
    single]

/-- Many of them take as many IDs, up to all that are not in use. -/
theorem performAll_many (htext : text ≠ d.text) {n : Nat} (hn : n < 2 ^ 32) :
    (single text 2).performAll (List.replicate n (passing d)).flatten =
      single text (UInt32.ofNat (2 + n)) := by
  induction n with
  | zero => rfl
  | succ n ih =>
    -- the counter has not come round to the ID in use
    have hnext : UInt32.ofNat (2 + n) ≠ 1 := by
      intro heq
      have hone : (UInt32.ofNat (2 + n)).toNat = 1 := congrArg UInt32.toNat heq
      rw [UInt32.toNat_ofNat'] at hone
      omega
    have hcount : UInt32.ofNat (2 + n) + 1 = UInt32.ofNat (2 + (n + 1)) := by
      rw [← Nat.add_assoc, UInt32.ofNat_add (2 + n) 1]
      rfl
    rw [List.replicate_succ', List.flatten_append, List.flatten_singleton, performAll_append,
      ih (Nat.lt_of_succ_lt hn), performAll_passing htext hnext, hcount]

/-- Then the counter has come round to the ID in use. -/
theorem performAll_round (htext : text ≠ d.text) {n : Nat} (hn : n + 1 = 2 ^ 32) :
    (single text 2).performAll (List.replicate n (passing d)).flatten = single text 1 := by
  have hround : UInt32.ofNat (2 + n) = 1 := by
    apply UInt32.toNat_inj.mp
    rw [UInt32.toNat_ofNat']
    show (2 + n) % 2 ^ 32 = 1
    omega
  rw [performAll_many htext (by omega), hround]

/-- A memory that knows the ID of a text, and has nothing under it. -/
def forgetful (text : String) : Memory :=
  { nextId := 2, schemas := [], ids := [(text, 1)], subjects := [] }

/-- The second text of an ID in use is all that is forgotten with it. -/
theorem performAll_freed (htext : d.text ≠ d'.text) :
    (single d.text 1).performAll (passing d' ++ [.delete "a"]) = forgetful d.text := by
  have hother : ("a" == "b") = false := by decide
  -- while both texts have the ID, it stands for the second
  have hpassing : (single d.text 1).performAll (passing d') =
      { nextId := 2, schemas := [(1, d'.text)], ids := [(d.text, 1), (d'.text, 1)]
        subjects := [("a", [1])] } := by
    rw [performAll_passing_eq, register_single htext]
    simp [delete, versions?, Ordered.get?, hother, without, dropSubject, Ordered.erase, release,
      isReferenced, Table.insert, Table.erase]
  rw [performAll_append, hpassing]
  simp [performAll, perform, Registry.reply, delete, versions?, Ordered.get?, without, dropSubject,
    Ordered.erase, release, isReferenced, text?, Table.get?, remove, Table.erase, htext, forgetful]

/-- So the ID is given out again, and stands for nothing. -/
theorem register_forgetful (d : Descriptor) :
    (forgetful d.text).register "a" d =
      (.ok (.added 1), { forgetful d.text with subjects := [("a", [1])] }) := by
  simp [forgetful, register, versions?, Ordered.get?, add, assign, id?, Table.get?, setVersions,
    Ordered.insert]

/-- Calls that take so many IDs while one is in use, then take that one as
    well, and then free it. -/
def fraying (d d' : Descriptor) (n : Nat) : List Request :=
  .register "a" d :: ((List.replicate n (passing d')).flatten ++ (passing d' ++ [.delete "a"]))

theorem performAll_fraying (htext : d.text ≠ d'.text) {n : Nat} (hn : n + 1 = 2 ^ 32) :
    empty.performAll (fraying d d' n) = forgetful d.text := by
  have hfirst : empty.performAll (fraying d d' n) =
      (single d.text 2).performAll ((List.replicate n (passing d')).flatten ++
        (passing d' ++ [.delete "a"])) := rfl
  rw [hfirst, performAll_append, performAll_round htext hn, performAll_freed htext]

/-- The same, and the subject once more. -/
def wearing (d d' : Descriptor) (n : Nat) : List Request :=
  .register "a" d :: ((List.replicate n (passing d')).flatten ++
    (passing d' ++ [.delete "a", .register "a" d]))

theorem wearing_eq (d d' : Descriptor) (n : Nat) :
    wearing d d' n = fraying d d' n ++ [.register "a" d] := by
  simp [wearing, fraying]

theorem wearing_subset (d d' : Descriptor) (n : Nat) :
    wearing d d' n ⊆ .register "a" d :: .delete "a" :: passing d' := by
  intro request hmem
  simp only [wearing, List.mem_cons, List.mem_append, List.not_mem_nil, or_false] at hmem ⊢
  rcases hmem with hfirst | hmany | hpassing | hdelete | hagain
  · exact .inl hfirst
  · obtain ⟨requests, hrequests, hmem⟩ := List.mem_flatten.mp hmany
    rw [List.eq_of_mem_replicate hrequests] at hmem
    exact .inr (.inr hmem)
  · exact .inr (.inr hpassing)
  · exact .inr (.inl hdelete)
  · exact .inl hagain

/-- With all other IDs taken, a subject is there without its newest
    schema. -/
theorem latest_worn (htext : d.text ≠ d'.text) {n : Nat} (hn : n + 1 = 2 ^ 32) :
    (empty.performAll (wearing d d' n)).latest "a" = .error (.schemaNotFound 1) := by
  have hlast : (forgetful d.text).performAll [.register "a" d] =
      ((forgetful d.text).register "a" d).2 := rfl
  rw [wearing_eq, performAll_append, performAll_fraying htext hn, hlast, register_forgetful]
  rfl

end Memory

namespace Staged

/-- A call right after the one before, that nobody ends. -/
def Visit.atOnce (request : Request) : Visit :=
  { idle := 0, context := .unbounded, request }

variable {s : Staged}

/-- Nothing but the memory is behind calls that nobody ends. -/
theorem IsQuiet.memory_run (h : s.IsQuiet) (requests : List Request) :
    (Staged.run (requests.map Visit.atOnce) s).IsQuiet ∧
      (Staged.run (requests.map Visit.atOnce) s).memory = s.memory.performAll requests := by
  induction requests generalizing s with
  | nil => exact ⟨h, rfl⟩
  | cons request rest ih =>
    obtain ⟨hquiet, hmemory⟩ := ih (h.visit_spec (Visit.atOnce request)).quiet
    refine ⟨hquiet, hmemory.trans ?_⟩
    have hvisit := congrArg Prod.snd (h.visit_of_live (v := Visit.atOnce request) rfl)
    exact congrArg (Memory.performAll · rest) hvisit

section

variable {d d' : Descriptor} {n : Nat}

/-- What calls that nobody ends have made of a fresh registry. -/
theorem memory_run_empty (requests : List Request) :
    (run (requests.map Visit.atOnce) empty).IsQuiet ∧
      (run (requests.map Visit.atOnce) empty).memory = Memory.empty.performAll requests :=
  isQuiet_empty.memory_run requests

theorem IsQuiet.visit_atOnce (h : s.IsQuiet) (request : Request) :
    (s.visit (.atOnce request)).1 = (s.memory.perform request).1 ∧
      (s.visit (.atOnce request)).2.memory = (s.memory.perform request).2 :=
  Prod.ext_iff.mp (h.visit_of_live (v := .atOnce request) rfl)

/-- A stage on which a schema has come and gone so many times. -/
def passed (d : Descriptor) (n : Nat) (s : Staged) : Staged :=
  run ((List.replicate n (Memory.passing d)).flatten.map Visit.atOnce) s

/-- So an ID that stands for a text can be the answer to another one. -/
theorem visit_round (htext : d.text ≠ d'.text) (hn : n + 1 = 2 ^ 32) :
    ∃ t, empty.visit (.atOnce (.register "a" d)) = (.ok (.id 1), t) ∧
      (passed d' n t).memory.text? 1 = some d.text ∧
      ((passed d' n t).visit (.atOnce (.register "b" d'))).1 = .ok (.id 1) := by
  let t := (empty.visit (.atOnce (.register "a" d))).2
  obtain ⟨hquiet, hmemory⟩ :
      (passed d' n t).IsQuiet ∧ (passed d' n t).memory = Memory.single d.text 1 := by
    rw [← Memory.performAll_round htext hn]
    exact memory_run_empty (.register "a" d :: (List.replicate n (Memory.passing d')).flatten)
  have hregister : ((Memory.single d.text 1).register "b" d').1 = .ok (.added 1) := by
    have hother : ("a" == "b") = false := by decide
    simp [Memory.register, Memory.single, Memory.versions?, Ordered.get?, hother, Memory.add,
      Memory.assign, Memory.id?, Table.get?, htext]
  refine ⟨t, rfl, ?_, ?_⟩
  · rw [hmemory]
    rfl
  · rw [(hquiet.visit_atOnce _).1, hmemory, Memory.perform, hregister]
    rfl

/-- A stage with an ID that has been in use twice at a time and was freed. -/
def frayed (d d' : Descriptor) (n : Nat) : Staged :=
  run ((Memory.fraying d d' n).map Visit.atOnce) empty

/-- And an ID can be the answer to a text and stand for nothing. -/
theorem visit_frayed (htext : d.text ≠ d'.text) (hn : n + 1 = 2 ^ 32) :
    ∃ t, (frayed d d' n).visit (.atOnce (.register "a" d)) = (.ok (.id 1), t) ∧
      (t.visit (.atOnce (.fetch 1))).1 = .error (.schemaNotFound 1) := by
  obtain ⟨hquiet, hmemory⟩ :
      (frayed d d' n).IsQuiet ∧ (frayed d d' n).memory = Memory.forgetful d.text := by
    rw [← Memory.performAll_fraying htext hn]
    exact memory_run_empty (Memory.fraying d d' n)
  obtain ⟨hanswer, hafter⟩ := hquiet.visit_atOnce (.register "a" d)
  -- the text still has its ID, so that no schema is stored under it
  rw [hmemory, Memory.perform, Memory.register_forgetful] at hanswer hafter
  have hquiet' := (hquiet.visit_spec (.atOnce (.register "a" d))).quiet
  refine ⟨((frayed d d' n).visit (.atOnce (.register "a" d))).2, Prod.ext hanswer rfl, ?_⟩
  rw [(hquiet'.visit_atOnce _).1, hafter]
  rfl

/-- A subject can lose its newest schema. -/
theorem visit_worn (htext : d.text ≠ d'.text) (hn : n + 1 = 2 ^ 32) :
    ((run ((Memory.wearing d d' n).map Visit.atOnce) empty).visit (.atOnce (.latest "a"))).1 =
      .error (.schemaNotFound 1) := by
  obtain ⟨hquiet, hmemory⟩ := memory_run_empty (Memory.wearing d d' n)
  rw [(hquiet.visit_atOnce _).1, hmemory, Memory.perform, Memory.latest_worn htext hn]
  rfl

end

end Staged

namespace Schema.Descriptor

/-- A message that says no more than whether. -/
def signal : Descriptor where
  name := "Signal"
  fields := #[{ number := 1, name := "raised", kind := .bool, repeated := false }]
  isIdentifier_name := by decide
  isFieldSet := by decide

theorem text_keywords_ne : keywords.text ≠ signal.text := by
  intro htext
  have hname := congrArg Descriptor.name (text_injective htext)
  contradiction

end Schema.Descriptor

end EventCodec
