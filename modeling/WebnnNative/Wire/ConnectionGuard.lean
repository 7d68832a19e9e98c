import WebnnNative.Wire.Client

/-!
# No client's objects reach another client's stream

A run of the wire client is any interleaving of calls of the client API
on any number of clients: generated methods with arguments of any shape,
`ClientCreateGraphBuilder`, `Reference` and `Release`, each made on an
object that has not been released.  This file proves what the same-client
guard of `Client{{Suffix}}` and the allocator buy over every such run.

* `ClientsInv` is the invariant: every allocator keeps `Allocator.Inv`,
  every object of every command on a client's stream belongs to that
  client, and every handle a command announces was handed out by its
  allocator.
* `Step` says what one call does as far as the invariant sees it.
  `clientMethod_step`, `clientCreateGraphBuilder_step`,
  `clientReference_step` and `clientRelease_step` prove it of the
  procedures, and `ClientsInv.of_step` and
  `Runs.inv` lift it to whole runs.
* `Unannounced` says that a handle was handed out and that no command
  announces it.  `Runs.unannounced` proves that it stays so over every
  run, which is what makes the allocation of a rejected call never known
  to the server.
* `Step.announced_cases` says that a step announces at most one handle,
  one that was not handed out before.  From it, `Runs.announced_nodup`:
  no stream announces a handle twice, and `Runs.announced_generation_lt`:
  each later announcement of an object carries a larger generation.
* `clientMethod_same_client` puts the guard and the invariant together.
-/

namespace WebnnNative.Wire

/-- A call of the client API. -/
inductive Call where
  /-- `Client{{Suffix}}`. -/
  | method (m : Method) (self : Obj) (args : List Arg)
  /-- `ClientCreateGraphBuilder`. -/
  | createGraphBuilder (context : Obj)
  /-- `Client{{Type}}Reference`. -/
  | reference (obj : Obj)
  /-- `Client{{Type}}Release`. -/
  | release (obj : Obj)

/-- The object a call is made on. -/
def Call.target : Call → Obj
  | .method _ self _ => self
  | .createGraphBuilder context => context
  | .reference obj => obj
  | .release obj => obj

/-- The clients after a call. -/
def Call.run (s : Clients) : Call → Clients
  | .method m self args => (clientMethod s m self args).1
  | .createGraphBuilder context => (clientCreateGraphBuilder s context).1
  | .reference obj => clientReference s obj
  | .release obj => clientRelease s obj

/-- An object that has not been released. -/
def Clients.Live (s : Clients) (obj : Obj) : Prop := 0 < s.refcount obj

/-- The clients reached from `s₀` by calls in any order on any clients,
each made on an object that has not been released. -/
inductive Runs (s₀ : Clients) : Clients → Prop
  | refl : Runs s₀ s₀
  | tail {s : Clients} (call : Call) : Runs s₀ s → s.Live call.target → Runs s₀ (call.run s)

/-! ## The invariant and what one call does -/

/-- The invariant of the clients. -/
structure ClientsInv (s : Clients) : Prop where
  alloc : ∀ key, (s.allocator key).Inv
  same_client : ∀ c, ∀ cmd ∈ s.stream c, ∀ o ∈ cmd.objs, o.client = c
  issued : ∀ c, ∀ cmd ∈ s.stream c, ∀ obj gen, cmd.result = some (obj, gen) →
    (s.allocator obj.key).Issued obj.id gen

theorem ClientsInv.empty : ClientsInv Clients.empty :=
  ⟨fun _ => Allocator.Inv.empty, by simp [Clients.empty], by simp [Clients.empty]⟩

/-- What one call does, as the invariant sees it: every allocator keeps its
invariant, a handle that was handed out stays so, and at most one command
is written, on `client`, whose objects belong to `client` and whose
announced handle is new. -/
structure Step (s s' : Clients) (client : Nat) : Prop where
  alloc : ∀ key, (s'.allocator key).Inv
  issued : ∀ {key id gen}, (s.allocator key).Issued id gen → (s'.allocator key).Issued id gen
  stream : s'.stream = s.stream ∨
    ∃ cmd, s'.stream = (s.serializeCommand client cmd).stream ∧
      (∀ o ∈ cmd.objs, o.client = client) ∧
      ∀ obj gen, cmd.result = some (obj, gen) →
        ¬ (s.allocator obj.key).Issued obj.id gen ∧ (s'.allocator obj.key).Issued obj.id gen

namespace Clients

variable {s : Clients} {key : Nat × String} {f : Allocator → Allocator}

theorem inv_updateAllocator (hs : ∀ k, (s.allocator k).Inv) (hf : (f (s.allocator key)).Inv) :
    ∀ k, ((s.updateAllocator key f).allocator k).Inv := by
  intro k
  rw [updateAllocator_allocator, Function.update_apply]
  split
  · next hk => exact hk ▸ hf
  · exact hs k

theorem issued_updateAllocator
    (hf : ∀ {id gen}, (s.allocator key).Issued id gen → (f (s.allocator key)).Issued id gen)
    {k : Nat × String} {id gen : Nat} (h : (s.allocator k).Issued id gen) :
    ((s.updateAllocator key f).allocator k).Issued id gen := by
  rw [updateAllocator_allocator, Function.update_apply]
  split
  · next hk => subst hk; exact hf h
  · exact h

/-- The handle of a new object was not handed out before, and is after. -/
theorem new_fresh (hs : ∀ k, (s.allocator k).Inv) (c : Nat) (type : String) :
    ¬ (s.allocator (s.new c type).2.key).Issued (s.new c type).2.id
        ((s.new c type).1.generation (s.new c type).2) ∧
      ((s.new c type).1.allocator (s.new c type).2.key).Issued (s.new c type).2.id
        ((s.new c type).1.generation (s.new c type).2) := by
  simp only [new_key, generation, new_allocator, Function.update_same]
  exact ⟨Allocator.not_issued_new _, (hs _).issued_new⟩

end Clients

/-- A call that writes nothing and only runs `f` on one allocator. -/
theorem Step.updateAllocator {s : Clients} (hs : ClientsInv s) {key : Nat × String}
    {f : Allocator → Allocator} (hf : (f (s.allocator key)).Inv)
    (hi : ∀ {id gen}, (s.allocator key).Issued id gen → (f (s.allocator key)).Issued id gen)
    (client : Nat) : Step s (s.updateAllocator key f) client :=
  ⟨Clients.inv_updateAllocator hs.alloc hf, Clients.issued_updateAllocator hi, .inl rfl⟩

/-- `New` writes nothing. -/
theorem Step.new {s : Clients} (hs : ClientsInv s) (c : Nat) (type : String) (client : Nat) :
    Step s (s.new c type).1 client :=
  @Step.updateAllocator s hs (c, type) (fun a => a.new.1) (hs.alloc _).new (fun h => h.new) client

/-- Writing the `refcount` of a live object writes nothing. -/
theorem Step.setRefcount {s : Clients} (hs : ClientsInv s) {obj : Obj} (hlive : s.Live obj)
    (n client : Nat) : Step s (s.setRefcount obj n) client :=
  @Step.updateAllocator s hs obj.key (fun a => a.setRefcount obj.id n)
    ((hs.alloc _).setRefcount hlive n) (fun h => h) client

/-- A call that only writes a command that announces nothing. -/
theorem Step.serializeCommand {s : Clients} (hs : ClientsInv s) {client : Nat} {cmd : Command}
    (hobjs : ∀ o ∈ cmd.objs, o.client = client) (hres : cmd.result = none) :
    Step s (s.serializeCommand client cmd) client :=
  ⟨hs.alloc, id, .inr ⟨cmd, rfl, hobjs, by simp [hres]⟩⟩

/-- A call that allocates an object on `c` and writes a command on `c` that
announces it. -/
theorem Step.newThenSerialize {s : Clients} (hs : ClientsInv s) (c : Nat) (type : String)
    {cmd : Command} (hobjs : ∀ o ∈ cmd.objs, o.client = c)
    (hres : cmd.result = some ((s.new c type).2, (s.new c type).1.generation (s.new c type).2)) :
    Step s ((s.new c type).1.serializeCommand c cmd) c := by
  have hnew := Step.new hs c type c
  refine ⟨hnew.alloc, hnew.issued, .inr ⟨cmd, rfl, hobjs, ?_⟩⟩
  rw [hres]
  rintro obj gen ⟨⟩
  exact Clients.new_fresh hs.alloc c type

/-- A step leaves every stream as it was or appends one command to it. -/
theorem Step.stream_cases {s s' : Clients} {client : Nat} (hstep : Step s s' client) (c : Nat) :
    s'.stream c = s.stream c ∨ ∃ cmd, s'.stream c = s.stream c ++ [cmd] := by
  rcases hstep.stream with heq | ⟨cmd, heq, -⟩
  · exact .inl (by rw [heq])
  · by_cases hc : c = client
    · subst hc
      exact .inr ⟨cmd, by simp [heq]⟩
    · exact .inl (by simp [heq, Function.update_noteq hc])

theorem ClientsInv.of_step {s s' : Clients} {client : Nat} (hs : ClientsInv s)
    (hstep : Step s s' client) : ClientsInv s' := by
  refine ⟨hstep.alloc, ?_, ?_⟩ <;>
  rcases hstep.stream with heq | ⟨cmd, heq, hobjs, hres⟩ <;>
  intro c cmd' hmem <;> rw [heq] at hmem
  · exact hs.same_client c cmd' hmem
  · rcases Clients.mem_serializeCommand.1 hmem with hmem | ⟨rfl, rfl⟩
    · exact hs.same_client c cmd' hmem
    · exact hobjs
  · exact fun obj gen h => hstep.issued (hs.issued c cmd' hmem obj gen h)
  · rcases Clients.mem_serializeCommand.1 hmem with hmem | ⟨rfl, rfl⟩
    · exact fun obj gen h => hstep.issued (hs.issued c cmd' hmem obj gen h)
    · exact fun obj gen h => (hres obj gen h).2

/-! ## The procedures -/

/-- A call of a generated method, on any object, is a step on `self`'s
client. -/
theorem clientMethod_step {s : Clients} (hs : ClientsInv s) (m : Method) (self : Obj)
    (args : List Arg) : Step s (clientMethod s m self args).1 self.client := by
  have hargs := (sameClient_iff self.client args).1
  rcases clientMethod_cases s m self args with
    ⟨-, ⟨type, -, h⟩ | ⟨-, h⟩⟩ | ⟨hsame, h | ⟨type, h⟩ | h⟩ <;> rw [h]
  · exact Step.new hs self.client type self.client
  · exact ⟨hs.alloc, id, .inl rfl⟩
  · exact Step.serializeCommand hs (by simp [Command.objs]) rfl
  · refine Step.newThenSerialize hs self.client type ?_ rfl
    simp only [Command.objs, List.mem_cons, List.mem_append, Option.map_some',
      Option.toList_some, List.not_mem_nil, or_false]
    rintro o ((rfl | ho) | rfl)
    exacts [rfl, hargs hsame o ho, rfl]
  · exact Step.serializeCommand hs (by simpa [Command.objs] using hargs hsame) rfl

/-- `ClientCreateGraphBuilder` is a step on the context's client. -/
theorem clientCreateGraphBuilder_step {s : Clients} (hs : ClientsInv s) (context : Obj) :
    Step s (clientCreateGraphBuilder s context).1 context.client :=
  Step.newThenSerialize hs context.client "GraphBuilder"
    (by simp [Command.objs]) rfl

/-- `Reference` on a live object is a step. -/
theorem clientReference_step {s : Clients} (hs : ClientsInv s) {obj : Obj} (hlive : s.Live obj) :
    Step s (clientReference s obj) obj.client :=
  Step.setRefcount hs hlive _ _

/-- The last release of a live object: its `refcount` drops to 0, it writes
`DestroyObjectCmd`, which refers to no object and announces nothing, and it
frees the id. -/
theorem Step.destroyThenFree {s : Clients} (hs : ClientsInv s) {obj : Obj} (hlive : s.Live obj) :
    Step s (((s.setRefcount obj 0).serializeCommand obj.client
      (.destroyObject obj.type obj.id)).free obj) obj.client := by
  have hinv := hs.alloc obj.key
  have hzero := Step.setRefcount hs hlive 0 obj.client
  have hfree : (((s.allocator obj.key).setRefcount obj.id 0).free obj.id).Inv :=
    (hinv.setRefcount hlive 0).free (hinv.live_lt _ hlive) (hinv.not_mem_freeIds hlive) (by simp)
  exact ⟨Clients.inv_updateAllocator (hs.of_step hzero).alloc (by simpa using hfree),
    fun h => Clients.issued_updateAllocator (fun h => h.free _) (hzero.issued h),
    .inr ⟨.destroyObject obj.type obj.id, rfl, by simp [Command.objs], by simp [Command.result]⟩⟩

/-- `Release` on a live object is a step. -/
theorem clientRelease_step {s : Clients} (hs : ClientsInv s) {obj : Obj} (hlive : s.Live obj) :
    Step s (clientRelease s obj) obj.client := by
  rcases clientRelease_cases s obj with ⟨-, h⟩ | ⟨-, h⟩ <;> rw [h]
  · exact Step.setRefcount hs hlive _ _
  · exact Step.destroyThenFree hs hlive

/-- Every call on a live object is a step on the client of that object. -/
theorem Call.step {s : Clients} (hs : ClientsInv s) :
    ∀ {call : Call}, s.Live call.target → Step s (call.run s) call.target.client
  | .method m self args, _ => clientMethod_step hs m self args
  | .createGraphBuilder context, _ => clientCreateGraphBuilder_step hs context
  | .reference _, hlive => clientReference_step hs hlive
  | .release _, hlive => clientRelease_step hs hlive

/-- The invariant holds at every point of every run. -/
theorem Runs.inv {s₀ s : Clients} (hrun : Runs s₀ s) (h₀ : ClientsInv s₀) : ClientsInv s := by
  induction hrun with
  | refl => exact h₀
  | tail call _ hlive ih => exact ih.of_step (call.step ih hlive)

/-- Two runs, one after the other, are a run. -/
theorem Runs.trans {s₀ s₁ s₂ : Clients} (h₁ : Runs s₀ s₁) (h₂ : Runs s₁ s₂) : Runs s₀ s₂ := by
  induction h₂ with
  | refl => exact h₁
  | tail call _ hlive ih => exact ih.tail call hlive

/-- A handle that was handed out stays so over every run. -/
theorem Runs.issued {s₀ s : Clients} (hrun : Runs s₀ s) (h₀ : ClientsInv s₀) {key : Nat × String}
    {id gen : Nat} (hi : (s₀.allocator key).Issued id gen) : (s.allocator key).Issued id gen := by
  induction hrun with
  | refl => exact hi
  | tail call hr hlive ih => exact (call.step (hr.inv h₀) hlive).issued ih

/-! ## Handles that no command announces -/

/-- The handle was handed out and no command on any stream announces it. -/
def Unannounced (s : Clients) (obj : Obj) (gen : Nat) : Prop :=
  (s.allocator obj.key).Issued obj.id gen ∧ ∀ c, ∀ cmd ∈ s.stream c, cmd.result ≠ some (obj, gen)

theorem Unannounced.of_step {s s' : Clients} {client : Nat} {obj : Obj} {gen : Nat}
    (hu : Unannounced s obj gen) (hstep : Step s s' client) : Unannounced s' obj gen := by
  refine ⟨hstep.issued hu.1, fun c cmd hmem => ?_⟩
  rcases hstep.stream with heq | ⟨cmd', heq, -, hres⟩ <;> rw [heq] at hmem
  · exact hu.2 c cmd hmem
  · rcases Clients.mem_serializeCommand.1 hmem with hmem | ⟨rfl, rfl⟩
    · exact hu.2 c cmd hmem
    · exact fun h => (hres obj gen h).1 hu.1

/-- A handle that no command announces stays so over every run. -/
theorem Runs.unannounced {s₀ s : Clients} (hrun : Runs s₀ s) (h₀ : ClientsInv s₀) {obj : Obj}
    {gen : Nat} (hu : Unannounced s₀ obj gen) : Unannounced s obj gen := by
  induction hrun with
  | refl => exact hu
  | tail call hr hlive ih => exact ih.of_step (call.step (hr.inv h₀) hlive)

/-! ## A client with a context -/

/-- Client 1 with a context, which the wire creates outside the generated
procedures. -/
def contextClients : Clients := (Clients.empty.new 1 "Context").1

/-- The context of `contextClients`. -/
def context : Obj := ⟨1, "Context", 1⟩

theorem contextClients_inv : ClientsInv contextClients :=
  ClientsInv.empty.of_step (Step.new ClientsInv.empty 1 "Context" 1)

theorem context_live : contextClients.Live context := by
  unfold Clients.Live
  decide

/-- `contextClients` after creating a graph builder on the context. -/
def builderClients : Clients := (clientCreateGraphBuilder contextClients context).1

theorem builderClients_runs : Runs contextClients builderClients :=
  .tail (.createGraphBuilder context) .refl context_live

/-- `Relu` on that builder, with an operand of client 2. -/
def foreignRelu : Clients × Result :=
  clientMethod builderClients ⟨"GraphBuilderRelu", .object "Operand", false⟩ ⟨1, "GraphBuilder", 1⟩
    [.object ⟨2, "Operand", 1⟩]

/-! ## The handles a stream announces -/

/-- The handles announced on a client's stream, in order. -/
def Clients.announced (s : Clients) (c : Nat) : List (Obj × Nat) :=
  (s.stream c).filterMap Command.result

/-- Every handle a stream announces was handed out. -/
theorem ClientsInv.issued_of_announced {s : Clients} (hs : ClientsInv s) {c : Nat} {obj : Obj}
    {gen : Nat} (hmem : (obj, gen) ∈ s.announced c) : (s.allocator obj.key).Issued obj.id gen := by
  obtain ⟨cmd, hcmd, hres⟩ := List.mem_filterMap.1 hmem
  exact hs.issued c cmd hcmd obj gen hres

/-- A step announces at most one handle on a stream, one that was not
handed out before. -/
theorem Step.announced_cases {s s' : Clients} {client : Nat} (hstep : Step s s' client) (c : Nat) :
    s'.announced c = s.announced c ∨
      ∃ obj gen, s'.announced c = s.announced c ++ [(obj, gen)] ∧
        ¬ (s.allocator obj.key).Issued obj.id gen := by
  rcases hstep.stream with heq | ⟨cmd, heq, -, hres⟩
  · exact .inl (by simp [Clients.announced, heq])
  · by_cases hc : c = client
    · rcases hcr : cmd.result with _ | ⟨obj, gen⟩
      · exact .inl (by simp [Clients.announced, heq, hc, hcr])
      · exact .inr ⟨obj, gen, by simp [Clients.announced, heq, hc, hcr], (hres obj gen hcr).1⟩
    · exact .inl (by simp [Clients.announced, heq, Function.update_noteq hc])

/-- Over every run, no stream announces a handle twice, when none did at the
start. -/
theorem Runs.announced_nodup {s₀ s : Clients} (hrun : Runs s₀ s) (h₀ : ClientsInv s₀)
    (hnd : ∀ c, (s₀.announced c).Nodup) (c : Nat) : (s.announced c).Nodup := by
  induction hrun with
  | refl => exact hnd c
  | @tail s call hr hlive ih =>
    have hs := hr.inv h₀
    rcases (call.step hs hlive).announced_cases c with heq | ⟨obj, gen, heq, hnew⟩ <;> rw [heq]
    · exact ih
    · exact ih.append (List.nodup_singleton _)
        (List.disjoint_singleton.2 fun hmem => hnew (hs.issued_of_announced hmem))

/-- A graph builder created on the context, released, and created again:
id 1 is announced twice, and the two announcements differ. -/
theorem graphBuilder_announced_once :
    ((clientCreateGraphBuilder (clientRelease builderClients ⟨1, "GraphBuilder", 1⟩) context).1.announced 1) =
        [(⟨1, "GraphBuilder", 1⟩, 0), (⟨1, "GraphBuilder", 1⟩, 1)] ∧
      ((clientCreateGraphBuilder (clientRelease builderClients ⟨1, "GraphBuilder", 1⟩)
        context).1.announced 1).Nodup :=
  ⟨by decide, Runs.announced_nodup
    (.tail (.createGraphBuilder context)
      (.tail (.release ⟨1, "GraphBuilder", 1⟩) builderClients_runs (by unfold Clients.Live; decide))
      (by unfold Clients.Live; decide))
    contextClients_inv (fun _ => by simp [Clients.announced, contextClients, Clients.empty]) 1⟩

/-- Over every run, each later announcement of an object on a stream
carries a larger generation than every earlier one, when this held at the
start: a reused id never comes back under a generation it had. -/
theorem Runs.announced_generation_lt {s₀ s : Clients} (hrun : Runs s₀ s) (h₀ : ClientsInv s₀)
    (hmono : ∀ c, (s₀.announced c).Pairwise fun a b => a.1 = b.1 → a.2 < b.2) (c : Nat) :
    (s.announced c).Pairwise fun a b => a.1 = b.1 → a.2 < b.2 := by
  induction hrun with
  | refl => exact hmono c
  | @tail s call hr hlive ih =>
    have hs := hr.inv h₀
    rcases (call.step hs hlive).announced_cases c with heq | ⟨obj, gen, heq, hnew⟩ <;> rw [heq]
    · exact ih
    · refine List.pairwise_append.2 ⟨ih, List.pairwise_singleton _ _, ?_⟩
      rintro ⟨obj', gen'⟩ hmem _ hlast rfl
      rcases List.mem_singleton.1 hlast with ⟨⟩
      exact (hs.issued_of_announced hmem).lt_of_not_issued hnew

/-- A graph builder created on the context, released, and created again:
id 1 is announced twice, the second time under generation 1. -/
theorem graphBuilder_recreated :
    ((clientCreateGraphBuilder (clientRelease (clientCreateGraphBuilder contextClients context).1
        ⟨1, "GraphBuilder", 1⟩) context).1.announced 1) =
        [(⟨1, "GraphBuilder", 1⟩, 0), (⟨1, "GraphBuilder", 1⟩, 1)] ∧
      ((clientCreateGraphBuilder (clientRelease (clientCreateGraphBuilder contextClients context).1
        ⟨1, "GraphBuilder", 1⟩) context).1.announced 1).Pairwise
        fun a b => a.1 = b.1 → a.2 < b.2 :=
  ⟨by decide, Runs.announced_generation_lt
    (.tail (.createGraphBuilder context)
      (.tail (.release ⟨1, "GraphBuilder", 1⟩)
        (.tail (.createGraphBuilder context) .refl context_live) (by unfold Clients.Live; decide))
      (by unfold Clients.Live; decide))
    contextClients_inv (fun _ => by simp [Clients.announced, contextClients, Clients.empty]) 1⟩

/-! ## The guard -/

/-- The allocation that a rejected call returns is never announced: not
by a command already written, and not over any run that follows. -/
theorem new_unannounced {s : Clients} (hs : ClientsInv s) (c : Nat) (type : String) {s' : Clients}
    (hrun : Runs (s.new c type).1 s') :
    ∀ c', ∀ cmd ∈ s'.stream c',
      cmd.result ≠ some ((s.new c type).2, (s.new c type).1.generation (s.new c type).2) := by
  have hnew := Clients.new_fresh hs.alloc c type
  refine (hrun.unannounced (hs.of_step (Step.new hs c type c)) ⟨hnew.2, fun c' cmd hmem hres => ?_⟩).2
  exact hnew.1 (hs.issued c' cmd hmem _ _ hres)

theorem clientMethod_same_client {s₀ s : Clients} (h₀ : ClientsInv s₀) (hrun : Runs s₀ s)
    (m : Method) (self : Obj) (args : List Arg) :
    (sameClient self.client args = true ↔ ∀ o ∈ membersObjs args, o.client = self.client) ∧
    (∀ c, (clientMethod s m self args).1.stream c ≠ s.stream c →
      c = self.client ∧ sameClient self.client args = true) ∧
    (sameClient self.client args = false →
      (clientMethod s m self args).1.stream = s.stream ∧
      (∀ type, m.returnType = .object type →
        ∃ obj, (clientMethod s m self args).2 = .object obj ∧ obj.key = (self.client, type) ∧
          ∀ s', Runs (clientMethod s m self args).1 s' → ∀ c, ∀ cmd ∈ s'.stream c,
            cmd.result ≠ some (obj, (clientMethod s m self args).1.generation obj)) ∧
      (m.returnType = .void ∨ m.returnType = .value → (clientMethod s m self args).2 = .empty)) ∧
    ∀ c, ∀ cmd ∈ s.stream c, ∀ o ∈ cmd.objs, o.client = c := by
  have hs := hrun.inv h₀
  rcases clientMethod_cases s m self args with ⟨hfalse, hres⟩ | ⟨htrue, -⟩
  · have hstream : (clientMethod s m self args).1.stream = s.stream := by
      rcases hres with ⟨_, -, h⟩ | ⟨-, h⟩ <;> simp only [h, Clients.new_stream]
    refine ⟨sameClient_iff _ _, fun c hc => absurd (by rw [hstream]) hc,
      fun _ => ⟨hstream, fun type htype => ?_, fun hvoid => ?_⟩, hs.same_client⟩
    · rw [clientMethod_of_rejected hfalse htype]
      exact ⟨_, rfl, rfl, fun s' hrun' => new_unannounced hs self.client type hrun'⟩
    · rcases hres with ⟨type, htype, -⟩ | ⟨-, h⟩
      · rcases hvoid with h | h <;> cases htype.symm.trans h
      · rw [h]
  · refine ⟨sameClient_iff _ _, fun c hc => ⟨?_, htrue⟩, fun h => absurd (h ▸ htrue) (by simp),
      hs.same_client⟩
    rcases (clientMethod_step hs m self args).stream with heq | ⟨cmd, heq, -⟩
    · exact absurd (by rw [heq]) hc
    · exact by_contra fun hne => hc (by
        rw [heq, Clients.serializeCommand_stream, Function.update_noteq hne])

/-- `Relu` on a live graph builder of client 1, with an operand of client 2:
the stream of client 1, which holds the creation of the builder, is left as
it was, and the operand returned is never announced. -/
theorem relu_of_foreign_operand :
    builderClients.Live ⟨1, "GraphBuilder", 1⟩ ∧ builderClients.stream 1 ≠ [] ∧
      foreignRelu.1.stream = builderClients.stream ∧
      ∃ obj, foreignRelu.2 = .object obj ∧ obj.key = (1, "Operand") ∧
        ∀ s', Runs foreignRelu.1 s' → ∀ c, ∀ cmd ∈ s'.stream c,
          cmd.result ≠ some (obj, foreignRelu.1.generation obj) := by
  obtain ⟨hstream, hobj, -⟩ := (clientMethod_same_client contextClients_inv builderClients_runs
    ⟨"GraphBuilderRelu", .object "Operand", false⟩ ⟨1, "GraphBuilder", 1⟩
    [.object ⟨2, "Operand", 1⟩]).2.2.1 rfl
  exact ⟨by unfold Clients.Live; decide, by simp [builderClients, clientCreateGraphBuilder, context],
    hstream, hobj "Operand" rfl⟩

end WebnnNative.Wire
