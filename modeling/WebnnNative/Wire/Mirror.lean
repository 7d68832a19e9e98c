import WebnnNative.Wire.Server

/-!
# The server's registry is the client's live announced objects

`Runs.agrees` proves one half of the lockstep of §4.4: every object the
server holds is live on the client, with the same generation.  This file
proves the other half, and so what the registry is exactly.  Whenever the
server's replay of what a client wrote succeeds, it holds an object at a
type and id exactly when the client's object there is live and its handle
was announced by a command the server handled, or held by the server at the
start.

* `Clients.Origin` is the converse of `Clients.Keeps`: an object live after
  a call was live before with its generation, or its handle is new.
* `MirrorStep` says what one call does as the registry sees it: the origin
  of every object, and that the object of a `DestroyObjectCmd` it writes is
  no longer live.  `Call.mirror` proves it of every call on a live object,
  from one lemma per procedure.
* `Covers` is the half that this file adds.  `Covers.step` is the step
  lemma and `Runs.covers` the run lemma.
* `server_registry_exact` puts the two halves together.
-/

namespace WebnnNative.Wire

/-- An object live after a call was live before with its generation, or its
handle was not handed out before. -/
def Clients.Origin (s s' : Clients) (obj : Obj) : Prop :=
  s'.Live obj → (s.Live obj ∧ s'.generation obj = s.generation obj) ∨
    ¬ (s.allocator obj.key).Issued obj.id (s'.generation obj)

namespace Clients

variable {s : Clients}

/-- A call that changes one allocator has the origins that the change has. -/
theorem origin_of_allocator {s' : Clients} {key : Nat × String} {a : Allocator}
    (hall : s'.allocator = Function.update s.allocator key a) (obj : Obj)
    (hf : obj.key = key → (s.allocator key).Origin a obj.id) : s.Origin s' obj := fun hlive => by
  simp only [Live, refcount, generation, hall] at hlive ⊢
  by_cases hk : obj.key = key
  · subst hk
    rw [Function.update_same] at hlive ⊢
    exact hf rfl hlive
  · rw [Function.update_noteq hk] at hlive ⊢
    exact .inl ⟨hlive, rfl⟩

theorem origin_refl (obj : Obj) : s.Origin s obj := fun hlive => .inl ⟨hlive, rfl⟩

theorem origin_new (c : Nat) (type : String) (obj : Obj) : s.Origin (s.new c type).1 obj :=
  origin_of_allocator (new_allocator s c type) obj fun _ => Allocator.origin_new _ obj.id

theorem origin_setRefcount {obj₀ : Obj} (hlive : s.Live obj₀) (n : Nat) (obj : Obj) :
    s.Origin (s.setRefcount obj₀ n) obj :=
  origin_of_allocator rfl obj fun _ => Allocator.origin_setRefcount _ hlive obj.id

theorem origin_destroy (obj₀ : Obj) (c : Nat) (cmd : Command) (obj : Obj) :
    s.Origin (((s.setRefcount obj₀ 0).serializeCommand c cmd).free obj₀) obj :=
  @origin_of_allocator s _ obj₀.key _ (by simp [free, setRefcount]) obj fun _ =>
    Allocator.origin_free _ obj₀.id obj.id

end Clients

/-- The handle that a command appended by a step announces was not handed
out before the step. -/
theorem Step.not_issued_of_appended {s s' : Clients} {client : Nat} (hstep : Step s s' client)
    {c : Nat} {cmd : Command} (happ : s'.stream c = s.stream c ++ [cmd]) {obj : Obj} {gen : Nat}
    (hres : cmd.result = some (obj, gen)) : ¬ (s.allocator obj.key).Issued obj.id gen := by
  rcases hstep.stream with heq | ⟨cmd', heq, -, hnew⟩
  · exact absurd happ (Clients.stream_ne_append heq c cmd)
  · rw [heq] at happ
    obtain ⟨-, rfl⟩ := Clients.appended_serializeCommand rfl happ
    exact (hnew obj gen hres).1

/-! ## What one call does to the objects -/

/-- What one call does as the registry of the server sees it: every object
live after it was live before with its generation or is new, and the object
of a `DestroyObjectCmd` it writes is no longer live. -/
structure MirrorStep (s s' : Clients) : Prop where
  origin : ∀ obj, s.Origin s' obj
  destroyed : ∀ c cmd, s'.stream c = s.stream c ++ [cmd] →
    ∀ type id, cmd = .destroyObject type id → ¬ s'.Live ⟨c, type, id⟩

section Mirror

variable {s : Clients}

/-- A call that writes nothing. -/
theorem MirrorStep.of_stream {s' : Clients} (horigin : ∀ obj, s.Origin s' obj)
    (hstream : s'.stream = s.stream) : MirrorStep s s' :=
  ⟨horigin, fun c cmd h => absurd h (Clients.stream_ne_append hstream c cmd)⟩

/-- A call that writes one command other than `DestroyObjectCmd`. -/
theorem MirrorStep.serialize {s₁ : Clients} (horigin : ∀ obj, s.Origin s₁ obj)
    (hstream : s₁.stream = s.stream) (c₀ : Nat) {cmd₀ : Command}
    (hcmd : ∀ type id, cmd₀ ≠ .destroyObject type id) :
    MirrorStep s (s₁.serializeCommand c₀ cmd₀) :=
  ⟨horigin, fun _ _ h type id hd =>
    (hcmd type id ((Clients.appended_serializeCommand hstream h).2.symm.trans hd)).elim⟩

/-- The last release writes `DestroyObjectCmd` for an object that is no
longer live. -/
theorem MirrorStep.destroy (obj : Obj) :
    MirrorStep s (((s.setRefcount obj 0).serializeCommand obj.client
      (.destroyObject obj.type obj.id)).free obj) := by
  refine ⟨Clients.origin_destroy obj _ _, fun c cmd h type id hd => ?_⟩
  rw [Clients.free_stream] at h
  obtain ⟨rfl, rfl⟩ := Clients.appended_serializeCommand rfl h
  cases hd
  simp [Clients.Live, Clients.refcount, Clients.free, Clients.setRefcount]

theorem clientMethod_mirror (s : Clients) (m : Method) (self : Obj) (args : List Arg) :
    MirrorStep s (clientMethod s m self args).1 := by
  rcases clientMethod_cases s m self args with
    ⟨-, ⟨type, -, h⟩ | ⟨-, h⟩⟩ | ⟨-, h | ⟨type, h⟩ | h⟩ <;> rw [h]
  · exact .of_stream (Clients.origin_new _ _) rfl
  · exact .of_stream Clients.origin_refl rfl
  · exact .serialize Clients.origin_refl rfl _ fun _ _ => by simp
  · exact .serialize (Clients.origin_new _ _) rfl _ fun _ _ => by simp
  · exact .serialize Clients.origin_refl rfl _ fun _ _ => by simp

theorem clientCreateGraphBuilder_mirror (s : Clients) (context : Obj) :
    MirrorStep s (clientCreateGraphBuilder s context).1 :=
  .serialize (Clients.origin_new _ _) rfl _ fun _ _ => by simp

theorem clientReference_mirror {obj : Obj} (hlive : s.Live obj) :
    MirrorStep s (clientReference s obj) :=
  .of_stream (Clients.origin_setRefcount hlive _) rfl

theorem clientRelease_mirror {obj : Obj} (hlive : s.Live obj) :
    MirrorStep s (clientRelease s obj) := by
  rcases clientRelease_cases s obj with ⟨-, h⟩ | ⟨-, h⟩ <;> rw [h]
  · exact .of_stream (Clients.origin_setRefcount hlive _) rfl
  · exact .destroy obj

/-- Every call on a live object. -/
theorem Call.mirror : ∀ {call : Call}, s.Live call.target → MirrorStep s (call.run s)
  | .method m self args, _ => clientMethod_mirror s m self args
  | .createGraphBuilder context, _ => clientCreateGraphBuilder_mirror s context
  | .reference _, hlive => clientReference_mirror hlive
  | .release _, hlive => clientRelease_mirror hlive

end Mirror

/-! ## The registry holds every live announced object -/

/-- Every object of client `c` that is live, with a handle that `sent`
announces or that the server held at the start, is held by the server with
its generation. -/
def Covers (s : Clients) (c : Nat) (r₀ : Registry) (sent : List Command) (r : Registry) : Prop :=
  ∀ type id, s.Live ⟨c, type, id⟩ →
    ((⟨c, type, id⟩, s.generation ⟨c, type, id⟩) ∈ sent.filterMap Command.result ∨
      r₀.entry (type, id) = some (s.generation ⟨c, type, id⟩)) →
    r.entry (type, id) = some (s.generation ⟨c, type, id⟩)

/-- The handle that the last command of `sent ++ [cmd]` announces. -/
theorem mem_filterMap_append_singleton {sent : List Command} {cmd : Command} {h : Obj × Nat}
    (hmem : h ∈ (sent ++ [cmd]).filterMap Command.result) :
    h ∈ sent.filterMap Command.result ∨ cmd.result = some h := by
  rw [List.filterMap_append, List.mem_append] at hmem
  refine hmem.imp_right fun hlast => ?_
  obtain ⟨cmd', hcmd', hres⟩ := List.mem_filterMap.1 hlast
  rwa [List.mem_singleton.1 hcmd'] at hres

/-- The step lemma: a call keeps the cover, with the command it wrote on `c`,
if any, handled by the server. -/
theorem Covers.step {s s' : Clients} {client c : Nat} {r₀ r r' : Registry}
    {sent sent' : List Command} (hcov : Covers s c r₀ sent r) (hs : ClientsInv s)
    (hstep : Step s s' client) (hm : MirrorStep s s')
    (hknown : ∀ obj gen, obj.client = c → ((obj, gen) ∈ sent.filterMap Command.result ∨
      r₀.entry (obj.type, obj.id) = some gen) → (s.allocator obj.key).Issued obj.id gen)
    (hnext : (s'.stream c = s.stream c ∧ sent' = sent ∧ r' = r) ∨
      ∃ cmd, s'.stream c = s.stream c ++ [cmd] ∧ sent' = sent ++ [cmd] ∧ r.apply cmd = some r') :
    Covers s' c r₀ sent' r' := by
  intro type id hlive hmem
  rcases hm.origin _ hlive with ⟨hlive₀, hgen⟩ | hfresh
  · rw [hgen] at hmem ⊢
    rcases hnext with ⟨-, rfl, rfl⟩ | ⟨cmd, happ, rfl, happly⟩
    · exact hcov type id hlive₀ hmem
    · have hmem₀ := hmem.imp_left fun hmem =>
        (mem_filterMap_append_singleton hmem).resolve_right fun hres =>
          hstep.not_issued_of_appended happ hres ((hs.alloc _).issued_of_live hlive₀)
      rcases Registry.apply_entry_of_some happly (hcov type id hlive₀ hmem₀) with
        ⟨t, i, rfl, hk⟩ | hentry
      · obtain ⟨rfl, rfl⟩ := Prod.mk.inj hk
        exact absurd hlive (hm.destroyed c _ happ _ _ rfl)
      · exact hentry
  · have hnot := fun h => hfresh (hknown ⟨c, type, id⟩ _ rfl h)
    rcases hnext with ⟨-, rfl, rfl⟩ | ⟨cmd, happ, rfl, happly⟩
    · exact absurd hmem hnot
    · rcases hmem with hmem | h₀
      · rcases mem_filterMap_append_singleton hmem with hmem | hres
        · exact absurd (.inl hmem) hnot
        · exact Registry.apply_entry_of_result happly hres
      · exact absurd (.inr h₀) hnot

/-- The run lemma: over every run from clients in lockstep with a registry,
the server's replay of what client `c` wrote holds every live object whose
handle it was told of. -/
theorem Runs.covers {s₀ s : Clients} (h₀ : ClientsInv s₀) (hrun : Runs s₀ s) (c : Nat)
    {r₀ : Registry} (hr₀ : Agrees s₀ c r₀) :
    ∃ sent, s.stream c = s₀.stream c ++ sent ∧
      ∀ r, serverReplay r₀ sent = some r → Covers s c r₀ sent r := by
  induction hrun with
  | refl => exact ⟨[], by simp, fun r h _ _ _ hmem => by cases h; simpa using hmem⟩
  | @tail s call hr hlive ih =>
    obtain ⟨sent, hsent, hcov⟩ := ih
    have hs := hr.inv h₀
    have hstep := call.step hs hlive
    have hknown : ∀ obj gen, obj.client = c → ((obj, gen) ∈ sent.filterMap Command.result ∨
        r₀.entry (obj.type, obj.id) = some gen) → (s.allocator obj.key).Issued obj.id gen := by
      rintro obj gen rfl (hmem | h₀e)
      · obtain ⟨cmd, hcmd, hres⟩ := List.mem_filterMap.1 hmem
        exact hs.issued _ cmd (hsent ▸ List.mem_append_right _ hcmd) obj gen hres
      · obtain ⟨hlive₀, hgen₀⟩ := hr₀ _ _ _ h₀e
        exact hr.issued h₀ (hgen₀ ▸ (h₀.alloc _).issued_of_live hlive₀)
    rcases hstep.stream_cases c with hst | ⟨cmd, hst⟩
    · exact ⟨sent, by rw [hst, hsent], fun r h =>
        (hcov r h).step hs hstep (call.mirror hlive) hknown (.inl ⟨hst, rfl, rfl⟩)⟩
    · refine ⟨sent ++ [cmd], by rw [hst, hsent, List.append_assoc], fun r' h => ?_⟩
      rw [serverReplay_append_singleton] at h
      obtain ⟨r, hrep, h'⟩ := Option.bind_eq_some.1 h
      exact (hcov r hrep).step hs hstep (call.mirror hlive) hknown
        (.inr ⟨cmd, hst, rfl, serverHandle_eq_some h'⟩)

/-! ## The registry -/

/-- Over every run from clients in lockstep with a registry, whenever the
server's replay of what client `c` wrote succeeds, it holds an object at a
type and id exactly when the client's object there is live, with the same
generation, and its handle was announced by a command the server handled or
held by the server at the start. -/
theorem server_registry_exact {s₀ s : Clients} (h₀ : ClientsInv s₀) (hrun : Runs s₀ s) (c : Nat)
    {r₀ : Registry} (hr₀ : Agrees s₀ c r₀) :
    ∃ sent, s.stream c = s₀.stream c ++ sent ∧
      ∀ r, serverReplay r₀ sent = some r → ∀ type id gen,
        (r.entry (type, id) = some gen ↔
          s.Live ⟨c, type, id⟩ ∧ s.generation ⟨c, type, id⟩ = gen ∧
            ((⟨c, type, id⟩, gen) ∈ sent.filterMap Command.result ∨ r₀.entry (type, id) = some gen)) := by
  obtain ⟨sent, hsent, hagree⟩ := hrun.agrees h₀ c hr₀
  obtain ⟨sent', hsent', hcov⟩ := hrun.covers h₀ c hr₀
  obtain rfl : sent' = sent := List.append_cancel_left (hsent'.symm.trans hsent)
  have hs := hrun.inv h₀
  refine ⟨sent', hsent, fun r hr type id gen => ⟨fun hentry => ?_, ?_⟩⟩
  · obtain ⟨hlive, hgen⟩ := hagree r hr type id gen hentry
    refine ⟨hlive, hgen, ?_⟩
    rcases serverReplay_entry hr hentry with h₀e | ⟨cmd, hmem, ⟨c', t, i⟩, hres, hkey⟩
    · exact .inr h₀e
    · have hclient := hs.same_client c cmd (hsent ▸ List.mem_append_right _ hmem) _
        (Command.mem_objs_of_result hres)
      obtain ⟨rfl, rfl⟩ := Prod.mk.inj hkey
      subst hclient
      exact .inl (List.mem_filterMap.2 ⟨cmd, hmem, hres⟩)
  · rintro ⟨hlive, rfl, hmem⟩
    exact hcov r hr type id hlive hmem

/-- A graph builder created on a context that the server holds: whenever
the server handles the new command, it holds exactly the context and the
builder. -/
theorem graphBuilder_registry_exact :
    ∃ sent, (clientCreateGraphBuilder contextClients context).1.stream 1 =
        contextClients.stream 1 ++ sent ∧
      ∀ r, serverReplay contextRegistry sent = some r → ∀ type id gen,
        (r.entry (type, id) = some gen ↔
          (clientCreateGraphBuilder contextClients context).1.Live ⟨1, type, id⟩ ∧
            (clientCreateGraphBuilder contextClients context).1.generation ⟨1, type, id⟩ = gen ∧
            ((⟨1, type, id⟩, gen) ∈ sent.filterMap Command.result ∨
              contextRegistry.entry (type, id) = some gen)) :=
  server_registry_exact contextClients_inv (.tail (.createGraphBuilder context) .refl context_live) 1
    agrees_contextRegistry

end WebnnNative.Wire
