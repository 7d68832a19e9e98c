import WebnnNative.Wire.ConnectionGuard

/-!
# The server side of the wire, in lockstep with the client

The server is not in the sources.  This file models what the spec asks of
it (§4.4): it holds a registry of the objects of each client by type and
id, handles the client's commands in the order they were sent, resolves
every object a command uses, registers the object a command announces
under its pre-allocated id, and frees the entry of `DestroyObjectCmd`.
A command that cannot be handled fails, and the failure ends the
connection (§7).

* `Registry`, `serverHandle` and `serverReplay` are that model.
* `Agrees` is the lockstep of a client with its registry: every object the
  server holds is live on the client, with the same generation.
* `Clients.Keeps` says that a call keeps an object live with its
  generation.  `LockstepStep` says what one call does to the lockstep:
  either it writes nothing on the client and keeps it, or it writes one
  command that the server handles in lockstep or rejects because the
  command uses an object the server does not hold.  `Call.lockstep` proves
  it of every call.
* `Runs.agrees` is the run lemma: over every run, the server's replay of
  what a client wrote agrees with the client whenever it succeeds.
  `server_lockstep` adds that the replay can only fail at a command that
  uses an object the server does not hold, never at the registration of an
  announced object.
* `serverReplay_entry` says where every entry of the server comes from:
  the registry it started from, or a command that announced it.  With the
  lockstep, `rejected_object_unresolved` proves the contract of the guard
  on the server's side: the object that a rejected call returns is never
  held by the server while it lives, so every command that uses it fails.

`WebnnNative.Wire.Mirror` proves the converse of the lockstep, and with it
what the registry is exactly.
-/

namespace WebnnNative.Wire

/-! ## The server -/

/-- Modelled from the spec: the objects the server holds for one client,
with the generation of the object at each type and id. -/
structure Registry where
  entry : String × Nat → Option Nat

namespace Registry

/-- An empty registry. -/
def empty : Registry := ⟨fun _ => none⟩

/-- Write the entry of one type and id. -/
def set (r : Registry) (key : String × Nat) (v : Option Nat) : Registry :=
  ⟨Function.update r.entry key v⟩

/-- Modelled from the spec: register the object a command pre-allocated
under its id.  An id that holds an object cannot take another. -/
def register (r : Registry) : Option (Obj × Nat) → Option Registry
  | none => some r
  | some (obj, gen) =>
    if (r.entry (obj.type, obj.id)).isSome then none else some (r.set (obj.type, obj.id) (some gen))

/-- Modelled from the spec: what a command does to the registry once its
objects resolve.  `DestroyObjectCmd` frees its entry, and every other
command registers the object it announces. -/
def apply (r : Registry) : Command → Option Registry
  | .destroyObject objectType objectId => some (r.set (objectType, objectId) none)
  | .method _ _ _ result => r.register result
  | .operatorArraySize _ => some r
  | .createGraphBuilder result _ => r.register (some result)

@[simp] theorem set_entry (r : Registry) (key : String × Nat) (v : Option Nat) :
    (r.set key v).entry = Function.update r.entry key v := rfl

/-- Registering at an id that holds nothing sets its entry. -/
theorem register_of_entry_eq_none {r : Registry} {obj : Obj} {gen : Nat}
    (h : r.entry (obj.type, obj.id) = none) :
    r.register (some (obj, gen)) = some (r.set (obj.type, obj.id) (some gen)) := by
  simp [register, h]

/-- A registered entry is the announced object's, or was there before. -/
theorem register_entry {r r' : Registry} {res : Option (Obj × Nat)} (h : r.register res = some r')
    {key : String × Nat} {g : Nat} (hentry : r'.entry key = some g) :
    r.entry key = some g ∨ ∃ obj, res = some (obj, g) ∧ (obj.type, obj.id) = key := by
  rcases res with _ | ⟨obj, gen⟩
  · cases h
    exact .inl hentry
  · simp only [register] at h
    split at h
    · cases h
    · cases h
      by_cases hk : key = (obj.type, obj.id)
      · subst hk
        simp only [set_entry, Function.update_same, Option.some.injEq] at hentry
        exact .inr ⟨obj, by rw [hentry], rfl⟩
      · rw [set_entry, Function.update_noteq hk] at hentry
        exact .inl hentry

/-- Every entry after a command is the handle it announces, or was there
before. -/
theorem apply_entry {r r' : Registry} {cmd : Command} (h : r.apply cmd = some r')
    {key : String × Nat} {g : Nat} (hentry : r'.entry key = some g) :
    r.entry key = some g ∨ ∃ obj, cmd.result = some (obj, g) ∧ (obj.type, obj.id) = key := by
  cases cmd with
  | destroyObject objectType objectId =>
    cases h
    by_cases hk : key = (objectType, objectId)
    · simp [hk] at hentry
    · rw [set_entry, Function.update_noteq hk] at hentry
      exact .inl hentry
  | method _ _ _ result => exact register_entry h hentry
  | operatorArraySize _ =>
    cases h
    exact .inl hentry
  | createGraphBuilder result _ => exact register_entry (show r.register (some result) = _ from h) hentry

/-- A handled command that announces an object registers it. -/
theorem apply_entry_of_result {r r' : Registry} {cmd : Command} (h : r.apply cmd = some r')
    {obj : Obj} {gen : Nat} (hres : cmd.result = some (obj, gen)) :
    r'.entry (obj.type, obj.id) = some gen := by
  have hreg : ∀ {res}, r.register res = some r' → res = some (obj, gen) →
      r'.entry (obj.type, obj.id) = some gen := by
    rintro _ h rfl
    simp only [register] at h
    split at h
    · cases h
    · cases h
      simp
  cases cmd with
  | destroyObject => cases hres
  | method _ _ _ result => exact hreg h hres
  | operatorArraySize => cases hres
  | createGraphBuilder result _ => exact hreg (show r.register (some result) = _ from h) hres

/-- A handled command keeps every entry that holds an object, but the one
that `DestroyObjectCmd` frees. -/
theorem apply_entry_of_some {r r' : Registry} {cmd : Command} (h : r.apply cmd = some r')
    {key : String × Nat} {gen : Nat} (hentry : r.entry key = some gen) :
    (∃ type id, cmd = .destroyObject type id ∧ key = (type, id)) ∨ r'.entry key = some gen := by
  have hreg : ∀ {res}, r.register res = some r' → r'.entry key = some gen := by
    intro res h
    rcases res with _ | ⟨obj, g⟩
    · cases h
      exact hentry
    · simp only [register] at h
      split at h
      · cases h
      next hnone =>
        cases h
        have hk : key ≠ (obj.type, obj.id) := fun hk => by simp [← hk, hentry] at hnone
        rw [set_entry, Function.update_noteq hk]
        exact hentry
  cases cmd with
  | destroyObject type id =>
    by_cases hk : key = (type, id)
    · exact .inl ⟨type, id, rfl, hk⟩
    · cases h
      exact .inr (by rw [set_entry, Function.update_noteq hk]; exact hentry)
  | method _ _ _ result => exact .inr (hreg h)
  | operatorArraySize =>
    cases h
    exact .inr hentry
  | createGraphBuilder result _ => exact .inr (hreg (show r.register (some result) = _ from h))

end Registry

/-- The objects a command asks the server to resolve, by type and id. -/
def Command.uses : Command → List (String × Nat)
  | .method _ self args _ => (self :: membersObjs args).map fun o => (o.type, o.id)
  | .operatorArraySize operatorArray => [(operatorArray.type, operatorArray.id)]
  | .createGraphBuilder _ context => [(context.type, context.id)]
  | .destroyObject objectType objectId => [(objectType, objectId)]

/-- Modelled from the spec: the server's handling of one command.  It
resolves every object the command uses, then applies the command. -/
def serverHandle (r : Registry) (cmd : Command) : Option Registry :=
  if cmd.uses.all fun u => (r.entry u).isSome then r.apply cmd else none

/-- Modelled from the spec: the server handles a client's commands in the
order they were sent (§5). -/
def serverReplay (r : Registry) (cmds : List Command) : Option Registry :=
  cmds.foldlM serverHandle r

theorem serverReplay_append_singleton (r : Registry) (cmds : List Command) (cmd : Command) :
    serverReplay r (cmds ++ [cmd]) = (serverReplay r cmds).bind fun r' => serverHandle r' cmd := by
  simp [serverReplay, List.foldlM_append]

/-- A command fails on the server when one of the objects it uses is not
held, or when applying it fails. -/
theorem serverHandle_eq_none {r : Registry} {cmd : Command} (h : serverHandle r cmd = none) :
    (∃ u ∈ cmd.uses, r.entry u = none) ∨ r.apply cmd = none := by
  unfold serverHandle at h
  split at h
  · exact .inr h
  next hall =>
    simp only [List.all_eq_true, Option.isSome_iff_ne_none, ne_eq, decide_not,
      Bool.not_eq_true', decide_eq_false_iff_not, not_forall, not_not] at hall
    obtain ⟨u, hu, hnone⟩ := hall
    exact .inl ⟨u, hu, hnone⟩

/-- A command the server handles has every object it uses held, and is
applied. -/
theorem serverHandle_eq_some {r r' : Registry} {cmd : Command} (h : serverHandle r cmd = some r') :
    r.apply cmd = some r' := by
  unfold serverHandle at h
  split at h
  · exact h
  · cases h

/-- A command that uses an object the server does not hold fails. -/
theorem serverHandle_of_entry_eq_none {r : Registry} {cmd : Command} {u : String × Nat}
    (hu : u ∈ cmd.uses) (hnone : r.entry u = none) : serverHandle r cmd = none := by
  have hall : (cmd.uses.all fun u => (r.entry u).isSome) = false :=
    List.all_eq_false.2 ⟨u, hu, by simp [hnone]⟩
  simp [serverHandle, hall]

/-- Every entry of a registry the server reaches was in the registry it
started from, or was announced by a command it handled. -/
theorem serverReplay_entry {cmds : List Command} :
    ∀ {r₀ r : Registry}, serverReplay r₀ cmds = some r → ∀ {key : String × Nat} {g : Nat},
      r.entry key = some g → r₀.entry key = some g ∨
        ∃ cmd ∈ cmds, ∃ obj, cmd.result = some (obj, g) ∧ (obj.type, obj.id) = key := by
  induction cmds with
  | nil =>
    intro r₀ r h key g hentry
    cases h
    exact .inl hentry
  | cons cmd rest ih =>
    intro r₀ r h key g hentry
    obtain ⟨r₁, h₁, hrest⟩ := Option.bind_eq_some.1 h
    rcases ih hrest hentry with h₁e | ⟨cmd', hmem, obj, hres, hkey⟩
    · rcases Registry.apply_entry (serverHandle_eq_some h₁) h₁e with h₀e | ⟨obj, hres, hkey⟩
      · exact .inl h₀e
      · exact .inr ⟨cmd, List.mem_cons_self _ _, obj, hres, hkey⟩
    · exact .inr ⟨cmd', List.mem_cons_of_mem _ hmem, obj, hres, hkey⟩

/-! ## The lockstep -/

/-- Every object the server holds for client `c` is live on the client,
with the same generation. -/
def Agrees (s : Clients) (c : Nat) (r : Registry) : Prop :=
  ∀ type id gen, r.entry (type, id) = some gen →
    s.Live ⟨c, type, id⟩ ∧ s.generation ⟨c, type, id⟩ = gen

/-- A call keeps the object live, with its generation. -/
def Clients.Keeps (s s' : Clients) (obj : Obj) : Prop :=
  s.Live obj → s'.Live obj ∧ s'.generation obj = s.generation obj

theorem Agrees.of_keeps {s s' : Clients} {c : Nat} {r : Registry} (hr : Agrees s c r)
    (hk : ∀ obj, obj.client = c → s.Keeps s' obj) : Agrees s' c r := fun type id gen h => by
  obtain ⟨hlive, hgen⟩ := hr type id gen h
  obtain ⟨hlive', hgen'⟩ := hk _ rfl hlive
  exact ⟨hlive', hgen'.trans hgen⟩

namespace Clients

variable {s : Clients}

/-- A call that changes one allocator keeps every object that the change
keeps. -/
theorem keeps_of_allocator {s' : Clients} {key : Nat × String} {a : Allocator}
    (hall : s'.allocator = Function.update s.allocator key a) (obj : Obj)
    (hf : obj.key = key → (s.allocator key).Keeps a obj.id) : s.Keeps s' obj := fun hlive => by
  simp only [Live, refcount, generation, hall, Function.update_apply] at hlive ⊢
  split
  · next hk => subst hk; exact hf rfl hlive
  · exact ⟨hlive, rfl⟩

theorem keeps_new (hs : ∀ k, (s.allocator k).Inv) (c : Nat) (type : String) (obj : Obj) :
    s.Keeps (s.new c type).1 obj :=
  keeps_of_allocator (new_allocator s c type) obj fun _ => (hs _).keeps_new obj.id

theorem keeps_setRefcount {obj₀ : Obj} {n : Nat} (hn : 0 < n) (obj : Obj) :
    s.Keeps (s.setRefcount obj₀ n) obj :=
  keeps_of_allocator rfl obj fun _ => Allocator.keeps_setRefcount _ hn obj.id

theorem keeps_refl (obj : Obj) : s.Keeps s obj := fun hlive => ⟨hlive, rfl⟩

/-- The last release of `obj₀` keeps every other object. -/
theorem keeps_destroy {obj₀ obj : Obj} (hne : obj ≠ obj₀) (c : Nat) (cmd : Command) :
    s.Keeps (((s.setRefcount obj₀ 0).serializeCommand c cmd).free obj₀) obj :=
  @keeps_of_allocator s _ obj₀.key _ (by simp [free, setRefcount]) obj fun hkey =>
    Allocator.keeps_free _ (fun hid => hne (Obj.eq_of_key_of_id hkey hid)) 0

end Clients

/-- What one call does to the lockstep of client `c` with the registry `r`:
it writes nothing on `c` and keeps the lockstep, or it writes one command
that the server handles in lockstep or rejects because the command uses an
object the server does not hold. -/
def LockstepStep (s s' : Clients) (c : Nat) (r : Registry) : Prop :=
  (s'.stream c = s.stream c ∧ Agrees s' c r) ∨
    ∃ cmd, s'.stream c = s.stream c ++ [cmd] ∧
      (∀ r', serverHandle r cmd = some r' → Agrees s' c r') ∧
      (serverHandle r cmd = none → ∃ u ∈ cmd.uses, r.entry u = none)

section Lockstep

variable {s : Clients} {c : Nat} {r : Registry}

/-- A call that writes nothing keeps the lockstep of every client whose
objects it keeps. -/
theorem LockstepStep.of_keeps {s' : Clients} (hr : Agrees s c r) (hk : ∀ obj, s.Keeps s' obj)
    (hstream : s'.stream = s.stream) : LockstepStep s s' c r :=
  .inl ⟨by rw [hstream], hr.of_keeps fun obj _ => hk obj⟩

/-- A call that keeps every object and then writes a command on `c₀`. -/
theorem LockstepStep.serialize {s₁ : Clients} (hr : Agrees s c r) (hk : ∀ obj, s.Keeps s₁ obj)
    (hstream : s₁.stream = s.stream) (c₀ : Nat) (cmd : Command)
    (hcmd : c = c₀ → (∀ r', serverHandle r cmd = some r' → Agrees (s₁.serializeCommand c₀ cmd) c r') ∧
      (serverHandle r cmd = none → ∃ u ∈ cmd.uses, r.entry u = none)) :
    LockstepStep s (s₁.serializeCommand c₀ cmd) c r := by
  by_cases hc : c = c₀
  · subst hc
    exact .inr ⟨cmd, by simp [hstream], hcmd rfl⟩
  · exact .inl ⟨by simp [Function.update_noteq hc, hstream], hr.of_keeps fun obj _ => hk obj⟩

/-- A command that announces nothing and frees nothing: the server handles
it exactly when every object it uses is held, and leaves its registry as
it was. -/
theorem lockstep_plain {s₁ : Clients} (hr : Agrees s c r) (hk : ∀ obj, s.Keeps s₁ obj) {cmd : Command}
    (happly : r.apply cmd = some r) (c₀ : Nat) :
    (∀ r', serverHandle r cmd = some r' → Agrees (s₁.serializeCommand c₀ cmd) c r') ∧
      (serverHandle r cmd = none → ∃ u ∈ cmd.uses, r.entry u = none) := by
  refine ⟨fun r' h => ?_, fun h => ?_⟩
  · rw [serverHandle_eq_some h] at happly
    cases happly
    exact hr.of_keeps fun obj _ => hk obj
  · exact (serverHandle_eq_none h).resolve_right (by simp [happly])

/-- A command that announces the new object of client `c`: its id holds
nothing on the server, so the server registers it, in lockstep. -/
theorem lockstep_announce (hs : ClientsInv s) (hr : Agrees s c r) (type : String) {cmd : Command}
    (happly : r.apply cmd =
      r.register (some ((s.new c type).2, (s.new c type).1.generation (s.new c type).2))) :
    (∀ r', serverHandle r cmd = some r' → Agrees ((s.new c type).1.serializeCommand c cmd) c r') ∧
      (serverHandle r cmd = none → ∃ u ∈ cmd.uses, r.entry u = none) := by
  have hdead : s.refcount (s.new c type).2 = 0 := by
    simpa [Clients.refcount] using (hs.alloc (c, type)).refcount_new
  have hfree : r.entry ((s.new c type).2.type, (s.new c type).2.id) = none := by
    by_contra hne
    obtain ⟨g, hg⟩ := Option.ne_none_iff_exists'.1 hne
    have hlive : s.Live (s.new c type).2 := (hr _ _ g hg).1
    simp [Clients.Live, hdead] at hlive
  rw [Registry.register_of_entry_eq_none hfree] at happly
  refine ⟨fun r' h => ?_, fun h => (serverHandle_eq_none h).resolve_right (by simp [happly])⟩
  rw [serverHandle_eq_some h, Option.some.injEq] at happly
  subst happly
  intro type' id gen hentry
  by_cases hkey : (type', id) = ((s.new c type).2.type, (s.new c type).2.id)
  · simp only [Registry.set_entry, hkey, Function.update_same, Option.some.injEq] at hentry
    simp only [Prod.mk.injEq] at hkey
    obtain ⟨rfl, rfl⟩ := hkey
    subst hentry
    refine ⟨?_, rfl⟩
    simp [Clients.Live, Clients.refcount, Clients.new, Obj.key]
  · rw [Registry.set_entry, Function.update_noteq hkey] at hentry
    exact (hr.of_keeps fun obj _ => Clients.keeps_new hs.alloc c type obj) type' id gen hentry

/-- The last release of an object: the server frees its entry, and the
lockstep holds for every other object. -/
theorem lockstep_destroy (hr : Agrees s c r) (obj : Obj) :
    LockstepStep s (((s.setRefcount obj 0).serializeCommand obj.client
      (.destroyObject obj.type obj.id)).free obj) c r := by
  have hkeep : ∀ type id gen, r.entry (type, id) = some gen → (⟨c, type, id⟩ : Obj) ≠ obj →
      (((s.setRefcount obj 0).serializeCommand obj.client
        (.destroyObject obj.type obj.id)).free obj).Live ⟨c, type, id⟩ ∧
      (((s.setRefcount obj 0).serializeCommand obj.client
        (.destroyObject obj.type obj.id)).free obj).generation ⟨c, type, id⟩ = gen :=
    fun type id gen hentry hne => by
      obtain ⟨hlive, hgen⟩ := hr type id gen hentry
      obtain ⟨hlive', hgen'⟩ := Clients.keeps_destroy hne _ _ hlive
      exact ⟨hlive', hgen'.trans hgen⟩
  by_cases hc : c = obj.client
  · subst hc
    refine .inr ⟨.destroyObject obj.type obj.id, by simp, fun r' h => ?_,
      fun h => (serverHandle_eq_none h).resolve_right (by simp [Registry.apply])⟩
    have happly := serverHandle_eq_some h
    simp only [Registry.apply, Option.some.injEq] at happly
    subst happly
    intro type id gen hentry
    have hkey : (type, id) ≠ (obj.type, obj.id) := fun hk => by simp [hk] at hentry
    rw [Registry.set_entry, Function.update_noteq hkey] at hentry
    exact hkeep type id gen hentry fun he => hkey (by rw [← he])
  · exact .inl ⟨by simp [Function.update_noteq hc],
      fun type id gen hentry => hkeep type id gen hentry fun he => hc (by rw [← he])⟩

/-! ## Every call keeps the lockstep -/

/-- `Client{{Suffix}}` keeps the lockstep. -/
theorem clientMethod_lockstep (hs : ClientsInv s) (hr : Agrees s c r) (m : Method) (self : Obj)
    (args : List Arg) : LockstepStep s (clientMethod s m self args).1 c r := by
  rcases clientMethod_cases s m self args with
    ⟨-, ⟨type, -, h⟩ | ⟨-, h⟩⟩ | ⟨-, h | ⟨type, h⟩ | h⟩ <;> rw [h]
  · exact LockstepStep.of_keeps hr (Clients.keeps_new hs.alloc _ _) rfl
  · exact LockstepStep.of_keeps hr Clients.keeps_refl rfl
  · refine LockstepStep.serialize hr Clients.keeps_refl rfl self.client _ fun _ => ?_
    exact lockstep_plain hr Clients.keeps_refl (by rfl) self.client
  · refine LockstepStep.serialize hr (Clients.keeps_new hs.alloc _ _) rfl self.client _ ?_
    rintro rfl
    exact lockstep_announce hs hr type rfl
  · refine LockstepStep.serialize hr Clients.keeps_refl rfl self.client _ fun _ => ?_
    exact lockstep_plain hr Clients.keeps_refl (by rfl) self.client

/-- `ClientCreateGraphBuilder` keeps the lockstep. -/
theorem clientCreateGraphBuilder_lockstep (hs : ClientsInv s) (hr : Agrees s c r) (context : Obj) :
    LockstepStep s (clientCreateGraphBuilder s context).1 c r := by
  refine LockstepStep.serialize hr (Clients.keeps_new hs.alloc _ _) rfl context.client _ ?_
  intro hc
  subst hc
  exact lockstep_announce hs hr "GraphBuilder" rfl

/-- `Reference` keeps the lockstep. -/
theorem clientReference_lockstep (hr : Agrees s c r) (obj : Obj) :
    LockstepStep s (clientReference s obj) c r :=
  LockstepStep.of_keeps hr (Clients.keeps_setRefcount (Nat.succ_pos _)) rfl

/-- `Release` keeps the lockstep. -/
theorem clientRelease_lockstep (hr : Agrees s c r) (obj : Obj) :
    LockstepStep s (clientRelease s obj) c r := by
  rcases clientRelease_cases s obj with ⟨hpos, h⟩ | ⟨-, h⟩ <;> rw [h]
  · exact LockstepStep.of_keeps hr (Clients.keeps_setRefcount (by omega)) rfl
  · exact lockstep_destroy hr obj

/-- Every call keeps the lockstep. -/
theorem Call.lockstep (hs : ClientsInv s) (hr : Agrees s c r) :
    ∀ call : Call, LockstepStep s (call.run s) c r
  | .method m self args => clientMethod_lockstep hs hr m self args
  | .createGraphBuilder context => clientCreateGraphBuilder_lockstep hs hr context
  | .reference obj => clientReference_lockstep hr obj
  | .release obj => clientRelease_lockstep hr obj

end Lockstep

/-! ## Runs -/

/-- The run lemma: over every run from clients in lockstep with a registry,
the server's replay of what client `c` wrote agrees with the client whenever
it succeeds. -/
theorem Runs.agrees {s₀ s : Clients} (h₀ : ClientsInv s₀) (hrun : Runs s₀ s) (c : Nat)
    {r₀ : Registry} (hr₀ : Agrees s₀ c r₀) :
    ∃ sent, s.stream c = s₀.stream c ++ sent ∧ ∀ r, serverReplay r₀ sent = some r → Agrees s c r := by
  induction hrun with
  | refl => exact ⟨[], by simp, fun r h => by cases h; exact hr₀⟩
  | @tail s call hr hlive ih =>
    obtain ⟨sent, hsent, hok⟩ := ih
    have hs := hr.inv h₀
    cases hrep : serverReplay r₀ sent with
    | some r =>
      rcases Call.lockstep hs (hok r hrep) call with ⟨hst, hagree⟩ | ⟨cmd, hst, hsome, -⟩
      · refine ⟨sent, by rw [hst, hsent], fun r' h => ?_⟩
        rw [hrep, Option.some.injEq] at h
        exact h ▸ hagree
      · refine ⟨sent ++ [cmd], by rw [hst, hsent, List.append_assoc], fun r' h => ?_⟩
        rw [serverReplay_append_singleton, hrep, Option.some_bind] at h
        exact hsome r' h
    | none =>
      rcases (call.step hs hlive).stream_cases c with hst | ⟨cmd, hst⟩
      · exact ⟨sent, by rw [hst, hsent], fun r' h => by simp [hrep] at h⟩
      · refine ⟨sent ++ [cmd], by rw [hst, hsent, List.append_assoc], fun r' h => ?_⟩
        rw [serverReplay_append_singleton, hrep, Option.none_bind] at h
        cases h

/-- Over every run from clients in lockstep with a registry, the server's
replay of what client `c` wrote agrees with the client, and it fails only
at a command that uses an object the server does not hold. -/
theorem server_lockstep {s₀ s : Clients} (h₀ : ClientsInv s₀) (hrun : Runs s₀ s) (c : Nat)
    {r₀ : Registry} (hr₀ : Agrees s₀ c r₀) :
    ∃ sent, s.stream c = s₀.stream c ++ sent ∧
      (∀ r, serverReplay r₀ sent = some r → Agrees s c r) ∧
      (serverReplay r₀ sent = none → ∃ pre cmd post r, sent = pre ++ cmd :: post ∧
        serverReplay r₀ pre = some r ∧ ∃ u ∈ cmd.uses, r.entry u = none) := by
  induction hrun with
  | refl => exact ⟨[], by simp, fun r h => by cases h; exact hr₀, fun h => by cases h⟩
  | @tail s call hr hlive ih =>
    obtain ⟨sent, hsent, hok, hfail⟩ := ih
    obtain ⟨sent', hsent', hok'⟩ := (hr.tail call hlive).agrees h₀ c hr₀
    refine ⟨sent', hsent', hok', fun h => ?_⟩
    have hs := hr.inv h₀
    rcases (call.step hs hlive).stream_cases c with hst | ⟨cmd, hst⟩
    · -- The call wrote nothing on `c`: the replay is the one before it.
      obtain rfl : sent' = sent := List.append_cancel_left (hsent'.symm.trans (hst.trans hsent))
      exact hfail h
    · obtain rfl : sent' = sent ++ [cmd] :=
        List.append_cancel_left (by rw [← hsent', hst, hsent, List.append_assoc])
      cases hrep : serverReplay r₀ sent with
      | none =>
        obtain ⟨pre, cmd', post, r, rfl, hpre, hmiss⟩ := hfail hrep
        exact ⟨pre, cmd', post ++ [cmd], r, by simp, hpre, hmiss⟩
      | some r =>
        -- The replay fails at the new command, which the step lemma explains.
        rw [serverReplay_append_singleton, hrep, Option.some_bind] at h
        rcases Call.lockstep hs (hok r hrep) call with ⟨hst', -⟩ | ⟨cmd', hst', -, hnone⟩
        · simp [hst] at hst'
        · obtain rfl : cmd = cmd' := by simpa [hst] using hst'
          exact ⟨sent, cmd, [], r, rfl, hrep, hnone h⟩

/-- The server holding the context of `contextClients`. -/
def contextRegistry : Registry := Registry.empty.set ("Context", 1) (some 0)

theorem agrees_contextRegistry : Agrees contextClients 1 contextRegistry := by
  intro type id gen h
  by_cases hk : (type, id) = ("Context", 1)
  · simp only [contextRegistry, Registry.set_entry, hk, Function.update_same,
      Option.some.injEq] at h
    obtain ⟨rfl, rfl⟩ := Prod.mk.injEq _ _ _ _ ▸ hk
    subst h
    exact ⟨context_live, by unfold Clients.generation; decide⟩
  · simp [contextRegistry, Registry.empty, Function.update_noteq hk] at h

/-- A graph builder created on a context that the server holds: the
server's replay of the new command agrees with the client. -/
theorem graphBuilder_lockstep :
    ∃ sent, (clientCreateGraphBuilder contextClients context).1.stream 1 =
        contextClients.stream 1 ++ sent ∧
      (∀ r, serverReplay contextRegistry sent = some r →
        Agrees (clientCreateGraphBuilder contextClients context).1 1 r) ∧
      (serverReplay contextRegistry sent = none → ∃ pre cmd post r, sent = pre ++ cmd :: post ∧
        serverReplay contextRegistry pre = some r ∧ ∃ u ∈ cmd.uses, r.entry u = none) :=
  server_lockstep contextClients_inv (.tail (.createGraphBuilder context) .refl context_live) 1
    agrees_contextRegistry

/-! ## The object of a rejected call -/

/-- The object that a rejected call returns is never resolved by the
server: over every run that follows, while the object is live with its
generation, the server's replay of what its client wrote holds nothing at
its id, and every command that uses it fails. -/
theorem rejected_object_unresolved {s₀ s s' : Clients} {r₀ : Registry} (h₀ : ClientsInv s₀)
    (hrun : Runs s₀ s) (m : Method) (self : Obj) (args : List Arg) (hself : s.Live self)
    (hr₀ : Agrees s₀ self.client r₀) (hfalse : sameClient self.client args = false)
    {type : String} (htype : m.returnType = .object type)
    (hrun' : Runs (clientMethod s m self args).1 s') :
    ∃ obj, (clientMethod s m self args).2 = .object obj ∧
      ∃ sent, s'.stream self.client = s₀.stream self.client ++ sent ∧
        (s'.Live obj → s'.generation obj = (clientMethod s m self args).1.generation obj →
          ∀ r, serverReplay r₀ sent = some r →
            r.entry (obj.type, obj.id) = none ∧
              ∀ cmd, (obj.type, obj.id) ∈ cmd.uses → serverHandle r cmd = none) := by
  have hs := hrun.inv h₀
  have hall := (hrun.tail (.method m self args) hself).trans hrun'
  obtain ⟨sent, hsent, hok⟩ := hall.agrees h₀ self.client hr₀
  rw [clientMethod_of_rejected hfalse htype] at hrun' ⊢
  refine ⟨_, rfl, sent, hsent, fun hlive hgen r hr => ?_⟩
  have hfresh := Clients.new_fresh hs.alloc self.client type
  have hnone : r.entry ((s.new self.client type).2.type, (s.new self.client type).2.id) = none := by
    by_contra hne
    obtain ⟨g, hg⟩ := Option.ne_none_iff_exists'.1 hne
    obtain ⟨-, hgen'⟩ := hok r hr _ _ g hg
    have hgp : g = (s.new self.client type).1.generation (s.new self.client type).2 :=
      hgen'.symm.trans hgen
    subst hgp
    rcases serverReplay_entry hr hg with h₀e | ⟨cmd, hmem, obj, hres, hkey⟩
    · obtain ⟨hlive₀, hgen₀⟩ := hr₀ _ _ _ h₀e
      exact hfresh.1 (hrun.issued h₀ (hgen₀ ▸ (h₀.alloc _).issued_of_live hlive₀))
    · have hmem' : cmd ∈ s'.stream self.client := hsent ▸ List.mem_append_right _ hmem
      have hclient := (hall.inv h₀).same_client _ cmd hmem' obj (Command.mem_objs_of_result hres)
      obtain ⟨c, t, i⟩ := obj
      simp only [Prod.mk.injEq] at hkey
      obtain ⟨rfl, rfl⟩ := hkey
      subst hclient
      exact new_unannounced hs _ _ hrun' _ cmd hmem' hres
  exact ⟨hnone, fun cmd hu => serverHandle_of_entry_eq_none hu hnone⟩

/-- The operand that the rejected `Relu` returns is never resolved by the
server that holds the context. -/
theorem foreignRelu_unresolved :
    ∃ obj, foreignRelu.2 = .object obj ∧
      ∃ sent, foreignRelu.1.stream 1 = contextClients.stream 1 ++ sent ∧
        (foreignRelu.1.Live obj → foreignRelu.1.generation obj = foreignRelu.1.generation obj →
          ∀ r, serverReplay contextRegistry sent = some r →
            r.entry (obj.type, obj.id) = none ∧
              ∀ cmd, (obj.type, obj.id) ∈ cmd.uses → serverHandle r cmd = none) :=
  rejected_object_unresolved contextClients_inv builderClients_runs
    ⟨"GraphBuilderRelu", .object "Operand", false⟩ ⟨1, "GraphBuilder", 1⟩ [.object ⟨2, "Operand", 1⟩]
    (by unfold Clients.Live; decide) agrees_contextRegistry (by decide) rfl .refl

end WebnnNative.Wire
