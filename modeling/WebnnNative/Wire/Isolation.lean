import WebnnNative.Wire.ConnectionGuard

/-!
# Clients do not interfere

Every procedure of `ApiProcs.cpp` works on `self->client` alone: it reads
and writes the allocators of that client and serializes on it.  A call on
an object of one client therefore changes nothing that another client
holds, even when its arguments are objects of the other client, and what it
does to its own client depends only on what that client holds.  Over any
interleaving of calls on any clients, each client sees exactly the calls
made on its own objects, in their order.

* `Clients.view s c` is what client `c` holds: its stream and its
  allocators.  The lemmas beside it say what each primitive does to a view:
  a write on another client leaves it alone (`view_serializeCommand_of_ne`,
  `view_updateAllocator_of_ne`), and a write gives equal views from equal
  views (`view_serializeCommand_congr`, `view_updateAllocator_congr`).
* `Call.view_run_of_ne`: a call leaves the view of every other client alone.
  `Call.view_run_congr`: the view of a call's own client after the call is
  a function of its view before.
* `runCalls` makes a list of calls in order, and `runCalls_view` is the
  result: the view of a client after any sequence of calls is its view
  after the calls on its own objects alone.
-/

namespace WebnnNative.Wire

namespace Clients

/-- What client `c` holds: the commands it has serialized, and its allocator
of each object type. -/
def view (s : Clients) (c : Nat) : List Command × (String → Allocator) :=
  (s.stream c, fun type => s.allocator (c, type))

variable {s s' : Clients} {c : Nat}

theorem view_eq_iff : s.view c = s'.view c ↔
    s.stream c = s'.stream c ∧ ∀ type, s.allocator (c, type) = s'.allocator (c, type) := by
  simp [view, funext_iff]

theorem view_serializeCommand_of_ne {client : Nat} (h : client ≠ c) (cmd : Command) :
    (s.serializeCommand client cmd).view c = s.view c := by
  simp [view, Function.update_noteq (Ne.symm h)]

theorem view_updateAllocator_of_ne {client : Nat} (h : client ≠ c) {type : String}
    (f : Allocator → Allocator) : (s.updateAllocator (client, type) f).view c = s.view c := by
  refine view_eq_iff.2 ⟨rfl, fun type' => ?_⟩
  rw [updateAllocator_allocator, Function.update_noteq]
  simp [Ne.symm h]

theorem view_serializeCommand_congr (h : s.view c = s'.view c) (client : Nat) (cmd : Command) :
    (s.serializeCommand client cmd).view c = (s'.serializeCommand client cmd).view c := by
  obtain ⟨hstream, halloc⟩ := view_eq_iff.1 h
  refine view_eq_iff.2 ⟨?_, halloc⟩
  by_cases hc : c = client
  · subst hc
    simp [hstream]
  · simp [Function.update_noteq hc, hstream]

theorem view_updateAllocator_congr (h : s.view c = s'.view c) (key : Nat × String)
    (f : Allocator → Allocator) :
    (s.updateAllocator key f).view c = (s'.updateAllocator key f).view c := by
  obtain ⟨hstream, halloc⟩ := view_eq_iff.1 h
  refine view_eq_iff.2 ⟨hstream, fun type => ?_⟩
  simp only [updateAllocator_allocator, Function.update_apply]
  split_ifs with hk
  · rw [← hk, halloc]
  · exact halloc type

/-- Equal views have equal allocators for the objects of their client. -/
theorem allocator_eq_of_view (h : s.view c = s'.view c) (obj : Obj) (hc : obj.client = c) :
    s.allocator obj.key = s'.allocator obj.key := by
  simpa [Obj.key, hc] using (view_eq_iff.1 h).2 obj.type

/-- A new object on client `c` is the same from equal views of `c`, and so is
the view after it. -/
theorem new_congr (h : s.view c = s'.view c) (type : String) :
    (s.new c type).2 = (s'.new c type).2 ∧ (s.new c type).1.view c = (s'.new c type).1.view c :=
  ⟨by simp [new, (view_eq_iff.1 h).2 type], view_updateAllocator_congr h (c, type) fun a => a.new.1⟩

end Clients

open Clients

variable {s s' : Clients} {c : Nat}

/-- A call changes nothing that another client holds. -/
theorem Call.view_run_of_ne {call : Call} (h : call.target.client ≠ c) (s : Clients) :
    (call.run s).view c = s.view c := by
  cases call with
  | method m self args =>
    have h : self.client ≠ c := h
    rcases clientMethod_cases s m self args with
      ⟨-, ⟨type, -, hm⟩ | ⟨-, hm⟩⟩ | ⟨-, hm | ⟨type, hm⟩ | hm⟩ <;>
      simp only [Call.run, hm, operatorArraySize, new, view_serializeCommand_of_ne h,
        view_updateAllocator_of_ne h]
  | createGraphBuilder context =>
    have h : context.client ≠ c := h
    simp only [Call.run, clientCreateGraphBuilder, new, view_serializeCommand_of_ne h,
      view_updateAllocator_of_ne h]
  | reference obj =>
    simp only [Call.run, clientReference, setRefcount]
    exact view_updateAllocator_of_ne (show obj.client ≠ c from h) _
  | release obj =>
    have h : obj.client ≠ c := h
    rcases clientRelease_cases s obj with ⟨-, hr⟩ | ⟨-, hr⟩ <;> simp only [Call.run, hr]
    · exact view_updateAllocator_of_ne h _
    · exact (view_updateAllocator_of_ne h _).trans
        ((view_serializeCommand_of_ne h _).trans (view_updateAllocator_of_ne h _))

/-- The view of a call's client after the call depends only on its view
before: every value that the procedures read is in it. -/
theorem Call.view_run_congr (h : s.view c = s'.view c) (call : Call) :
    (call.run s).view c = (call.run s').view c := by
  by_cases hc : call.target.client = c
  swap
  · rw [call.view_run_of_ne hc, call.view_run_of_ne hc, h]
  cases call with
  | method m self args =>
    have hc : self.client = c := hc
    subst hc
    obtain ⟨suffix, returnType, handwritten⟩ := m
    have hgen : ∀ type, (s.new self.client type).1.generation (s'.new self.client type).2 =
        (s'.new self.client type).1.generation (s'.new self.client type).2 := fun type => by
      rw [generation, generation, allocator_eq_of_view (new_congr h type).2 (s'.new self.client type).2 rfl]
    cases hsc : sameClient self.client args <;> cases handwritten <;> cases returnType <;>
      simp only [Call.run, clientMethod, operatorArraySize, hsc, if_true, if_false,
        Bool.false_eq_true, (new_congr h _).1, hgen]
    -- A rejected call allocates or does nothing; an accepted one serializes, after the
    -- pre-allocation of an object result.
    all_goals first
      | exact h
      | exact (new_congr h _).2
      | exact view_serializeCommand_congr h _ _
      | exact view_serializeCommand_congr (new_congr h _).2 _ _
  | createGraphBuilder context =>
    have hc : context.client = c := hc
    subst hc
    obtain ⟨hobj, hnew⟩ := new_congr h "GraphBuilder"
    simp only [Call.run, clientCreateGraphBuilder, generation, hobj,
      allocator_eq_of_view hnew (s'.new context.client "GraphBuilder").2 rfl]
    exact view_serializeCommand_congr hnew _ _
  | reference obj =>
    simp only [Call.run, clientReference, refcount, allocator_eq_of_view h obj hc]
    exact view_updateAllocator_congr h _ _
  | release obj =>
    have hr : s.refcount obj = s'.refcount obj := by
      simp only [refcount, allocator_eq_of_view h obj hc]
    simp only [Call.run, clientRelease, refcount_setRefcount, hr]
    split_ifs
    · exact view_updateAllocator_congr h _ _
    · exact view_updateAllocator_congr (view_serializeCommand_congr
        (view_updateAllocator_congr h _ _) _ _) _ _

/-- The clients after `calls`, made in order on whatever objects they name. -/
def runCalls (s : Clients) (calls : List Call) : Clients := calls.foldl Call.run s

theorem runCalls_view_congr : ∀ (calls : List Call) {s s' : Clients}, s.view c = s'.view c →
    (runCalls s calls).view c = (runCalls s' calls).view c
  | [], _, _, h => h
  | call :: calls, _, _, h => runCalls_view_congr calls (call.view_run_congr h)

/-- Clients do not interfere.  Over any sequence of calls on any clients,
what client `c` has serialized and its allocators are what the calls on
`c`'s own objects give when they are made alone, in the same order.  The
calls on other clients' objects, arguments of `c` included, change nothing
that `c` holds. -/
theorem runCalls_view (s : Clients) (c : Nat) : ∀ calls : List Call,
    (runCalls s calls).view c = (runCalls s (calls.filter (·.target.client = c))).view c
  | [] => rfl
  | call :: calls => by
    by_cases hc : call.target.client = c
    · simp only [List.filter_cons, hc, decide_True, if_true]
      exact runCalls_view (call.run s) c calls
    · simp only [List.filter_cons, hc, decide_False]
      exact (runCalls_view (call.run s) c calls).trans
        (runCalls_view_congr _ (call.view_run_of_ne hc s))

end WebnnNative.Wire
