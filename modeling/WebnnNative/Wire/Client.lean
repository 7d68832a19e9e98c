import WebnnNative.Wire.ClientMatches
import WebnnNative.Wire.Allocator

/-!
# The generated client procedures

`webnn_wire/client/ApiProcs.cpp` generates, for every method of every
object type, a `Client{{Suffix}}` that checks that all its object
arguments belong to `self->client`, pre-allocates the result of a method
that returns an object, and serializes the command on `self->client`.
It also generates `Client{{Type}}Reference` and `Client{{Type}}Release`
for every object type.  This file models them over `Clients`: the command
stream that each client has written, and the allocators of every client.

* `Command` is what a client serializes; `Command.objs` lists the objects
  a command refers to and `Command.result` the handle it announces.
* `clientMethod` is `Client{{Suffix}}`, with the handwritten
  `OperatorArray::Size` as the body of a handwritten method.
* `clientCreateGraphBuilder` is the handwritten `ClientCreateGraphBuilder`
  at the end of the template.
* `clientRelease` and `clientReference` are the reference counting
  procedures.
* `clientMethod_cases` and `clientRelease_cases` list what each call can
  do; the step lemmas of the later files are proved by cases on them.

The API description that lists the methods and their arguments is not in
the sources, so a method is a `Method` value and its arguments are `Arg`
trees of any shape.  A `Client` is known by a number.  The command
payloads are the C++ values before serialization: `self`, the arguments
and the result are objects, as `SerializeCommand` receives them.
-/

namespace WebnnNative.Wire

/-- A command that a client serializes. -/
inductive Command where
  /-- `{{Suffix}}Cmd`: `self`, the arguments, and for a method that returns an
  object the pre-allocated result with its generation. -/
  | method (suffix : String) (self : Obj) (args : List Arg) (result : Option (Obj × Nat))
  /-- `OperatorArraySizeCmd`, whose `operatorArrayId` is the id of `this`. -/
  | operatorArraySize (operatorArray : Obj)
  /-- `CreateGraphBuilderCmd`: the pre-allocated builder with its generation,
  and the context, whose id the command carries. -/
  | createGraphBuilder (result : Obj × Nat) (context : Obj)
  /-- `DestroyObjectCmd`. -/
  | destroyObject (objectType : String) (objectId : Nat)

/-- The objects a command refers to: `self`, every object reachable from
the arguments, and the pre-allocated result. -/
def Command.objs : Command → List Obj
  | .method _ self args result => self :: membersObjs args ++ (result.map Prod.fst).toList
  | .operatorArraySize operatorArray => [operatorArray]
  | .createGraphBuilder result context => [result.1, context]
  | .destroyObject _ _ => []

/-- The handle that a command announces to the server: the pre-allocated
result of a method that returns an object, or the new graph builder. -/
def Command.result : Command → Option (Obj × Nat)
  | .method _ _ _ result => result
  | .operatorArraySize _ => none
  | .createGraphBuilder result _ => some result
  | .destroyObject _ _ => none

/-- The handle a command announces is one of its objects. -/
theorem Command.mem_objs_of_result {cmd : Command} {obj : Obj} {gen : Nat}
    (h : cmd.result = some (obj, gen)) : obj ∈ cmd.objs := by
  cases cmd <;> simp_all [Command.result, Command.objs]

/-- The return type of a method, as the template tests it. -/
inductive ReturnType where
  /-- `method.return_type.category == "object"`, with the object type. -/
  | object (type : String)
  /-- `void`. -/
  | void
  /-- Any other type. -/
  | value
  deriving DecidableEq

/-- A method of an object type, as the template reads it from the API
description. -/
structure Method where
  suffix : String
  returnType : ReturnType
  /-- `Suffix in client_handwritten_commands`. -/
  handwritten : Bool

/-- What a client procedure returns. -/
inductive Result where
  /-- An object. -/
  | object (obj : Obj)
  /-- `return;`, `return {};`, or the `0` of `OperatorArray::Size`. -/
  | empty
  deriving DecidableEq

/-- The client side of the wire: what each client has serialized, in
order, and the allocator of each object type of each client. -/
structure Clients where
  stream : Nat → List Command
  allocator : Nat × String → Allocator

namespace Clients

/-- No command written and every allocator fresh. -/
def empty : Clients := ⟨fun _ => [], fun _ => Allocator.empty⟩

/-- `client->SerializeCommand(cmd)`. -/
def serializeCommand (s : Clients) (client : Nat) (cmd : Command) : Clients :=
  { s with stream := Function.update s.stream client (s.stream client ++ [cmd]) }

/-- Apply an operation to one allocator. -/
def updateAllocator (s : Clients) (key : Nat × String) (f : Allocator → Allocator) : Clients :=
  { s with allocator := Function.update s.allocator key (f (s.allocator key)) }

/-- `client->{{Type}}Allocator().New(client)`: the new object. -/
def new (s : Clients) (client : Nat) (type : String) : Clients × Obj :=
  (s.updateAllocator (client, type) fun a => a.new.1,
    ⟨client, type, (s.allocator (client, type)).new.2⟩)

/-- `allocation->generation`: the stored generation of an object's id. -/
def generation (s : Clients) (obj : Obj) : Nat := (s.allocator obj.key).generation obj.id

/-- `obj->refcount`. -/
def refcount (s : Clients) (obj : Obj) : Nat := (s.allocator obj.key).refcount obj.id

/-- Write `obj->refcount`. -/
def setRefcount (s : Clients) (obj : Obj) (n : Nat) : Clients :=
  s.updateAllocator obj.key fun a => a.setRefcount obj.id n

/-- `client->{{Type}}Allocator().Free(obj)`. -/
def free (s : Clients) (obj : Obj) : Clients :=
  s.updateAllocator obj.key fun a => a.free obj.id

@[simp] theorem serializeCommand_allocator (s : Clients) (client : Nat) (cmd : Command) :
    (s.serializeCommand client cmd).allocator = s.allocator := rfl

@[simp] theorem serializeCommand_stream (s : Clients) (client : Nat) (cmd : Command) :
    (s.serializeCommand client cmd).stream =
      Function.update s.stream client (s.stream client ++ [cmd]) := rfl

@[simp] theorem updateAllocator_stream (s : Clients) (key : Nat × String) (f : Allocator → Allocator) :
    (s.updateAllocator key f).stream = s.stream := rfl

@[simp] theorem updateAllocator_allocator (s : Clients) (key : Nat × String)
    (f : Allocator → Allocator) :
    (s.updateAllocator key f).allocator = Function.update s.allocator key (f (s.allocator key)) :=
  rfl

@[simp] theorem new_stream (s : Clients) (client : Nat) (type : String) :
    (s.new client type).1.stream = s.stream := rfl

@[simp] theorem new_allocator (s : Clients) (client : Nat) (type : String) :
    (s.new client type).1.allocator =
      Function.update s.allocator (client, type) (s.allocator (client, type)).new.1 := rfl

@[simp] theorem new_key (s : Clients) (client : Nat) (type : String) :
    (s.new client type).2.key = (client, type) := rfl

@[simp] theorem new_client (s : Clients) (client : Nat) (type : String) :
    (s.new client type).2.client = client := rfl

@[simp] theorem new_id (s : Clients) (client : Nat) (type : String) :
    (s.new client type).2.id = (s.allocator (client, type)).new.2 := rfl

@[simp] theorem free_stream (s : Clients) (obj : Obj) : (s.free obj).stream = s.stream := rfl

@[simp] theorem setRefcount_stream (s : Clients) (obj : Obj) (n : Nat) :
    (s.setRefcount obj n).stream = s.stream := rfl

@[simp] theorem setRefcount_allocator_key (s : Clients) (obj : Obj) (n : Nat) :
    (s.setRefcount obj n).allocator obj.key = (s.allocator obj.key).setRefcount obj.id n := by
  simp [setRefcount]

@[simp] theorem refcount_setRefcount (s : Clients) (obj : Obj) (n : Nat) :
    (s.setRefcount obj n).refcount obj = n := by
  simp [setRefcount, refcount]

@[simp] theorem setRefcount_setRefcount (s : Clients) (obj : Obj) (n n' : Nat) :
    (s.setRefcount obj n).setRefcount obj n' = s.setRefcount obj n' := by
  simp [setRefcount, updateAllocator, Allocator.setRefcount]

/-- Writing back the `refcount` an object has changes nothing. -/
theorem setRefcount_refcount (s : Clients) (obj : Obj) : s.setRefcount obj (s.refcount obj) = s := by
  simp [setRefcount, updateAllocator, Allocator.setRefcount, refcount]

/-- A command is on a stream after `SerializeCommand` if it was there
before or is the one written on that client. -/
theorem mem_serializeCommand {s : Clients} {client c : Nat} {cmd cmd' : Command} :
    cmd' ∈ (s.serializeCommand client cmd).stream c ↔
      cmd' ∈ s.stream c ∨ c = client ∧ cmd' = cmd := by
  by_cases hc : c = client
  · subst hc
    simp [or_comm]
  · simp [Function.update_noteq hc, hc]

/-- A stream that one command was appended to is not the stream it was. -/
theorem stream_ne_append {s s' : Clients} (h : s'.stream = s.stream) (c : Nat) (cmd : Command) :
    s'.stream c ≠ s.stream c ++ [cmd] := fun he => by
  simpa [h] using congrArg List.length he

/-- The command that writing `cmd₀` on `c₀` appends to a stream is `cmd₀`,
on `c₀`. -/
theorem appended_serializeCommand {s s₁ : Clients} (h : s₁.stream = s.stream) {c₀ c : Nat}
    {cmd₀ cmd : Command} (he : (s₁.serializeCommand c₀ cmd₀).stream c = s.stream c ++ [cmd]) :
    c = c₀ ∧ cmd = cmd₀ := by
  by_cases hc : c = c₀
  · subst hc
    simp only [serializeCommand_stream, Function.update_same, h, List.append_cancel_left_eq,
      List.cons.injEq, and_true] at he
    exact ⟨rfl, he.symm⟩
  · rw [serializeCommand_stream, Function.update_noteq hc] at he
    exact absurd he (stream_ne_append h c cmd)

end Clients

/-! ## The procedures -/

/-- `OperatorArray::Size`, the handwritten body: it serializes
`OperatorArraySizeCmd` with the id of `this` on its client.  The
`DAWN_ASSERT(0)` after it is a no-op outside debug builds, and it returns
0. -/
def operatorArraySize (s : Clients) (self : Obj) : Clients × Result :=
  (s.serializeCommand self.client (.operatorArraySize self), .empty)

/-- `Client{{Suffix}}`, the procedure generated for a method.  When an
argument belongs to another client it serializes nothing: a method that
returns an object returns an allocation the server never hears of, and
any other returns nothing.  Otherwise it runs the handwritten body, or
pre-allocates the result and serializes the command on `self->client`. -/
def clientMethod (s : Clients) (m : Method) (self : Obj) (args : List Arg) : Clients × Result :=
  if sameClient self.client args then
    if m.handwritten then operatorArraySize s self
    else
      match m.returnType with
      | .object type =>
        let allocation := s.new self.client type
        ((allocation.1.serializeCommand self.client
            (.method m.suffix self args (some (allocation.2, allocation.1.generation allocation.2)))),
          .object allocation.2)
      | _ => (s.serializeCommand self.client (.method m.suffix self args none), .empty)
  else
    match m.returnType with
    | .object type =>
      let allocation := s.new self.client type
      (allocation.1, .object allocation.2)
    | _ => (s, .empty)

/-- `ClientCreateGraphBuilder`: allocate a graph builder on the context's
client and serialize `CreateGraphBuilderCmd` with its handle and the id of
the context. -/
def clientCreateGraphBuilder (s : Clients) (context : Obj) : Clients × Obj :=
  let allocation := s.new context.client "GraphBuilder"
  (allocation.1.serializeCommand context.client
      (.createGraphBuilder (allocation.2, allocation.1.generation allocation.2) context),
    allocation.2)

/-- `Client{{Type}}Release`: decrement `refcount`; when it reaches 0,
serialize `DestroyObjectCmd` with the object's type and id on its client,
and `Free` it. -/
def clientRelease (s : Clients) (obj : Obj) : Clients :=
  let s₁ := s.setRefcount obj (s.refcount obj - 1)
  if s₁.refcount obj > 0 then s₁
  else (s₁.serializeCommand obj.client (.destroyObject obj.type obj.id)).free obj

/-- `Client{{Type}}Reference`: increment `refcount`. -/
def clientReference (s : Clients) (obj : Obj) : Clients :=
  s.setRefcount obj (s.refcount obj + 1)

/-! ## The outcomes of each procedure -/

/-- The five outcomes of `Client{{Suffix}}`: on a foreign argument, an
allocation only or nothing; otherwise the handwritten body, or the
pre-allocation and the command, or the command alone. -/
theorem clientMethod_cases (s : Clients) (m : Method) (self : Obj) (args : List Arg) :
    (sameClient self.client args = false ∧
      ((∃ type, m.returnType = .object type ∧
          clientMethod s m self args = ((s.new self.client type).1, .object (s.new self.client type).2)) ∨
        (m.returnType = .void ∨ m.returnType = .value) ∧ clientMethod s m self args = (s, .empty))) ∨
    (sameClient self.client args = true ∧
      (clientMethod s m self args = operatorArraySize s self ∨
        (∃ type, clientMethod s m self args =
          (((s.new self.client type).1.serializeCommand self.client
            (.method m.suffix self args
              (some ((s.new self.client type).2,
                (s.new self.client type).1.generation (s.new self.client type).2)))),
            .object (s.new self.client type).2)) ∨
        clientMethod s m self args =
          (s.serializeCommand self.client (.method m.suffix self args none), .empty))) := by
  unfold clientMethod
  cases sameClient self.client args
  · refine .inl ⟨rfl, ?_⟩
    cases m.returnType with
    | object type => exact .inl ⟨type, rfl, rfl⟩
    | void => exact .inr ⟨.inl rfl, rfl⟩
    | value => exact .inr ⟨.inr rfl, rfl⟩
  · refine .inr ⟨rfl, ?_⟩
    cases m.handwritten
    · cases m.returnType with
      | object type => exact .inr (.inl ⟨type, rfl⟩)
      | void => exact .inr (.inr rfl)
      | value => exact .inr (.inr rfl)
    · exact .inl rfl

/-- A rejected call of a method that returns an object only allocates it. -/
theorem clientMethod_of_rejected {s : Clients} {m : Method} {self : Obj} {args : List Arg}
    (hfalse : sameClient self.client args = false) {type : String}
    (htype : m.returnType = .object type) :
    clientMethod s m self args = ((s.new self.client type).1, .object (s.new self.client type).2) := by
  simp [clientMethod, hfalse, htype]

/-- The two outcomes of `Client{{Type}}Release`: a reference is still held,
or the last one is released. -/
theorem clientRelease_cases (s : Clients) (obj : Obj) :
    (1 < s.refcount obj ∧ clientRelease s obj = s.setRefcount obj (s.refcount obj - 1)) ∨
    (s.refcount obj ≤ 1 ∧ clientRelease s obj =
      ((s.setRefcount obj 0).serializeCommand obj.client (.destroyObject obj.type obj.id)).free obj) := by
  unfold clientRelease
  simp only [Clients.refcount_setRefcount]
  split
  next hpos => exact .inl ⟨by omega, rfl⟩
  next hzero => exact .inr ⟨by omega, by rw [show s.refcount obj - 1 = 0 by omega]⟩

end WebnnNative.Wire
