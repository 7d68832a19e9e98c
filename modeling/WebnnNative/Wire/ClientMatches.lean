import Mathlib.Data.List.Basic

/-!
# The same-client check of the wire client

`webnn_wire/client/ApiProcs.cpp` generates one `ClientMatches` overload
per object type and per structure type that may hold an object.  A
generated `Client{{Suffix}}` calls them on every argument before it
serializes anything.  This file models the recursion as one mutual
definition over the shape of the argument.

* `Arg` is the shape of an argument or a member: an object, an array of
  objects, a structure, an array of structures, a `nullptr` optional, or a
  member the template emits no check for.
* `clientMatches`, `membersMatch` and `elemsMatch` are the overloads.
  `sameClient` is the `do { ... } while (false)` block of the method.
* `Arg.objs` lists every object reachable from an argument.
  `clientMatches_iff` and `sameClient_iff` prove that the recursion
  accepts exactly when every reachable object belongs to the client.

The object array and structure array overloads take their length as a
`uint32_t`; a list here is the `count` elements that the loop reads.  The
`nextInChain` check of an extensible structure is not modelled: the
overload it calls, on the pointer to a chained structure, is not in the
sources, nor is the API description that says which structures are
extensible.
-/

namespace WebnnNative.Wire

/-- A client object, as the generated code sees it through
`reinterpret_cast`: the `Client` it belongs to, its object type, and its
id in that type's allocator. -/
structure Obj where
  client : Nat
  type : String
  id : Nat
  deriving DecidableEq, Repr

/-- The allocator of an object: its client and its type. -/
def Obj.key (obj : Obj) : Nat × String := (obj.client, obj.type)

/-- An object is known by its allocator and its id. -/
theorem Obj.eq_of_key_of_id {obj obj' : Obj} (hkey : obj.key = obj'.key) (hid : obj.id = obj'.id) :
    obj = obj' := by
  cases obj
  cases obj'
  simp only [Obj.key, Prod.mk.injEq] at hkey hid
  simp [hkey, hid]

/-- An argument of a generated method, or a member of a structure, in the
shape that selects the `ClientMatches` overload the template calls. -/
inductive Arg where
  /-- An object by value: `ClientMatches(client, obj)`. -/
  | object (obj : Obj)
  /-- A `const*` object member with its length. -/
  | objects (objs : List Obj)
  /-- A structure that may hold an object, by value. -/
  | struct (members : List Arg)
  /-- A `const*` structure member with its length. -/
  | structs (elems : List (List Arg))
  /-- An optional argument or member that is `nullptr`: it is skipped. -/
  | null
  /-- A member that is no object and holds none: no check is emitted. -/
  | plain
  deriving Repr

/-- `ClientMatches(client, obj)` on one object. -/
def objectMatches (client : Nat) (obj : Obj) : Bool := client == obj.client

/-- `ClientMatches(client, obj, count)` on an object array: `false` at the
first element that does not match. -/
def objectsMatch (client : Nat) : List Obj → Bool
  | [] => true
  | o :: os => objectMatches client o && objectsMatch client os

mutual

/-- `ClientMatches` on one argument or member, by the overload its shape
selects. -/
def clientMatches (client : Nat) : Arg → Bool
  | .object obj => objectMatches client obj
  | .objects objs => objectsMatch client objs
  | .struct members => membersMatch client members
  | .structs elems => elemsMatch client elems
  | .null => true
  | .plain => true

/-- The member loop of `ClientMatches(client, const T&)`: `return false`
at the first member that does not match. -/
def membersMatch (client : Nat) : List Arg → Bool
  | [] => true
  | m :: ms => clientMatches client m && membersMatch client ms

/-- `ClientMatches(client, obj, count)` on a structure array. -/
def elemsMatch (client : Nat) : List (List Arg) → Bool
  | [] => true
  | e :: es => membersMatch client e && elemsMatch client es

end

/-- The guard of `Client{{Suffix}}`: the `do { ... } while (false)` block
walks the arguments as the member loop walks members, and `break`s with
`sameClient = false` at the first one that does not match.  A method
without arguments has no guard, which is the empty walk. -/
def sameClient (client : Nat) (args : List Arg) : Bool := membersMatch client args

mutual

/-- The objects reachable from an argument. -/
def Arg.objs : Arg → List Obj
  | .object obj => [obj]
  | .objects objs => objs
  | .struct members => membersObjs members
  | .structs elems => elemsObjs elems
  | .null => []
  | .plain => []

/-- The objects reachable from a list of members or arguments. -/
def membersObjs : List Arg → List Obj
  | [] => []
  | m :: ms => m.objs ++ membersObjs ms

/-- The objects reachable from the elements of a structure array. -/
def elemsObjs : List (List Arg) → List Obj
  | [] => []
  | e :: es => membersObjs e ++ elemsObjs es

end

/-! ## The recursion accepts exactly the same-client arguments -/

theorem objectsMatch_iff (client : Nat) :
    ∀ objs : List Obj, objectsMatch client objs = true ↔ ∀ o ∈ objs, o.client = client
  | [] => by simp [objectsMatch]
  | o :: os => by
    simp [objectsMatch, objectMatches, objectsMatch_iff client os, @eq_comm _ client]

mutual

theorem clientMatches_iff (client : Nat) :
    ∀ a : Arg, clientMatches client a = true ↔ ∀ o ∈ a.objs, o.client = client
  | .object obj => by simp [clientMatches, objectMatches, Arg.objs, @eq_comm _ client]
  | .objects objs => objectsMatch_iff client objs
  | .struct members => membersMatch_iff client members
  | .structs elems => elemsMatch_iff client elems
  | .null => by simp [clientMatches, Arg.objs]
  | .plain => by simp [clientMatches, Arg.objs]

theorem membersMatch_iff (client : Nat) :
    ∀ ms : List Arg, membersMatch client ms = true ↔ ∀ o ∈ membersObjs ms, o.client = client
  | [] => by simp [membersMatch, membersObjs]
  | m :: ms => by
    simp only [membersMatch, membersObjs, Bool.and_eq_true, clientMatches_iff client m,
      membersMatch_iff client ms, List.mem_append, or_imp, forall_and]

theorem elemsMatch_iff (client : Nat) :
    ∀ es : List (List Arg), elemsMatch client es = true ↔ ∀ o ∈ elemsObjs es, o.client = client
  | [] => by simp [elemsMatch, elemsObjs]
  | e :: es => by
    simp only [elemsMatch, elemsObjs, Bool.and_eq_true, membersMatch_iff client e,
      elemsMatch_iff client es, List.mem_append, or_imp, forall_and]

end

/-- The guard passes exactly when every object reachable from the arguments
belongs to the client. -/
theorem sameClient_iff (client : Nat) (args : List Arg) :
    sameClient client args = true ↔ ∀ o ∈ membersObjs args, o.client = client :=
  membersMatch_iff client args

end WebnnNative.Wire
