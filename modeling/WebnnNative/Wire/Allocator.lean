import Mathlib.Data.List.Nodup
import Mathlib.Logic.Function.Basic

/-!
# The object allocator of the wire client

Every `Client` holds one `ObjectAllocator` per object type, and the
generated code calls its `New` and `Free` and reads and writes the
`refcount` of its objects.  The allocator is not in the sources; this
file models it from the Object Registry of the spec (§4.1): a handle is
`{id, generation}`, `New` reuses a freed id or takes the next one with
generation 0, and `Free` makes the id reusable and bumps its generation.

* `Allocator.Inv` is what every allocator keeps: the free ids were handed
  out, appear once, and hold no live object.  `Inv.new`, `Inv.free` and
  `Inv.setRefcount` prove that the operations keep it.
* `Allocator.Keeps` says that a live object stays live with its
  generation; `New` and the writes of `refcount` keep every live object,
  and the last release every one but its own.  `Allocator.Origin` is the
  converse: an object live after an operation was live before with its
  generation, or is the new one.
* `Allocator.Issued` says that a handle was handed out.  `Issued.new`
  and `Issued.free` prove that it stays so, and `not_issued_new` that
  `New` returns a handle that was never handed out before: the fact that
  the wire's freshness results rest on.  By `Issued.lt_of_not_issued`
  it is also newer than every handle handed out at its id.
-/

namespace WebnnNative.Wire

/-- Modelled from the spec: the `ObjectAllocator` of one object type of one
client.  Ids below `currentId` have been handed out; `freeIds` is the
stack of ids that `Free` made reusable; `generation` is the stored
generation of each id; `refcount` is the `refcount` field of the object
that lives at each id.

The spec's handle is `{id: u32, generation: u32}`, and it does not say what
happens to an id at the largest generation.  Ids and generations here are
unbounded: the model assumes that no id is freed `2 ^ 32` times, so that no
generation wraps and no id is handed out twice with one generation. -/
structure Allocator where
  currentId : Nat
  freeIds : List Nat
  generation : Nat → Nat
  refcount : Nat → Nat

namespace Allocator

/-- A fresh allocator: the first handle it hands out is `{id: 1, gen: 0}`. -/
def empty : Allocator := ⟨1, [], fun _ => 0, fun _ => 0⟩

/-- Modelled from the spec: `New`.  It pops the last freed id and keeps its
stored generation, or takes `currentId` with generation 0.  The new
object starts with a `refcount` of 1.  It returns the id. -/
def new (a : Allocator) : Allocator × Nat :=
  match a.freeIds with
  | id :: rest => ({ a with freeIds := rest, refcount := Function.update a.refcount id 1 }, id)
  | [] =>
    ({ a with currentId := a.currentId + 1,
              generation := Function.update a.generation a.currentId 0,
              refcount := Function.update a.refcount a.currentId 1 }, a.currentId)

/-- Modelled from the spec: `Free`.  The id becomes reusable and its stored
generation is bumped for the next allocation. -/
def free (a : Allocator) (id : Nat) : Allocator :=
  { a with freeIds := id :: a.freeIds,
           generation := Function.update a.generation id (a.generation id + 1) }

/-- Write the `refcount` of the object at an id. -/
def setRefcount (a : Allocator) (id n : Nat) : Allocator :=
  { a with refcount := Function.update a.refcount id n }

@[simp] theorem setRefcount_currentId (a : Allocator) (id n : Nat) :
    (a.setRefcount id n).currentId = a.currentId := rfl

@[simp] theorem setRefcount_freeIds (a : Allocator) (id n : Nat) :
    (a.setRefcount id n).freeIds = a.freeIds := rfl

@[simp] theorem setRefcount_generation (a : Allocator) (id n : Nat) :
    (a.setRefcount id n).generation = a.generation := rfl

@[simp] theorem setRefcount_refcount (a : Allocator) (id n : Nat) :
    (a.setRefcount id n).refcount = Function.update a.refcount id n := rfl

@[simp] theorem free_currentId (a : Allocator) (id : Nat) :
    (a.free id).currentId = a.currentId := rfl

@[simp] theorem free_freeIds (a : Allocator) (id : Nat) :
    (a.free id).freeIds = id :: a.freeIds := rfl

@[simp] theorem free_generation (a : Allocator) (id : Nat) :
    (a.free id).generation = Function.update a.generation id (a.generation id + 1) := rfl

@[simp] theorem free_refcount (a : Allocator) (id : Nat) :
    (a.free id).refcount = a.refcount := rfl

/-- The new object is live. -/
@[simp] theorem new_refcount (a : Allocator) : a.new.1.refcount a.new.2 = 1 := by
  unfold new
  split <;> simp

/-! ## The allocator invariant -/

/-- What every allocator keeps: the free ids were handed out, appear once,
and hold no live object, and a live object's id was handed out. -/
structure Inv (a : Allocator) : Prop where
  free_lt : ∀ id ∈ a.freeIds, id < a.currentId
  nodup : a.freeIds.Nodup
  free_dead : ∀ id ∈ a.freeIds, a.refcount id = 0
  live_lt : ∀ id, 0 < a.refcount id → id < a.currentId

theorem Inv.empty : Allocator.empty.Inv :=
  ⟨by simp [Allocator.empty], by simp [Allocator.empty], by simp [Allocator.empty],
    by simp [Allocator.empty]⟩

/-- A live object's id is not free. -/
theorem Inv.not_mem_freeIds {a : Allocator} (h : a.Inv) {id : Nat} (hlive : 0 < a.refcount id) :
    id ∉ a.freeIds := fun hmem => by simp [h.free_dead id hmem] at hlive

theorem Inv.new {a : Allocator} (h : a.Inv) : a.new.1.Inv := by
  cases hf : a.freeIds with
  | cons id rest =>
    have hnd := h.nodup
    rw [hf, List.nodup_cons] at hnd
    simp only [Allocator.new, hf]
    refine ⟨fun i hi => h.free_lt i (by simp [hf, hi]), hnd.2, fun i hi => ?_, fun i hi => ?_⟩
    all_goals dsimp only at hi ⊢
    · rw [Function.update_noteq (by rintro rfl; exact hnd.1 hi)]
      exact h.free_dead i (by simp [hf, hi])
    · by_cases hi' : i = id
      · exact hi' ▸ h.free_lt id (by simp [hf])
      · exact h.live_lt i (by simpa [Function.update_noteq hi'] using hi)
  | nil =>
    simp only [Allocator.new, hf]
    refine ⟨by simp, by simp, by simp, fun i hi => ?_⟩
    dsimp only at hi ⊢
    by_cases hi' : i = a.currentId
    · omega
    · have := h.live_lt i (by simpa [Function.update_noteq hi'] using hi)
      omega

/-- `Free` of an id that was handed out, is not free, and holds no live
object keeps the invariant. -/
theorem Inv.free {a : Allocator} (h : a.Inv) {id : Nat} (hlt : id < a.currentId)
    (hnot : id ∉ a.freeIds) (hdead : a.refcount id = 0) : (a.free id).Inv where
  free_lt i hi := by
    rcases List.mem_cons.1 hi with rfl | hi
    · exact hlt
    · exact h.free_lt i hi
  nodup := List.nodup_cons.2 ⟨hnot, h.nodup⟩
  free_dead i hi := by
    rcases List.mem_cons.1 hi with rfl | hi
    · exact hdead
    · exact h.free_dead i hi
  live_lt := h.live_lt

/-- Writing the `refcount` of a live object keeps the invariant. -/
theorem Inv.setRefcount {a : Allocator} (h : a.Inv) {id : Nat} (hlive : 0 < a.refcount id)
    (n : Nat) : (a.setRefcount id n).Inv where
  free_lt := h.free_lt
  nodup := h.nodup
  free_dead i hi := by
    have hne : i ≠ id := fun e => h.not_mem_freeIds hlive (e ▸ hi)
    simpa [Function.update_noteq hne] using h.free_dead i hi
  live_lt i hi := by
    by_cases hi' : i = id
    · exact hi' ▸ h.live_lt id hlive
    · exact h.live_lt i (by simpa [Function.update_noteq hi'] using hi)

/-! ## Handles that were handed out -/

/-- The handle `{id, gen}` was handed out: the id was, the generation is
at most the stored one, and below it once the id is free again. -/
def Issued (a : Allocator) (id gen : Nat) : Prop :=
  id < a.currentId ∧ gen ≤ a.generation id ∧ (id ∈ a.freeIds → gen < a.generation id)

@[simp] theorem issued_setRefcount (a : Allocator) (i n id gen : Nat) :
    (a.setRefcount i n).Issued id gen ↔ a.Issued id gen := Iff.rfl

/-- The handle that `New` returns, with its stored generation, was handed
out. -/
theorem Inv.issued_new {a : Allocator} (h : a.Inv) :
    a.new.1.Issued a.new.2 (a.new.1.generation a.new.2) := by
  cases hf : a.freeIds with
  | cons id rest =>
    have hnd := h.nodup
    rw [hf, List.nodup_cons] at hnd
    simp only [Allocator.new, hf, Issued]
    exact ⟨h.free_lt id (by simp [hf]), le_rfl, fun hmem => absurd hmem hnd.1⟩
  | nil => simp [Allocator.new, hf, Issued]

/-- A live object's handle, at its stored generation, was handed out. -/
theorem Inv.issued_of_live {a : Allocator} (h : a.Inv) {id : Nat} (hlive : 0 < a.refcount id) :
    a.Issued id (a.generation id) :=
  ⟨h.live_lt id hlive, le_rfl, fun hmem => absurd hmem (h.not_mem_freeIds hlive)⟩

/-- `New` never returns a handle that was handed out before. -/
theorem not_issued_new (a : Allocator) :
    ¬ a.Issued a.new.2 (a.new.1.generation a.new.2) := by
  cases hf : a.freeIds with
  | cons id rest => simp [Allocator.new, hf, Issued]
  | nil => simp [Allocator.new, hf, Issued]

/-- The generations handed out at an id are the ones below a bound: a
handle that was handed out is older than every one that was not. -/
theorem Issued.lt_of_not_issued {a : Allocator} {id gen gen' : Nat} (hi : a.Issued id gen)
    (hnot : ¬ a.Issued id gen') : gen < gen' := by
  obtain ⟨hlt, hle, hfree⟩ := hi
  by_contra hge
  exact hnot ⟨hlt, by omega, fun hmem => by have := hfree hmem; omega⟩

/-- A handle that was handed out stays so after `New`. -/
theorem Issued.new {a : Allocator} {id gen : Nat} (hi : a.Issued id gen) :
    a.new.1.Issued id gen := by
  obtain ⟨hlt, hle, hfree⟩ := hi
  cases hf : a.freeIds with
  | cons i rest =>
    simp only [Allocator.new, hf, Issued]
    exact ⟨hlt, hle, fun hmem => hfree (by simp [hf, hmem])⟩
  | nil =>
    have hne : id ≠ a.currentId := by omega
    simp only [Allocator.new, hf, Issued, Function.update_noteq hne]
    exact ⟨by omega, hle, by simp⟩

/-- A handle that was handed out stays so after `Free`. -/
theorem Issued.free {a : Allocator} {id gen : Nat} (hi : a.Issued id gen) (i : Nat) :
    (a.free i).Issued id gen := by
  obtain ⟨hlt, hle, hfree⟩ := hi
  by_cases hid : id = i
  · subst hid
    exact ⟨hlt, by simp; omega, fun _ => by simp; omega⟩
  · refine ⟨hlt, by simpa [Function.update_noteq hid] using hle, fun hmem => ?_⟩
    simpa [Function.update_noteq hid] using hfree (by simpa [hid] using hmem)

/-! ## Live objects -/

/-- The object at `id`, if live, stays live with its generation. -/
def Keeps (a a' : Allocator) (id : Nat) : Prop :=
  0 < a.refcount id → 0 < a'.refcount id ∧ a'.generation id = a.generation id

/-- `New` hands out an id that holds no live object. -/
theorem Inv.refcount_new {a : Allocator} (h : a.Inv) : a.refcount a.new.2 = 0 := by
  cases hf : a.freeIds with
  | cons i rest => simpa [Allocator.new, hf] using h.free_dead i (by simp [hf])
  | nil =>
    simp only [Allocator.new, hf]
    by_contra hne
    exact lt_irrefl _ (h.live_lt _ (Nat.pos_of_ne_zero hne))

/-- `New` keeps every live object. -/
theorem Inv.keeps_new {a : Allocator} (h : a.Inv) (id : Nat) : a.Keeps a.new.1 id := by
  intro hlive
  have hne : id ≠ a.new.2 := fun he => by simp [he, h.refcount_new] at hlive
  cases hf : a.freeIds <;> simp only [Allocator.new, hf] at hne ⊢ <;>
    simp [Function.update_noteq hne, hlive]

/-- Writing a positive `refcount` keeps every live object. -/
theorem keeps_setRefcount (a : Allocator) {i n : Nat} (hn : 0 < n) (id : Nat) :
    a.Keeps (a.setRefcount i n) id := fun hlive => by
  by_cases hid : id = i
  · simp [hid, hn]
  · simp [Function.update_noteq hid, hlive]

/-- The last release keeps every live object but its own. -/
theorem keeps_free (a : Allocator) {i id : Nat} (hne : id ≠ i) (n : Nat) :
    a.Keeps ((a.setRefcount i n).free i) id := fun hlive => by
  simp [Function.update_noteq hne, hlive]

/-- The object at `id`, if live after, was live before with the same
generation, or has a handle that was not handed out before. -/
def Origin (a a' : Allocator) (id : Nat) : Prop :=
  0 < a'.refcount id →
    (0 < a.refcount id ∧ a'.generation id = a.generation id) ∨ ¬ a.Issued id (a'.generation id)

/-- `New` makes live only the object it hands out, under a new handle. -/
theorem origin_new (a : Allocator) (id : Nat) : a.Origin a.new.1 id := fun hlive => by
  by_cases hid : id = a.new.2
  · exact .inr (hid ▸ not_issued_new a)
  · refine .inl ?_
    cases hf : a.freeIds <;> simp only [Allocator.new, hf] at hid hlive ⊢ <;>
      simpa [Function.update_noteq hid] using hlive

/-- Writing the `refcount` of a live object makes no other object live. -/
theorem origin_setRefcount (a : Allocator) {i n : Nat} (hi : 0 < a.refcount i) (id : Nat) :
    a.Origin (a.setRefcount i n) id := fun hlive => by
  by_cases hid : id = i
  · exact .inl ⟨hid ▸ hi, rfl⟩
  · exact .inl ⟨by simpa [Function.update_noteq hid] using hlive, rfl⟩

/-- The last release makes no object live. -/
theorem origin_free (a : Allocator) (i id : Nat) : a.Origin ((a.setRefcount i 0).free i) id :=
  fun hlive => by
    by_cases hid : id = i
    · simp [hid] at hlive
    · exact .inl ⟨by simpa [Function.update_noteq hid] using hlive,
        by simp [Function.update_noteq hid]⟩

end Allocator

end WebnnNative.Wire
