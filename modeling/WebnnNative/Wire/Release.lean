import WebnnNative.Wire.Client

/-!
# Reference counting of a client object

`Client{{Type}}Reference` and `Client{{Type}}Release` count the references
to a client object.  The object starts at a `refcount` of 1, and the
release that brings it to 0 tells the server and frees the id.  This file
follows one object through any sequence of the two calls that never
releases a reference it does not hold.

* `clientReference_held`, `clientRelease_held` and
  `clientRelease_last` say what one call does to an object that is held:
  the first two only move `refcount`, and the last release writes one
  `DestroyObjectCmd` and calls `Free` once.
* `runRefCalls_held` is the run lemma: while some reference is held, the
  clients are the starting ones with `refcount = 1 + references -
  releases`.
* `release_frees_once` adds the last release.
-/

namespace WebnnNative.Wire

/-- A `Client{{Type}}Reference` or `Client{{Type}}Release` call. -/
inductive RefCall where
  | reference
  | release
  deriving DecidableEq

/-- The clients after one call on `obj`. -/
def RefCall.run (obj : Obj) (s : Clients) : RefCall → Clients
  | .reference => clientReference s obj
  | .release => clientRelease s obj

/-- The clients after a sequence of calls on `obj`. -/
def runRefCalls (obj : Obj) (s : Clients) (calls : List RefCall) : Clients :=
  calls.foldl (RefCall.run obj) s

theorem runRefCalls_append_singleton (obj : Obj) (s : Clients) (calls : List RefCall)
    (call : RefCall) :
    runRefCalls obj s (calls ++ [call]) = call.run obj (runRefCalls obj s calls) :=
  List.foldl_append _ _ _ _

/-! ## One call on a held object -/

section Held

variable (s : Clients) (obj : Obj)

theorem clientReference_held (k : Nat) :
    clientReference (s.setRefcount obj k) obj = s.setRefcount obj (k + 1) := by
  simp [clientReference]

theorem clientRelease_held {k : Nat} (hk : 1 < k) :
    clientRelease (s.setRefcount obj k) obj = s.setRefcount obj (k - 1) := by
  simp only [clientRelease, Clients.refcount_setRefcount, Clients.setRefcount_setRefcount]
  rw [if_pos (by omega)]

/-- The release of the last reference. -/
theorem clientRelease_last :
    clientRelease (s.setRefcount obj 1) obj =
      ((s.setRefcount obj 0).serializeCommand obj.client (.destroyObject obj.type obj.id)).free obj := by
  simp [clientRelease]

end Held

/-! ## Whole sequences -/

theorem counts_append_reference (calls : List RefCall) :
    (calls ++ [RefCall.reference]).count .reference = calls.count .reference + 1 ∧
      (calls ++ [RefCall.reference]).count .release = calls.count .release := by
  simp [List.count_append]

theorem counts_append_release (calls : List RefCall) :
    (calls ++ [RefCall.release]).count .reference = calls.count .reference ∧
      (calls ++ [RefCall.release]).count .release = calls.count .release + 1 := by
  simp [List.count_append]

/-- The prefixes of `calls ++ [call]` that stop before `call` are the
prefixes of `calls`. -/
theorem held_of_append_singleton {calls : List RefCall} {call : RefCall}
    (hheld : ∀ n < (calls ++ [call]).length,
      ((calls ++ [call]).take n).count .release < 1 + ((calls ++ [call]).take n).count .reference) :
    ∀ n ≤ calls.length, (calls.take n).count .release < 1 + (calls.take n).count .reference :=
  fun n hn => by simpa [List.take_append_of_le_length hn] using hheld n (by simp; omega)

/-- While a reference is held, the calls only move `refcount`, to
`1 + references - releases`. -/
theorem runRefCalls_held (s : Clients) (obj : Obj) (h1 : s.refcount obj = 1) :
    ∀ calls : List RefCall,
      (∀ n ≤ calls.length,
        (calls.take n).count .release < 1 + (calls.take n).count .reference) →
      runRefCalls obj s calls =
        s.setRefcount obj (1 + calls.count .reference - calls.count .release) := by
  intro calls
  induction calls using List.reverseRecOn with
  | nil => intro _; simp [runRefCalls, ← h1, Clients.setRefcount_refcount]
  | append_singleton calls call ih =>
    intro hheld
    have hprefix := held_of_append_singleton fun n hn => hheld n hn.le
    have hlast := hheld (calls.length + 1) (by simp)
    have hcalls := hprefix calls.length le_rfl
    rw [List.take_of_length_le (by simp)] at hlast
    rw [List.take_length] at hcalls
    rw [runRefCalls_append_singleton, ih hprefix]
    cases call with
    | reference =>
      obtain ⟨href, hrel⟩ := counts_append_reference calls
      rw [href, hrel, RefCall.run, clientReference_held]
      exact congrArg _ (by omega)
    | release =>
      obtain ⟨href, hrel⟩ := counts_append_release calls
      rw [href, hrel] at hlast
      rw [href, hrel, RefCall.run, clientRelease_held _ _ (by omega)]
      exact congrArg _ (by omega)

theorem release_frees_once (s : Clients) (obj : Obj) (h1 : s.refcount obj = 1)
    (calls : List RefCall)
    (hheld : ∀ n < calls.length,
      (calls.take n).count .release < 1 + (calls.take n).count .reference) :
    (calls.count .release < 1 + calls.count .reference →
      (runRefCalls obj s calls).refcount obj = 1 + calls.count .reference - calls.count .release ∧
      runRefCalls obj s calls =
        s.setRefcount obj (1 + calls.count .reference - calls.count .release)) ∧
    (calls.count .release = 1 + calls.count .reference →
      runRefCalls obj s calls =
        ((s.setRefcount obj 0).serializeCommand obj.client
          (.destroyObject obj.type obj.id)).free obj) := by
  refine ⟨fun h => ?_, fun h => ?_⟩
  · have heq := runRefCalls_held s obj h1 calls fun n hn => by
      rcases Nat.lt_or_ge n calls.length with hlt | hge
      · exact hheld n hlt
      · rwa [List.take_of_length_le hge]
    exact ⟨by rw [heq, Clients.refcount_setRefcount], heq⟩
  · obtain ⟨init, call, rfl⟩ : ∃ init call, calls = init ++ [call] := by
      rcases List.eq_nil_or_concat calls with rfl | ⟨init, call, rfl⟩
      · simp at h
      · exact ⟨init, call, List.concat_eq_append _ _⟩
    have hinit := held_of_append_singleton hheld
    have hlast := hinit init.length le_rfl
    rw [List.take_length] at hlast
    rw [runRefCalls_append_singleton, runRefCalls_held s obj h1 init hinit]
    cases call with
    | reference =>
      obtain ⟨href, hrel⟩ := counts_append_reference init
      omega
    | release =>
      obtain ⟨href, hrel⟩ := counts_append_release init
      rw [show 1 + init.count .reference - init.count .release = 1 by omega]
      exact clientRelease_last s obj

/-- A new builder, referenced once and released twice: the second release
destroys and frees it. -/
theorem new_builder_second_release :
    runRefCalls (Clients.empty.new 1 "GraphBuilder").2 (Clients.empty.new 1 "GraphBuilder").1
        [.reference, .release, .release] =
      (((Clients.empty.new 1 "GraphBuilder").1.setRefcount (Clients.empty.new 1 "GraphBuilder").2 0
        ).serializeCommand 1 (.destroyObject "GraphBuilder" 1)).free
          (Clients.empty.new 1 "GraphBuilder").2 :=
  (release_frees_once _ _ (by simp [Clients.refcount]) [.reference, .release, .release]
    (by decide)).2 (by decide)

end WebnnNative.Wire
