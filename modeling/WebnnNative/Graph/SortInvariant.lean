import Mathlib.Data.List.Nodup
import WebnnNative.Graph.TopologicalSort

/-!
# The invariant of the sort loop

`SortStep` says what one iteration of `TopologicalSort` can do: pop a node
that is done, add a node whose producers are all done, or expand a node by
pushing its producers that are not done.  It carries one more list, `P`, of
the nodes that have been expanded and are not done yet.  The code keeps no
such list: `P` exists only in the proofs.

`SortInv` is the invariant of the loop.  Its fields come in three groups.

* The emitted list: `nodesDone` is `result` reversed, `result` has no
  duplicate, it is in topological order (`topo`), and everything in it is
  reachable from the roots.
* The stack: everything on it is reachable, and the producer of each root is
  on the stack or emitted.
* The open nodes: a node of `P` is not done, and it sits on the stack below
  nodes that were created after it only (`open_frame`), with each of its
  producers emitted or above it.

`SortInv.step` proves that every iteration keeps the invariant, from one
lemma per kind of iteration (`step_pop`, `step_add`, `step_expand`), and
`SortInv.exists_step` that an iteration from a state with the invariant
never faults and is a `SortStep`.  The open nodes are what makes the second
proof go through: the node on top is never open when it is expanded,
because an open node on top has all its producers done.
-/

namespace WebnnNative

/-- One iteration of the sort, with the list of open nodes before and after it. -/
inductive SortStep (g : Graph) : SortState → List Nat → SortState → List Nat → Prop
  | pop {s : SortState} {P : List Nat} {t : Nat} {rest : List Nat} :
      s.nodesToDo = t :: rest → t ∈ s.result →
      SortStep g s P { s with nodesToDo := rest } P
  | add {s : SortState} {P : List Nat} {t : Nat} {rest : List Nat} :
      s.nodesToDo = t :: rest → t ∉ s.result → (∀ d ∈ g.deps t, d ∈ s.result) →
      SortStep g s P ⟨rest, t :: s.nodesDone, s.result ++ [t]⟩ (P.filter (· ≠ t))
  | expand {s : SortState} {P : List Nat} {t : Nat} {rest : List Nat} :
      s.nodesToDo = t :: rest → t ∉ s.result → t ∉ P → (∃ d ∈ g.deps t, d ∉ s.result) →
      SortStep g s P
        { s with nodesToDo := ((g.deps t).filter (· ∉ s.nodesDone)).reverse ++ s.nodesToDo }
        (t :: P)

/-- The invariant of the sort loop, with `P` the open nodes. -/
structure SortInv (g : Graph) (roots : List Operand) (s : SortState) (P : List Nat) : Prop where
  done_eq : s.nodesDone = s.result.reverse
  nodup : s.result.Nodup
  topo : ∀ l₁ v l₂, s.result = l₁ ++ v :: l₂ → ∀ d ∈ g.deps v, d ∈ l₁
  reach_result : ∀ v ∈ s.result, Reaches g roots v
  reach_stack : ∀ v ∈ s.nodesToDo, Reaches g roots v
  roots_seen : ∀ r ∈ roots, ∀ v, r.operator = some v → v ∈ s.nodesToDo ∨ v ∈ s.result
  open_not_done : ∀ p ∈ P, p ∉ s.result
  open_frame : ∀ p ∈ P, ∃ above below, s.nodesToDo = above ++ p :: below ∧
    (∀ x ∈ above, x < p) ∧ ∀ d ∈ g.deps p, d ∈ s.result ∨ d ∈ above

/-- The state after the first `for` loop, when no root is an error operand. -/
def initialSortState (roots : List Operand) : SortState :=
  ⟨(roots.filterMap Operand.operator).reverse, [], []⟩

/-- Appending `v` keeps the topological order when every producer of `v` is
already emitted. -/
theorem topo_snoc {g : Graph} {result : List Nat} {v : Nat}
    (htopo : ∀ l₁ u l₂, result = l₁ ++ u :: l₂ → ∀ d ∈ g.deps u, d ∈ l₁)
    (hv : ∀ d ∈ g.deps v, d ∈ result) :
    ∀ l₁ u l₂, result ++ [v] = l₁ ++ u :: l₂ → ∀ d ∈ g.deps u, d ∈ l₁ := by
  intro l₁ u l₂ h d hd
  rcases List.eq_nil_or_concat l₂ with rfl | ⟨l₂', w, rfl⟩
  · obtain ⟨rfl, hvu⟩ := List.append_inj' h rfl
    obtain rfl : v = u := by simpa using hvu
    exact hv d hd
  · rw [List.concat_eq_append, ← List.cons_append, ← List.append_assoc] at h
    exact htopo l₁ u l₂' (List.append_inj' h rfl).1 d hd

/-- A node on the stack or emitted is, once the top is popped and emitted, on
the rest of the stack or emitted. -/
private theorem mem_rest_or {stack rest R R' : List Nat} {t v : Nat} (hs : stack = t :: rest)
    (ht : t ∈ R') (hR : ∀ x ∈ R, x ∈ R') (hv : v ∈ stack ∨ v ∈ R) : v ∈ rest ∨ v ∈ R' := by
  rcases hv with hv | hv
  · rw [hs] at hv
    rcases List.mem_cons.1 hv with rfl | hv
    · exact .inr ht
    · exact .inl hv
  · exact .inr (hR v hv)

/-- The top of a stack that holds an open node is the open node itself, with
nothing above it, or a node of its frame, created before it. -/
private theorem frame_top {stack rest above below : List Nat} {t p : Nat}
    (hs : stack = t :: rest) (hstack : stack = above ++ p :: below) (hlt : ∀ x ∈ above, x < p) :
    (above = [] ∧ t = p) ∨ t < p := by
  cases above with
  | nil =>
    simp only [List.nil_append, hs, List.cons.injEq] at hstack
    exact .inl ⟨rfl, hstack.1⟩
  | cons a above' =>
    simp only [hs, List.cons_append, List.cons.injEq] at hstack
    exact .inr (hstack.1 ▸ hlt a (List.mem_cons_self _ _))

/-- A frame whose top is not the open node loses its top to a pop, and the
popped node joins the emitted nodes. -/
private theorem frame_pop {stack rest above below deps R R' : List Nat} {t p : Nat}
    (hs : stack = t :: rest) (hne : p ≠ t) (hstack : stack = above ++ p :: below)
    (hlt : ∀ x ∈ above, x < p) (hdeps : ∀ d ∈ deps, d ∈ R ∨ d ∈ above)
    (ht : t ∈ R') (hR : ∀ x ∈ R, x ∈ R') :
    ∃ above' below', rest = above' ++ p :: below' ∧ (∀ x ∈ above', x < p) ∧
      ∀ d ∈ deps, d ∈ R' ∨ d ∈ above' := by
  cases above with
  | nil => simp only [List.nil_append, hs, List.cons.injEq] at hstack; exact absurd hstack.1.symm hne
  | cons a above' =>
    simp only [hs, List.cons_append, List.cons.injEq] at hstack
    obtain ⟨rfl, rfl⟩ := hstack
    refine ⟨above', below, rfl, fun x hx => hlt x (List.mem_cons_of_mem _ hx), fun d hd => ?_⟩
    rcases hdeps d hd with h | h
    · exact .inl (hR d h)
    · rcases List.mem_cons.1 h with rfl | h
      · exact .inl ht
      · exact .inr h

namespace SortInv

variable {g : Graph} {roots : List Operand}

theorem mem_done {s : SortState} {P : List Nat} (h : SortInv g roots s P) {x : Nat} :
    x ∈ s.nodesDone ↔ x ∈ s.result := by
  rw [h.done_eq, List.mem_reverse]

/-- The state after the first `for` loop satisfies the invariant, with no open node. -/
theorem initial (g : Graph) (roots : List Operand) : SortInv g roots (initialSortState roots) [] where
  done_eq := rfl
  nodup := List.nodup_nil
  topo := fun l₁ v l₂ h => by simp [initialSortState] at h
  reach_result := fun _ h => absurd h (List.not_mem_nil _)
  reach_stack := fun v hv => by
    obtain ⟨r, hr, hop⟩ := List.mem_filterMap.1 (List.mem_reverse.1 hv)
    exact .root hr hop
  roots_seen := fun r hr v hv => .inl (List.mem_reverse.2 (List.mem_filterMap.2 ⟨r, hr, hv⟩))
  open_not_done := fun _ h => absurd h (List.not_mem_nil _)
  open_frame := fun _ h => absurd h (List.not_mem_nil _)

section Step

variable {s : SortState} {P : List Nat} {t : Nat} {rest : List Nat}
  (h : SortInv g roots s P) (hs : s.nodesToDo = t :: rest)
include h hs

/-- Popping a node that is done keeps the invariant. -/
theorem step_pop (ht : t ∈ s.result) : SortInv g roots { s with nodesToDo := rest } P where
  done_eq := h.done_eq
  nodup := h.nodup
  topo := h.topo
  reach_result := h.reach_result
  reach_stack v hv := h.reach_stack v (by simp [hs, hv])
  roots_seen r hr v hv := mem_rest_or hs ht (fun _ hx => hx) (h.roots_seen r hr v hv)
  open_not_done := h.open_not_done
  open_frame p hp := by
    obtain ⟨above, below, hstack, hlt, hdeps⟩ := h.open_frame p hp
    exact frame_pop hs (fun he => h.open_not_done p hp (he ▸ ht)) hstack hlt hdeps ht
      fun _ hx => hx

/-- Emitting a node whose producers are all done keeps the invariant; the node
is no longer open. -/
theorem step_add (ht : t ∉ s.result) (hall : ∀ d ∈ g.deps t, d ∈ s.result) :
    SortInv g roots ⟨rest, t :: s.nodesDone, s.result ++ [t]⟩ (P.filter (· ≠ t)) where
  done_eq := by simp [h.done_eq]
  nodup := List.nodup_append.2 ⟨h.nodup, List.nodup_singleton t, List.disjoint_singleton.2 ht⟩
  topo := topo_snoc h.topo hall
  reach_result v hv := by
    rcases List.mem_append.1 hv with hv | hv
    · exact h.reach_result v hv
    · rw [List.mem_singleton.1 hv]; exact h.reach_stack t (by simp [hs])
  reach_stack v hv := h.reach_stack v (by simp [hs, hv])
  roots_seen r hr v hv :=
    mem_rest_or hs (by simp) (fun _ hx => List.mem_append_left _ hx) (h.roots_seen r hr v hv)
  open_not_done p hp := by
    obtain ⟨hp, hne⟩ := List.mem_filter.1 hp
    simpa [h.open_not_done p hp] using hne
  open_frame p hp := by
    obtain ⟨hp, hne⟩ := List.mem_filter.1 hp
    obtain ⟨above, below, hstack, hlt, hdeps⟩ := h.open_frame p hp
    exact frame_pop hs (by simpa using hne) hstack hlt hdeps (by simp)
      fun _ hx => List.mem_append_left _ hx

/-- Expanding a node pushes producers with smaller indices on top of it, so it
becomes open with a frame of its own, and every open node below keeps its
frame. -/
theorem step_expand (hwf : g.WellFormed) (ht : t ∉ s.result) (htP : t ∉ P) :
    SortInv g roots
      { s with nodesToDo := ((g.deps t).filter (· ∉ s.nodesDone)).reverse ++ s.nodesToDo }
      (t :: P) := by
  have htop : t ∈ s.nodesToDo := by simp [hs]
  have hpushed : ∀ x ∈ ((g.deps t).filter (· ∉ s.nodesDone)).reverse, x ∈ g.deps t :=
    fun x hx => (List.mem_filter.1 (List.mem_reverse.1 hx)).1
  refine ⟨h.done_eq, h.nodup, h.topo, h.reach_result, fun v hv => ?_, fun r hr v hv => ?_,
    fun p hp => ?_, fun p hp => ?_⟩
  · rcases List.mem_append.1 hv with hv | hv
    · exact .input (h.reach_stack t htop) (hpushed v hv)
    · exact h.reach_stack v hv
  · exact (h.roots_seen r hr v hv).imp_left (List.mem_append_right _)
  · rcases List.mem_cons.1 hp with rfl | hp
    · exact ht
    · exact h.open_not_done p hp
  · rcases List.mem_cons.1 hp with rfl | hp
    · refine ⟨_, rest, by rw [hs], fun x hx => Graph.deps_lt hwf (hpushed x hx), fun d hd => ?_⟩
      by_cases hdn : d ∈ s.result
      · exact .inl hdn
      · exact .inr (List.mem_reverse.2 (List.mem_filter.2 ⟨hd, by simpa [h.mem_done] using hdn⟩))
    · obtain ⟨above, below, hstack, hlt, hdeps⟩ := h.open_frame p hp
      have htp : t < p := (frame_top hs hstack hlt).resolve_left fun ⟨_, htp⟩ => htP (htp ▸ hp)
      refine ⟨_ ++ above, below, by rw [hstack, List.append_assoc], fun x hx => ?_, fun d hd => ?_⟩
      · rcases List.mem_append.1 hx with hx | hx
        · exact lt_trans (Graph.deps_lt hwf (hpushed x hx)) htp
        · exact hlt x hx
      · exact (hdeps d hd).imp_right (List.mem_append_right _)

end Step

/-- Every iteration keeps the invariant. -/
theorem step (hwf : g.WellFormed) {s s' : SortState} {P P' : List Nat} (h : SortInv g roots s P)
    (hstep : SortStep g s P s' P') : SortInv g roots s' P' := by
  cases hstep with
  | pop hs ht => exact h.step_pop hs ht
  | add hs ht hall => exact h.step_add hs ht hall
  | expand hs ht htP _ => exact h.step_expand hs hwf ht htP

/-- The node on top is not open when it is expanded: an open node on top has
every producer done. -/
theorem top_not_open {s : SortState} {P : List Nat} (h : SortInv g roots s P) {t : Nat}
    {rest : List Nat} (hs : s.nodesToDo = t :: rest) (hex : ∃ d ∈ g.deps t, d ∉ s.result) :
    t ∉ P := by
  intro htP
  obtain ⟨above, below, hstack, hlt, hdeps⟩ := h.open_frame t htP
  obtain ⟨d, hd, hdn⟩ := hex
  rcases frame_top hs hstack hlt with ⟨rfl, -⟩ | htt
  · exact hdn ((hdeps d hd).resolve_right (List.not_mem_nil _))
  · exact lt_irrefl t htt

/-- From a state with the invariant, an iteration on a non-empty stack does not
fault, and it is one of the three steps. -/
theorem exists_step (hwf : g.WellFormed) (hclean : g.NoErrorInputs)
    (hroots : ∀ r ∈ roots, r.ValidIn g.operators) {s : SortState} {P : List Nat}
    (h : SortInv g roots s P) {t : Nat} {rest : List Nat} (hs : s.nodesToDo = t :: rest) :
    ∃ s' P', iteration g s = some s' ∧ SortStep g s P s' P' := by
  have hlt : t < g.operators.length :=
    (h.reach_stack t (by simp [hs])).lt_length hwf hroots
  by_cases hd : t ∈ s.result
  · exact ⟨_, P, iteration_of_done hs (h.mem_done.2 hd), .pop hs hd⟩
  · have hd' : t ∉ s.nodesDone := fun h' => hd (h.mem_done.1 h')
    by_cases hall : ∀ d ∈ g.deps t, d ∈ s.result
    · exact ⟨_, _, iteration_of_ready hs hd' hlt (hclean t) (fun d hdm => h.mem_done.2 (hall d hdm)),
        .add hs hd hall⟩
    · push_neg at hall
      exact ⟨_, _, iteration_of_expand hs hd' hlt (hclean t)
        (let ⟨d, hdm, hdn⟩ := hall; ⟨d, hdm, fun h' => hdn (h.mem_done.1 h')⟩),
        .expand hs hd (h.top_not_open hs hall) hall⟩

end SortInv

end WebnnNative
