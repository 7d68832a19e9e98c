import Mathlib.Algebra.Order.BigOperators.Group.Finset
import WebnnNative.Graph.SortInvariant

/-!
# Whole runs of the sort loop

This file lifts `SortInv.step` from one iteration to whole runs of `loop`, on
a well-formed arena without error inputs and from roots that exist in it.

* `SortInv.run`: any number of iterations from a state with the invariant
  succeeds and keeps the invariant.  A node that is open or done stays open
  or done.
* `sortPotential` is the measure that the loop does not show.  It counts the
  entries of the stack, and `1 + Inputs().size()` for every reachable node
  that is neither done nor open.  `sortPotential_step` proves that every
  iteration lowers it by at least one.  The expansion is the step that needs
  the invariant: it pushes at most `Inputs().size()` entries, and it takes a
  node that was neither done nor open out of the count.
* `loop_empties`: with as much fuel as the potential, the loop ends with an
  empty stack.
* `expands_once`: no node is expanded twice in one run.
* `sorted_of_empty`: when the stack is empty, `result` is exactly the
  reachable operators, once each, in topological order.
-/

namespace WebnnNative

open Finset

/-- The measure of the sort loop: the stack entries, and `1 + Inputs().size()`
for every node of `V` that is neither done nor open. -/
def sortPotential (g : Graph) (V : Finset Nat) (s : SortState) (P : List Nat) : Nat :=
  s.nodesToDo.length + ∑ v ∈ V.filter (fun v => v ∉ s.result ∧ v ∉ P), (1 + g.numInputs v)

/-- The sorted list that `TopologicalSort` must return: no duplicate, exactly
the reachable operators, and every producer before its consumer. -/
structure SortedOrder (g : Graph) (roots : List Operand) (sorted : List Nat) : Prop where
  nodup : sorted.Nodup
  mem_iff : ∀ v, v ∈ sorted ↔ Reaches g roots v
  topo : ∀ l₁ v l₂, sorted = l₁ ++ v :: l₂ → ∀ d ∈ g.deps v, d ∈ l₁

/-- A node that is open or done stays open or done after an iteration. -/
theorem SortStep.keeps_open {g : Graph} {s s' : SortState} {P P' : List Nat}
    (hstep : SortStep g s P s' P') {v : Nat} (hv : v ∈ P ∨ v ∈ s.result) :
    v ∈ P' ∨ v ∈ s'.result := by
  cases hstep with
  | pop => exact hv
  | @add t =>
    rcases hv with hv | hv
    · by_cases hvt : v = t
      · exact .inr (by simp [hvt])
      · exact .inl (List.mem_filter.2 ⟨hv, by simpa using hvt⟩)
    · exact .inr (List.mem_append_left _ hv)
  | expand => exact hv.imp_left (List.mem_cons_of_mem _)

section Run

variable {g : Graph} {roots : List Operand} (hwf : g.WellFormed) (hclean : g.NoErrorInputs)
  (hroots : ∀ r ∈ roots, r.ValidIn g.operators)
include hwf hclean hroots

/-- Any number of iterations from a state with the invariant succeeds and keeps
the invariant; a node that is open or done stays open or done. -/
theorem SortInv.run : ∀ (n : Nat) (s : SortState) (P : List Nat), SortInv g roots s P →
    ∃ s' P', loop g n s = some s' ∧ SortInv g roots s' P' ∧
      ∀ v, v ∈ P ∨ v ∈ s.result → v ∈ P' ∨ v ∈ s'.result
  | 0, s, P, h => ⟨s, P, rfl, h, fun _ hv => hv⟩
  | n + 1, s, P, h => by
    cases hs : s.nodesToDo with
    | nil => exact ⟨s, P, loop_of_nil g hs _, h, fun _ hv => hv⟩
    | cons t rest =>
      obtain ⟨s₁, P₁, hit, hstep⟩ := h.exists_step hwf hclean hroots hs
      obtain ⟨s', P', hloop, h', hkeep⟩ := SortInv.run n s₁ P₁ (h.step hwf hstep)
      exact ⟨s', P', by rw [loop_succ_of_cons g hs, hit, Option.some_bind, hloop], h',
        fun v hv => hkeep v (hstep.keeps_open hv)⟩

omit hwf hclean hroots in
/-- Every iteration lowers the potential by at least one. -/
theorem sortPotential_step {V : Finset Nat} (hV : ∀ v, Reaches g roots v → v ∈ V)
    {s s' : SortState} {P P' : List Nat} (h : SortInv g roots s P) (hstep : SortStep g s P s' P') :
    sortPotential g V s' P' + 1 ≤ sortPotential g V s P := by
  cases hstep with
  | @pop t rest hs _ => simp only [sortPotential, hs, List.length_cons]; omega
  | @add t rest hs _ _ =>
    have hsub : V.filter (fun v => v ∉ s.result ++ [t] ∧ v ∉ P.filter (· ≠ t)) ⊆
        V.filter (fun v => v ∉ s.result ∧ v ∉ P) := by
      intro v
      simp only [mem_filter, List.mem_append, List.mem_filter, List.mem_singleton,
        decide_eq_true_eq]
      tauto
    have : ∑ v ∈ V.filter (fun v => v ∉ s.result ++ [t] ∧ v ∉ P.filter (· ≠ t)),
        (1 + g.numInputs v) ≤ ∑ v ∈ V.filter (fun v => v ∉ s.result ∧ v ∉ P),
        (1 + g.numInputs v) := sum_le_sum_of_subset hsub
    simp only [sortPotential, hs, List.length_cons]
    omega
  | @expand t rest hs ht htP _ =>
    have htV : t ∈ V.filter (fun v => v ∉ s.result ∧ v ∉ P) :=
      mem_filter.2 ⟨hV t (h.reach_stack t (by simp [hs])), ht, htP⟩
    have herase : V.filter (fun v => v ∉ s.result ∧ v ∉ t :: P) =
        (V.filter (fun v => v ∉ s.result ∧ v ∉ P)).erase t := by
      ext v
      simp only [mem_filter, mem_erase, List.mem_cons]
      tauto
    have hsum := sum_erase_add _ (fun v => 1 + g.numInputs v) htV
    have hpush : ((g.deps t).filter (· ∉ s.nodesDone)).reverse.length ≤ g.numInputs t :=
      le_trans (by simpa using List.length_filter_le _ _) (g.length_deps_le t)
    simp only [sortPotential, herase, List.length_append, hs, List.length_cons] at hsum hpush ⊢
    omega

/-- With as much fuel as the potential, the loop ends with an empty stack. -/
theorem loop_empties {V : Finset Nat} (hV : ∀ v, Reaches g roots v → v ∈ V) :
    ∀ (fuel : Nat) (s : SortState) (P : List Nat), SortInv g roots s P →
      sortPotential g V s P ≤ fuel →
      ∃ s' P', loop g fuel s = some s' ∧ s'.nodesToDo = [] ∧ SortInv g roots s' P'
  | 0, s, P, h, hle => by
    have hnil : s.nodesToDo = [] := List.length_eq_zero.1 (by unfold sortPotential at hle; omega)
    exact ⟨s, P, rfl, hnil, h⟩
  | fuel + 1, s, P, h, hle => by
    cases hs : s.nodesToDo with
    | nil => exact ⟨s, P, loop_of_nil g hs _, hs, h⟩
    | cons t rest =>
      obtain ⟨s₁, P₁, hit, hstep⟩ := h.exists_step hwf hclean hroots hs
      have hdec := sortPotential_step hV h hstep
      obtain ⟨s', P', hloop, hnil, h'⟩ :=
        loop_empties hV fuel s₁ P₁ (h.step hwf hstep) (by omega)
      exact ⟨s', P', by rw [loop_succ_of_cons g hs, hit, Option.some_bind, hloop], hnil, h'⟩

omit hwf hclean hroots in
/-- A node that is open or done is not expanded. -/
theorem SortInv.not_expands {s : SortState} {P : List Nat} (h : SortInv g roots s P) {v : Nat}
    (hv : v ∈ P ∨ v ∈ s.result) : ¬ Expands g s v := fun hexp => by
  obtain ⟨rest, hs⟩ := hexp.exists_cons
  obtain ⟨-, hnd, d, hd, hdn⟩ := hexp
  rcases hv with hv | hv
  · exact h.top_not_open hs ⟨d, hd, fun h' => hdn (h.mem_done.2 h')⟩ hv
  · exact hnd (h.mem_done.2 hv)

omit hwf hclean hroots in
/-- The node that an iteration expands becomes open. -/
theorem SortStep.open_of_expands {s s' : SortState} {P P' : List Nat}
    (hstep : SortStep g s P s' P') (h : SortInv g roots s P) {v : Nat} (hexp : Expands g s v) :
    v ∈ P' := by
  obtain ⟨htop, hnd, d, hd, hdn⟩ := hexp
  cases hstep with
  | @pop t rest hs ht =>
    obtain rfl : t = v := by simpa [hs] using htop
    exact absurd (h.mem_done.2 ht) hnd
  | @add t rest hs _ hall =>
    obtain rfl : t = v := by simpa [hs] using htop
    exact absurd (h.mem_done.2 (hall d hd)) hdn
  | @expand t rest hs =>
    obtain rfl : t = v := by simpa [hs] using htop
    exact List.mem_cons_self _ _

/-- No node is expanded twice in one run from a state with the invariant. -/
theorem expands_once {s₀ : SortState} {P₀ : List Nat} (h₀ : SortInv g roots s₀ P₀)
    {i j : Nat} (hij : i < j) {si sj : SortState} (hi : loop g i s₀ = some si)
    (hj : loop g j s₀ = some sj) {v : Nat} (hexp : Expands g si v) : ¬ Expands g sj v := by
  obtain ⟨s₁, P₁, hloop₁, h₁, -⟩ := SortInv.run hwf hclean hroots i s₀ P₀ h₀
  have hsi : si = s₁ := Option.some_injective _ (hi.symm.trans hloop₁)
  subst hsi
  obtain ⟨rest, hs⟩ := hexp.exists_cons
  obtain ⟨s₂, P₂, hit, hstep⟩ := h₁.exists_step hwf hclean hroots hs
  obtain ⟨k, rfl⟩ : ∃ k, j = i + (k + 1) := ⟨j - i - 1, by omega⟩
  rw [loop_add, hi, Option.some_bind, loop_succ_of_cons g hs, hit, Option.some_bind] at hj
  obtain ⟨s₃, P₃, hloop₃, h₃, hkeep⟩ := SortInv.run hwf hclean hroots k s₂ P₂ (h₁.step hwf hstep)
  have hsj : sj = s₃ := Option.some_injective _ (hj.symm.trans hloop₃)
  subst hsj
  exact h₃.not_expands (hkeep v (.inl (hstep.open_of_expands h₁ hexp)))

omit hwf hclean hroots in
/-- When the stack is empty, `result` is the sorted list of the reachable
operators. -/
theorem SortInv.sorted_of_empty {s : SortState} {P : List Nat} (h : SortInv g roots s P)
    (hnil : s.nodesToDo = []) : SortedOrder g roots s.result where
  nodup := h.nodup
  topo := h.topo
  mem_iff v := ⟨h.reach_result v, fun hv => by
    induction hv with
    | root hr hop => simpa [hnil] using h.roots_seen _ hr _ hop
    | @input u w _ hw ih =>
      obtain ⟨l₁, l₂, hsplit⟩ := List.append_of_mem ih
      rw [hsplit]
      exact List.mem_append_left _ (h.topo l₁ u l₂ hsplit w hw)⟩

end Run

end WebnnNative
