import WebnnNative.Graph.TopologicalSort

/-!
# `TopologicalSort` on an arena with a cycle

`TopologicalSort` marks a node done only when every producer of its inputs
is done, and it keeps no mark for the nodes that it has started and not
finished.  So a node on a cycle can never be marked done, and a node on the
stack that leads to a cycle stays there: the `while` loop never ends.  The
builder calls never make such an arena (`Built.acyclic`), but the sort
itself does not check for one.

* `ReachesCycle g v` says that the inputs of `v`, followed any number of
  times, lead to an operator whose own inputs lead back to it.
  `ReachesCycle.dep` gives the step that the proof needs: one of the
  producers of the inputs of such a node is such a node again.
* `pushInputs_some` says what the inner loop does on any inputs: it only
  pushes, and it leaves `can_add` set only when every input has a
  producer that is done.
* `CycleInv` is the invariant of the loop: no done node reaches a cycle,
  and some node on the stack does.  `CycleInv.iteration` is the step lemma
  and `CycleInv.loop` the run lemma.
* `topologicalSort_loops_of_cycle`: when the producer of a root reaches a
  cycle, no number of iterations empties the stack, and so
  `topologicalSort_of_cycle`: the sort returns no list.
-/

namespace WebnnNative

/-- The inputs of operator `v`, followed any number of times, lead to an
operator `c` whose own inputs lead back to `c`. -/
def ReachesCycle (g : Graph) (v : Nat) : Prop :=
  ∃ c, (v = c ∨ Reaches g (g.inputs v) c) ∧ Reaches g (g.inputs c) c

/-- A path from the inputs of `v` leaves `v` through one of the producers of
its inputs. -/
theorem Reaches.first_dep {g : Graph} {v u : Nat} (h : Reaches g (g.inputs v) u) :
    ∃ d ∈ g.deps v, d = u ∨ Reaches g (g.inputs d) u := by
  induction h with
  | root hr hu => exact ⟨_, Graph.mem_deps.2 ⟨_, hr, hu⟩, .inl rfl⟩
  | input _ hd ih =>
    obtain ⟨d, hdv, hpath⟩ := ih
    refine ⟨d, hdv, .inr ?_⟩
    rcases hpath with rfl | hpath
    · obtain ⟨dep, hdep, hop⟩ := Graph.mem_deps.1 hd
      exact .root hdep hop
    · exact .input hpath hd

/-- A node that reaches a cycle has a producer of its inputs that reaches it
too. -/
theorem ReachesCycle.dep {g : Graph} {v : Nat} (h : ReachesCycle g v) :
    ∃ d ∈ g.deps v, ReachesCycle g d := by
  obtain ⟨c, hvc, hcyc⟩ := h
  rcases hvc with rfl | hpath
  · obtain ⟨d, hd, hdv⟩ := hcyc.first_dep
    exact ⟨d, hd, v, hdv, hcyc⟩
  · obtain ⟨d, hd, hdc⟩ := hpath.first_dep
    exact ⟨d, hd, c, hdc, hcyc⟩

/-- The inner loop only pushes on the stack, and leaves `can_add` set only
when it pushed nothing and every input has a producer that is done. -/
theorem pushInputs_some (nodesDone : List Nat) :
    ∀ (deps : List Operand) (nodesToDo : List Nat) (canAdd : Bool) {nodesToDo' : List Nat}
      {canAdd' : Bool}, pushInputs nodesDone deps (nodesToDo, canAdd) = some (nodesToDo', canAdd') →
      (∃ pushed, nodesToDo' = pushed ++ nodesToDo) ∧
        (canAdd' = true → canAdd = true ∧ nodesToDo' = nodesToDo ∧
          ∀ d ∈ deps.filterMap Operand.operator, d ∈ nodesDone)
  | [], nodesToDo, canAdd, _, _, h => by
    cases h
    exact ⟨⟨[], rfl⟩, fun h => ⟨h, rfl, by simp⟩⟩
  | dep :: deps, nodesToDo, canAdd, _, _, h => by
    cases hop : dep.operator with
    | none => simp [pushInputs, hop] at h
    | some op =>
      by_cases hdone : op ∈ nodesDone
      · simp only [pushInputs, hop, hdone, if_true] at h
        obtain ⟨hpushed, hadd⟩ := pushInputs_some nodesDone deps nodesToDo canAdd h
        refine ⟨hpushed, fun h' => ?_⟩
        obtain ⟨hc, hstack, hall⟩ := hadd h'
        exact ⟨hc, hstack, by simpa [List.filterMap_cons, hop, hdone] using hall⟩
      · simp only [pushInputs, hop, hdone, if_false] at h
        obtain ⟨⟨pushed, hpushed⟩, hadd⟩ := pushInputs_some nodesDone deps (op :: nodesToDo) false h
        exact ⟨⟨pushed ++ [op], by simp [hpushed]⟩, fun h' => absurd (hadd h').1 (by simp)⟩

/-- What keeps the loop going: no done node reaches a cycle, and some node on
the stack does. -/
structure CycleInv (g : Graph) (s : SortState) : Prop where
  done_acyclic : ∀ v ∈ s.nodesDone, ¬ ReachesCycle g v
  todo_cyclic : ∃ t ∈ s.nodesToDo, ReachesCycle g t

section Cycle

variable {g : Graph}

theorem CycleInv.nodesToDo_ne_nil {s : SortState} (h : CycleInv g s) : s.nodesToDo ≠ [] := by
  obtain ⟨t, ht, -⟩ := h.todo_cyclic
  exact List.ne_nil_of_mem ht

/-- A node whose producers are all done does not reach a cycle. -/
theorem CycleInv.not_reachesCycle_of_ready {s : SortState} (h : CycleInv g s) {v : Nat}
    (hall : ∀ d ∈ g.deps v, d ∈ s.nodesDone) : ¬ ReachesCycle g v := fun hv => by
  obtain ⟨d, hd, hdc⟩ := hv.dep
  exact h.done_acyclic d (hall d hd) hdc

/-- The step lemma: every iteration keeps the invariant. -/
theorem CycleInv.iteration {s s' : SortState} (h : CycleInv g s)
    (hstep : WebnnNative.iteration g s = some s') : CycleInv g s' := by
  obtain ⟨t, ht, hcyc⟩ := h.todo_cyclic
  cases hs : s.nodesToDo with
  | nil => exact absurd hs h.nodesToDo_ne_nil
  | cons node rest =>
    rw [hs] at ht
    have hrest : t ≠ node → t ∈ rest := fun hne => (List.mem_cons.1 ht).resolve_left hne
    simp only [WebnnNative.iteration, hs] at hstep
    split at hstep
    next hdone =>
      cases hstep
      exact ⟨h.done_acyclic, t, hrest fun he => h.done_acyclic node hdone (he ▸ hcyc), hcyc⟩
    next hdone =>
      split at hstep
      · cases hstep
      next op hop =>
        have hdeps : g.deps node = op.inputs.filterMap Operand.operator := by
          simp [Graph.deps, Graph.inputs, hop]
        split at hstep
        · cases hstep
        next nodesToDo hpush =>
          cases hstep
          obtain ⟨-, hstack, hall⟩ := (pushInputs_some _ _ _ _ hpush).2 rfl
          have hnode := h.not_reachesCycle_of_ready (v := node) (hdeps ▸ hall)
          refine ⟨?_, t, ?_, hcyc⟩
          · intro v hv
            rcases List.mem_cons.1 hv with rfl | hv
            exacts [hnode, h.done_acyclic v hv]
          · simpa [hstack, hs] using hrest fun he => hnode (he ▸ hcyc)
        next nodesToDo hpush =>
          cases hstep
          obtain ⟨⟨pushed, hstack⟩, -⟩ := pushInputs_some _ _ _ _ hpush
          exact ⟨h.done_acyclic, t, by simp [hstack, hs, ht], hcyc⟩

/-- The run lemma: after any number of iterations the invariant holds, so the
stack is not empty. -/
theorem CycleInv.loop : ∀ (fuel : Nat) {s s' : SortState}, CycleInv g s →
    WebnnNative.loop g fuel s = some s' → CycleInv g s'
  | 0, _, _, h, hloop => by
    cases hloop
    exact h
  | fuel + 1, s, _, h, hloop => by
    obtain ⟨node, rest, hs⟩ := List.exists_cons_of_ne_nil h.nodesToDo_ne_nil
    rw [loop_succ_of_cons g hs] at hloop
    obtain ⟨s₁, h₁, hloop⟩ := Option.bind_eq_some.1 hloop
    exact CycleInv.loop fuel (h.iteration h₁) hloop

/-- The invariant holds after the first `for` loop when the producer of a
root reaches a cycle. -/
theorem CycleInv.initial {roots : List Operand} {nodesToDo : List Nat}
    (hpush : pushRootNodes roots [] = some nodesToDo)
    (hcycle : ∃ r ∈ roots, ∃ v, r.operator = some v ∧ ReachesCycle g v) :
    CycleInv g ⟨nodesToDo, [], []⟩ := by
  obtain ⟨r, hr, v, hv, hcyc⟩ := hcycle
  have hmem : v ∈ nodesToDo := by
    rw [pushRootNodes_eq_some roots [] hpush]
    simpa using ⟨r, hr, hv⟩
  exact ⟨fun _ h => absurd h (List.not_mem_nil _), v, hmem, hcyc⟩

end Cycle

/-- `TopologicalSort` has no mark for the nodes it has started: when the
producer of a root reaches a cycle, the `while` loop never ends.  After any
number of iterations that do not fail, the stack still holds a node. -/
theorem topologicalSort_loops_of_cycle (g : Graph) {roots : List Operand} {nodesToDo : List Nat}
    (hpush : pushRootNodes roots [] = some nodesToDo)
    (hcycle : ∃ r ∈ roots, ∃ v, r.operator = some v ∧ ReachesCycle g v) :
    ∀ fuel s, loop g fuel ⟨nodesToDo, [], []⟩ = some s → s.nodesToDo ≠ [] :=
  fun fuel _ hloop => ((CycleInv.initial hpush hcycle).loop fuel hloop).nodesToDo_ne_nil

/-- So the sort returns no list on such an arena, from roots that are not
errors: the code never leaves its loop. -/
theorem topologicalSort_of_cycle (g : Graph) {roots : List Operand}
    (hroots : ∀ r ∈ roots, r.isError = false)
    (hcycle : ∃ r ∈ roots, ∃ v, r.operator = some v ∧ ReachesCycle g v) :
    topologicalSort g roots = none := by
  obtain ⟨nodesToDo, hpush⟩ : ∃ nodesToDo, pushRootNodes roots [] = some nodesToDo :=
    ⟨_, pushRootNodes_eq roots hroots []⟩
  have h₀ := CycleInv.initial hpush hcycle
  simp only [topologicalSort, hpush]
  cases hloop : loop g (sortFuel g roots) ⟨nodesToDo, [], []⟩ with
  | none => rfl
  | some s => exact SortState.returned_of_ne_nil (h₀.loop _ hloop).nodesToDo_ne_nil

/-- Two operators that take each other's output: an arena that no builder
call makes. -/
def cyclicGraph : Graph :=
  ⟨[⟨.unary .relu, [.output 1 0], 1⟩, ⟨.unary .relu, [.output 0 0], 1⟩]⟩

/-- Sorting from the output of operator 0 of `cyclicGraph`: the budget of the
model runs out with the two operators still on the stack. -/
theorem cyclicGraph_sort_unfinished :
    ∃ s, loop cyclicGraph (sortFuel cyclicGraph [.output 0 0]) ⟨[0], [], []⟩ = some s ∧
      s.nodesToDo ≠ [] :=
  ⟨⟨[1, 0, 1, 0, 1, 0], [], []⟩, by decide,
    topologicalSort_loops_of_cycle cyclicGraph (show pushRootNodes [.output 0 0] [] = some [0] from rfl)
      ⟨.output 0 0, List.mem_singleton_self _, 0, rfl, 0, .inl rfl,
        .input (.root (r := .output 1 0) (by decide) rfl) (by decide)⟩
      (sortFuel cyclicGraph [.output 0 0]) _ (by decide)⟩

end WebnnNative
