import WebnnNative.Graph.Build

/-!
# Later builder calls do not change a build

Builder calls only append to the arena, and the sort reads the arena only at
the nodes on its stack, which the named operands reach.  So `BuildImpl` of
operands that exist in a session makes the same calls on the backend, with
the same outcome, in every session whose arena extends it, in particular
after any further builder calls.  A build does not depend on what was
created after its operands.

* `Graph.inputs_of_extension` and `iteration_of_extension`: an extension of the
  arena agrees with it below its length, and an iteration reads the arena
  only at the node on top of the stack.
* `SortInv.loop_of_extension`: from a state with the invariant, the loop runs
  the same on every extension.  Every node on the stack is reachable from
  the roots (`SortInv.reach_stack`), so it is in the arena.
* `sortFuel_le_of_extension`: the budget of the sort only grows with the arena,
  and the loop has emptied its stack before the old budget runs out.
* `topologicalSort_of_extension`, and `buildImpl_of_extension` for every session
  that builder calls reach.
-/

namespace WebnnNative

section Extension

variable {g g' : Graph}

/-- An arena that extends `g` has the same inputs at every operator of `g`. -/
theorem Graph.inputs_of_extension (hext : g.operators <+: g'.operators) {v : Nat}
    (hv : v < g.operators.length) : g'.inputs v = g.inputs v := by
  obtain ⟨more, hmore⟩ := hext
  simp only [Graph.inputs, ← hmore, List.getElem?_append_left hv]

/-- An iteration reads the arena only at the node on top of the stack. -/
theorem iteration_of_extension (hext : g.operators <+: g'.operators) {s : SortState} {t : Nat}
    {rest : List Nat} (hs : s.nodesToDo = t :: rest) (hlt : t < g.operators.length) :
    iteration g' s = iteration g s := by
  obtain ⟨more, hmore⟩ := hext
  have hget : g'.operators[t]? = g.operators[t]? := by rw [← hmore, List.getElem?_append_left hlt]
  simp only [iteration, hs, hget]

/-- The budget of the sort only grows with the arena. -/
theorem sortFuel_le_of_extension (hext : g.operators <+: g'.operators) (roots : List Operand) :
    sortFuel g roots ≤ sortFuel g' roots := by
  have hsum : ∑ v ∈ Finset.range g.operators.length, g.numInputs v ≤
      ∑ v ∈ Finset.range g'.operators.length, g'.numInputs v :=
    calc ∑ v ∈ Finset.range g.operators.length, g.numInputs v
        = ∑ v ∈ Finset.range g.operators.length, g'.numInputs v :=
          Finset.sum_congr rfl fun v hv => by
            simp only [Graph.numInputs, Graph.inputs_of_extension hext (Finset.mem_range.1 hv)]
      _ ≤ ∑ v ∈ Finset.range g'.operators.length, g'.numInputs v :=
          Finset.sum_le_sum_of_subset (Finset.range_subset.2 hext.length_le)
  have hlen := hext.length_le
  unfold sortFuel
  omega

variable {roots : List Operand} (hwf : g.WellFormed) (hclean : g.NoErrorInputs)
  (hroots : ∀ r ∈ roots, r.ValidIn g.operators)
include hwf hclean hroots

/-- From a state with the invariant, the loop runs the same on every extension
of the arena. -/
theorem SortInv.loop_of_extension (hext : g.operators <+: g'.operators) :
    ∀ (n : Nat) (s : SortState) (P : List Nat), SortInv g roots s P → loop g' n s = loop g n s
  | 0, _, _, _ => rfl
  | n + 1, s, P, h => by
    cases hs : s.nodesToDo with
    | nil => rw [loop_of_nil g' hs, loop_of_nil g hs]
    | cons t rest =>
      obtain ⟨s₁, P₁, hit, hstep⟩ := h.exists_step hwf hclean hroots hs
      have hlt := (h.reach_stack t (by simp [hs])).lt_length hwf hroots
      rw [loop_succ_of_cons g' hs, loop_succ_of_cons g hs, iteration_of_extension hext hs hlt, hit,
        Option.some_bind, Option.some_bind, SortInv.loop_of_extension hext n s₁ P₁ (h.step hwf hstep)]

/-- The sort of roots that exist in a well-formed arena without error inputs
is the same on every extension of the arena. -/
theorem topologicalSort_of_extension (hext : g.operators <+: g'.operators) :
    topologicalSort g' roots = topologicalSort g roots := by
  by_cases he : ∃ r ∈ roots, r.isError = true
  · rw [topologicalSort_of_error g' he, topologicalSort_of_error g he]
  have hne : ∀ r ∈ roots, r.isError = false := fun r hr => by
    simpa using fun h => he ⟨r, hr, h⟩
  obtain ⟨s', -, hloop, hnil, -⟩ := loop_sortFuel hwf hclean hroots
  obtain ⟨d, hd⟩ := Nat.exists_eq_add_of_le (sortFuel_le_of_extension hext roots)
  rw [topologicalSort_of_no_error g' hne, topologicalSort_of_no_error g hne, hd, loop_add,
    SortInv.loop_of_extension hwf hclean hroots hext _ _ _ (SortInv.initial g roots), hloop,
    Option.some_bind, loop_of_nil g' hnil]

end Extension

variable {validateKind : Operator → Except String Unit} {s : Session}

/-- Later builder calls do not change a build.  In every session that builder
calls reach, under the contract, `BuildImpl` of named operands that exist
makes the same calls on the backend, with the same outcome, in every session
whose arena extends the arena of that session. -/
theorem buildImpl_of_extension (hc : RejectsErrorInputs validateKind) (hs : Built validateKind s)
    {s' : Session} (hext : s.graph.operators <+: s'.graph.operators) (backend : Backend)
    (isError : Bool) (namedOperands : List (String × Operand))
    (hnamed : ∀ no ∈ namedOperands, no.2.ValidIn s.graph.operators) :
    buildImpl backend isError s'.graph namedOperands = buildImpl backend isError s.graph namedOperands := by
  have hroots : ∀ r ∈ namedOperands.map Prod.snd, r.ValidIn s.graph.operators := fun r hr => by
    obtain ⟨no, hno, rfl⟩ := List.mem_map.1 hr
    exact hnamed no hno
  simp only [buildImpl, topologicalSort_of_extension hs.wellFormed (hs.noErrorInputs hc) hroots hext]

theorem reluSession_build_after_sigmoid :
    buildImpl (fun _ _ => .ok ()) false
        (webnnValidate validateInputs reluSession ⟨.unary .sigmoid, [.output 0 0], 1⟩).1.graph
        [("y", .output 1 0)] =
      buildImpl (fun _ _ => .ok ()) false reluSession.graph [("y", .output 1 0)] :=
  buildImpl_of_extension rejectsErrorInputs_validateInputs built_reluSession ⟨[_], rfl⟩ _ _ _
    (by decide)

end WebnnNative
