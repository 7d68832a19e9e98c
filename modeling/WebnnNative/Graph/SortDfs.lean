import WebnnNative.Graph.Build

/-!
# `TopologicalSort` is a recursive depth-first search

`TopologicalSort` keeps its own stack, but what it computes is the postorder
of the plain recursive search: search the producers of the inputs of a node,
the last input first, and then emit the node.  This module defines that
search and proves that the loop computes exactly its order.  So the order of
the `AddToGraph` calls that a backend receives is fixed by the arena and the
named operands, and a recursive sort would make the same calls.

* `visit` is the recursive search from one node, on a budget of recursion
  depth, and `dfsPostorder` runs it from the producers of the roots, the last
  root first, as the first `for` loop leaves them on the stack.
  `visit_of_mem`, `visit_of_not_mem`, `prefix_visit`, `mem_visit_le` and
  `foldl_visit_filter` are the facts about it that the proofs use.
* `LoopsTo g s t` says that some number of iterations of the loop lead from
  `s` to `t`.  `SortState.ofResult stack R` is the state whose `result` is
  `R` and whose `nodesDone` is `R` reversed, the two as the loop keeps them.
* `loopsTo_visits` is the simulation: from the stack `ws ++ rest`, the loop
  reaches the stack `rest` with the result of searching every node of `ws`
  in turn.  It is proved by induction on the budget, and `loopsTo_visit`
  does one node: a pop, or an expansion, the search of what it pushed, and
  an add.
* `topologicalSort_eq_dfsPostorder`: on a well-formed arena without error
  inputs, the sort of roots that exist and are not errors returns
  `dfsPostorder`.
-/

namespace WebnnNative

/-- The recursive search that `TopologicalSort` runs with a stack, from node
`v` with the result `R` so far.  A node of `R` is done.  Otherwise the
producers of its inputs are searched, the last input first, and the node is
emitted after them.  `fuel` bounds the depth of the recursion: on a
well-formed arena every producer was created before its consumer, so
`v + 1` is enough. -/
def visit (g : Graph) : Nat → List Nat → Nat → List Nat
  | 0, R, _ => R
  | fuel + 1, R, v => if v ∈ R then R else (g.deps v).reverse.foldl (visit g fuel) R ++ [v]

/-- The recursive search from the producers of `rootNodes`, the last root
first, with the number of operators as the budget. -/
def dfsPostorder (g : Graph) (rootNodes : List Operand) : List Nat :=
  (rootNodes.filterMap Operand.operator).reverse.foldl (visit g g.operators.length) []

/-! ## The recursive search -/

section Visit

variable {g : Graph}

theorem visit_of_mem {R : List Nat} {v : Nat} (h : v ∈ R) : ∀ n, visit g n R v = R
  | 0 => rfl
  | _ + 1 => if_pos h

theorem visit_of_not_mem {R : List Nat} {v : Nat} (h : v ∉ R) (n : Nat) :
    visit g (n + 1) R v = (g.deps v).reverse.foldl (visit g n) R ++ [v] :=
  if_neg h

/-- A fold of a step that only appends only appends. -/
theorem prefix_foldl {f : List Nat → Nat → List Nat} (hf : ∀ R v, R <+: f R v) :
    ∀ (L R : List Nat), R <+: L.foldl f R
  | [], _ => List.prefix_refl _
  | v :: L, R => (hf R v).trans (prefix_foldl hf L _)

/-- A fold of a step that adds nothing above its node adds nothing above the
nodes of the list. -/
theorem mem_foldl_le {f : List Nat → Nat → List Nat} (hf : ∀ R v x, x ∈ f R v → x ∈ R ∨ x ≤ v) :
    ∀ (L R : List Nat) (x : Nat), x ∈ L.foldl f R → x ∈ R ∨ ∃ w ∈ L, x ≤ w
  | [], _, _, h => .inl h
  | v :: L, R, x, h => by
    rcases mem_foldl_le hf L _ x h with h | ⟨w, hw, hxw⟩
    · exact (hf R v x h).imp_right fun hxv => ⟨v, List.mem_cons_self _ _, hxv⟩
    · exact .inr ⟨w, List.mem_cons_of_mem _ hw, hxw⟩

/-- The search only appends to the result. -/
theorem prefix_visit : ∀ (n : Nat) (R : List Nat) (v : Nat), R <+: visit g n R v
  | 0, _, _ => List.prefix_refl _
  | n + 1, R, v => by
    by_cases h : v ∈ R
    · rw [visit_of_mem h]
    · rw [visit_of_not_mem h]
      exact (prefix_foldl (prefix_visit n) _ R).trans (List.prefix_append _ _)

/-- With some budget, the search from `v` leaves `v` in the result. -/
theorem mem_visit (n : Nat) (R : List Nat) (v : Nat) : v ∈ visit g (n + 1) R v := by
  by_cases h : v ∈ R
  · rwa [visit_of_mem h]
  · simp [visit_of_not_mem h]

/-- With some budget, every node of the list is in the result of the fold. -/
theorem mem_foldl_visit (n : Nat) :
    ∀ {L : List Nat} {w : Nat} (R : List Nat), w ∈ L → w ∈ L.foldl (visit g (n + 1)) R
  | [], _, _, hw => absurd hw (List.not_mem_nil _)
  | v :: L, w, R, hw => by
    rcases List.mem_cons.1 hw with rfl | hw
    · exact (prefix_foldl (prefix_visit _) L _).subset (mem_visit n R w)
    · rw [List.foldl_cons]
      exact mem_foldl_visit n _ hw

/-- On a well-formed arena the search from `v` adds nothing above `v`. -/
theorem mem_visit_le (hwf : g.WellFormed) :
    ∀ (n : Nat) (R : List Nat) (v x : Nat), x ∈ visit g n R v → x ∈ R ∨ x ≤ v
  | 0, _, _, _, h => .inl h
  | n + 1, R, v, x, h => by
    by_cases hv : v ∈ R
    · rw [visit_of_mem hv] at h
      exact .inl h
    · rw [visit_of_not_mem hv, List.mem_append, List.mem_singleton] at h
      rcases h with h | rfl
      · refine (mem_foldl_le (mem_visit_le hwf n) _ R x h).imp_right fun ⟨w, hw, hxw⟩ => ?_
        exact le_of_lt (lt_of_le_of_lt hxw (Graph.deps_lt hwf (List.mem_reverse.1 hw)))
      · exact .inr le_rfl

/-- Searching from a node that is done changes nothing, so the fold may skip
the nodes of any list `D` that the result contains. -/
theorem foldl_visit_filter (n : Nat) (D : List Nat) :
    ∀ (L R : List Nat), (∀ x ∈ D, x ∈ R) →
      (L.filter (· ∉ D)).foldl (visit g n) R = L.foldl (visit g n) R
  | [], _, _ => rfl
  | w :: L, R, hD => by
    by_cases hw : w ∈ D
    · simp only [List.filter_cons, hw, not_true_eq_false, decide_False, List.foldl_cons,
        visit_of_mem (hD w hw)]
      exact foldl_visit_filter n D L R hD
    · simp only [List.filter_cons, hw, not_false_eq_true, decide_True, if_true, List.foldl_cons]
      exact foldl_visit_filter n D L _ fun x hx => (prefix_visit n R w).subset (hD x hx)

end Visit

/-! ## The loop simulates the search -/

/-- The state of the loop with stack `stack` and result `R`, with `nodesDone`
as the loop keeps it: the nodes of `R`, the last first. -/
def SortState.ofResult (stack R : List Nat) : SortState := ⟨stack, R.reverse, R⟩

/-- Some number of iterations of the loop lead from `s` to `t`. -/
def LoopsTo (g : Graph) (s t : SortState) : Prop := ∃ k, loop g k s = some t

section Simulation

variable {g : Graph}

theorem LoopsTo.refl (s : SortState) : LoopsTo g s s := ⟨0, rfl⟩

theorem LoopsTo.trans {s t u : SortState} (h₁ : LoopsTo g s t) (h₂ : LoopsTo g t u) :
    LoopsTo g s u := by
  obtain ⟨a, ha⟩ := h₁
  obtain ⟨b, hb⟩ := h₂
  exact ⟨a + b, by rw [loop_add, ha, Option.some_bind, hb]⟩

/-- One iteration from a non-empty stack. -/
theorem LoopsTo.single {s t : SortState} {node : Nat} {rest : List Nat}
    (hs : s.nodesToDo = node :: rest) (h : iteration g s = some t) : LoopsTo g s t :=
  ⟨0 + 1, by rw [loop_succ_of_cons g hs, h]; rfl⟩

/-- Two runs from one state that both end with an empty stack end in the
same state. -/
theorem LoopsTo.eq_of_nil {s t t' : SortState} (h : LoopsTo g s t) (ht : t.nodesToDo = [])
    {k : Nat} (hk : loop g k s = some t') (ht' : t'.nodesToDo = []) : t' = t := by
  obtain ⟨j, hj⟩ := h
  rcases le_total j k with hle | hle
  · obtain ⟨d, rfl⟩ := Nat.exists_eq_add_of_le hle
    rw [loop_add, hj, Option.some_bind, loop_of_nil g ht] at hk
    exact (Option.some_injective _ hk).symm
  · obtain ⟨d, rfl⟩ := Nat.exists_eq_add_of_le hle
    rw [loop_add, hk, Option.some_bind, loop_of_nil g ht'] at hj
    exact Option.some_injective _ hj

/-- A node that is not done and whose producers are all done is added and
popped. -/
theorem loopsTo_ready (hclean : g.NoErrorInputs) {w : Nat} {rest R : List Nat}
    (hlt : w < g.operators.length) (hw : w ∉ R) (hall : ∀ d ∈ g.deps w, d ∈ R) :
    LoopsTo g (.ofResult (w :: rest) R) (.ofResult rest (R ++ [w])) := by
  refine .single rfl ((iteration_of_ready rfl (fun h => hw (List.mem_reverse.1 h)) hlt (hclean w)
    fun d hd => List.mem_reverse.2 (hall d hd)).trans ?_)
  simp [SortState.ofResult]

/-- One node: from `w` on top, the loop reaches the stack below `w` with the
result of the search from `w`, given the simulation for the nodes below the
budget `n`. -/
theorem loopsTo_visit (hwf : g.WellFormed) (hclean : g.NoErrorInputs) {n w : Nat}
    (hlt : w < g.operators.length) (hwn : w ≤ n)
    (ih : ∀ ws : List Nat, (∀ x ∈ ws, x < n ∧ x < g.operators.length) → ∀ rest R,
      LoopsTo g (.ofResult (ws ++ rest) R) (.ofResult rest (ws.foldl (visit g n) R)))
    (rest R : List Nat) :
    LoopsTo g (.ofResult (w :: rest) R) (.ofResult rest (visit g (n + 1) R w)) := by
  by_cases hw : w ∈ R
  · rw [visit_of_mem hw]
    exact .single rfl (iteration_of_done rfl (List.mem_reverse.2 hw))
  have hfold : (g.deps w).reverse.foldl (visit g n) R =
      ((g.deps w).filter (· ∉ R.reverse)).reverse.foldl (visit g n) R := by
    rw [← List.filter_reverse, foldl_visit_filter n _ _ R fun x hx => List.mem_reverse.1 hx]
  have hpushed : ∀ d ∈ ((g.deps w).filter (· ∉ R.reverse)).reverse, d ∈ g.deps w ∧ d ∉ R :=
    fun d hd => by simpa using hd
  rw [visit_of_not_mem hw, hfold]
  -- The expansion and the search of what it pushed; nothing when every producer is done.
  have hexpand : LoopsTo g (.ofResult (w :: rest) R)
      (.ofResult (w :: rest) (((g.deps w).filter (· ∉ R.reverse)).reverse.foldl (visit g n) R)) := by
    by_cases hall : ∀ d ∈ g.deps w, d ∈ R
    · rw [List.filter_eq_nil_iff.2 (by simpa using hall)]
      exact .refl _
    · push_neg at hall
      obtain ⟨d, hd, hdR⟩ := hall
      refine (LoopsTo.single rfl (iteration_of_expand rfl (fun h => hw (List.mem_reverse.1 h)) hlt
        (hclean w) ⟨d, hd, fun h => hdR (List.mem_reverse.1 h)⟩)).trans (ih _ (fun x hx => ?_) _ R)
      have := Graph.deps_lt hwf (hpushed x hx).1
      omega
  refine hexpand.trans (loopsTo_ready hclean hlt (fun hmem => ?_) fun d hd => ?_)
  · rcases mem_foldl_le (mem_visit_le hwf n) _ R w hmem with h | ⟨d, hd, hle⟩
    · exact hw h
    · exact absurd (Graph.deps_lt hwf (hpushed d hd).1) (not_lt.2 hle)
  · by_cases hdR : d ∈ R
    · exact (prefix_foldl (prefix_visit n) _ R).subset hdR
    · obtain ⟨m, rfl⟩ : ∃ m, n = m + 1 := ⟨n - 1, by have := Graph.deps_lt hwf hd; omega⟩
      exact mem_foldl_visit m R (List.mem_reverse.2 (List.mem_filter.2 ⟨hd, by simpa using hdR⟩))

/-- The simulation: from the stack `ws ++ rest`, the loop reaches the stack
`rest` with the result of searching every node of `ws` in turn, on a budget
above each of them. -/
theorem loopsTo_visits (hwf : g.WellFormed) (hclean : g.NoErrorInputs) (n : Nat) :
    ∀ (ws : List Nat), (∀ w ∈ ws, w < n ∧ w < g.operators.length) → ∀ (rest R : List Nat),
      LoopsTo g (.ofResult (ws ++ rest) R) (.ofResult rest (ws.foldl (visit g n) R)) := by
  induction n with
  | zero =>
    rintro (_ | ⟨w, ws⟩) hws rest R
    · exact .refl _
    · exact absurd (hws w (List.mem_cons_self _ _)).1 (Nat.not_lt_zero _)
  | succ n ih =>
    intro ws hws rest
    induction ws with
    | nil => exact fun R => .refl _
    | cons w ws ihws =>
      intro R
      obtain ⟨hwn, hlt⟩ := hws w (List.mem_cons_self _ _)
      exact (loopsTo_visit hwf hclean hlt (Nat.lt_succ_iff.1 hwn) ih _ R).trans
        (ihws (fun x hx => hws x (List.mem_cons_of_mem _ hx)) _)

end Simulation

/-- `TopologicalSort` returns the order of the recursive search: on a
well-formed arena without error inputs, and from roots that exist and are not
errors, the loop with its explicit stack emits the nodes exactly as
`dfsPostorder` does. -/
theorem topologicalSort_eq_dfsPostorder {g : Graph} {roots : List Operand} (hwf : g.WellFormed)
    (hclean : g.NoErrorInputs) (hroots : ∀ r ∈ roots, r.isError = false ∧ r.ValidIn g.operators) :
    topologicalSort g roots = some (dfsPostorder g roots) := by
  obtain ⟨s', -, hloop, hnil, -⟩ := loop_sortFuel hwf hclean fun r hr => (hroots r hr).2
  have hws : ∀ w ∈ (roots.filterMap Operand.operator).reverse,
      w < g.operators.length ∧ w < g.operators.length := fun w hw => by
    obtain ⟨r, hr, hop⟩ := List.mem_filterMap.1 (List.mem_reverse.1 hw)
    have hlt := Operand.lt_length_of_validIn (hroots r hr).2 hop
    exact ⟨hlt, hlt⟩
  have hrun := loopsTo_visits hwf hclean _ _ hws [] []
  rw [List.append_nil] at hrun
  rw [topologicalSort_of_no_error g fun r hr => (hroots r hr).1, hloop, hrun.eq_of_nil rfl hloop hnil]
  rfl

theorem reluSession_sort_postorder :
    topologicalSort reluSession.graph [.output 1 0] = some (dfsPostorder reluSession.graph [.output 1 0]) :=
  topologicalSort_eq_dfsPostorder built_reluSession.wellFormed
    (built_reluSession.noErrorInputs rejectsErrorInputs_validateInputs) (by decide)

/-- On a diamond, the sort searches the producer of the last input first. -/
example : topologicalSort ⟨[⟨.input "x" [1, 4], [], 1⟩, ⟨.unary .relu, [.output 0 0], 1⟩,
    ⟨.unary .sigmoid, [.output 0 0], 1⟩, ⟨.binary .add, [.output 1 0, .output 2 0], 1⟩]⟩
    [.output 3 0] = some [0, 2, 1, 3] := by decide

end WebnnNative
