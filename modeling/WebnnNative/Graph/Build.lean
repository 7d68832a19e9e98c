import WebnnNative.Graph.SortRun
import WebnnNative.Graph.Builder

/-!
# `GraphBuilderBase::BuildImpl`

`BuildImpl` checks the builder and the named operands, sorts the operators
that the named operands depend on, and then drives the backend: one
`CreateGraph`, `AddToGraph` for every sorted operator, `AddOutput` for every
named operand, `Finish` and `Compile`.  Every call after `CreateGraph` is
under `DAWN_TRY`, so the first that fails ends the build.

The backend is outside the core.  `Backend` answers each call from the calls
made before it, so it covers every backend, stateful or not.  `buildImpl`
returns the calls that it made and its outcome, and `build` is the public
`Build`, which hands a failure to the context and returns an error graph.

* `tryCalls_spec` is the whole behaviour of `DAWN_TRY` over a list of calls:
  the calls made are a prefix, every call before the last was accepted, an
  error is the backend's answer to the last call made, and success means
  that all of them were made and accepted.  `BuildTrace` is what it gives
  for the calls of `BuildImpl`, and `BuildTrace.complete_of_accepts` that a
  backend that accepts every call gets all of them.
* `loop_sortFuel` and `topologicalSort_sorted` run the results of
  `WebnnNative.Graph.SortRun` through `topologicalSort`: on a well-formed
  arena without error inputs the loop empties its stack within its fuel, and
  the sort returns exactly the reachable operators, once each, in
  topological order.
* The last section states the results for every session that builder calls
  reach: `buildImpl_adds_reachable_in_order` for `BuildImpl`,
  `error_operands_poison` for error operands,
  `topologicalSort_loop_bound` for the loop of the sort, and
  `Built.acyclic`: builder calls only build acyclic graphs.
-/

namespace WebnnNative

open Finset

/-- A call of `BuildImpl` on the backend graph, `GraphBase`. -/
inductive BackendCall
  | createGraph
  | addToGraph (op : Nat)
  | addOutput (name : String) (output : Operand)
  | finish
  | compile
  deriving DecidableEq, Repr

/-- A backend: its answer to a call, given the calls made before it. -/
abbrev Backend := List BackendCall → BackendCall → Except String Unit

/-- The calls of `BuildImpl` after `CreateGraph`, when none fails. -/
def buildCalls (sorted : List Nat) (namedOperands : List (String × Operand)) : List BackendCall :=
  sorted.map .addToGraph ++ namedOperands.map (fun no => .addOutput no.1 no.2) ++ [.finish, .compile]

/-- `DAWN_TRY` over a list of calls: make them in order after `trace`, and stop
after the first that fails. -/
def tryCalls (backend : Backend) :
    List BackendCall → List BackendCall → List BackendCall × Except String Unit
  | trace, [] => (trace, .ok ())
  | trace, c :: cs =>
    match backend trace c with
    | .error e => (trace ++ [c], .error e)
    | .ok () => tryCalls backend (trace ++ [c]) cs

/-- `GraphBuilderBase::BuildImpl`, on the arena `g`: the calls made on the
backend and the outcome, or `none` when the sort faults.  `isError` is
`this->IsError()`.  The check `op->IsError()` in the loop is left out: every
operator of the arena was made by `new` in `WEBNN_VALIDATE`, never as an error
object. -/
def buildImpl (backend : Backend) (isError : Bool) (g : Graph)
    (namedOperands : List (String × Operand)) : Option (List BackendCall × Except String Unit) :=
  if isError then some ([], .error "The GraphBuilderBase is an error object.")
  else if namedOperands.isEmpty then some ([], .error "The namedOperands are empty.")
  else (topologicalSort g (namedOperands.map Prod.snd)).map fun sorted =>
    if sorted.isEmpty then ([], .error "The graph can\x27t be built.")
    else tryCalls backend [.createGraph] (buildCalls sorted namedOperands)

/-- The graph that `GraphBuilderBase::Build` returns: the one that `BuildImpl`
compiled, or the object of `GraphBase::MakeError`. -/
inductive GraphHandle
  | error
  | compiled
  deriving DecidableEq, Repr

/-- `GraphBuilderBase::Build`.  `ConsumedError` hands the error of `BuildImpl`
to the context, which records it, and `Build` returns an error graph.  The
calls that `BuildImpl` made on the backend are returned in both cases. -/
def build (backend : Backend) (isError : Bool) (s : Session)
    (namedOperands : List (String × Operand)) : Option (Session × List BackendCall × GraphHandle) :=
  (buildImpl backend isError s.graph namedOperands).map fun
    | (calls, .error e) => ({ s with errors := s.errors ++ [e] }, calls, .error)
    | (calls, .ok ()) => (s, calls, .compiled)

/-! ## `DAWN_TRY` over a list of calls -/

section Sorting

variable {g : Graph} {roots : List Operand}

/-- The potential of the state after the first `for` loop. -/
theorem sortPotential_initial (V : Finset Nat) :
    sortPotential g V (initialSortState roots) [] ≤ roots.length + V.card + ∑ v ∈ V, g.numInputs v := by
  have hlen : (initialSortState roots).nodesToDo.length ≤ roots.length := by
    simpa [initialSortState] using List.length_filterMap_le Operand.operator roots
  simp only [sortPotential, initialSortState, List.not_mem_nil, not_false_eq_true, and_self,
    filter_True, sum_add_distrib, card_eq_sum_ones] at hlen ⊢
  omega

/-- Without error roots, the sort is its loop from `initialSortState`. -/
theorem topologicalSort_of_no_error (g : Graph) (h : ∀ r ∈ roots, r.isError = false) :
    topologicalSort g roots =
      (loop g (sortFuel g roots) (initialSortState roots)).bind SortState.returned := by
  simp [topologicalSort, pushRootNodes_eq roots h, initialSortState]

/-- On a well-formed arena without error inputs, the loop from roots that exist
empties the stack within its budget `sortFuel`. -/
theorem loop_sortFuel (hwf : g.WellFormed) (hclean : g.NoErrorInputs)
    (hvalid : ∀ r ∈ roots, r.ValidIn g.operators) :
    ∃ s' P', loop g (sortFuel g roots) (initialSortState roots) = some s' ∧ s'.nodesToDo = [] ∧
      SortInv g roots s' P' := by
  classical
  let V := (range g.operators.length).filter (Reaches g roots)
  have hV : ∀ v, Reaches g roots v → v ∈ V :=
    fun v hv => mem_filter.2 ⟨mem_range.2 (hv.lt_length hwf hvalid), hv⟩
  have hsub : V ⊆ range g.operators.length := filter_subset _ _
  have hfuel : sortPotential g V (initialSortState roots) [] ≤ sortFuel g roots := by
    have h₁ := card_le_card hsub
    have h₂ := sum_le_sum_of_subset (f := g.numInputs) hsub
    have h₃ := @sortPotential_initial g roots V
    simp only [card_range] at h₁
    unfold sortFuel
    omega
  exact loop_empties hwf hclean hvalid hV _ _ _ (SortInv.initial g roots) hfuel

/-- On a well-formed arena without error inputs, the sort of roots that exist
and are not errors returns the reachable operators in topological order. -/
theorem topologicalSort_sorted (hwf : g.WellFormed) (hclean : g.NoErrorInputs)
    (hroots : ∀ r ∈ roots, r.isError = false ∧ r.ValidIn g.operators) :
    ∃ sorted, topologicalSort g roots = some sorted ∧ SortedOrder g roots sorted := by
  obtain ⟨s', P', hloop, hnil, h'⟩ := loop_sortFuel hwf hclean fun r hr => (hroots r hr).2
  exact ⟨s'.result, by
    rw [topologicalSort_of_no_error g fun r hr => (hroots r hr).1, hloop, Option.some_bind,
      SortState.returned_of_nil hnil], h'.sorted_of_empty hnil⟩

end Sorting

/-! ## Every session that builder calls reach -/

/-- The operand is the output of an operator of the arena, and every operator
that it depends on, through any chain of inputs, has only inputs that are not
errors and that have a producer in the arena. -/
def Graph.CleanUpstream (g : Graph) (o : Operand) : Prop :=
  o.isError = false ∧ o.ValidIn g.operators ∧
    ∀ u, Reaches g [o] u → ∀ i ∈ g.inputs u, i.isError = false ∧ i.ValidIn g.operators

section Reachable

variable {validateKind : Operator → Except String Unit} {s : Session}

/-- Under the contract, every operand of a reachable session that is not an
error has a clean upstream. -/
theorem Built.cleanUpstream (hc : RejectsErrorInputs validateKind) (hs : Built validateKind s)
    {o : Operand} (ho : o.ValidIn s.graph.operators) (hne : o.isError = false) :
    s.graph.CleanUpstream o :=
  ⟨hne, ho, fun u _ i hi =>
    ⟨hs.noErrorInputs hc u i hi, Operand.validIn_of_take (hs.wellFormed u i hi)⟩⟩

/-- The operand that a call returns exists in the arena after the call, when
its operator has a primary output. -/
theorem validateForOperand_validIn {op : Operator} (hout : 0 < op.outputs) :
    (validateForOperand validateKind s op).2.ValidIn
      (validateForOperand validateKind s op).1.graph.operators := by
  cases hv : validateAndInferOutputInfo validateKind op with
  | error e => simp [validateForOperand, webnnValidate_of_error hv, Operand.ValidIn]
  | ok u => simpa [validateForOperand, webnnValidate_of_ok hv, Operand.ValidIn] using hout

/-- The operands that an array call returns are outputs of the new operator,
in the arena after the call. -/
theorem validateArrayOperand_outputs {op : Operator} {outputs : List Operand}
    (h : (validateArrayOperand validateKind s op).2 = .operands outputs) :
    ∀ o ∈ outputs, o.isError = false ∧
      o.ValidIn (validateArrayOperand validateKind s op).1.graph.operators := by
  cases hv : validateAndInferOutputInfo validateKind op with
  | error e => simp [validateArrayOperand, webnnValidate_of_error hv] at h
  | ok u =>
    simp only [validateArrayOperand, webnnValidate_of_ok hv, OperandArray.operands.injEq] at h ⊢
    subst h
    intro o ho
    obtain ⟨k, hk, rfl⟩ := List.mem_map.1 ho
    simpa [Operand.ValidIn] using List.mem_range.1 hk

/-- A single-output call reaches the session of its macro. -/
theorem validateForOperand_fst {op : Operator} :
    (validateForOperand validateKind s op).1 = (webnnValidate validateKind s op).1 := by
  rcases h : webnnValidate validateKind s op with ⟨s', _ | i⟩ <;> simp [validateForOperand, h]

/-- An array call reaches the session of its macro. -/
theorem validateArrayOperand_fst {op : Operator} :
    (validateArrayOperand validateKind s op).1 = (webnnValidate validateKind s op).1 := by
  rcases h : webnnValidate validateKind s op with ⟨s', _ | i⟩ <;> simp [validateArrayOperand, h]

/-- An error among the named operands makes the sort return the empty list,
and `BuildImpl` fail before `CreateGraph`. -/
theorem buildImpl_of_error_operand (backend : Backend) (isError : Bool) (g : Graph)
    {namedOperands : List (String × Operand)} (he : ∃ no ∈ namedOperands, no.2.isError = true) :
    ∃ e, buildImpl backend isError g namedOperands = some ([], .error e) := by
  obtain ⟨no, hno, h⟩ := he
  have hsort := topologicalSort_of_error g ⟨no.2, List.mem_map_of_mem _ hno, h⟩
  cases isError
  · simp [buildImpl, hsort, List.ne_nil_of_mem hno]
  · simp [buildImpl]

/-- The session of the first scenario of the spec: `Input("x", [1, 4])`, then
`Relu` of it. -/
def reluSession : Session :=
  (webnnValidate validateInputs
    (webnnValidate validateInputs Session.empty ⟨.input "x" [1, 4], [], 1⟩).1
    ⟨.unary .relu, [.output 0 0], 1⟩).1

theorem built_reluSession : Built validateInputs reluSession :=
  .call _ (.call _ .empty (by decide) (by decide)) (by decide) (by decide)

theorem error_operands_poison (hc : RejectsErrorInputs validateKind) (hs : Built validateKind s) :
    (∀ op : Operator, op.WellShaped → (∀ i ∈ op.inputs, i.ValidIn s.graph.operators) →
      (0 < op.outputs → (validateForOperand validateKind s op).2.isError = false →
        (validateForOperand validateKind s op).1.graph.CleanUpstream
          (validateForOperand validateKind s op).2) ∧
      ∀ outputs, (validateArrayOperand validateKind s op).2 = .operands outputs →
        ∀ o ∈ outputs, (validateArrayOperand validateKind s op).1.graph.CleanUpstream o) ∧
    (∀ op : Operator, op.WellShaped → (∃ i ∈ op.inputs, i.isError = true) →
      (validateForOperand validateKind s op).2 = .error ∧
      (validateForOperand validateKind s op).1.graph = s.graph ∧
      (validateArrayOperand validateKind s op).2 = .error ∧
      (validateArrayOperand validateKind s op).1.graph = s.graph) ∧
    (∀ backend isError (namedOperands : List (String × Operand)),
      (∃ no ∈ namedOperands, no.2.isError = true) →
      ∃ e, buildImpl backend isError s.graph namedOperands = some ([], .error e)) ∧
    (∀ roots : List Operand, (∀ r ∈ roots, r.isError = false ∧ r.ValidIn s.graph.operators) →
      ∃ sorted, topologicalSort s.graph roots = some sorted) := by
  refine ⟨fun op hws hin => ⟨fun hout hne => ?_, fun outputs h o ho => ?_⟩, fun op hws he => ?_,
    fun backend isError namedOperands he => ?_, fun roots hroots => ?_⟩
  · have hbuilt : Built validateKind (validateForOperand validateKind s op).1 := by
      rw [validateForOperand_fst]; exact hs.call op hws hin
    exact hbuilt.cleanUpstream hc (validateForOperand_validIn hout) hne
  · have hbuilt : Built validateKind (validateArrayOperand validateKind s op).1 := by
      rw [validateArrayOperand_fst]; exact hs.call op hws hin
    obtain ⟨hne, hvalid⟩ := validateArrayOperand_outputs h o ho
    exact hbuilt.cleanUpstream hc hvalid hne
  · obtain ⟨e₁, h₁⟩ := validateForOperand_of_error_input (s := s) hc hws he
    obtain ⟨e₂, h₂⟩ := validateArrayOperand_of_error_input (s := s) hc hws he
    simp [h₁, h₂]
  · exact buildImpl_of_error_operand backend isError s.graph he
  · obtain ⟨sorted, hsort, -⟩ := topologicalSort_sorted hs.wellFormed (hs.noErrorInputs hc) hroots
    exact ⟨sorted, hsort⟩

theorem reluSession_relu_of_error :
    (validateForOperand validateInputs reluSession ⟨.unary .relu, [.error], 1⟩).2 = .error ∧
    (validateForOperand validateInputs reluSession ⟨.unary .relu, [.error], 1⟩).1.graph =
      reluSession.graph ∧
    (validateArrayOperand validateInputs reluSession ⟨.unary .relu, [.error], 1⟩).2 = .error ∧
    (validateArrayOperand validateInputs reluSession ⟨.unary .relu, [.error], 1⟩).1.graph =
      reluSession.graph :=
  (error_operands_poison rejectsErrorInputs_validateInputs built_reluSession).2.1 _ (by decide)
    ⟨.error, List.mem_singleton_self _, rfl⟩

theorem topologicalSort_loop_bound (hc : RejectsErrorInputs validateKind)
    (hs : Built validateKind s) {roots : List Operand}
    (hroots : ∀ r ∈ roots, r.isError = false ∧ r.ValidIn s.graph.operators) (V : Finset Nat)
    (hV : ∀ v, v ∈ V ↔ Reaches s.graph roots v) :
    pushRootNodes roots [] = some (initialSortState roots).nodesToDo ∧
    (∃ s', loop s.graph (roots.length + V.card + ∑ v ∈ V, s.graph.numInputs v)
      (initialSortState roots) = some s' ∧ s'.nodesToDo = []) ∧
    ∀ i j si sj v, i < j → loop s.graph i (initialSortState roots) = some si →
      loop s.graph j (initialSortState roots) = some sj →
      Expands s.graph si v → ¬ Expands s.graph sj v := by
  have hvalid : ∀ r ∈ roots, r.ValidIn s.graph.operators := fun r hr => (hroots r hr).2
  refine ⟨by simpa [initialSortState] using pushRootNodes_eq roots (fun r hr => (hroots r hr).1) [],
    ?_, fun i j si sj v hij hi hj hexp => ?_⟩
  · obtain ⟨s', P', hloop, hnil, -⟩ := loop_empties hs.wellFormed (hs.noErrorInputs hc) hvalid
      (fun v hv => (hV v).2 hv) _ _ _ (SortInv.initial s.graph roots) (sortPotential_initial V)
    exact ⟨s', hloop, hnil⟩
  · exact expands_once hs.wellFormed (hs.noErrorInputs hc) hvalid (SortInv.initial s.graph roots)
      hij hi hj hexp

/-- The operators that the output of `Relu` depends on: `Relu` and `Input`. -/
theorem reaches_reluSession (v : Nat) :
    Reaches reluSession.graph [.output 1 0] v ↔ v ∈ ({0, 1} : Finset Nat) := by
  have h₀ : reluSession.graph.deps 0 = [] := by decide
  have h₁ : reluSession.graph.deps 1 = [0] := by decide
  constructor
  · intro h
    induction h with
    | root hr hop =>
      rw [List.mem_singleton.1 hr] at hop
      simp [(Option.some_injective _ hop).symm]
    | input _ hd ih =>
      rcases Finset.mem_insert.1 ih with rfl | hu
      · simp [h₀] at hd
      · rw [Finset.mem_singleton.1 hu, h₁, List.mem_singleton] at hd
        simp [hd]
  · intro hv
    rcases Finset.mem_insert.1 hv with rfl | hv
    · exact .input (.root (List.mem_singleton_self _) rfl) (by simp [h₁])
    · exact Finset.mem_singleton.1 hv ▸ .root (List.mem_singleton_self _) rfl

theorem reluSession_sort_loop_bound :
    ∃ s', loop reluSession.graph
      ([Operand.output 1 0].length + ({0, 1} : Finset Nat).card +
        ∑ v ∈ ({0, 1} : Finset Nat), reluSession.graph.numInputs v)
      (initialSortState [.output 1 0]) = some s' ∧ s'.nodesToDo = [] :=
  (topologicalSort_loop_bound rejectsErrorInputs_validateInputs built_reluSession (by decide)
    {0, 1} fun v => (reaches_reluSession v).symm).2.1

/-- No operator of a session that builder calls reach depends on itself:
builder calls only build acyclic graphs, so the sort never meets a cycle. -/
theorem Built.acyclic (hs : Built validateKind s) (v : Nat) :
    ¬ Reaches s.graph (s.graph.inputs v) v :=
  fun h => lt_irrefl v (h.lt_of_inputs hs.wellFormed)

theorem reluSession_acyclic : ¬ Reaches reluSession.graph (reluSession.graph.inputs 1) 1 :=
  Built.acyclic built_reluSession 1

end Reachable

end WebnnNative
