import Mathlib.Algebra.BigOperators.Group.Finset
import WebnnNative.Graph.Basic

/-!
# `GraphBuilderBase::TopologicalSort`

`TopologicalSort` orders the operators that the named outputs depend on.  It
pushes the producer of every root on a stack, and then repeats one iteration
while the stack is not empty.  The iteration looks at the top node.  A node
that is done is popped.  A node that is not done pushes the producer of every
input that is not done.  When it pushed nothing, it is appended to `result`,
popped and marked done.

The model follows the code line by line.

* `pushInputs` is the inner `for` loop over `node->Inputs()`.
* `iteration` is the body of the `while` loop and `loop` runs its first
  `fuel` iterations, or fewer when the stack empties.  The loop has no
  decreasing measure of its own, so the model runs it on a budget,
  `sortFuel`.  `WebnnNative.Graph.SortRun` proves that the stack is empty
  before the budget runs out, on every arena that the builder can reach,
  `WebnnNative.Graph.SortCycle` that it never empties on an arena where a
  root reaches a cycle, and `WebnnNative.Graph.SortDfs` that the loop
  returns the order of the plain recursive search.
* `pushRootNodes` is the first `for` loop, with its early `return {}` at an
  error root.
* `topologicalSort` puts them together, and `SortState.returned` reads
  `result` only from a state whose stack is empty, where the code leaves the
  loop.  The result is `none` when the code would read the operator of an
  error operand, or the inputs of an operator that is not in the arena (the
  code pushes that null pointer and dereferences it when it reaches the
  top), and when the budget is spent with nodes still on the stack, where
  the code is still in its loop and never returns on a cycle.

The equations at the end of the file (`iteration_of_done`,
`iteration_of_ready`, `iteration_of_expand`, `loop_add`) and
`SortState.returned_of_nil` are the only facts that the proofs of the sort
on a well-formed arena use about these definitions.
-/

namespace WebnnNative

/-- The locals of `TopologicalSort` between two iterations of its `while` loop. -/
structure SortState where
  /-- `nodesToDo`, a `std::stack`: the head of the list is the top. -/
  nodesToDo : List Nat
  /-- `nodesDone`, a `std::unordered_set`. -/
  nodesDone : List Nat
  /-- `result`, in the order of `push_back`. -/
  result : List Nat
  deriving DecidableEq, Repr

/-- The `for` loop over `node->Inputs()`: push `dep->Operator()` for every input
whose producer is not done, and clear `can_add` when one is pushed.  The
operator of an error operand is null, and the model stops there. -/
def pushInputs (nodesDone : List Nat) :
    List Operand → List Nat × Bool → Option (List Nat × Bool)
  | [], acc => some acc
  | dep :: deps, (nodesToDo, canAdd) =>
    match dep.operator with
    | none => none
    | some op =>
      if op ∈ nodesDone then pushInputs nodesDone deps (nodesToDo, canAdd)
      else pushInputs nodesDone deps (op :: nodesToDo, false)

/-- One iteration of the `while` loop.  The empty stack, where the loop has
already stopped, is left alone. -/
def iteration (g : Graph) (s : SortState) : Option SortState :=
  match s.nodesToDo with
  | [] => some s
  | node :: rest =>
    if node ∈ s.nodesDone then some { s with nodesToDo := rest }
    else
      match g.operators[node]? with
      | none => none
      | some op =>
        match pushInputs s.nodesDone op.inputs (s.nodesToDo, true) with
        | none => none
        | some (nodesToDo, true) => some ⟨nodesToDo.tail, node :: s.nodesDone, s.result ++ [node]⟩
        | some (nodesToDo, false) => some { s with nodesToDo := nodesToDo }

/-- The first `fuel` iterations of the `while (nodesToDo.size() > 0)` loop,
or fewer when the stack empties first.  The state it returns is the state
after them, which need not be the end of the loop. -/
def loop (g : Graph) : Nat → SortState → Option SortState
  | 0, s => some s
  | fuel + 1, s =>
    match s.nodesToDo with
    | [] => some s
    | _ :: _ => (iteration g s).bind (loop g fuel)

/-- The `for` loop over `rootNodes`.  An error root is the early `return {}`,
here `none`; otherwise `node->Operator()` is pushed, so the last root ends on
top. -/
def pushRootNodes : List Operand → List Nat → Option (List Nat)
  | [], nodesToDo => some nodesToDo
  | .error :: _, _ => none
  | .output op _ :: nodes, nodesToDo => pushRootNodes nodes (op :: nodesToDo)

/-- The iteration budget of `loop`: one iteration for each root, for each
operator and for each input of each operator. -/
def sortFuel (g : Graph) (rootNodes : List Operand) : Nat :=
  rootNodes.length + g.operators.length + ∑ v ∈ Finset.range g.operators.length, g.numInputs v

/-- `return result` after the `while` loop: the loop has ended only when the
stack is empty. -/
def SortState.returned (s : SortState) : Option (List Nat) :=
  match s.nodesToDo with
  | [] => some s.result
  | _ :: _ => none

theorem SortState.returned_of_nil {s : SortState} (hs : s.nodesToDo = []) :
    s.returned = some s.result := by
  simp [SortState.returned, hs]

theorem SortState.returned_of_ne_nil {s : SortState} (hs : s.nodesToDo ≠ []) : s.returned = none := by
  obtain ⟨t, rest, h⟩ := List.exists_cons_of_ne_nil hs
  simp [SortState.returned, h]

/-- `GraphBuilderBase::TopologicalSort`, on the operators created so far.
`none` is a dereference of a null or dangling operator, or a loop that has
not ended when the budget is spent. -/
def topologicalSort (g : Graph) (rootNodes : List Operand) : Option (List Nat) :=
  match pushRootNodes rootNodes [] with
  | none => some []
  | some nodesToDo => (loop g (sortFuel g rootNodes) ⟨nodesToDo, [], []⟩).bind SortState.returned

/-- The iteration from `s` expands `v`: `v` is on top, it is not done, and the
producer of one of its inputs is not done, so the iteration pushes it. -/
def Expands (g : Graph) (s : SortState) (v : Nat) : Prop :=
  s.nodesToDo.head? = some v ∧ v ∉ s.nodesDone ∧ ∃ d ∈ g.deps v, d ∉ s.nodesDone

/-- The node that an iteration expands is on top of the stack. -/
theorem Expands.exists_cons {g : Graph} {s : SortState} {v : Nat} (hexp : Expands g s v) :
    ∃ rest, s.nodesToDo = v :: rest := by
  obtain ⟨htop, -⟩ := hexp
  cases hs : s.nodesToDo with
  | nil => simp [hs] at htop
  | cons t rest => exact ⟨rest, by simp_all⟩

/-! ## The inner loops -/

/-- Without error inputs, the inner loop pushes the producers that are not
done, in reverse, and keeps `can_add` only if it pushed none. -/
theorem pushInputs_eq (nodesDone : List Nat) :
    ∀ (deps : List Operand), (∀ dep ∈ deps, dep.isError = false) →
      ∀ (nodesToDo : List Nat) (canAdd : Bool),
        pushInputs nodesDone deps (nodesToDo, canAdd) =
          some (((deps.filterMap Operand.operator).filter (· ∉ nodesDone)).reverse ++ nodesToDo,
            canAdd && (deps.filterMap Operand.operator).all (· ∈ nodesDone))
  | [], _, nodesToDo, canAdd => by simp [pushInputs]
  | .error :: _, h, _, _ => absurd (h _ (List.mem_cons_self _ _)) (by simp)
  | .output op _ :: deps, h, nodesToDo, canAdd => by
    have ih := pushInputs_eq nodesDone deps (fun d hd => h d (List.mem_cons_of_mem _ hd))
    by_cases hop : op ∈ nodesDone <;> simp [pushInputs, hop, ih]

/-- Without error roots, every producer is pushed, the last root on top. -/
theorem pushRootNodes_eq :
    ∀ (roots : List Operand), (∀ r ∈ roots, r.isError = false) → ∀ (nodesToDo : List Nat),
      pushRootNodes roots nodesToDo = some ((roots.filterMap Operand.operator).reverse ++ nodesToDo)
  | [], _, _ => rfl
  | .error :: _, h, _ => absurd (h _ (List.mem_cons_self _ _)) (by simp)
  | .output op _ :: roots, h, nodesToDo => by
    simp [pushRootNodes, pushRootNodes_eq roots (fun r hr => h r (List.mem_cons_of_mem _ hr))]

/-- An error root stops the first loop. -/
theorem pushRootNodes_eq_none :
    ∀ (roots : List Operand), (∃ r ∈ roots, r.isError = true) → ∀ (nodesToDo : List Nat),
      pushRootNodes roots nodesToDo = none
  | [], ⟨_, hr, _⟩, _ => absurd hr (List.not_mem_nil _)
  | .error :: _, _, _ => rfl
  | .output _ _ :: roots, ⟨r, hr, he⟩, nodesToDo => by
    rcases List.mem_cons.1 hr with rfl | hr
    · simp at he
    · exact pushRootNodes_eq_none roots ⟨r, hr, he⟩ _

/-- When the first loop finishes, it has pushed the producer of every root,
the last root on top. -/
theorem pushRootNodes_eq_some :
    ∀ (roots : List Operand) (acc : List Nat) {nodesToDo : List Nat},
      pushRootNodes roots acc = some nodesToDo →
        nodesToDo = (roots.filterMap Operand.operator).reverse ++ acc
  | [], _, _, h => by
    cases h
    rfl
  | .error :: _, _, _, h => by cases h
  | .output op _ :: roots, acc, _, h => by
    simp [pushRootNodes_eq_some roots (op :: acc) h]

/-! ## The three outcomes of an iteration -/

section Iteration

variable {g : Graph} {s : SortState} {node : Nat} {rest : List Nat}

/-- A node that is done is popped. -/
theorem iteration_of_done (hs : s.nodesToDo = node :: rest) (hd : node ∈ s.nodesDone) :
    iteration g s = some { s with nodesToDo := rest } := by
  simp [iteration, hs, hd]

/-- A node that is not done and has no error input: the inner loop pushes its
producers that are not done, and it is added when there are none. -/
private theorem iteration_of_not_done (hs : s.nodesToDo = node :: rest) (hd : node ∉ s.nodesDone)
    (hlt : node < g.operators.length) (hin : ∀ dep ∈ g.inputs node, dep.isError = false) :
    iteration g s = some (if (g.deps node).all (· ∈ s.nodesDone) = true
      then ⟨(((g.deps node).filter (· ∉ s.nodesDone)).reverse ++ s.nodesToDo).tail,
        node :: s.nodesDone, s.result ++ [node]⟩
      else { s with nodesToDo := ((g.deps node).filter (· ∉ s.nodesDone)).reverse ++ s.nodesToDo }) := by
  obtain ⟨op, hop⟩ : ∃ op, g.operators[node]? = some op := ⟨_, List.getElem?_eq_getElem hlt⟩
  have hi : g.inputs node = op.inputs := by simp [Graph.inputs, hop]
  rw [hi] at hin
  simp only [iteration, hs, hd, if_false, hop, pushInputs_eq _ _ hin, Graph.deps, hi, Bool.true_and]
  generalize (op.inputs.filterMap Operand.operator).all (· ∈ s.nodesDone) = b
  cases b <;> rfl

/-- A node that is not done and whose producers are all done is appended to
`result`, popped and marked done. -/
theorem iteration_of_ready (hs : s.nodesToDo = node :: rest) (hd : node ∉ s.nodesDone)
    (hlt : node < g.operators.length) (hin : ∀ dep ∈ g.inputs node, dep.isError = false)
    (hall : ∀ d ∈ g.deps node, d ∈ s.nodesDone) :
    iteration g s = some ⟨rest, node :: s.nodesDone, s.result ++ [node]⟩ := by
  have hfilter : (g.deps node).filter (· ∉ s.nodesDone) = [] :=
    List.filter_eq_nil_iff.2 (by simpa using hall)
  rw [iteration_of_not_done hs hd hlt hin, if_pos (List.all_eq_true.2 (by simpa using hall)),
    hfilter, hs]
  rfl

/-- A node that is not done and has a producer that is not done pushes every
such producer and stays on the stack. -/
theorem iteration_of_expand (hs : s.nodesToDo = node :: rest) (hd : node ∉ s.nodesDone)
    (hlt : node < g.operators.length) (hin : ∀ dep ∈ g.inputs node, dep.isError = false)
    (hex : ∃ d ∈ g.deps node, d ∉ s.nodesDone) :
    iteration g s = some { s with
      nodesToDo := ((g.deps node).filter (· ∉ s.nodesDone)).reverse ++ s.nodesToDo } := by
  obtain ⟨d, hdm, hdn⟩ := hex
  rw [iteration_of_not_done hs hd hlt hin, if_neg fun h => hdn (by simpa using List.all_eq_true.1 h d hdm)]

end Iteration

/-! ## The loop -/

theorem loop_of_nil (g : Graph) {s : SortState} (hs : s.nodesToDo = []) :
    ∀ fuel, loop g fuel s = some s
  | 0 => rfl
  | _ + 1 => by simp [loop, hs]

theorem loop_succ_of_cons (g : Graph) {s : SortState} {node : Nat} {rest : List Nat}
    (hs : s.nodesToDo = node :: rest) (fuel : Nat) :
    loop g (fuel + 1) s = (iteration g s).bind (loop g fuel) := by
  simp [loop, hs]

/-- Running `a + b` iterations is running `a` and then `b` more. -/
theorem loop_add (g : Graph) (a b : Nat) (s : SortState) :
    loop g (a + b) s = (loop g a s).bind (loop g b) := by
  induction a generalizing s with
  | zero => simp [loop]
  | succ a ih =>
    rw [Nat.add_right_comm]
    cases hs : s.nodesToDo with
    | nil => simp [loop_of_nil g hs]
    | cons node rest =>
      simp only [loop_succ_of_cons g hs, Option.bind_assoc]
      exact congrArg _ (funext ih)

/-- An error root makes the sort return the empty list. -/
theorem topologicalSort_of_error (g : Graph) {roots : List Operand}
    (h : ∃ r ∈ roots, r.isError = true) : topologicalSort g roots = some [] := by
  simp [topologicalSort, pushRootNodes_eq_none roots h]

end WebnnNative
