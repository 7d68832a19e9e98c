import Mathlib.Data.List.Basic

/-!
# Operands, operators and the operator arena

`webnn_native` keeps no list of the operators that a `GraphBuilderBase`
creates.  Each `OperatorBase` holds `Ref`s to its input operands, and each
`OperandBase` points back at the operator that produced it.  This file models
that heap as an arena.  `Graph.operators` lists every operator that the
builder calls have created, in order of creation, and an operand names its
producer by index.

* `Operand` and `Operator` are `OperandBase` and `OperatorBase` with the
  fields that `GraphBuilder.cpp` reads: `IsError`, `Operator()`, `Inputs()`
  and the size of `Outputs()`.  `OperatorKind` is the class of the operator
  with the arguments that its constructor takes in `GraphBuilder.cpp`.
* `Graph.WellFormed` says that every input of an operator was created before
  it.  `WEBNN_VALIDATE` can only build an operator from operands that exist,
  so every arena that the builder reaches has this shape, and `Graph.deps_lt`
  turns it into the order that the proofs about the sort induct on.
* `Reaches` is the set of operators that `TopologicalSort` has to emit: the
  producers of the roots, closed under `Inputs()` and `Operator()`.

What this file leaves out: the element types and shapes that
`ValidateAndInferOutputInfo` stores on the outputs, and the option structures
of the operators.  No function modelled here reads them.
-/

namespace WebnnNative

/-- `op::UnaryOpType`. -/
inductive UnaryOpType
  | abs | ceil | cos | exp | floor | hardSwish | log | neg | relu | sigmoid | sin | softmax
  | tan | tanh
  deriving DecidableEq, Repr

/-- `op::BinaryOpType`. -/
inductive BinaryOpType
  | add | div | matMul | max | min | mul | power | sub
  deriving DecidableEq, Repr

/-- `op::Pool2dType`. -/
inductive Pool2dType
  | averagePool2d | l2Pool2d | maxPool2d
  deriving DecidableEq, Repr

/-- `op::ReduceType`. -/
inductive ReduceType
  | reduceArgMax | reduceArgMin | reduceL2 | reduceL1 | reduceMax | reduceMean | reduceMin
  | reduceProduct | reduceSum
  deriving DecidableEq, Repr

/-- The class of an operator, one constructor per class under `webnn_native/ops`,
with the scalar arguments that `GraphBuilder.cpp` passes to its constructor. -/
inductive OperatorKind
  | batchNorm
  | binary (type : BinaryOpType)
  | clamp
  | concat (axis : Nat)
  | constant
  | conv2d
  | convTranspose2d
  | gemm
  | gru (steps hiddenSize : Int)
  | input (name : String) (dimensions : List Int)
  | instanceNorm
  | leakyRelu
  | pad
  | pool2d (type : Pool2dType)
  | reduce (type : ReduceType)
  | resample2d
  | reshape (newShape : List Int)
  | slice (starts sizes : List Int)
  | split (splits : List Nat)
  | squeeze
  | transpose
  | unary (type : UnaryOpType)
  deriving DecidableEq, Repr

/-- `OperandBase`.  `error` is the object that `OperandBase::MakeError` returns;
`output op slot` is entry `slot` of `Outputs()` of the operator at index `op`. -/
inductive Operand
  | error
  | output (op slot : Nat)
  deriving DecidableEq, Repr

namespace Operand

/-- `OperandBase::IsError`. -/
def isError : Operand → Bool
  | error => true
  | output _ _ => false

/-- `OperandBase::Operator`: the operator that produced the operand.  An error
operand was made without one, so its pointer is null. -/
def operator : Operand → Option Nat
  | error => none
  | output op _ => some op

@[simp] theorem isError_error : error.isError = true := rfl

@[simp] theorem isError_output (op slot : Nat) : (output op slot).isError = false := rfl

@[simp] theorem operator_error : error.operator = none := rfl

@[simp] theorem operator_output (op slot : Nat) : (output op slot).operator = some op := rfl

end Operand

/-- `OperatorBase`: its class, `Inputs()`, and the number of entries of
`Outputs()`. -/
structure Operator where
  kind : OperatorKind
  inputs : List Operand
  outputs : Nat
  deriving DecidableEq, Repr

/-- The arena: every operator that the builder calls have created, in order of
creation.  Index `i` is the `i`-th operator created. -/
structure Graph where
  operators : List Operator
  deriving Repr

/-- The operand exists in the arena `ops`: it is an error operand, or an entry of
`Outputs()` of an operator of `ops`. -/
def Operand.ValidIn (ops : List Operator) : Operand → Prop
  | .error => True
  | .output op slot => slot < ((ops[op]?).map Operator.outputs).getD 0

instance (ops : List Operator) : DecidablePred (Operand.ValidIn ops)
  | .error => inferInstanceAs (Decidable True)
  | .output _ _ => inferInstanceAs (Decidable (_ < _))

/-- The producer of a valid operand is in the arena. -/
theorem Operand.lt_length_of_validIn {ops : List Operator} {o : Operand} {v : Nat}
    (ho : o.ValidIn ops) (hv : o.operator = some v) : v < ops.length := by
  cases o with
  | error => cases hv
  | output op slot =>
    cases hv
    by_contra hlt
    simp [ValidIn, List.getElem?_eq_none (Nat.le_of_not_lt hlt)] at ho

/-- A valid operand stays valid when the arena grows. -/
theorem Operand.validIn_append {ops : List Operator} {o : Operand} (ho : o.ValidIn ops)
    (more : List Operator) : o.ValidIn (ops ++ more) := by
  cases o with
  | error => trivial
  | output op slot =>
    have hlt : op < ops.length := lt_length_of_validIn ho rfl
    simpa [ValidIn, List.getElem?_append_left hlt] using ho

namespace Graph

/-- `Inputs()` of operator `v`, empty when there is no such operator. -/
def inputs (g : Graph) (v : Nat) : List Operand :=
  ((g.operators[v]?).map Operator.inputs).getD []

/-- The producers of the inputs of operator `v`, one for each input that has one. -/
def deps (g : Graph) (v : Nat) : List Nat :=
  (g.inputs v).filterMap Operand.operator

/-- `Inputs().size()` of operator `v`. -/
def numInputs (g : Graph) (v : Nat) : Nat :=
  (g.inputs v).length

/-- Every input of operator `v` exists among the operators created before `v`. -/
def WellFormed (g : Graph) : Prop :=
  ∀ v, ∀ dep ∈ g.inputs v, dep.ValidIn (g.operators.take v)

/-- No operator of the arena has an error operand among its inputs. -/
def NoErrorInputs (g : Graph) : Prop :=
  ∀ v, ∀ dep ∈ g.inputs v, dep.isError = false

theorem inputs_eq_nil_of_le {g : Graph} {v : Nat} (hv : g.operators.length ≤ v) :
    g.inputs v = [] := by
  simp [inputs, List.getElem?_eq_none hv]

theorem mem_deps {g : Graph} {v d : Nat} :
    d ∈ g.deps v ↔ ∃ dep ∈ g.inputs v, dep.operator = some d :=
  List.mem_filterMap

/-- The length of `deps` is at most the number of inputs. -/
theorem length_deps_le (g : Graph) (v : Nat) : (g.deps v).length ≤ g.numInputs v :=
  List.length_filterMap_le _ _

/-- In a well-formed arena a dependency was created before its consumer. -/
theorem deps_lt {g : Graph} (hwf : g.WellFormed) {v d : Nat} (hd : d ∈ g.deps v) : d < v := by
  obtain ⟨dep, hdep, hop⟩ := mem_deps.1 hd
  have h := Operand.lt_length_of_validIn (hwf v dep hdep) hop
  simp only [List.length_take] at h
  omega

end Graph

/-- Operator `v` can be reached from the producers of `roots` through
`Inputs()` and `Operator()`. -/
inductive Reaches (g : Graph) (roots : List Operand) : Nat → Prop
  | root {r : Operand} {v : Nat} : r ∈ roots → r.operator = some v → Reaches g roots v
  | input {u v : Nat} : Reaches g roots u → v ∈ g.deps u → Reaches g roots v

/-- Every reachable operator is in the arena, when the roots exist in it. -/
theorem Reaches.lt_length {g : Graph} {roots : List Operand} (hwf : g.WellFormed)
    (hroots : ∀ r ∈ roots, r.ValidIn g.operators) {v : Nat} (h : Reaches g roots v) :
    v < g.operators.length := by
  induction h with
  | root hr hv => exact Operand.lt_length_of_validIn (hroots _ hr) hv
  | input _ hd ih => exact lt_trans (Graph.deps_lt hwf hd) ih

/-- On a well-formed arena, every operator that the inputs of `v` reach was
created before `v`. -/
theorem Reaches.lt_of_inputs {g : Graph} (hwf : g.WellFormed) {v u : Nat}
    (h : Reaches g (g.inputs v) u) : u < v := by
  induction h with
  | root hr hu =>
    have h := Operand.lt_length_of_validIn (hwf v _ hr) hu
    rw [List.length_take] at h
    omega
  | input _ hd ih => exact lt_trans (Graph.deps_lt hwf hd) ih

end WebnnNative
