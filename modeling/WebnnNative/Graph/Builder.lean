import WebnnNative.Graph.Basic

/-!
# The builder calls

Every operator method of `GraphBuilderBase` is one use of `WEBNN_VALIDATE`:
it constructs the operator from its arguments, runs
`ValidateAndInferOutputInfo`, and either returns an output of the operator or
hands the error to the context and returns `OperandBase::MakeError`.  The
operator of a failed call is released with its `Ref`, so it never reaches the
arena.

* `webnnValidate`, `validateForOperand` and `validateArrayOperand` are the
  macros.  The methods of `GraphBuilder.cpp` follow, one definition each, as
  the macro applied to the operator that the method constructs.
* `validateAndInferOutputInfo` is the virtual function.  `op::Input`
  overrides it in `Input.h` and never fails.  The overrides of the other
  classes are not in the sources; they are the parameter `validateKind`.
  `RejectsErrorInputs` is the contract on it: a class rejects an operator
  with an error input.
* `Built` is the set of sessions that some sequence of builder calls reaches.
  `Built.wellFormed` proves that their arenas are well formed, and
  `Built.noErrorInputs` that under the contract no operator has an error
  input.  A call only appends to the arena (`webnnValidate_graph`).

What this file leaves out: the fusion operators (`ReluOperator` and the
like), which are not graph nodes, and `ConstantWithGpuBuffer`, which is
`UNREACHABLE` in builds without GPU buffers.  An options structure enters a
call only through the operands it holds, which the absent constructors add to
the inputs: `optionOperands` stands for them.
-/

namespace WebnnNative

/-- Whether the class is `op::Input`. -/
def OperatorKind.isInput : OperatorKind → Bool
  | .input _ _ => true
  | _ => false

/-- An operator as a builder method constructs it: `op::Input` takes no input.
An operator of `VALIDATE_ARRAY_OPERAND` may have no output, such as a `Split`
into no parts, so a primary output is asked for only where
`VALIDATE_FOR_OPERAND` takes one. -/
def Operator.WellShaped (op : Operator) : Prop :=
  op.kind.isInput = true → op.inputs = []

instance : DecidablePred Operator.WellShaped :=
  fun op => inferInstanceAs (Decidable (op.kind.isInput = true → op.inputs = []))

/-- What the builder calls change: the arena, and the errors that
`ContextBase::ConsumedError` has taken, in order. -/
structure Session where
  graph : Graph
  errors : List String

/-- No operator created and no error recorded. -/
def Session.empty : Session := ⟨⟨[]⟩, []⟩

/-- `OperandArrayBase`, as `VALIDATE_ARRAY_OPERAND` returns it. -/
inductive OperandArray
  | error
  | operands (outputs : List Operand)

/-- `OperatorBase::ValidateAndInferOutputInfo`, dispatched on the class.
`op::Input` sets the type and shape of its output from its descriptor and
succeeds; `validateKind` is the override of every other class. -/
def validateAndInferOutputInfo (validateKind : Operator → Except String Unit) (op : Operator) :
    Except String Unit :=
  match op.kind with
  | .input _ _ => .ok ()
  | _ => validateKind op

/-- The contract on the class overrides: an operator with an error input fails
validation. -/
def RejectsErrorInputs (validateKind : Operator → Except String Unit) : Prop :=
  ∀ op : Operator, (∃ i ∈ op.inputs, i.isError = true) → ∃ e, validateKind op = .error e

/-- Modelled from the spec: the check that §3 asks of every class's
`ValidateAndInferOutputInfo` ("any operator taking an Error input becomes
Error").  The class-specific checks are left out. -/
def validateInputs (op : Operator) : Except String Unit :=
  if op.inputs.any Operand.isError then .error "An input operand is an error object." else .ok ()

theorem rejectsErrorInputs_validateInputs : RejectsErrorInputs validateInputs := by
  rintro op ⟨i, hi, he⟩
  exact ⟨_, if_pos (List.any_eq_true.2 ⟨i, hi, he⟩)⟩

section Builder

variable (validateKind : Operator → Except String Unit)

/-- `WEBNN_VALIDATE`: validate the new operator, and keep it in the arena or
record the error in the context.  The second component is the index of the
operator when it was kept. -/
def webnnValidate (s : Session) (op : Operator) : Session × Option Nat :=
  match validateAndInferOutputInfo validateKind op with
  | .error e => ({ s with errors := s.errors ++ [e] }, none)
  | .ok () => ({ s with graph := ⟨s.graph.operators ++ [op]⟩ }, some s.graph.operators.length)

/-- `VALIDATE_FOR_OPERAND`: the primary output, or `OperandBase::MakeError`. -/
def validateForOperand (s : Session) (op : Operator) : Session × Operand :=
  match webnnValidate validateKind s op with
  | (s', none) => (s', .error)
  | (s', some i) => (s', .output i 0)

/-- `VALIDATE_ARRAY_OPERAND`: every output, or `OperandArrayBase::MakeError`. -/
def validateArrayOperand (s : Session) (op : Operator) : Session × OperandArray :=
  match webnnValidate validateKind s op with
  | (s', none) => (s', .error)
  | (s', some i) => (s', .operands ((List.range op.outputs).map (.output i)))

namespace GraphBuilder

/-- `GraphBuilderBase::Abs`. -/
def abs (s : Session) (input : Operand) : Session × Operand :=
  validateForOperand validateKind s ⟨.unary .abs, [input], 1⟩

/-- `GraphBuilderBase::Add`. -/
def add (s : Session) (a b : Operand) : Session × Operand :=
  validateForOperand validateKind s ⟨.binary .add, [a, b], 1⟩

/-- `GraphBuilderBase::AveragePool2d`. -/
def averagePool2d (s : Session) (input : Operand) (optionOperands : List Operand) :
    Session × Operand :=
  validateForOperand validateKind s ⟨.pool2d .averagePool2d, input :: optionOperands, 1⟩

/-- `GraphBuilderBase::BatchNorm`. -/
def batchNorm (s : Session) (input mean variance : Operand) (optionOperands : List Operand) :
    Session × Operand :=
  validateForOperand validateKind s ⟨.batchNorm, input :: mean :: variance :: optionOperands, 1⟩

/-- `GraphBuilderBase::Clamp`. -/
def clamp (s : Session) (input : Operand) (optionOperands : List Operand) : Session × Operand :=
  validateForOperand validateKind s ⟨.clamp, input :: optionOperands, 1⟩

/-- `GraphBuilderBase::Ceil`. -/
def ceil (s : Session) (input : Operand) : Session × Operand :=
  validateForOperand validateKind s ⟨.unary .ceil, [input], 1⟩

/-- `GraphBuilderBase::Concat`: the `inputsCount` operands of `inputs`. -/
def concat (s : Session) (inputs : List Operand) (axis : Nat) : Session × Operand :=
  validateForOperand validateKind s ⟨.concat axis, inputs, 1⟩

/-- `GraphBuilderBase::Constant`. -/
def constant (s : Session) : Session × Operand :=
  validateForOperand validateKind s ⟨.constant, [], 1⟩

/-- `GraphBuilderBase::Conv2d`. -/
def conv2d (s : Session) (input filter : Operand) (optionOperands : List Operand) :
    Session × Operand :=
  validateForOperand validateKind s ⟨.conv2d, input :: filter :: optionOperands, 1⟩

/-- `GraphBuilderBase::ConvTranspose2d`. -/
def convTranspose2d (s : Session) (input filter : Operand) (optionOperands : List Operand) :
    Session × Operand :=
  validateForOperand validateKind s ⟨.convTranspose2d, input :: filter :: optionOperands, 1⟩

/-- `GraphBuilderBase::Cos`. -/
def cos (s : Session) (input : Operand) : Session × Operand :=
  validateForOperand validateKind s ⟨.unary .cos, [input], 1⟩

/-- `GraphBuilderBase::Div`. -/
def div (s : Session) (a b : Operand) : Session × Operand :=
  validateForOperand validateKind s ⟨.binary .div, [a, b], 1⟩

/-- `GraphBuilderBase::Exp`. -/
def exp (s : Session) (input : Operand) : Session × Operand :=
  validateForOperand validateKind s ⟨.unary .exp, [input], 1⟩

/-- `GraphBuilderBase::Floor`. -/
def floor (s : Session) (input : Operand) : Session × Operand :=
  validateForOperand validateKind s ⟨.unary .floor, [input], 1⟩

/-- `GraphBuilderBase::Gemm`. -/
def gemm (s : Session) (a b : Operand) (optionOperands : List Operand) : Session × Operand :=
  validateForOperand validateKind s ⟨.gemm, a :: b :: optionOperands, 1⟩

/-- `GraphBuilderBase::Gru`.  `outputs` is the number of outputs that `op::Gru`
makes from its options. -/
def gru (s : Session) (input weight recurrentWeight : Operand) (steps hiddenSize : Int)
    (optionOperands : List Operand) (outputs : Nat) : Session × OperandArray :=
  validateArrayOperand validateKind s
    ⟨.gru steps hiddenSize, input :: weight :: recurrentWeight :: optionOperands, outputs⟩

/-- `GraphBuilderBase::HardSwish`. -/
def hardSwish (s : Session) (input : Operand) : Session × Operand :=
  validateForOperand validateKind s ⟨.unary .hardSwish, [input], 1⟩

/-- `GraphBuilderBase::Input`: the name and the dimensions of the descriptor. -/
def input (s : Session) (name : String) (dimensions : List Int) : Session × Operand :=
  validateForOperand validateKind s ⟨.input name dimensions, [], 1⟩

/-- `GraphBuilderBase::InstanceNorm`. -/
def instanceNorm (s : Session) (input : Operand) (optionOperands : List Operand) :
    Session × Operand :=
  validateForOperand validateKind s ⟨.instanceNorm, input :: optionOperands, 1⟩

/-- `GraphBuilderBase::LeakyRelu`. -/
def leakyRelu (s : Session) (input : Operand) (optionOperands : List Operand) :
    Session × Operand :=
  validateForOperand validateKind s ⟨.leakyRelu, input :: optionOperands, 1⟩

/-- `GraphBuilderBase::Log`. -/
def log (s : Session) (input : Operand) : Session × Operand :=
  validateForOperand validateKind s ⟨.unary .log, [input], 1⟩

/-- `GraphBuilderBase::L2Pool2d`. -/
def l2Pool2d (s : Session) (input : Operand) (optionOperands : List Operand) :
    Session × Operand :=
  validateForOperand validateKind s ⟨.pool2d .l2Pool2d, input :: optionOperands, 1⟩

/-- `GraphBuilderBase::Matmul`. -/
def matmul (s : Session) (a b : Operand) : Session × Operand :=
  validateForOperand validateKind s ⟨.binary .matMul, [a, b], 1⟩

/-- `GraphBuilderBase::Max`. -/
def max (s : Session) (a b : Operand) : Session × Operand :=
  validateForOperand validateKind s ⟨.binary .max, [a, b], 1⟩

/-- `GraphBuilderBase::MaxPool2d`. -/
def maxPool2d (s : Session) (input : Operand) (optionOperands : List Operand) :
    Session × Operand :=
  validateForOperand validateKind s ⟨.pool2d .maxPool2d, input :: optionOperands, 1⟩

/-- `GraphBuilderBase::Min`. -/
def min (s : Session) (a b : Operand) : Session × Operand :=
  validateForOperand validateKind s ⟨.binary .min, [a, b], 1⟩

/-- `GraphBuilderBase::Mul`. -/
def mul (s : Session) (a b : Operand) : Session × Operand :=
  validateForOperand validateKind s ⟨.binary .mul, [a, b], 1⟩

/-- `GraphBuilderBase::Neg`. -/
def neg (s : Session) (input : Operand) : Session × Operand :=
  validateForOperand validateKind s ⟨.unary .neg, [input], 1⟩

/-- `GraphBuilderBase::Pad`: the padding is an operand. -/
def pad (s : Session) (input padding : Operand) (optionOperands : List Operand) :
    Session × Operand :=
  validateForOperand validateKind s ⟨.pad, input :: padding :: optionOperands, 1⟩

/-- `GraphBuilderBase::Pow`. -/
def pow (s : Session) (a b : Operand) : Session × Operand :=
  validateForOperand validateKind s ⟨.binary .power, [a, b], 1⟩

/-- The nine `GraphBuilderBase::Reduce*` methods, one `op::Reduce` each. -/
def reduce (type : ReduceType) (s : Session) (input : Operand) (optionOperands : List Operand) :
    Session × Operand :=
  validateForOperand validateKind s ⟨.reduce type, input :: optionOperands, 1⟩

/-- `GraphBuilderBase::ReduceArgMax`. -/
def reduceArgMax := reduce validateKind .reduceArgMax
/-- `GraphBuilderBase::ReduceArgMin`. -/
def reduceArgMin := reduce validateKind .reduceArgMin
/-- `GraphBuilderBase::ReduceL2`. -/
def reduceL2 := reduce validateKind .reduceL2
/-- `GraphBuilderBase::ReduceL1`. -/
def reduceL1 := reduce validateKind .reduceL1
/-- `GraphBuilderBase::ReduceMax`. -/
def reduceMax := reduce validateKind .reduceMax
/-- `GraphBuilderBase::ReduceMean`. -/
def reduceMean := reduce validateKind .reduceMean
/-- `GraphBuilderBase::ReduceMin`. -/
def reduceMin := reduce validateKind .reduceMin
/-- `GraphBuilderBase::ReduceProduct`. -/
def reduceProduct := reduce validateKind .reduceProduct
/-- `GraphBuilderBase::ReduceSum`. -/
def reduceSum := reduce validateKind .reduceSum

/-- `GraphBuilderBase::Relu`. -/
def relu (s : Session) (input : Operand) : Session × Operand :=
  validateForOperand validateKind s ⟨.unary .relu, [input], 1⟩

/-- `GraphBuilderBase::Resample2d`. -/
def resample2d (s : Session) (input : Operand) (optionOperands : List Operand) :
    Session × Operand :=
  validateForOperand validateKind s ⟨.resample2d, input :: optionOperands, 1⟩

/-- `GraphBuilderBase::Reshape`: the `new_shape_count` entries of `new_shape`. -/
def reshape (s : Session) (input : Operand) (newShape : List Int) : Session × Operand :=
  validateForOperand validateKind s ⟨.reshape newShape, [input], 1⟩

/-- `GraphBuilderBase::Sigmoid`. -/
def sigmoid (s : Session) (input : Operand) : Session × Operand :=
  validateForOperand validateKind s ⟨.unary .sigmoid, [input], 1⟩

/-- `GraphBuilderBase::Sin`. -/
def sin (s : Session) (input : Operand) : Session × Operand :=
  validateForOperand validateKind s ⟨.unary .sin, [input], 1⟩

/-- `GraphBuilderBase::Slice`. -/
def slice (s : Session) (input : Operand) (starts sizes : List Int)
    (optionOperands : List Operand) : Session × Operand :=
  validateForOperand validateKind s ⟨.slice starts sizes, input :: optionOperands, 1⟩

/-- `GraphBuilderBase::Softmax`. -/
def softmax (s : Session) (input : Operand) : Session × Operand :=
  validateForOperand validateKind s ⟨.unary .softmax, [input], 1⟩

/-- `GraphBuilderBase::Split`.  `outputs` is the number of outputs that
`op::Split` makes from `splits`. -/
def split (s : Session) (input : Operand) (splits : List Nat) (optionOperands : List Operand)
    (outputs : Nat) : Session × OperandArray :=
  validateArrayOperand validateKind s ⟨.split splits, input :: optionOperands, outputs⟩

/-- `GraphBuilderBase::Squeeze`. -/
def squeeze (s : Session) (input : Operand) (optionOperands : List Operand) :
    Session × Operand :=
  validateForOperand validateKind s ⟨.squeeze, input :: optionOperands, 1⟩

/-- `GraphBuilderBase::Sub`. -/
def sub (s : Session) (a b : Operand) : Session × Operand :=
  validateForOperand validateKind s ⟨.binary .sub, [a, b], 1⟩

/-- `GraphBuilderBase::Tan`. -/
def tan (s : Session) (input : Operand) : Session × Operand :=
  validateForOperand validateKind s ⟨.unary .tan, [input], 1⟩

/-- `GraphBuilderBase::Tanh`. -/
def tanh (s : Session) (input : Operand) : Session × Operand :=
  validateForOperand validateKind s ⟨.unary .tanh, [input], 1⟩

/-- `GraphBuilderBase::Transpose`. -/
def transpose (s : Session) (input : Operand) (optionOperands : List Operand) :
    Session × Operand :=
  validateForOperand validateKind s ⟨.transpose, input :: optionOperands, 1⟩

end GraphBuilder

/-- The sessions that some sequence of builder calls reaches from the empty
session.  A call takes operands that exist in the arena, error operands
included. -/
inductive Built : Session → Prop
  | empty : Built Session.empty
  | call {s : Session} (op : Operator) : Built s → op.WellShaped →
      (∀ i ∈ op.inputs, i.ValidIn s.graph.operators) → Built (webnnValidate validateKind s op).1

end Builder

/-! ## Growing the arena -/

namespace Graph

variable {ops : List Operator} {op : Operator}

theorem inputs_append_of_lt {v : Nat} (hv : v < ops.length) :
    (⟨ops ++ [op]⟩ : Graph).inputs v = (⟨ops⟩ : Graph).inputs v := by
  simp [inputs, List.getElem?_append_left hv]

theorem inputs_append_self : (⟨ops ++ [op]⟩ : Graph).inputs ops.length = op.inputs := by
  simp [inputs]

theorem inputs_append_of_gt {v : Nat} (hv : ops.length < v) :
    (⟨ops ++ [op]⟩ : Graph).inputs v = [] :=
  inputs_eq_nil_of_le (by simpa using hv)

/-- Appending an operator whose inputs exist keeps the arena well formed. -/
theorem wellFormed_append (hwf : (⟨ops⟩ : Graph).WellFormed)
    (hin : ∀ i ∈ op.inputs, i.ValidIn ops) : (⟨ops ++ [op]⟩ : Graph).WellFormed := by
  intro v dep hdep
  rcases lt_trichotomy v ops.length with hv | rfl | hv
  · rw [inputs_append_of_lt hv] at hdep
    simpa [List.take_append_of_le_length hv.le] using hwf v dep hdep
  · rw [inputs_append_self] at hdep
    simpa using hin dep hdep
  · simp [inputs_append_of_gt hv] at hdep

/-- Appending an operator without error inputs keeps the arena free of them. -/
theorem noErrorInputs_append (hne : (⟨ops⟩ : Graph).NoErrorInputs)
    (hin : ∀ i ∈ op.inputs, i.isError = false) : (⟨ops ++ [op]⟩ : Graph).NoErrorInputs := by
  intro v dep hdep
  rcases lt_trichotomy v ops.length with hv | rfl | hv
  · exact hne v dep (by rwa [inputs_append_of_lt hv] at hdep)
  · exact hin dep (by rwa [inputs_append_self] at hdep)
  · simp [inputs_append_of_gt hv] at hdep

end Graph

/-- An operand that exists in the first operators of the arena exists in it. -/
theorem Operand.validIn_of_take {ops : List Operator} {o : Operand} {v : Nat}
    (h : o.ValidIn (ops.take v)) : o.ValidIn ops := by
  simpa using Operand.validIn_append h (ops.drop v)

/-! ## The macro -/

section Lemmas

variable {validateKind : Operator → Except String Unit} {s : Session} {op : Operator}

theorem webnnValidate_of_error {e : String}
    (h : validateAndInferOutputInfo validateKind op = .error e) :
    webnnValidate validateKind s op = ({ s with errors := s.errors ++ [e] }, none) := by
  simp [webnnValidate, h]

theorem webnnValidate_of_ok (h : validateAndInferOutputInfo validateKind op = .ok ()) :
    webnnValidate validateKind s op =
      ({ s with graph := ⟨s.graph.operators ++ [op]⟩ }, some s.graph.operators.length) := by
  simp [webnnValidate, h]

/-- Under the contract, an operator that a method constructs fails validation
when one of its inputs is an error operand. -/
theorem validate_of_error_input (hc : RejectsErrorInputs validateKind) (hws : op.WellShaped)
    (he : ∃ i ∈ op.inputs, i.isError = true) :
    ∃ e, validateAndInferOutputInfo validateKind op = .error e := by
  unfold validateAndInferOutputInfo
  split
  · rename_i heq
    obtain ⟨i, hi, -⟩ := he
    rw [hws (by simp [heq, OperatorKind.isInput])] at hi
    exact absurd hi (List.not_mem_nil _)
  · exact hc op he

/-- Under the contract, a call with an error input returns an error operand,
records the error, and leaves the arena as it was. -/
theorem validateForOperand_of_error_input (hc : RejectsErrorInputs validateKind)
    (hws : op.WellShaped) (he : ∃ i ∈ op.inputs, i.isError = true) :
    ∃ e, validateForOperand validateKind s op = ({ s with errors := s.errors ++ [e] }, .error) := by
  obtain ⟨e, hv⟩ := validate_of_error_input hc hws he
  exact ⟨e, by simp [validateForOperand, webnnValidate_of_error hv]⟩

/-- The array form of `validateForOperand_of_error_input`. -/
theorem validateArrayOperand_of_error_input (hc : RejectsErrorInputs validateKind)
    (hws : op.WellShaped) (he : ∃ i ∈ op.inputs, i.isError = true) :
    ∃ e, validateArrayOperand validateKind s op = ({ s with errors := s.errors ++ [e] }, .error) := by
  obtain ⟨e, hv⟩ := validate_of_error_input hc hws he
  exact ⟨e, by simp [validateArrayOperand, webnnValidate_of_error hv]⟩

/-- The arena after a call is the old arena, or the old arena and the new
operator. -/
theorem webnnValidate_graph :
    (webnnValidate validateKind s op).1.graph = s.graph ∨
      ((webnnValidate validateKind s op).1.graph = ⟨s.graph.operators ++ [op]⟩ ∧
        validateAndInferOutputInfo validateKind op = .ok ()) := by
  cases hv : validateAndInferOutputInfo validateKind op with
  | error e => exact .inl (by simp [webnnValidate_of_error hv])
  | ok u => exact .inr ⟨by simp [webnnValidate_of_ok hv], rfl⟩

end Lemmas

/-! ## Every reachable session -/

namespace Built

variable {validateKind : Operator → Except String Unit} {s : Session}

/-- The arena of every reachable session is well formed. -/
theorem wellFormed (h : Built validateKind s) : s.graph.WellFormed := by
  induction h with
  | empty => intro v dep hdep; simp [Session.empty, Graph.inputs] at hdep
  | @call s op _ _ hin ih =>
    rcases @webnnValidate_graph validateKind s op with h | ⟨h, -⟩
    · rwa [h]
    · rw [h]; exact Graph.wellFormed_append ih hin

/-- Under the contract, no operator of a reachable session has an error input. -/
theorem noErrorInputs (hc : RejectsErrorInputs validateKind) (h : Built validateKind s) :
    s.graph.NoErrorInputs := by
  induction h with
  | empty => intro v dep hdep; simp [Session.empty, Graph.inputs] at hdep
  | @call s op _ hws _ ih =>
    rcases @webnnValidate_graph validateKind s op with h | ⟨h, hok⟩
    · rwa [h]
    · rw [h]
      refine Graph.noErrorInputs_append ih fun i hi => ?_
      by_contra hne
      obtain ⟨e, he⟩ := validate_of_error_input hc hws ⟨i, hi, by simpa using hne⟩
      rw [hok] at he
      cases he

end Built

end WebnnNative
