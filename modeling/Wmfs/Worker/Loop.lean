import Mathlib.Data.List.AList
import Wmfs.Lib.Transition
import Wmfs.Ring.Codec

/-!
# `Wmfs.Worker.Loop`: the ring loop of a Python worker

`_ring_worker_loop` of `wmfs_plugin/worker.py`. The loop pops a command, runs it, and pushes one
completion. What runs is user code: the handler of an operation or the planner of its dynamic
outputs. A `Behaviour` says what that code does for one command, and the loop must cope with
each: a handler may raise any exception, and a planner may also return any plan.

The body of the loop guards the user code with `try`. The completion is encoded by
`completions.push`, behind the guarded region, where only `RingError` is caught. A step of the
machine is a `pop` or the rest of an iteration. The outcomes of the two rings that have nothing
to do with a record, a ring that is closed or corrupt, are steps of their own.

The readings of `perf_counter_ns`, and the differences of two of them, are 64-bit integers.
-/

set_option autoImplicit false

namespace Wmfs.Worker

open Wmfs.Lib Wmfs.Ring.Codec
open Wmfs.Lib.Utf8 (Text ofString)

/-! ### What the user code does -/

/-- An exception: `type(error).__name__` and `str(error)`. -/
structure PyExn where
  typeName : Text
  message : Text
  deriving DecidableEq, Repr

/-- `ValueError(message)`. -/
def valueError (message : String) : PyExn := ⟨ofString "ValueError", ofString message⟩

/-- `TypeError(message)`. -/
def typeError (message : String) : PyExn := ⟨ofString "TypeError", ofString message⟩

/-- `OutputSpec`, with `str(spec.dtype)` for its dtype. -/
structure OutputSpec where
  shape : List Int
  dtype : String
  deriving DecidableEq, Repr

/-- What a planner does: it raises, it returns a dictionary, or it returns something else, on
which the code behind it raises. -/
inductive Planned where
  | raised (error : PyExn)
  | malformed (error : PyExn)
  | plan (specs : AList fun _ : String => OutputSpec)

/-- What happens while one command runs. `views` is what `mapped_buffers.tensor` raises, and
`context` what `InvocationContext` raises. -/
structure Behaviour where
  views : Option PyExn
  context : Option PyExn
  handler : Option PyExn
  planner : Planned
  dequeuedNs : UInt64
  startedNs : UInt64
  inputViewsNs : UInt64
  outputViewsNs : UInt64
  dispatchNs : UInt64
  kernelNs : UInt64
  publishedNs : UInt64

/-- `_Operation`: `len(input_accesses)`, the outputs by name with whether they are dynamic
(`output_plans[index].known is None`), and the scalar kinds. -/
structure Operation where
  inputAccesses : Nat
  tensorOutputs : List (String × Bool)
  scalarKinds : List String

/-- The arguments of the loop that do not change. A `RingOwner` has no zero generation. -/
structure Config where
  generation : Int
  generation_ne : generation ≠ 0
  operations : Int → Option Operation
  planners : Int → Bool

/-! ### The guarded region -/

/-- The exceptions that leave the guarded region: `_OperationFailure`, and all others. -/
inductive Failure where
  | operation (error : PyExn)
  | exception (error : PyExn)
  deriving DecidableEq, Repr

/-- Code that may raise. -/
def raises : Option PyExn → Except Failure Unit
  | none => .ok ()
  | some error => .error (.exception error)

/-- The loop of `_decode_scalars`; `values` says which scalars have been supplied. -/
def decodeScalarsLoop (kinds : List String) :
    List (Int × String) → List Bool → Except Failure (List Bool)
  | [], values => .ok values
  | (parameter, kind) :: arguments, values =>
    if parameter ≥ kinds.length then
      .error (.exception (typeError "Scalar argument does not match operation metadata"))
    else if values.getD parameter.toNat false then
      .error (.exception (valueError "Scalar parameter was supplied more than once"))
    else if kinds.getD parameter.toNat "" ≠ kind then
      .error (.exception (typeError "Scalar argument does not match operation metadata"))
    else
      decodeScalarsLoop kinds arguments (values.set parameter.toNat true)

/-- `_decode_scalars`. -/
def decodeScalars {Obj : Type} (arguments : List (Scalar Obj)) (kinds : List String) :
    Except Failure Unit := do
  let values ← decodeScalarsLoop kinds (arguments.map fun item => (item.parameter, item.kind))
    (List.replicate kinds.length false)
  if values.all (· = true) then return ()
  throw (.exception (valueError "Invocation is missing a scalar argument"))

/-- `TENSOR_INPUT`. -/
def TENSOR_INPUT : Int := 1

/-- `TENSOR_OUTPUT`. -/
def TENSOR_OUTPUT : Int := 2

/-- The tensors of a kind in `command.invocation()`. -/
def tensorsOf {Obj : Type} (command : Record Obj) (kind : Int) : List Tensor :=
  command.tensors.filter fun item => item.kind = kind

/-- `_invoke_known`. Its two versions differ in the clocks only. -/
def invokeKnown {Obj : Type} (config : Config) (command : Record Obj) (b : Behaviour) :
    Except Failure Unit :=
  match config.operations command.operationId with
  | none => .error (.exception
      (valueError ("Unknown operation ID " ++ toString command.operationId)))
  | some operation =>
    if (tensorsOf command TENSOR_INPUT).length ≠ operation.inputAccesses then
      .error (.exception (valueError "Invocation has an invalid input count"))
    else if (tensorsOf command TENSOR_OUTPUT).length ≠ operation.tensorOutputs.length then
      .error (.exception (valueError "Invocation has an invalid output count"))
    else do
      raises b.views
      decodeScalars command.scalars operation.scalarKinds
      raises b.context
      match b.handler with
      | none => return ()
      | some error => throw (.operation error)

/-- `indices` of `_plan_outputs`: the positions of the dynamic outputs. -/
def Operation.indices (operation : Operation) : List (String × Nat) :=
  (operation.tensorOutputs.zipIdx.filter fun entry => entry.1.2).map
    fun entry => (entry.1.1, entry.2)

/-- `str(spec.dtype).removeprefix("torch.")`. -/
def dtypeName (dtype : String) : String :=
  if "torch.".toList <+: dtype.toList then String.ofList (dtype.toList.drop 6) else dtype

/-- The entries of the list that `_plan_outputs` returns, as `PlannedOutput`s. A name that
occurs twice in `indices` has its last position. -/
def plannedOutputs (operation : Operation) (specs : AList fun _ : String => OutputSpec) :
    List PlannedOutput :=
  specs.entries.map fun entry =>
    { output := ((operation.indices.reverse.lookup entry.1).getD 0 : Nat)
      shape := entry.2.shape
      dtype := dtypeName entry.2.dtype }

/-- `set(planned) == set(indices)`. -/
def namesMatch (operation : Operation) (specs : AList fun _ : String => OutputSpec) : Bool :=
  specs.keys.toFinset = (operation.indices.map Prod.fst).toFinset

/-- `_plan_outputs`. -/
def planOutputs {Obj : Type} (config : Config) (command : Record Obj) (b : Behaviour) :
    Except Failure (List PlannedOutput) :=
  match config.operations command.operationId, config.planners command.operationId with
  | some operation, true =>
    if (tensorsOf command TENSOR_INPUT).length ≠ operation.inputAccesses then
      .error (.exception (valueError "Output planning has an invalid input count"))
    else do
      raises b.views
      decodeScalars command.scalars operation.scalarKinds
      raises b.context
      match b.planner with
      | .raised error => throw (.operation error)
      | .malformed error => throw (.exception error)
      | .plan specs =>
        if namesMatch operation specs then
          return plannedOutputs operation specs
        throw (.operation (valueError "Planner returned the wrong dynamic outputs"))
  | _, _ => .error (.exception (valueError
      ("Operation ID " ++ toString command.operationId ++ " has no dynamic planner")))

/-- `COMMAND_INVOKE`. -/
def COMMAND_INVOKE : Int := 1

/-- `COMMAND_PLAN_OUTPUTS`. -/
def COMMAND_PLAN_OUTPUTS : Int := 2

/-- `COMMAND_PING`. -/
def COMMAND_PING : Int := 3

/-- The first `try` of the loop, up to the profile: the planned outputs of the completion. -/
def guarded {Obj : Type} (config : Config) (command : Record Obj) (b : Behaviour) :
    Except Failure (List PlannedOutput) :=
  if command.kind = COMMAND_INVOKE then do
    invokeKnown config command b
    return []
  else if command.kind = COMMAND_PLAN_OUTPUTS then
    planOutputs config command b
  else if command.kind = COMMAND_PING then
    .ok []
  else
    .error (.exception (valueError "Unsupported ring command"))

/-! ### The completion -/

/-- `completion_kind`: `COMPLETION_INVOKE`, `COMPLETION_PLAN_OUTPUTS`, `COMPLETION_PONG`. -/
def completionKind (kind : Int) : Int :=
  if kind = COMMAND_INVOKE then 257
  else if kind = COMMAND_PLAN_OUTPUTS then 258
  else if kind = COMMAND_PING then 259
  else 257

/-- `command.flags & FLAG_PROFILE`. -/
def profiled {Obj : Type} (command : Record Obj) : Bool := command.flags % 2 = 1

/-- A reading of the clock that is made when the command is profiled. -/
def reading {Obj : Type} (command : Record Obj) (clock : UInt64) : Int :=
  if profiled command then clock.toNat else 0

/-- The profile of the completion. The views and the dispatch are measured for a command that
was invoked without an exception, and the kernel of a ping as well. -/
def completionProfile {Obj : Type} (command : Record Obj) (b : Behaviour) (returned : Bool) :
    List Int :=
  let invoked := returned && command.kind = COMMAND_INVOKE
  let measured := returned && (command.kind = COMMAND_INVOKE || command.kind = COMMAND_PING)
  [command.profile.getD 0 0, reading command b.dequeuedNs, reading command b.startedNs,
    if invoked then reading command b.inputViewsNs else 0,
    if invoked then reading command b.outputViewsNs else 0,
    if invoked then reading command b.dispatchNs else 0,
    if measured then reading command b.kernelNs else 0,
    reading command b.publishedNs]

/-- The completion that is pushed. `STATUS_OK` is 1, `STATUS_OPERATION_ERROR` 4 and
`STATUS_INTERNAL_ERROR` 5. -/
def completionOf {Obj : Type} (config : Config) (command : Record Obj) (b : Behaviour) :
    Record Obj :=
  let completion : Record Obj :=
    { kind := completionKind command.kind
      generation := command.generation
      submissionId := command.submissionId
      invocationId := command.invocationId
      operationId := command.operationId
      status := 1
      flags := command.flags }
  match guarded config command b with
  | .ok outputs => { completion with
      outputs := outputs
      profile := completionProfile command b true }
  | .error (.operation error) => { completion with
      status := 4
      profile := completionProfile command b false
      errorType := error.typeName
      errorMessage := error.message }
  | .error (.exception error) => { completion with
      status := 5
      profile := completionProfile command b false
      errorType := error.typeName
      errorMessage := error.message }

/-! ### The loop -/

/-- Where the loop is: in `commands.pop`, behind it, or out of the loop. It returns on a
`RingError`, and any other exception of `pop` or `push` ends the thread. -/
inductive Phase (Obj : Type) where
  | waiting
  | working (command : Record Obj)
  | returned
  | died (error : Exn)

/-- The loop and its history: the commands that were popped and the records that were pushed. -/
structure State (Obj : Type) where
  phase : Phase Obj
  popped : List (Record Obj)
  published : List (List UInt8)

/-- * `pop`: a record is taken from the command ring.
* `finish`: the command runs, and its completion is pushed.
* `popFails`, `pushFails`: the ring is closed, or its counters are impossible. -/
inductive Act where
  | pop (data : List UInt8)
  | finish (b : Behaviour)
  | popFails
  | pushFails

/-- The phase after an exception of `pop` or `push`. -/
def afterExn {Obj : Type} : Exn → Phase Obj
  | .ringError _ => .returned
  | error => .died error

/-- What a step does, and `none` where it is not enabled. -/
def step {Obj : Type} [PyObject Obj] (config : Config) (s : State Obj) :
    Act → Option (State Obj)
  | .pop data =>
    match s.phase with
    | .waiting =>
      match decodeSdk data config.generation with
      | .ok command => some { s with
          phase := .working command
          popped := s.popped ++ [command] }
      | .error error => some { s with phase := afterExn error }
    | _ => none
  | .finish b =>
    match s.phase with
    | .working command =>
      match encodeSdk (completionOf config command b) with
      | .ok data => some { s with
          phase := .waiting
          published := s.published ++ [data] }
      | .error error => some { s with phase := afterExn error }
    | _ => none
  | .popFails =>
    match s.phase with
    | .waiting => some { s with phase := .returned }
    | _ => none
  | .pushFails =>
    match s.phase with
    | .working _ => some { s with phase := .returned }
    | _ => none

/-- `_ring_worker_loop`. -/
def machine (Obj : Type) [PyObject Obj] (config : Config) : Machine (State Obj) Act where
  init := { phase := .waiting, popped := [], published := [] }
  step := step config

end Wmfs.Worker
