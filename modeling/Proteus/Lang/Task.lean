import Proteus.Lang.Types

/-!
Proteus.Lang.Task — the instruction set, tasks, and the task provider.

`crate::lang::task` and `crate::lang::common` are not among the source
files. Every argument record below has exactly the fields
`execute_next_instruction` reads (`interpreter.rs` lines 98–254) and the
tests build; the provider has the two methods the interpreter calls
(spec §6). `GenRandomBytes` is reserved (§4.4) and its arguments are read
by nothing, so none are modelled.
-/

namespace Proteus

/-- `std::ops::Range<usize>`, `start..end`; `stop` is its `end`. -/
structure Range where
  start : Nat
  stop : Nat
  deriving DecidableEq, Repr

/-- `common::Role`. -/
inductive Role
  | client
  | server
  deriving DecidableEq, Repr

/-- `task::ReadNetLength`: how many bytes a `ReadNet` asks for. -/
inductive ReadNetLength
  | identifier (id : Identifier)
  | identifierMinus (id : Identifier) (sub : Nat)
  | range (r : Range)
  deriving DecidableEq, Repr

structure ComputeLengthArgs where
  fromMsgHeapId : Identifier
  fromFieldId : Identifier
  toHeapId : Identifier
  deriving DecidableEq, Repr

structure ConcretizeFormatArgs where
  fromFormat : AbstractFormat
  toHeapId : Identifier
  deriving DecidableEq, Repr

structure CreateMessageArgs where
  fromFormatHeapId : Identifier
  toHeapId : Identifier
  deriving DecidableEq, Repr

structure DecryptFieldArgs where
  fromMsgHeapId : Identifier
  fromCiphertextFieldId : Identifier
  fromMacFieldId : Identifier
  toPlaintextHeapId : Identifier
  deriving DecidableEq, Repr

structure EncryptFieldArgs where
  fromMsgHeapId : Identifier
  fromFieldId : Identifier
  toCiphertextHeapId : Identifier
  toMacHeapId : Identifier
  deriving DecidableEq, Repr

structure GetArrayBytesArgs where
  fromMsgHeapId : Identifier
  fromFieldId : Identifier
  toHeapId : Identifier
  deriving DecidableEq, Repr

structure GetNumericValueArgs where
  fromMsgHeapId : Identifier
  fromFieldId : Identifier
  toHeapId : Identifier
  deriving DecidableEq, Repr

structure InitFixedSharedKeyArgs where
  password : String
  role : Role
  deriving DecidableEq, Repr

structure ReadAppArgs where
  fromLen : Range
  toHeapId : Identifier
  deriving DecidableEq, Repr

structure ReadNetArgs where
  fromLen : ReadNetLength
  toHeapId : Identifier
  deriving DecidableEq, Repr

structure SetArrayBytesArgs where
  fromHeapId : Identifier
  toMsgHeapId : Identifier
  toFieldId : Identifier
  deriving DecidableEq, Repr

structure SetNumericValueArgs where
  fromHeapId : Identifier
  toMsgHeapId : Identifier
  toFieldId : Identifier
  deriving DecidableEq, Repr

structure WriteAppArgs where
  fromMsgHeapId : Identifier
  fromFieldId : Identifier
  deriving DecidableEq, Repr

structure WriteNetArgs where
  fromMsgHeapId : Identifier
  deriving DecidableEq, Repr

/-- `task::Instruction`: a closed sum, dispatched by one match (§9). -/
inductive Instruction
  | computeLength (args : ComputeLengthArgs)
  | concretizeFormat (args : ConcretizeFormatArgs)
  | createMessage (args : CreateMessageArgs)
  | decryptField (args : DecryptFieldArgs)
  | encryptField (args : EncryptFieldArgs)
  | genRandomBytes
  | getArrayBytes (args : GetArrayBytesArgs)
  | getNumericValue (args : GetNumericValueArgs)
  | initFixedSharedKey (args : InitFixedSharedKeyArgs)
  | readApp (args : ReadAppArgs)
  | readNet (args : ReadNetArgs)
  | setArrayBytes (args : SetArrayBytesArgs)
  | setNumericValue (args : SetNumericValueArgs)
  | writeApp (args : WriteAppArgs)
  | writeNet (args : WriteNetArgs)
  deriving DecidableEq, Repr

/-- `task::TaskID`: an opaque handle; the default identifies the init task. -/
structure TaskID where
  id : Nat
  deriving DecidableEq, Repr, Inhabited

/-- `task::Task`. -/
structure Task where
  ins : List Instruction
  id : TaskID
  deriving DecidableEq, Repr

/-- `task::TaskPair`. -/
structure TaskPair where
  inTask : Task
  outTask : Task
  deriving DecidableEq, Repr

/-- `task::TaskSet`: what the provider hands out after a task completes. -/
inductive TaskSet
  | inTask (task : Task)
  | outTask (task : Task)
  | inAndOutTasks (pair : TaskPair)
  deriving DecidableEq, Repr

/-- `task::TaskProvider`. Both methods take `&self`: the provider is a pure
function of the id it is given. -/
structure TaskProvider where
  getInitTask : Task
  getNextTasks : TaskID → TaskSet

/-! ## The two directions -/

/-- The two directions: `incoming` is app ← net (`*_in`), `outgoing` is
app → net (`*_out`). -/
inductive Dir
  | incoming
  | outgoing
  deriving DecidableEq, Repr

/-- The opposite direction. -/
def Dir.other : Dir → Dir
  | .incoming => .outgoing
  | .outgoing => .incoming

@[simp] theorem Dir.other_other (d : Dir) : d.other.other = d := by cases d <;> rfl

@[simp] theorem Dir.other_ne (d : Dir) : d.other ≠ d := by cases d <;> decide

@[simp] theorem Dir.ne_other (d : Dir) : d ≠ d.other := by cases d <;> decide

theorem Dir.eq_or_eq_other (d e : Dir) : e = d ∨ e = d.other := by
  cases d <;> cases e <;> simp [Dir.other]

namespace Instruction

/-- The instructions that publish a pending op of direction `d`: `ReadNet`
and `WriteApp` set `next_netop_in`, `ReadApp` and `WriteNet` set
`next_netop_out`. -/
def yields : Dir → Instruction → Bool
  | .incoming, .readNet _ | .incoming, .writeApp _ => true
  | .outgoing, .readApp _ | .outgoing, .writeNet _ => true
  | _, _ => false

/-- The instructions that read or write what belongs to direction `d`: its
pending op, and its half of the cipher (`DecryptField` the receiving half,
`EncryptField` the sending half, `InitFixedSharedKey` both). -/
def touches : Dir → Instruction → Bool
  | .incoming, .readNet _ | .incoming, .writeApp _ | .incoming, .decryptField _ => true
  | .outgoing, .readApp _ | .outgoing, .writeNet _ | .outgoing, .encryptField _ => true
  | _, .initFixedSharedKey _ => true
  | _, _ => false

theorem yields_touches {d : Dir} {ins : Instruction} (h : ins.yields d = true) :
    ins.touches d = true := by
  cases d <;> cases ins <;> simp_all [yields, touches]

end Instruction

/-- The tasks a provider's answer offers to direction `d`. -/
def TaskSet.offered : TaskSet → Dir → Option Task
  | .inTask t, .incoming => some t
  | .outTask t, .outgoing => some t
  | .inAndOutTasks pair, .incoming => some pair.inTask
  | .inAndOutTasks pair, .outgoing => some pair.outTask
  | _, _ => none

/-- A provider with an empty init task that answers every query with an in
task reading one byte from the network and an out task reading one byte
from the app. -/
def echoProvider : TaskProvider where
  getInitTask := ⟨[], ⟨0⟩⟩
  getNextTasks _ := .inAndOutTasks
    ⟨⟨[.readNet ⟨.range ⟨1, 2⟩, "x"⟩], ⟨1⟩⟩, ⟨[.readApp ⟨⟨1, 2⟩, "y"⟩], ⟨2⟩⟩⟩

end Proteus
