import Proteus.Lang.Message
import Proteus.Lang.Task
import Proteus.Crypto.Chacha

/-!
Proteus.Lang.Interpreter — `interpreter.rs`: programs, the interpreter
state, the instruction dispatch, task loading, and the two
`next_net_cmd_*` loops with their stores.

The translation is line by line. A `panic!` or failed `unwrap` is
`Fault.panic`. The interpreter is state passed in and returned.

* `Program.executeNextInstruction` — the dispatch of lines 94–260. It
  returns `Ok(())` on every path that does not panic, so the
  `if let Err(e)` branches of `next_net_cmd_*` are dead and left out.
* `runUntilNetop` — the inner `while program.has_next_instruction()`
  loop, fuelled by the number of instructions left (the loop runs at
  most that often: each pass adds one to `next_ins_index`).
* `nextNetCmd d` — the outer `loop` of `next_net_cmd_in` (`d =
  incoming`) and `next_net_cmd_out` (`d = outgoing`), which the source
  writes twice ("TODO: refactor this and next_net_cmd_out"). Each pass
  either returns or retires a program, so it is fuelled by passes, and
  `Fault.outOfFuel` is what too little fuel gives.

`history` is not in the source. It is a history variable: the calls of
`get_next_tasks`, the instructions the two directions execute, and the
programs they retire, in order. No code reads it.
-/

namespace Proteus

/-- `SendArgs`: send these bytes. -/
structure SendArgs where
  bytes : Bytes
  deriving DecidableEq, Repr

/-- `RecvArgs`: receive a length in `len`, store it at `addr`. -/
structure RecvArgs where
  len : Range
  addr : Identifier
  deriving DecidableEq, Repr

/-- `NetOpOut`: what the app → net pump is asked to do. -/
inductive NetOpOut
  | recvApp (args : RecvArgs)
  | sendNet (args : SendArgs)
  | close
  | error (msg : String)
  deriving DecidableEq, Repr

/-- `NetOpIn`: what the app ← net pump is asked to do. -/
inductive NetOpIn
  | recvNet (args : RecvArgs)
  | sendApp (args : SendArgs)
  | close
  | error (msg : String)
  deriving DecidableEq, Repr

/-- The op type of a direction. -/
def NetOp : Dir → Type
  | .incoming => NetOpIn
  | .outgoing => NetOpOut

/-- `Program`: a task being run, with its four heaps. -/
structure Program where
  task : Task
  nextInsIndex : Nat
  bytesHeap : Heap Bytes
  formatHeap : Heap ConcreteFormat
  messageHeap : Heap Message
  numberHeap : Heap Nat

/-- An entry of the history. -/
inductive Event
  /-- `get_next_tasks(last)` was called. -/
  | getNextTasks (last : TaskID)
  /-- The program of direction `d` executed `ins`. -/
  | execute (d : Dir) (ins : Instruction)
  /-- The program of direction `d`, of task `id`, was dropped. -/
  | retire (d : Dir) (id : TaskID)
  deriving DecidableEq, Repr

/-- `Interpreter`. -/
structure Interpreter where
  spec : TaskProvider
  cipher : Option Cipher
  nextNetopOut : Option NetOpOut
  nextNetopIn : Option NetOpIn
  currentProgOut : Option Program
  currentProgIn : Option Program
  lastTaskId : TaskID
  wantsTasks : Bool
  history : List Event

namespace Interpreter

/-- `current_prog_in` or `current_prog_out`. -/
def currentProg (int : Interpreter) : Dir → Option Program
  | .incoming => int.currentProgIn
  | .outgoing => int.currentProgOut

/-- Assign `current_prog_in` or `current_prog_out`. -/
def setCurrentProg (int : Interpreter) : Dir → Option Program → Interpreter
  | .incoming, p => { int with currentProgIn := p }
  | .outgoing, p => { int with currentProgOut := p }

/-- `next_netop_in` or `next_netop_out`. -/
def nextNetop (int : Interpreter) : (d : Dir) → Option (NetOp d)
  | .incoming => int.nextNetopIn
  | .outgoing => int.nextNetopOut

/-- The state after `next_netop_in.take()` or `next_netop_out.take()`. -/
def clearNextNetop (int : Interpreter) : Dir → Interpreter
  | .incoming => { int with nextNetopIn := none }
  | .outgoing => { int with nextNetopOut := none }

/-- Append an event to the history. -/
def record (int : Interpreter) (e : Event) : Interpreter :=
  { int with history := int.history ++ [e] }

/-- `self.last_task_id = program.task.id; self.wants_tasks = true;`, the end of
a program of direction `d`. -/
def retire (int : Interpreter) (d : Dir) (id : TaskID) : Interpreter :=
  { int with lastTaskId := id, wantsTasks := true, history := int.history ++ [.retire d id] }

end Interpreter

namespace Program

/-- `Program::new`: index zero, empty heaps. -/
def new (task : Task) : Program :=
  ⟨task, 0, Heap.new, Heap.new, Heap.new, Heap.new⟩

/-- `Program::has_next_instruction`. -/
def hasNextInstruction (p : Program) : Bool := p.nextInsIndex < p.task.ins.length

/-- `Program::store_bytes`. -/
def storeBytes (p : Program) (addr : Identifier) (bytes : Bytes) : Program :=
  { p with bytesHeap := p.bytesHeap.insert addr bytes }

/-- The length range a `ReadNet` publishes (lines 202–220): `*num as usize`
keeps the low 64 bits of the `u128`, and `- sub` and `+ 1` are `usize`
arithmetic. -/
def readNetRange (p : Program) : ReadNetLength → Except Fault Range
  | .identifier id => do
    let num ← unwrap (p.numberHeap.get id)
    let val := num % usizeModulus
    pure ⟨val, ← usizeAdd val 1⟩
  | .identifierMinus id sub => do
    let num ← unwrap (p.numberHeap.get id)
    let val ← usizeSub (num % usizeModulus) sub
    pure ⟨val, ← usizeAdd val 1⟩
  | .range r => pure r

/-- `mac_fixed.copy_from_slice(&mac)` into a `[u8; 16]`. -/
def copyFromSlice16 (mac : Bytes) : Except Fault Bytes :=
  if mac.length = 16 then .ok mac
  else .error (.panic "source slice length does not match destination slice length")

variable (lib : CryptoLib)

/-- The body of the `match` of `execute_next_instruction` (lines 98–255). -/
def executeInstruction (p : Program) (int : Interpreter) :
    Instruction → Except Fault (Program × Interpreter)
  | .computeLength args => do
    let msg ← unwrap (p.messageHeap.get args.fromMsgHeapId)
    let len ← unwrap (msg.lenSuffix args.fromFieldId)
    pure ({ p with numberHeap := p.numberHeap.insert args.toHeapId len }, int)
  | .concretizeFormat args => do
    let aformat := args.fromFormat
    let concreteSizes ← aformat.getDynamicArrays.mapM fun id => do
      let bytes ← unwrap (p.bytesHeap.get id)
      pure (id, bytes.length)
    let cformat := aformat.concretize concreteSizes
    pure ({ p with formatHeap := p.formatHeap.insert args.toHeapId cformat }, int)
  | .createMessage args => do
    let cformat ← unwrap (p.formatHeap.remove args.fromFormatHeapId).1
    let msg := Message.new cformat
    pure ({ p with
      formatHeap := (p.formatHeap.remove args.fromFormatHeapId).2
      messageHeap := p.messageHeap.insert args.toHeapId msg }, int)
  | .decryptField args =>
    match int.cipher with
    | some cipher => do
      let msg ← unwrap (p.messageHeap.get args.fromMsgHeapId)
      let ciphertext ← unwrap (msg.getFieldBytes args.fromCiphertextFieldId)
      let mac ← unwrap (msg.getFieldBytes args.fromMacFieldId)
      let macFixed ← copyFromSlice16 mac
      let r ← cipher.decrypt lib ciphertext macFixed
      pure ({ p with bytesHeap := p.bytesHeap.insert args.toPlaintextHeapId r.1 },
        { int with cipher := some r.2 })
    | none => .error (.panic "No cipher for decryption")
  | .encryptField args =>
    match int.cipher with
    | some cipher => do
      let msg ← unwrap (p.messageHeap.get args.fromMsgHeapId)
      let plaintext ← unwrap (msg.getFieldBytes args.fromFieldId)
      let r := cipher.encrypt lib plaintext
      pure ({ p with
        bytesHeap := ((p.bytesHeap.insert args.toCiphertextHeapId r.1.1).insert
          args.toMacHeapId r.1.2) }, { int with cipher := some r.2 })
    | none => .error (.panic "No cipher for encryption")
  | .genRandomBytes => .error (.panic "not yet implemented")
  | .getArrayBytes args => do
    let msg ← unwrap (p.messageHeap.get args.fromMsgHeapId)
    let bytes ← unwrap (msg.getFieldBytes args.fromFieldId)
    pure ({ p with bytesHeap := p.bytesHeap.insert args.toHeapId bytes }, int)
  | .getNumericValue args => do
    let msg ← unwrap (p.messageHeap.get args.fromMsgHeapId)
    let num ← unwrap (msg.getFieldUnsignedNumeric args.fromFieldId)
    pure ({ p with numberHeap := p.numberHeap.insert args.toHeapId num }, int)
  | .initFixedSharedKey args =>
    let salt := "stupid stupid stupid"
    let skey := lib.deriveKey256 args.password salt
    let kind := match args.role with
      | .client => CipherKind.sender
      | .server => CipherKind.receiver
    pure (p, { int with cipher := some (Cipher.new skey kind) })
  | .readApp args =>
    pure (p, { int with nextNetopOut := some (.recvApp ⟨args.fromLen, args.toHeapId⟩) })
  | .readNet args => do
    let len ← p.readNetRange args.fromLen
    pure (p, { int with nextNetopIn := some (.recvNet ⟨len, args.toHeapId⟩) })
  | .setArrayBytes args => do
    let bytes ← unwrap (p.bytesHeap.get args.fromHeapId)
    let msg ← unwrap (p.messageHeap.remove args.toMsgHeapId).1
    let msg ← unwrap (msg.setFieldBytes args.toFieldId bytes)
    pure ({ p with
      messageHeap := ((p.messageHeap.remove args.toMsgHeapId).2.insert args.toMsgHeapId msg) },
      int)
  | .setNumericValue args => do
    let val ← unwrap (p.numberHeap.get args.fromHeapId)
    let msg ← unwrap (p.messageHeap.remove args.toMsgHeapId).1
    let msg ← unwrap (msg.setFieldUnsignedNumeric args.toFieldId val)
    pure ({ p with
      messageHeap := ((p.messageHeap.remove args.toMsgHeapId).2.insert args.toMsgHeapId msg) },
      int)
  | .writeApp args => do
    let msg ← unwrap (p.messageHeap.remove args.fromMsgHeapId).1
    let bytes ← unwrap (msg.intoInnerField args.fromFieldId)
    pure ({ p with messageHeap := (p.messageHeap.remove args.fromMsgHeapId).2 },
      { int with nextNetopIn := some (.sendApp ⟨bytes⟩) })
  | .writeNet args => do
    let msg ← unwrap (p.messageHeap.remove args.fromMsgHeapId).1
    pure ({ p with messageHeap := (p.messageHeap.remove args.fromMsgHeapId).2 },
      { int with nextNetopOut := some (.sendNet ⟨msg.intoInner⟩) })

/-- `Program::execute_next_instruction`: index the task (a panic past its
end), run the instruction, and add one to `next_ins_index`. -/
def executeNextInstruction (p : Program) (int : Interpreter) :
    Except Fault (Program × Interpreter) :=
  match p.task.ins[p.nextInsIndex]? with
  | some ins => (fun r => ({ r.1 with nextInsIndex := r.1.nextInsIndex + 1 }, r.2)) <$>
      p.executeInstruction lib int ins
  | none => .error (.panic "index out of bounds")

end Program

/-- Where the inner loop of `next_net_cmd_*` leaves the program of direction
`d`: it published an op, or it ran out of instructions. -/
inductive LoopExit (d : Dir)
  | netop (op : NetOp d) (program : Program) (int : Interpreter)
  | exhausted (program : Program) (int : Interpreter)

namespace Interpreter

variable (lib : CryptoLib)

/-- The inner loop of `next_net_cmd_*` (lines 338–347 and 367–376): run the
taken program until an instruction leaves an op of direction `d` pending,
which is taken and returned, or the program has no instruction left. -/
def runUntilNetop (d : Dir) : Nat → Program → Interpreter → Except Fault (LoopExit d)
  | 0, program, int => .ok (.exhausted program int)
  | fuel + 1, program, int =>
    match program.task.ins[program.nextInsIndex]? with
    | some ins =>
      match program.executeNextInstruction lib int with
      | .ok (program', int') =>
        let int' := int'.record (.execute d ins)
        match int'.nextNetop d with
        | some netop => .ok (.netop netop program' (int'.clearNextNetop d))
        | none => runUntilNetop d fuel program' int'
      | .error e => .error e
    | none => .ok (.exhausted program int)

/-- `Interpreter::set_task`: install `new` in an empty slot, keep a program of
the same task id, panic on any other. -/
def setTask (opt : Option Program) (new : Task) : Except Fault (Option Program) :=
  match opt with
  | some op => if op.task.id ≠ new.id then .error (.panic "Cannot overwrite task") else .ok (some op)
  | none => .ok (some (Program.new new))

/-- `Interpreter::load_tasks`. -/
def loadTasks (int : Interpreter) : Except Fault Interpreter := do
  let int := int.record (.getNextTasks int.lastTaskId)
  let int ← match int.spec.getNextTasks int.lastTaskId with
    | .inTask task => do
      let slot ← setTask int.currentProgIn task
      pure { int with currentProgIn := slot }
    | .outTask task => do
      let slot ← setTask int.currentProgOut task
      pure { int with currentProgOut := slot }
    | .inAndOutTasks pair => do
      let slotIn ← setTask int.currentProgIn pair.inTask
      let slotOut ← setTask int.currentProgOut pair.outTask
      pure { int with currentProgIn := slotIn, currentProgOut := slotOut }
  pure { int with wantsTasks := false }

/-- The head of the outer loop: `if self.wants_tasks { self.load_tasks(); }`. -/
def loadIfWanted (int : Interpreter) : Except Fault Interpreter :=
  if int.wantsTasks then int.loadTasks else .ok int

/-- The outer `loop` of `next_net_cmd_in` and `next_net_cmd_out`, one pass per
unit of fuel: the head, then `current_prog_d.take()`; no program is the
source's `Err(())`, an op is returned with the program put back, and a
program that runs out is retired before the next pass. -/
def nextNetCmd (d : Dir) : Nat → Interpreter → Except Fault (Except Unit (NetOp d) × Interpreter)
  | 0, _ => .error .outOfFuel
  | fuel + 1, int =>
    match int.loadIfWanted with
    | .error e => .error e
    | .ok int =>
      match int.currentProg d with
      | some program =>
        match runUntilNetop lib d (program.task.ins.length - program.nextInsIndex) program
            (int.setCurrentProg d none) with
        | .ok (.netop netop program int) => .ok (.ok netop, int.setCurrentProg d (some program))
        | .ok (.exhausted program int) => nextNetCmd d fuel (int.retire d program.task.id)
        | .error e => .error e
      | none => .ok (.error (), int)

/-- `Interpreter::next_net_cmd_in`. -/
def nextNetCmdIn (fuel : Nat) (int : Interpreter) : Except Fault (Except Unit NetOpIn × Interpreter) :=
  nextNetCmd lib .incoming fuel int

/-- `Interpreter::next_net_cmd_out`. -/
def nextNetCmdOut (fuel : Nat) (int : Interpreter) :
    Except Fault (Except Unit NetOpOut × Interpreter) :=
  nextNetCmd lib .outgoing fuel int

/-- `Interpreter::store_in` and `store_out`: store into the direction's
program, or drop the bytes when there is none. -/
def store (d : Dir) (addr : Identifier) (bytes : Bytes) (int : Interpreter) : Interpreter :=
  match int.currentProg d with
  | some t => int.setCurrentProg d (some (t.storeBytes addr bytes))
  | none => int

/-- `Interpreter::store_in`. -/
def storeIn (addr : Identifier) (bytes : Bytes) (int : Interpreter) : Interpreter :=
  store .incoming addr bytes int

/-- `Interpreter::store_out`. -/
def storeOut (addr : Identifier) (bytes : Bytes) (int : Interpreter) : Interpreter :=
  store .outgoing addr bytes int

/-- The `while init_prog.has_next_instruction()` loop of `Interpreter::new`. -/
def runToEnd : Nat → Program → Interpreter → Except Fault (Program × Interpreter)
  | 0, program, int => .ok (program, int)
  | fuel + 1, program, int =>
    if program.hasNextInstruction then
      match program.executeNextInstruction lib int with
      | .ok (program', int') => runToEnd fuel program' int'
      | .error e => .error e
    else .ok (program, int)

/-- `Interpreter::new`: run the init task to its end, then remember its id. -/
def new (spec : TaskProvider) : Except Fault Interpreter := do
  let int : Interpreter :=
    { spec := spec, cipher := none, nextNetopOut := none, nextNetopIn := none,
      currentProgOut := none, currentProgIn := none, lastTaskId := default,
      wantsTasks := true, history := [] }
  let initProg := Program.new spec.getInitTask
  let r ← runToEnd lib initProg.task.ins.length initProg int
  pure { r.2 with lastTaskId := r.1.task.id }

end Interpreter

/-- What `Interpreter::new(echoProvider)` returns. -/
def echoStart : Interpreter where
  spec := echoProvider
  cipher := none
  nextNetopOut := none
  nextNetopIn := none
  currentProgOut := none
  currentProgIn := none
  lastTaskId := ⟨0⟩
  wantsTasks := true
  history := []

end Proteus
