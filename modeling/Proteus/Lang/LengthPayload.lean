import Proteus.Lang.Pump

/-!
Proteus.Lang.LengthPayload — the length-prefixed pipeline of the
interpreter tests (`tests::basic::LengthPayloadSpec`), end to end.

The provider hands out the same pair for every query. The out task reads a
payload from the app, builds a `DataMessageOut` (a big-endian `u16`
length, then the payload) and writes it to the network. The in task reads
two bytes, takes them as the length, reads that many bytes, and writes them
to the app. The tests run one payload or ten, in four interleavings. Here
every payload list and every schedule is covered.

* `outTail`, `inMid`, `inTail`, … — the tasks run symbolically: each
  segment between two ops, for every payload, from every program at that
  index (its heaps otherwise arbitrary).
* `outHead_call`, `outTail_call`, … — the same segments as calls, from any
  reachable state (`Lang.Pump`). A call at a message boundary may first
  retire the finished program; that is one pass of the outer loop more. A
  call that follows a store is stated from the state before the store.
* `outCycle`, `inCycle` — one message through a pump; `outPump_run` and
  `inPump_run`, by induction on the list, a whole stream.
* **`outPump_frames`** — the out pump alone never fails on payloads
  shorter than `2 ^ 16`. In every schedule its calls return, per payload,
  the `RecvApp` and the frame `frame p = u16be |p| ++ p`.
* **`inPump_deframes`** — the in pump asks for as many payload bytes as
  the two length bytes say, and hands the app what it is given. Nothing
  compares the two: the range a `RecvNet` publishes is advice to the
  pump, not a check.
* **`pipeline_delivers`** — the out frames of one interpreter, split as
  the in task reads them, are delivered by another's in pump as the same
  payloads in the same order, whatever either side's schedule.
* **`duplex_delivers`** — both ways at once: two interpreters, each
  feeding its in pump the other's frames, hand each app the other's
  payloads. The runs refer to each other; an out pump's results not
  depending on the in pump's blobs is what unties them.
* **`outPump_oversized`**, **`inPump_badHeader`** — the two length edges.
  A payload of `2 ^ 16` bytes or more panics in `set_field_unsigned_numeric`
  rather than sending a frame whose length wraps. A header that is not two
  bytes long panics in `set_field_bytes`.

The `ReadApp` range `1..u16::MAX as usize` is not a check either: an empty
payload gives the frame `[0, 0]`.
-/

namespace Proteus

namespace LengthPayloadSpec

/-! ## 1. The provider -/

/-- `abs_format_out`: a `u16` length, then the payload it sizes. -/
def absFormatOut : AbstractFormat :=
  ⟨⟨"DataMessageOut",
    [⟨"length", .primitive ⟨.numeric .u16, 1⟩⟩, ⟨"payload", .dynamic ⟨.sizeOf "length"⟩⟩]⟩⟩

/-- `abs_format_in1`: the length alone. -/
def absFormatIn1 : AbstractFormat :=
  ⟨⟨"DataMessageIn1", [⟨"length", .primitive ⟨.numeric .u16, 1⟩⟩]⟩⟩

/-- `abs_format_in2`: the payload alone. -/
def absFormatIn2 : AbstractFormat :=
  ⟨⟨"DataMessageIn2", [⟨"payload", .dynamic ⟨.sizeOf "length"⟩⟩]⟩⟩

/-- The `out_task` of `get_next_tasks`. `1..u16::MAX as usize` is `1..65535`. -/
def outTask : Task :=
  ⟨[.readApp ⟨⟨1, 65535⟩, "payload"⟩,
    .concretizeFormat ⟨absFormatOut, "cformat"⟩,
    .createMessage ⟨"cformat", "message"⟩,
    .setArrayBytes ⟨"payload", "message", "payload"⟩,
    .computeLength ⟨"message", "length", "length_value_on_heap"⟩,
    .setNumericValue ⟨"length_value_on_heap", "message", "length"⟩,
    .writeNet ⟨"message"⟩], default⟩

/-- The `in_task` of `get_next_tasks`. -/
def inTask : Task :=
  ⟨[.readNet ⟨.range ⟨2, 3⟩, "length"⟩,
    .concretizeFormat ⟨absFormatIn1, "cformat1"⟩,
    .createMessage ⟨"cformat1", "message_length_part"⟩,
    .setArrayBytes ⟨"length", "message_length_part", "length"⟩,
    .getNumericValue ⟨"message_length_part", "length", "payload_len_value"⟩,
    .readNet ⟨.identifier "payload_len_value", "payload"⟩,
    .concretizeFormat ⟨absFormatIn2, "cformat2"⟩,
    .createMessage ⟨"cformat2", "message_payload_part"⟩,
    .setArrayBytes ⟨"payload", "message_payload_part", "payload"⟩,
    .writeApp ⟨"message_payload_part", "payload"⟩], default⟩

/-- `TaskPair { out_task, in_task }`. -/
def pair : TaskPair := ⟨inTask, outTask⟩

/-- `LengthPayloadSpec::new()` as the interpreter sees it: an empty init
task, and `InAndOutTasks(pair)` for every query. -/
def new : TaskProvider where
  getInitTask := ⟨[], default⟩
  getNextTasks _ := .inAndOutTasks pair

theorem splitPair : SplitPair new pair :=
  ⟨fun _ => rfl, fun d => by cases d <;> decide⟩

theorem ioSeparated : IoSeparated new := by
  refine ⟨fun _ h => by simp [new] at h, fun _ d t h => ?_⟩
  cases d <;> simp only [new, TaskSet.offered, Option.some.injEq] at h <;> subst h <;> decide

/-- What `Interpreter::new(LengthPayloadSpec::new())` returns. -/
def fresh : Interpreter where
  spec := new
  cipher := none
  nextNetopOut := none
  nextNetopIn := none
  currentProgOut := none
  currentProgIn := none
  lastTaskId := default
  wantsTasks := true
  history := []

/-! ## 2. The messages -/

/-- The bytes the out task writes for a payload: its length as a big-endian
`u16`, then the payload. -/
def frame (p : Bytes) : Bytes := natToBe 2 p.length ++ p

theorem outFormat_size (n : Nat) : (absFormatOut.concretize [("payload", n)]).size = 2 + n := by
  simp [ConcreteFormat.size, AbstractFormat.concretize, absFormatOut, PrimitiveArray.size,
    PrimitiveType.size, NumericType.size]

/-- The out message: the payload goes in after two zero bytes, and
`len_suffix` of the length field is the payload's length. -/
theorem outMessage_payload (p : Bytes) :
    ∃ m₁, (Message.new (absFormatOut.concretize [("payload", p.length)])).setFieldBytes "payload" p = some m₁ ∧
      m₁.format.locate "length" = some (0, ⟨.numeric .u16, 1⟩) ∧ m₁.buf = [0, 0] ++ p ∧
      m₁.lenSuffix "length" = some p.length := by
  have hloc : (Message.new (absFormatOut.concretize [("payload", p.length)])).format.locate "payload" =
      some (2, ⟨.numeric .u8, p.length⟩) := rfl
  obtain ⟨m₁, h₁, hf₁, hb₁⟩ := Message.setFieldBytes_of_locate hloc p
    (by simp [PrimitiveArray.size, PrimitiveType.size, NumericType.size])
  have hl₁ : m₁.format.locate "length" = some (0, ⟨.numeric .u16, 1⟩) := by rw [hf₁]; rfl
  have hbuf : m₁.buf = [0, 0] ++ p := by
    rw [hb₁]
    simp [splice, Message.new, outFormat_size]
  refine ⟨m₁, h₁, hl₁, hbuf, ?_⟩
  rw [Message.lenSuffix_eq hl₁, hf₁]
  simp [Message.new, outFormat_size, PrimitiveArray.size, PrimitiveType.size, NumericType.size]

/-- A payload shorter than `2 ^ 16`: its length fits the `u16` field, and the
message is the frame. -/
theorem outMessage (p : Bytes) (hp : p.length < 65536) :
    ∃ m₁ m₂, (Message.new (absFormatOut.concretize [("payload", p.length)])).setFieldBytes "payload" p = some m₁ ∧
      m₁.lenSuffix "length" = some p.length ∧ m₁.setFieldUnsignedNumeric "length" p.length = some m₂ ∧
      m₂.buf = frame p := by
  obtain ⟨m₁, h₁, hl₁, hb₁, hlen⟩ := outMessage_payload p
  obtain ⟨m₂, h₂, -, hb₂⟩ := Message.setFieldBytes_of_locate hl₁ (natToBe 2 p.length)
    (by simp [PrimitiveArray.size, PrimitiveType.size, NumericType.size])
  refine ⟨m₁, m₂, h₁, hlen, ?_, by simp [hb₂, hb₁, splice, frame]⟩
  simp [Message.setFieldUnsignedNumeric, hl₁, PrimitiveArray.numericWidth, NumericType.size, hp, h₂]

/-- A payload of `2 ^ 16` bytes or more: its length does not fit. -/
theorem outMessage_oversized (p : Bytes) (hp : 65536 ≤ p.length) :
    ∃ m₁, (Message.new (absFormatOut.concretize [("payload", p.length)])).setFieldBytes "payload" p = some m₁ ∧
      m₁.lenSuffix "length" = some p.length ∧ m₁.setFieldUnsignedNumeric "length" p.length = none := by
  obtain ⟨m₁, h₁, hl₁, -, hlen⟩ := outMessage_payload p
  refine ⟨m₁, h₁, hlen, ?_⟩
  simp [Message.setFieldUnsignedNumeric, hl₁, PrimitiveArray.numericWidth, NumericType.size]
  omega

theorem inHeader_locate :
    (Message.new (absFormatIn1.concretize [])).format.locate "length" = some (0, ⟨.numeric .u16, 1⟩) := rfl

/-- Two length bytes fill the first in message; the length read back is
their big-endian value. -/
theorem inHeaderMessage {b : Bytes} (hb : b.length = 2) :
    ∃ m, (Message.new (absFormatIn1.concretize [])).setFieldBytes "length" b = some m ∧
      m.getFieldUnsignedNumeric "length" = some (beToNat b) := by
  obtain ⟨m, h, hf, hbuf⟩ := Message.setFieldBytes_of_locate inHeader_locate b
    (by simp [hb, PrimitiveArray.size, PrimitiveType.size, NumericType.size])
  have hl : m.format.locate "length" = some (0, ⟨.numeric .u16, 1⟩) := by rw [hf]; rfl
  have hlen : (Message.new (absFormatIn1.concretize [])).buf.length = 2 := rfl
  refine ⟨m, h, ?_⟩
  simp [Message.getFieldUnsignedNumeric, hl, PrimitiveArray.numericWidth, NumericType.size, hbuf, splice,
    hb, hlen]

theorem inHeaderMessage_none {b : Bytes} (hb : b.length ≠ 2) :
    (Message.new (absFormatIn1.concretize [])).setFieldBytes "length" b = none :=
  Message.setFieldBytes_eq_none inHeader_locate b
    (by simpa [PrimitiveArray.size, PrimitiveType.size, NumericType.size] using hb)

/-- The second in message is sized by the payload stored, so any payload
fills it and is read back whole. -/
theorem inPayloadMessage (q : Bytes) :
    ∃ m, (Message.new (absFormatIn2.concretize [("payload", q.length)])).setFieldBytes "payload" q = some m ∧
      m.intoInnerField "payload" = some q := by
  have hloc : (Message.new (absFormatIn2.concretize [("payload", q.length)])).format.locate "payload" =
      some (0, ⟨.numeric .u8, q.length⟩) := rfl
  obtain ⟨m, h, hf, hbuf⟩ := Message.setFieldBytes_of_locate hloc q
    (by simp [PrimitiveArray.size, PrimitiveType.size, NumericType.size])
  have hl : m.format.locate "payload" = some (0, ⟨.numeric .u8, q.length⟩) := by rw [hf]; rfl
  refine ⟨m, h, ?_⟩
  simp [Message.intoInnerField, Message.getFieldBytes, hl, hbuf, splice, PrimitiveArray.size,
    PrimitiveType.size, NumericType.size]

/-! ## 3. The tasks, run symbolically

Each lemma runs the inner loop of `next_net_cmd_d` over one segment of a
task, between two ops, from any program at the segment's index whose heap
holds what the pump stored, and any interpreter with no op of `d` pending.
The heap instructions write before they read, so nothing else of the heaps
matters. -/

section Runs

variable (lib : CryptoLib)

theorem outTail {q : Program} (hq : q.task = outTask) (hi : q.nextInsIndex = 1) {p : Bytes}
    (hp : q.bytesHeap.get "payload" = some p) (hlen : p.length < 65536) {c : Interpreter}
    (hn : c.nextNetop .outgoing = none) :
    ∃ q' c', Interpreter.runUntilNetop lib .outgoing 6 q c = .ok (.netop (.sendNet ⟨frame p⟩) q' c') ∧
      q'.task = outTask ∧ q'.nextInsIndex = 7 := by
  obtain ⟨m₁, m₂, h₁, h₂, h₃, h₄⟩ := outMessage p hlen
  have hd : absFormatOut.getDynamicArrays = ["payload"] := rfl
  have hn' : c.nextNetopOut = none := hn
  simp [Interpreter.runUntilNetop, Program.executeNextInstruction, hq, hi, outTask,
    Program.executeInstruction, hp, h₁, h₂, h₃, h₄, hd, hn', List.mapM.loop, Except.ok_bind,
    Except.pure_def, Interpreter.nextNetop, Message.intoInner, Interpreter.record]

theorem outTail_oversized {q : Program} (hq : q.task = outTask) (hi : q.nextInsIndex = 1) {p : Bytes}
    (hp : q.bytesHeap.get "payload" = some p) (hlen : 65536 ≤ p.length) {c : Interpreter}
    (hn : c.nextNetop .outgoing = none) :
    Interpreter.runUntilNetop lib .outgoing 6 q c =
      .error (.panic "called Option::unwrap() on a None value") := by
  obtain ⟨m₁, h₁, h₂, h₃⟩ := outMessage_oversized p hlen
  have hd : absFormatOut.getDynamicArrays = ["payload"] := rfl
  have hn' : c.nextNetopOut = none := hn
  simp [Interpreter.runUntilNetop, Program.executeNextInstruction, hq, hi, outTask,
    Program.executeInstruction, hp, h₁, h₂, h₃, hd, hn', List.mapM.loop, Except.ok_bind,
    Except.error_bind, Except.pure_def, Interpreter.nextNetop, Interpreter.record]

theorem inMid {q : Program} (hq : q.task = inTask) (hi : q.nextInsIndex = 1) {b : Bytes}
    (hb : q.bytesHeap.get "length" = some b) (hlen : b.length = 2) {c : Interpreter}
    (hn : c.nextNetop .incoming = none) :
    ∃ q' c', Interpreter.runUntilNetop lib .incoming 9 q c =
        .ok (.netop (.recvNet ⟨⟨beToNat b, beToNat b + 1⟩, "payload"⟩) q' c') ∧
      q'.task = inTask ∧ q'.nextInsIndex = 6 := by
  obtain ⟨m, h₁, h₂⟩ := inHeaderMessage hlen
  have hlt : beToNat b < 65536 := by simpa [hlen] using beToNat_lt b
  have hmod : beToNat b % usizeModulus = beToNat b := Nat.mod_eq_of_lt (by unfold usizeModulus; omega)
  have hadd : usizeAdd (beToNat b) 1 = .ok (beToNat b + 1) := by
    simp [usizeAdd, usizeModulus]; omega
  have hd : absFormatIn1.getDynamicArrays = [] := rfl
  have hn' : c.nextNetopIn = none := hn
  simp [Interpreter.runUntilNetop, Program.executeNextInstruction, hq, hi, inTask,
    Program.executeInstruction, hb, h₁, h₂, hd, hn', hmod, hadd, Program.readNetRange, Except.ok_bind,
    List.mapM.loop, Except.pure_def, Interpreter.nextNetop, Interpreter.record]

theorem inMid_badHeader {q : Program} (hq : q.task = inTask) (hi : q.nextInsIndex = 1) {b : Bytes}
    (hb : q.bytesHeap.get "length" = some b) (hlen : b.length ≠ 2) {c : Interpreter}
    (hn : c.nextNetop .incoming = none) :
    Interpreter.runUntilNetop lib .incoming 9 q c =
      .error (.panic "called Option::unwrap() on a None value") := by
  have h₁ := inHeaderMessage_none hlen
  have hd : absFormatIn1.getDynamicArrays = [] := rfl
  have hn' : c.nextNetopIn = none := hn
  simp [Interpreter.runUntilNetop, Program.executeNextInstruction, hq, hi, inTask,
    Program.executeInstruction, hb, h₁, hd, hn', Except.ok_bind, Except.error_bind, Except.pure_def,
    List.mapM.loop, Interpreter.nextNetop, Interpreter.record]

theorem inTail {q : Program} (hq : q.task = inTask) (hi : q.nextInsIndex = 6) {p : Bytes}
    (hp : q.bytesHeap.get "payload" = some p) {c : Interpreter} (hn : c.nextNetop .incoming = none) :
    ∃ q' c', Interpreter.runUntilNetop lib .incoming 4 q c = .ok (.netop (.sendApp ⟨p⟩) q' c') ∧
      q'.task = inTask ∧ q'.nextInsIndex = 10 := by
  obtain ⟨m, h₁, h₂⟩ := inPayloadMessage p
  have hd : absFormatIn2.getDynamicArrays = ["payload"] := rfl
  have hn' : c.nextNetopIn = none := hn
  simp [Interpreter.runUntilNetop, Program.executeNextInstruction, hq, hi, inTask,
    Program.executeInstruction, hp, h₁, h₂, hd, hn', List.mapM.loop, Except.ok_bind,
    Except.pure_def, Interpreter.nextNetop, Interpreter.record]

end Runs

variable {lib : CryptoLib} {int : Interpreter}

/-! ## 4. The calls of each direction -/

theorem outHead_call (hr : Reachable lib new int) (hb : AtBoundary pair .outgoing int) (fuel : Nat) :
    ∃ int' q, int.nextNetCmd lib .outgoing (fuel + 2) = .ok (.ok (.recvApp ⟨⟨1, 65535⟩, "payload"⟩), int') ∧
      int'.currentProg .outgoing = some q ∧ (q.task = outTask ∧ q.nextInsIndex = 1) :=
  (hr.steady splitPair).nextNetCmd_boundary splitPair
    ((reachable_pendingInv ioSeparated hr).nextNetop_none _) hb (fun q _ => q.task = outTask ∧ q.nextInsIndex = 1)
    (fun q hq hi c _ _ => by
      obtain ⟨c', hrun, -⟩ := runUntilNetop_readApp lib
        (show q.task.ins[q.nextInsIndex]? = some (.readApp ⟨⟨1, 65535⟩, "payload"⟩) by rw [hq, hi]; rfl) c 6
      exact ⟨_, c', hrun, hq, by rw [hi]⟩) fuel

theorem outTail_call (hr : Reachable lib new int) {q : Program} (hcur : int.currentProg .outgoing = some q)
    (hq : q.task = outTask) (hi : q.nextInsIndex = 1) (p : Bytes) (hlen : p.length < 65536) (fuel : Nat) :
    ∃ int' q', (int.store .outgoing "payload" p).nextNetCmd lib .outgoing (fuel + 1) =
        .ok (.ok (.sendNet ⟨frame p⟩), int') ∧
      int'.currentProg .outgoing = some q' ∧ (q'.task = outTask ∧ q'.nextInsIndex = 7) :=
  hr.store_netop splitPair ioSeparated hcur "payload" p (fun q _ => q.task = outTask ∧ q.nextInsIndex = 7)
    (fun _ hc _ => by
      rw [hq, hi]
      exact outTail lib (show (q.storeBytes "payload" p).task = outTask from hq) hi (by simp [Program.storeBytes])
        hlen hc) fuel

theorem inHead_call (hr : Reachable lib new int) (hb : AtBoundary pair .incoming int) (fuel : Nat) :
    ∃ int' q, int.nextNetCmd lib .incoming (fuel + 2) = .ok (.ok (.recvNet ⟨⟨2, 3⟩, "length"⟩), int') ∧
      int'.currentProg .incoming = some q ∧ (q.task = inTask ∧ q.nextInsIndex = 1) :=
  (hr.steady splitPair).nextNetCmd_boundary splitPair
    ((reachable_pendingInv ioSeparated hr).nextNetop_none _) hb (fun q _ => q.task = inTask ∧ q.nextInsIndex = 1)
    (fun q hq hi c _ _ => by
      obtain ⟨c', hrun, -⟩ := runUntilNetop_readNet lib
        (show q.task.ins[q.nextInsIndex]? = some (.readNet ⟨.range ⟨2, 3⟩, "length"⟩) by rw [hq, hi]; rfl) c 9
      exact ⟨_, c', hrun, hq, by rw [hi]⟩) fuel

theorem inMid_call (hr : Reachable lib new int) {q : Program} (hcur : int.currentProg .incoming = some q)
    (hq : q.task = inTask) (hi : q.nextInsIndex = 1) (b : Bytes) (hlen : b.length = 2) (fuel : Nat) :
    ∃ int' q', (int.store .incoming "length" b).nextNetCmd lib .incoming (fuel + 1) =
        .ok (.ok (.recvNet ⟨⟨beToNat b, beToNat b + 1⟩, "payload"⟩), int') ∧
      int'.currentProg .incoming = some q' ∧ (q'.task = inTask ∧ q'.nextInsIndex = 6) :=
  hr.store_netop splitPair ioSeparated hcur "length" b (fun q _ => q.task = inTask ∧ q.nextInsIndex = 6)
    (fun _ hc _ => by
      rw [hq, hi]
      exact inMid lib (show (q.storeBytes "length" b).task = inTask from hq) hi (by simp [Program.storeBytes])
        hlen hc) fuel

theorem inTail_call (hr : Reachable lib new int) {q : Program} (hcur : int.currentProg .incoming = some q)
    (hq : q.task = inTask) (hi : q.nextInsIndex = 6) (p : Bytes) (fuel : Nat) :
    ∃ int' q', (int.store .incoming "payload" p).nextNetCmd lib .incoming (fuel + 1) =
        .ok (.ok (.sendApp ⟨p⟩), int') ∧
      int'.currentProg .incoming = some q' ∧ (q'.task = inTask ∧ q'.nextInsIndex = 10) :=
  hr.store_netop splitPair ioSeparated hcur "payload" p (fun q _ => q.task = inTask ∧ q.nextInsIndex = 10)
    (fun _ hc _ => by
      rw [hq, hi]
      exact inTail lib (show (q.storeBytes "payload" p).task = inTask from hq) hi (by simp [Program.storeBytes])
        hc) fuel

/-! ## 5. The two pumps -/

/-- What the out pump's calls return for one payload: the `RecvApp` that asks
for it, then its frame to send. -/
def outResults (p : Bytes) : List (Except Unit (NetOp .outgoing)) :=
  [.ok (NetOpOut.recvApp ⟨⟨1, 65535⟩, "payload"⟩), .ok (NetOpOut.sendNet ⟨frame p⟩)]

/-- What the in pump's calls return for a message of length bytes `b` and
payload `q`: the `RecvNet` for two bytes, the `RecvNet` for as many bytes as
`b` says, and the payload for the app. -/
def inResults (b q : Bytes) : List (Except Unit (NetOp .incoming)) :=
  [.ok (NetOpIn.recvNet ⟨⟨2, 3⟩, "length"⟩), .ok (NetOpIn.recvNet ⟨⟨beToNat b, beToNat b + 1⟩, "payload"⟩),
    .ok (NetOpIn.sendApp ⟨q⟩)]

/-- A list of messages as the in pump's blobs: the length bytes, then the
payload, of each. -/
def blobsOf (ms : List (Bytes × Bytes)) : List Bytes := ms.flatMap fun m => [m.1, m.2]

theorem blobsOf_cons (m : Bytes × Bytes) (ms : List (Bytes × Bytes)) :
    blobsOf (m :: ms) = m.1 :: m.2 :: blobsOf ms := rfl

/-- One payload through the out pump: a call, the store of the payload, a
call; the pump is ready again. -/
theorem outCycle {h : Harness} (hi : Ready lib new pair .outgoing h) {p : Bytes} {ps : List Bytes}
    (hbl : (h.pump .outgoing).blobs = p :: ps) (hp : p.length < 65536) (fuel : Nat) :
    ∃ h', h.run lib (fuel + 2) (List.replicate 3 .outgoing) = some h' ∧ Ready lib new pair .outgoing h' ∧
      (h'.pump .outgoing).blobs = ps ∧
      (h'.pump .outgoing).results = (h.pump .outgoing).results ++ outResults p := by
  obtain ⟨int₁, q₁, hc₁, hcur₁, ht₁, hi₁⟩ := outHead_call hi.reachable hi.boundary fuel
  have hr₁ := hi.reachable.nextNetCmd hc₁
  obtain ⟨int₃, q₃, hc₃, hcur₃, -, hi₃⟩ := outTail_call hr₁ hcur₁ ht₁ hi₁ p hp (fuel + 1)
  have hr₂ := hr₁.store .outgoing "payload" p
  refine ⟨{ h.setPump .outgoing ⟨none, ps, (h.pump .outgoing).results ++ outResults p⟩ with int := int₃ },
    ?_, ⟨hr₂.nextNetCmd hc₃, .inr ?_, by simp⟩, by simp, by simp⟩
  · have ho : h.pumpOut.owed = none := hi.owed
    have hbl' : h.pumpOut.blobs = p :: ps := hbl
    simp [List.replicate, Harness.run, Harness.step, ho, hc₁, hbl', hc₃, NetOp.recvAddr, outResults,
      Except.toOption, Harness.setPump, Harness.pump]
  · rw [Interpreter.nextProg_of_currentProg hcur₃, hi₃]
    rfl

/-- One message through the in pump: a call, the store of the length bytes, a
call, the store of the payload, a call; the pump is ready again. -/
theorem inCycle {h : Harness} (hi : Ready lib new pair .incoming h) {b q : Bytes} {rest : List Bytes}
    (hbl : (h.pump .incoming).blobs = b :: q :: rest) (hb : b.length = 2) (fuel : Nat) :
    ∃ h', h.run lib (fuel + 2) (List.replicate 5 .incoming) = some h' ∧ Ready lib new pair .incoming h' ∧
      (h'.pump .incoming).blobs = rest ∧
      (h'.pump .incoming).results = (h.pump .incoming).results ++ inResults b q := by
  obtain ⟨int₁, q₁, hc₁, hcur₁, ht₁, hi₁⟩ := inHead_call hi.reachable hi.boundary fuel
  have hr₁ := hi.reachable.nextNetCmd hc₁
  obtain ⟨int₃, q₃, hc₃, hcur₃, ht₃, hi₃⟩ := inMid_call hr₁ hcur₁ ht₁ hi₁ b hb (fuel + 1)
  have hr₂ := (hr₁.store .incoming "length" b).nextNetCmd hc₃
  obtain ⟨int₅, q₅, hc₅, hcur₅, -, hi₅⟩ := inTail_call hr₂ hcur₃ ht₃ hi₃ q (fuel + 1)
  have hr₄ := hr₂.store .incoming "payload" q
  refine ⟨{ h.setPump .incoming ⟨none, rest, (h.pump .incoming).results ++ inResults b q⟩ with int := int₅ },
    ?_, ⟨hr₄.nextNetCmd hc₅, .inr ?_, by simp⟩, by simp, by simp⟩
  · have ho : h.pumpIn.owed = none := hi.owed
    have hbl' : h.pumpIn.blobs = b :: q :: rest := hbl
    simp [List.replicate, Harness.run, Harness.step, ho, hc₁, hbl', hc₃, hc₅, NetOp.recvAddr, inResults,
      Except.toOption, Harness.setPump, Harness.pump]
  · rw [Interpreter.nextProg_of_currentProg hcur₅, hi₅]
    rfl

/-- A stream of payloads through the out pump alone. -/
theorem outPump_run : ∀ (ps : List Bytes) {h : Harness}, Ready lib new pair .outgoing h →
    (h.pump .outgoing).blobs = ps → (∀ p ∈ ps, p.length < 65536) → ∀ fuel : Nat,
    ∃ h', h.run lib (fuel + 2) (List.replicate (3 * ps.length) .outgoing) = some h' ∧
      (h'.pump .outgoing).results = (h.pump .outgoing).results ++ ps.flatMap outResults
  | [], h, _, _, _, _ => ⟨h, rfl, by simp⟩
  | p :: ps, h, hi, hbl, hps, fuel => by
    obtain ⟨h₁, hrun₁, hi₁, hbl₁, hres₁⟩ := outCycle hi hbl (hps p (List.mem_cons_self _ _)) fuel
    obtain ⟨h₂, hrun₂, hres₂⟩ :=
      outPump_run ps hi₁ hbl₁ (fun p' hp' => hps p' (List.mem_cons_of_mem _ hp')) fuel
    refine ⟨h₂, ?_, by rw [hres₂, hres₁, List.flatMap_cons, List.append_assoc]⟩
    rw [show 3 * (p :: ps).length = 3 + 3 * ps.length by simp only [List.length_cons]; omega,
      List.replicate_add, Harness.run_append, hrun₁]
    exact hrun₂

/-- A stream of messages through the in pump alone. -/
theorem inPump_run : ∀ (ms : List (Bytes × Bytes)) {h : Harness}, Ready lib new pair .incoming h →
    (h.pump .incoming).blobs = blobsOf ms → (∀ m ∈ ms, m.1.length = 2) → ∀ fuel : Nat,
    ∃ h', h.run lib (fuel + 2) (List.replicate (5 * ms.length) .incoming) = some h' ∧
      (h'.pump .incoming).results = (h.pump .incoming).results ++ ms.flatMap fun m => inResults m.1 m.2
  | [], h, _, _, _, _ => ⟨h, rfl, by simp⟩
  | m :: ms, h, hi, hbl, hms, fuel => by
    obtain ⟨h₁, hrun₁, hi₁, hbl₁, hres₁⟩ :=
      inCycle hi (hbl.trans (blobsOf_cons m ms)) (hms m (List.mem_cons_self _ _)) fuel
    obtain ⟨h₂, hrun₂, hres₂⟩ :=
      inPump_run ms hi₁ hbl₁ (fun m' hm' => hms m' (List.mem_cons_of_mem _ hm')) fuel
    refine ⟨h₂, ?_, by rw [hres₂, hres₁, List.flatMap_cons, List.append_assoc]⟩
    rw [show 5 * (m :: ms).length = 5 + 5 * ms.length by simp only [List.length_cons]; omega,
      List.replicate_add, Harness.run_append, hrun₁]
    exact hrun₂

/-! ## 6. The pipeline -/

/-- What the network hands the peer's in pump for a list of frames: each
frame as the in task reads it, two length bytes, then the rest. -/
def wire (frames : List Bytes) : List Bytes := frames.flatMap fun f => [f.take 2, f.drop 2]

theorem sentFrames_outResults (ps : List Bytes) : sentFrames (ps.flatMap outResults) = ps.map frame := by
  induction ps with
  | nil => rfl
  | cons p ps ih => rw [List.flatMap_cons, sentFrames_append, ih]; rfl

/-- Split at two bytes, a frame is its length bytes and its payload. -/
theorem wire_frames (ps : List Bytes) :
    wire (ps.map frame) = blobsOf (ps.map fun p => (natToBe 2 p.length, p)) := by
  induction ps with
  | nil => rfl
  | cons p ps ih =>
    rw [List.map_cons, List.map_cons, blobsOf_cons, ← ih]
    simp [wire, frame]

theorem delivered_inResults (ms : List (Bytes × Bytes)) :
    delivered (ms.flatMap fun m => inResults m.1 m.2) = ms.map Prod.snd := by
  induction ms with
  | nil => rfl
  | cons m ms ih => rw [List.flatMap_cons, delivered_append, ih]; rfl

theorem outPump_results (hr : Reachable lib new int) (hb : AtBoundary pair .outgoing int)
    (ps : List Bytes) (hps : ∀ p ∈ ps, p.length < 65536) (blobsIn : List Bytes) {fuel : Nat} (hf : 2 ≤ fuel)
    (σ : List Dir) (h : Harness) (hσ : σ.count .outgoing = 3 * ps.length)
    (hrun : (Harness.start int blobsIn ps).run lib fuel σ = some h) :
    (h.pump .outgoing).results = ps.flatMap outResults := by
  obtain ⟨k, rfl⟩ : ∃ k, fuel = k + 2 := ⟨fuel - 2, by omega⟩
  obtain ⟨h₀, hrun₀, hres₀⟩ := outPump_run ps (start_ready hr hb blobsIn ps) rfl hps k
  exact (results_of_solo splitPair hr blobsIn ps hrun₀ hσ hrun).trans hres₀

theorem inPump_results (hr : Reachable lib new int) (hb : AtBoundary pair .incoming int)
    (ms : List (Bytes × Bytes)) (hms : ∀ m ∈ ms, m.1.length = 2) (blobsOut : List Bytes) {fuel : Nat}
    (hf : 2 ≤ fuel) (σ : List Dir) (h : Harness) (hσ : σ.count .incoming = 5 * ms.length)
    (hrun : (Harness.start int (blobsOf ms) blobsOut).run lib fuel σ = some h) :
    (h.pump .incoming).results = ms.flatMap fun m => inResults m.1 m.2 := by
  obtain ⟨k, rfl⟩ : ∃ k, fuel = k + 2 := ⟨fuel - 2, by omega⟩
  obtain ⟨h₀, hrun₀, hres₀⟩ := inPump_run ms (start_ready hr hb (blobsOf ms) blobsOut) rfl hms k
  exact (results_of_solo splitPair hr _ blobsOut hrun₀ hσ hrun).trans hres₀

/-- **The out pump frames every payload, in every interleaving.** From a
reachable state whose out direction is between two messages, with payloads
shorter than `2 ^ 16`: the out pump alone runs its `3 · n` turns without a
failed call; and in every schedule with that many out turns that runs,
whatever the in pump does, its calls return, for each payload in order, the
`RecvApp` asking for it and its frame, a big-endian `u16` length and the
payload. -/
theorem outPump_frames (hr : Reachable lib new int) (hb : AtBoundary pair .outgoing int)
    (ps : List Bytes) (hps : ∀ p ∈ ps, p.length < 65536) (blobsIn : List Bytes) {fuel : Nat} (hf : 2 ≤ fuel) :
    (∃ h, (Harness.start int blobsIn ps).run lib fuel (List.replicate (3 * ps.length) .outgoing) = some h) ∧
    ∀ (σ : List Dir) (h : Harness), σ.count .outgoing = 3 * ps.length →
      (Harness.start int blobsIn ps).run lib fuel σ = some h →
      (h.pump .outgoing).results = ps.flatMap outResults := by
  obtain ⟨k, rfl⟩ : ∃ k, fuel = k + 2 := ⟨fuel - 2, by omega⟩
  obtain ⟨h₀, hrun₀, -⟩ := outPump_run ps (start_ready hr hb blobsIn ps) rfl hps k
  exact ⟨⟨h₀, hrun₀⟩, outPump_results hr hb ps hps blobsIn hf⟩

theorem outPump_frames_sevenEight :
    Reachable CryptoLib.plain new fresh ∧ AtBoundary pair .outgoing fresh ∧
    (∀ p ∈ ([[7, 8]] : List Bytes), p.length < 65536) ∧ 2 ≤ 2 ∧
    ((∃ h, (Harness.start fresh [] [[7, 8]]).run CryptoLib.plain 2
        (List.replicate (3 * ([[7, 8]] : List Bytes).length) .outgoing) = some h) ∧
      ∀ (σ : List Dir) (h : Harness), σ.count .outgoing = 3 * ([[7, 8]] : List Bytes).length →
        (Harness.start fresh [] [[7, 8]]).run CryptoLib.plain 2 σ = some h →
        (h.pump .outgoing).results = ([[7, 8]] : List Bytes).flatMap outResults) :=
  ⟨.new rfl, .inl rfl, by decide, le_refl 2,
    outPump_frames (.new rfl) (.inl rfl) [[7, 8]] (by decide) [] (le_refl 2)⟩

/-- **The in pump trusts the length bytes.** From a reachable state whose in
direction is between two messages, with messages whose length bytes are two
bytes long: the in pump alone runs its `5 · n` turns without a failed call;
and in every schedule with that many in turns that runs, its calls return,
for each message in order, the `RecvNet` for two bytes, the `RecvNet` for as
many bytes as they say, and the payload it was given, whatever its length. -/
theorem inPump_deframes (hr : Reachable lib new int) (hb : AtBoundary pair .incoming int)
    (ms : List (Bytes × Bytes)) (hms : ∀ m ∈ ms, m.1.length = 2) (blobsOut : List Bytes) {fuel : Nat}
    (hf : 2 ≤ fuel) :
    (∃ h, (Harness.start int (blobsOf ms) blobsOut).run lib fuel
        (List.replicate (5 * ms.length) .incoming) = some h) ∧
    ∀ (σ : List Dir) (h : Harness), σ.count .incoming = 5 * ms.length →
      (Harness.start int (blobsOf ms) blobsOut).run lib fuel σ = some h →
      (h.pump .incoming).results = ms.flatMap fun m => inResults m.1 m.2 := by
  obtain ⟨k, rfl⟩ : ∃ k, fuel = k + 2 := ⟨fuel - 2, by omega⟩
  obtain ⟨h₀, hrun₀, -⟩ := inPump_run ms (start_ready hr hb (blobsOf ms) blobsOut) rfl hms k
  exact ⟨⟨h₀, hrun₀⟩, inPump_results hr hb ms hms blobsOut hf⟩

/-- The length bytes say five, the payload is one byte: the in pump asks for
five and delivers the one. -/
theorem inPump_deframes_short :
    Reachable CryptoLib.plain new fresh ∧ AtBoundary pair .incoming fresh ∧
    (∀ m ∈ ([([0, 5], [9])] : List (Bytes × Bytes)), m.1.length = 2) ∧ 2 ≤ 2 ∧
    ((∃ h, (Harness.start fresh (blobsOf [([0, 5], [9])]) []).run CryptoLib.plain 2
        (List.replicate (5 * ([([0, 5], [9])] : List (Bytes × Bytes)).length) .incoming) = some h) ∧
      ∀ (σ : List Dir) (h : Harness), σ.count .incoming = 5 * ([([0, 5], [9])] : List (Bytes × Bytes)).length →
        (Harness.start fresh (blobsOf [([0, 5], [9])]) []).run CryptoLib.plain 2 σ = some h →
        (h.pump .incoming).results = ([([0, 5], [9])] : List (Bytes × Bytes)).flatMap
          fun m => inResults m.1 m.2) :=
  ⟨.new rfl, .inl rfl, by decide, le_refl 2,
    inPump_deframes (.new rfl) (.inl rfl) [([0, 5], [9])] (by decide) [] (le_refl 2)⟩

/-- **What one app sends, the other app receives.** Take two interpreters of
the provider, reachable and between messages (`a` in its out direction, `b`
in its in direction), and payloads shorter than `2 ^ 16`. Run `a`'s pumps on
any schedule with `3 · n` out turns, and `b`'s on any schedule with `5 · n`
in turns whose in pump is fed `a`'s frames as the in task reads them. If
both runs go through, `b`'s app is handed exactly the payloads, in order. -/
theorem pipeline_delivers {libA libB : CryptoLib} {a b : Interpreter} (ha : Reachable libA new a)
    (hba : AtBoundary pair .outgoing a) (hb : Reachable libB new b) (hbb : AtBoundary pair .incoming b)
    (ps : List Bytes) (hps : ∀ p ∈ ps, p.length < 65536) (inA outB : List Bytes) {fuel : Nat} (hf : 2 ≤ fuel)
    {σA σB : List Dir} {hA hB : Harness} (hσA : σA.count .outgoing = 3 * ps.length)
    (hrunA : (Harness.start a inA ps).run libA fuel σA = some hA) (hσB : σB.count .incoming = 5 * ps.length)
    (hrunB : (Harness.start b (wire (sentFrames (hA.pump .outgoing).results)) outB).run libB fuel σB =
      some hB) :
    delivered (hB.pump .incoming).results = ps := by
  rw [outPump_results ha hba ps hps inA hf σA hA hσA hrunA, sentFrames_outResults, wire_frames] at hrunB
  have hms : ∀ m ∈ ps.map fun p => (natToBe 2 p.length, p), m.1.length = 2 := by simp
  rw [inPump_results hb hbb _ hms outB hf σB hB (by simpa using hσB) hrunB, delivered_inResults]
  simp [Function.comp_def]

/-- What `a`'s pumps hold after an out turn, an in turn and two out turns. -/
def pipeA : Harness :=
  match (Harness.start fresh [] [[7, 8]]).run CryptoLib.plain 2 [.outgoing, .incoming, .outgoing, .outgoing] with
  | some h => h
  | none => Harness.start fresh [] []

/-- What `b`'s pumps hold after an in turn, an out turn and four in turns,
fed `a`'s frames. -/
def pipeB : Harness :=
  match (Harness.start fresh (wire (sentFrames (pipeA.pump .outgoing).results)) []).run CryptoLib.plain 2
      [.incoming, .outgoing, .incoming, .incoming, .incoming, .incoming] with
  | some h => h
  | none => Harness.start fresh [] []

theorem pipeline_delivers_sevenEight :
    Reachable CryptoLib.plain new fresh ∧ AtBoundary pair .outgoing fresh ∧
    AtBoundary pair .incoming fresh ∧ (∀ p ∈ ([[7, 8]] : List Bytes), p.length < 65536) ∧ 2 ≤ 2 ∧
    [Dir.outgoing, .incoming, .outgoing, .outgoing].count .outgoing = 3 * ([[7, 8]] : List Bytes).length ∧
    (Harness.start fresh [] [[7, 8]]).run CryptoLib.plain 2 [.outgoing, .incoming, .outgoing, .outgoing] =
      some pipeA ∧
    [Dir.incoming, .outgoing, .incoming, .incoming, .incoming, .incoming].count .incoming =
      5 * ([[7, 8]] : List Bytes).length ∧
    (Harness.start fresh (wire (sentFrames (pipeA.pump .outgoing).results)) []).run CryptoLib.plain 2
      [.incoming, .outgoing, .incoming, .incoming, .incoming, .incoming] = some pipeB ∧
    delivered (pipeB.pump .incoming).results = [[7, 8]] :=
  have hσA : [Dir.outgoing, .incoming, .outgoing, .outgoing].count .outgoing =
      3 * ([[7, 8]] : List Bytes).length := rfl
  have hσB : [Dir.incoming, .outgoing, .incoming, .incoming, .incoming, .incoming].count .incoming =
      5 * ([[7, 8]] : List Bytes).length := rfl
  have hrunA : (Harness.start fresh [] [[7, 8]]).run CryptoLib.plain 2
      [.outgoing, .incoming, .outgoing, .outgoing] = some pipeA := rfl
  have hrunB : (Harness.start fresh (wire (sentFrames (pipeA.pump .outgoing).results)) []).run
      CryptoLib.plain 2 [.incoming, .outgoing, .incoming, .incoming, .incoming, .incoming] = some pipeB := rfl
  ⟨.new rfl, .inl rfl, .inl rfl, by decide, le_refl 2, hσA, hrunA, hσB, hrunB,
    pipeline_delivers (.new rfl) (.inl rfl) (.new rfl) (.inl rfl) [[7, 8]] (by decide) [] [] (le_refl 2)
      hσA hrunA hσB hrunB⟩

/-- **Both ways at once.** Two interpreters of the provider, reachable and
between messages in both directions, each send a list of payloads shorter
than `2 ^ 16` and each feed their in pump the other's frames as the in task
reads them. On any schedules with `3 · n` out turns and `5 · m` in turns
(`n` the own payloads, `m` the peer's) that run, each app is handed the
peer's payloads, in order. Each side's in pump reads the other side's out
results, so the two runs are tied in a loop; what breaks it is that an out
pump's results do not depend on what the in pump is fed: they are the
frames of the side's own payloads, however the turns interleave. -/
theorem duplex_delivers {libA libB : CryptoLib} {a b : Interpreter} (ha : Reachable libA new a)
    (hoa : AtBoundary pair .outgoing a) (hia : AtBoundary pair .incoming a) (hb : Reachable libB new b)
    (hob : AtBoundary pair .outgoing b) (hib : AtBoundary pair .incoming b) (psA psB : List Bytes)
    (hpsA : ∀ p ∈ psA, p.length < 65536) (hpsB : ∀ p ∈ psB, p.length < 65536) {fuel : Nat} (hf : 2 ≤ fuel)
    {σA σB : List Dir} {hA hB : Harness}
    (hσA : σA.count .outgoing = 3 * psA.length ∧ σA.count .incoming = 5 * psB.length)
    (hσB : σB.count .outgoing = 3 * psB.length ∧ σB.count .incoming = 5 * psA.length)
    (hrunA : (Harness.start a (wire (sentFrames (hB.pump .outgoing).results)) psA).run libA fuel σA = some hA)
    (hrunB : (Harness.start b (wire (sentFrames (hA.pump .outgoing).results)) psB).run libB fuel σB = some hB) :
    delivered (hA.pump .incoming).results = psB ∧ delivered (hB.pump .incoming).results = psA ∧
      (hA.pump .outgoing).results = psA.flatMap outResults ∧ (hB.pump .outgoing).results = psB.flatMap outResults := by
  have hoA := outPump_results ha hoa psA hpsA _ hf σA hA hσA.1 hrunA
  have hoB := outPump_results hb hob psB hpsB _ hf σB hB hσB.1 hrunB
  rw [hoB, sentFrames_outResults, wire_frames] at hrunA
  rw [hoA, sentFrames_outResults, wire_frames] at hrunB
  have hms : ∀ ps : List Bytes, ∀ m ∈ ps.map fun p => (natToBe 2 p.length, p), m.1.length = 2 := by simp
  rw [inPump_results ha hia _ (hms psB) psA hf σA hA (by simpa using hσA.2) hrunA,
    inPump_results hb hib _ (hms psA) psB hf σB hB (by simpa using hσB.2) hrunB, delivered_inResults,
    delivered_inResults]
  exact ⟨by simp [Function.comp_def], by simp [Function.comp_def], hoA, hoB⟩

/-- What `a`'s pumps hold after a conversation in which `a` sends `[7, 8]`
and `b` sends `[9]`, each side taking its turns in the order of the
`interleaved_app_net_net_app` test. -/
def duplexA : Harness :=
  match (Harness.start fresh (wire ([[9]].map frame)) [[7, 8]]).run CryptoLib.plain 2
      [.outgoing, .incoming, .incoming, .outgoing, .incoming, .outgoing, .incoming, .incoming] with
  | some h => h
  | none => Harness.start fresh [] []

/-- What `b`'s pumps hold in the same conversation. -/
def duplexB : Harness :=
  match (Harness.start fresh (wire ([[7, 8]].map frame)) [[9]]).run CryptoLib.plain 2
      [.outgoing, .incoming, .incoming, .outgoing, .incoming, .outgoing, .incoming, .incoming] with
  | some h => h
  | none => Harness.start fresh [] []

theorem duplex_delivers_sevenEight_nine :
    Reachable CryptoLib.plain new fresh ∧ AtBoundary pair .outgoing fresh ∧ AtBoundary pair .incoming fresh ∧
    (∀ p ∈ ([[7, 8]] : List Bytes), p.length < 65536) ∧ (∀ p ∈ ([[9]] : List Bytes), p.length < 65536) ∧
    2 ≤ 2 ∧
    ([Dir.outgoing, .incoming, .incoming, .outgoing, .incoming, .outgoing, .incoming, .incoming].count .outgoing =
        3 * ([[7, 8]] : List Bytes).length ∧
      [Dir.outgoing, .incoming, .incoming, .outgoing, .incoming, .outgoing, .incoming, .incoming].count .incoming =
        5 * ([[9]] : List Bytes).length) ∧
    (Harness.start fresh (wire (sentFrames (duplexB.pump .outgoing).results)) [[7, 8]]).run CryptoLib.plain 2
      [.outgoing, .incoming, .incoming, .outgoing, .incoming, .outgoing, .incoming, .incoming] = some duplexA ∧
    (Harness.start fresh (wire (sentFrames (duplexA.pump .outgoing).results)) [[9]]).run CryptoLib.plain 2
      [.outgoing, .incoming, .incoming, .outgoing, .incoming, .outgoing, .incoming, .incoming] = some duplexB ∧
    delivered (duplexA.pump .incoming).results = [[9]] ∧ delivered (duplexB.pump .incoming).results = [[7, 8]] ∧
      (duplexA.pump .outgoing).results = ([[7, 8]] : List Bytes).flatMap outResults ∧
      (duplexB.pump .outgoing).results = ([[9]] : List Bytes).flatMap outResults :=
  have hfB : sentFrames (duplexB.pump .outgoing).results = [[9]].map frame := rfl
  have hfA : sentFrames (duplexA.pump .outgoing).results = [[7, 8]].map frame := rfl
  have hrunA : (Harness.start fresh (wire (sentFrames (duplexB.pump .outgoing).results)) [[7, 8]]).run
      CryptoLib.plain 2 [.outgoing, .incoming, .incoming, .outgoing, .incoming, .outgoing, .incoming, .incoming] =
      some duplexA := by rw [hfB]; rfl
  have hrunB : (Harness.start fresh (wire (sentFrames (duplexA.pump .outgoing).results)) [[9]]).run
      CryptoLib.plain 2 [.outgoing, .incoming, .incoming, .outgoing, .incoming, .outgoing, .incoming, .incoming] =
      some duplexB := by rw [hfA]; rfl
  have hσ : [Dir.outgoing, .incoming, .incoming, .outgoing, .incoming, .outgoing, .incoming, .incoming].count
      .outgoing = 3 * ([[7, 8]] : List Bytes).length ∧
      [Dir.outgoing, .incoming, .incoming, .outgoing, .incoming, .outgoing, .incoming, .incoming].count .incoming =
        5 * ([[9]] : List Bytes).length := ⟨rfl, rfl⟩
  ⟨.new rfl, .inl rfl, .inl rfl, by decide, by decide, le_refl 2, hσ, hrunA, hrunB,
    duplex_delivers (.new rfl) (.inl rfl) (.inl rfl) (.new rfl) (.inl rfl) (.inl rfl) [[7, 8]] [[9]] (by decide)
      (by decide) (le_refl 2) hσ hσ hrunA hrunB⟩

/-- **An oversized payload is refused, not wrapped.** From a reachable state
whose out direction is between two messages, the out call asks for a
payload; if the pump stores one of `2 ^ 16` bytes or more, the next out call
panics. No frame whose length field disagrees with its payload is sent. -/
theorem outPump_oversized (hr : Reachable lib new int) (hb : AtBoundary pair .outgoing int) {p : Bytes}
    (hp : 65536 ≤ p.length) (fuel : Nat) :
    ∃ int₁, int.nextNetCmd lib .outgoing (fuel + 2) = .ok (.ok (.recvApp ⟨⟨1, 65535⟩, "payload"⟩), int₁) ∧
      (int₁.store .outgoing "payload" p).nextNetCmd lib .outgoing (fuel + 1) =
        .error (.panic "called Option::unwrap() on a None value") := by
  obtain ⟨int₁, q₁, hc₁, hcur₁, ht₁, hi₁⟩ := outHead_call hr hb fuel
  refine ⟨int₁, hc₁, (hr.nextNetCmd hc₁).store_error splitPair ioSeparated hcur₁ "payload" p (fun c hc _ => ?_) fuel⟩
  rw [ht₁, hi₁]
  exact outTail_oversized lib (show (q₁.storeBytes "payload" p).task = outTask from ht₁) hi₁
    (by simp [Program.storeBytes]) hp hc

theorem outPump_oversized_max :
    Reachable CryptoLib.plain new fresh ∧ AtBoundary pair .outgoing fresh ∧
    65536 ≤ (List.replicate 65536 (0 : UInt8)).length ∧
    ∃ int₁, fresh.nextNetCmd CryptoLib.plain .outgoing (0 + 2) =
        .ok (.ok (.recvApp ⟨⟨1, 65535⟩, "payload"⟩), int₁) ∧
      (int₁.store .outgoing "payload" (List.replicate 65536 0)).nextNetCmd CryptoLib.plain .outgoing (0 + 1) =
        .error (.panic "called Option::unwrap() on a None value") :=
  have hlen : 65536 ≤ (List.replicate 65536 (0 : UInt8)).length := (List.length_replicate _ _).ge
  ⟨.new rfl, .inl rfl, hlen, outPump_oversized (.new rfl) (.inl rfl) hlen 0⟩

/-- **A length header of the wrong size is fatal.** From a reachable state
whose in direction is between two messages, the in call asks for two length
bytes; if the pump stores any other number of bytes, the next in call
panics. -/
theorem inPump_badHeader (hr : Reachable lib new int) (hb : AtBoundary pair .incoming int) {b : Bytes}
    (hlen : b.length ≠ 2) (fuel : Nat) :
    ∃ int₁, int.nextNetCmd lib .incoming (fuel + 2) = .ok (.ok (.recvNet ⟨⟨2, 3⟩, "length"⟩), int₁) ∧
      (int₁.store .incoming "length" b).nextNetCmd lib .incoming (fuel + 1) =
        .error (.panic "called Option::unwrap() on a None value") := by
  obtain ⟨int₁, q₁, hc₁, hcur₁, ht₁, hi₁⟩ := inHead_call hr hb fuel
  refine ⟨int₁, hc₁, (hr.nextNetCmd hc₁).store_error splitPair ioSeparated hcur₁ "length" b (fun c hc _ => ?_) fuel⟩
  rw [ht₁, hi₁]
  exact inMid_badHeader lib (show (q₁.storeBytes "length" b).task = inTask from ht₁) hi₁
    (by simp [Program.storeBytes]) hlen hc

theorem inPump_badHeader_one :
    Reachable CryptoLib.plain new fresh ∧ AtBoundary pair .incoming fresh ∧ ([5] : Bytes).length ≠ 2 ∧
    ∃ int₁, fresh.nextNetCmd CryptoLib.plain .incoming (0 + 2) =
        .ok (.ok (.recvNet ⟨⟨2, 3⟩, "length"⟩), int₁) ∧
      (int₁.store .incoming "length" [5]).nextNetCmd CryptoLib.plain .incoming (0 + 1) =
        .error (.panic "called Option::unwrap() on a None value") :=
  ⟨.new rfl, .inl rfl, by decide, inPump_badHeader (.new rfl) (.inl rfl) (by decide) 0⟩

end LengthPayloadSpec

end Proteus
