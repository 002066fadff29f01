import Proteus.Lang.Interpreter

/-!
Proteus.Lang.Execute — what one instruction can do, said once.

Every later proof about the interpreter goes through these lemmas and
never unfolds the dispatch:

* **`executeInstruction_ok_cases`** — what a successful instruction can do,
  by kind of instruction; the lemmas below are read off it.
* `executeInstruction_program` — the task and the index stay put (the
  caller adds one).
* `executeInstruction_frame` — of the interpreter, only the cipher and
  the two pending ops change; so its `control` part stays put.
* `executeInstruction_nextNetop`, `executeInstruction_yields` — an op of
  direction `d` is published exactly by the instructions that `yield`
  in `d`.
* `restrictTo_executeInstruction` — an instruction that does not touch
  direction `d` leaves `d`'s part of the interpreter alone.
* `executeInstruction_restrictTo` — an instruction that does not touch
  the other direction reads only `d`'s part: running it on that part
  alone gives the same program and the same part.

`restrictTo d` is the part of the interpreter that direction `d`'s
instructions read and write: its half of the cipher and its pending op.
The last two lemmas are the non-interference the two-direction
scheduling argument rests on.
-/

namespace Proteus

/-- The half of the cipher direction `d` uses. -/
def Cipher.restrictTo : Dir → Cipher → Cipher
  | .incoming, c => c.onlyRecv
  | .outgoing, c => c.onlySend

namespace Interpreter

/-- The part of the interpreter that direction `d`'s instructions use. -/
def restrictTo (d : Dir) (int : Interpreter) : Interpreter where
  spec := int.spec
  cipher := int.cipher.map (Cipher.restrictTo d)
  nextNetopOut := match d with
    | .incoming => none
    | .outgoing => int.nextNetopOut
  nextNetopIn := match d with
    | .incoming => int.nextNetopIn
    | .outgoing => none
  currentProgOut := none
  currentProgIn := none
  lastTaskId := default
  wantsTasks := false
  history := []

@[simp] theorem restrictTo_nextNetop (d : Dir) (int : Interpreter) :
    (int.restrictTo d).nextNetop d = int.nextNetop d := by
  cases d <;> rfl

@[simp] theorem restrictTo_record (d : Dir) (int : Interpreter) (e : Event) :
    (int.record e).restrictTo d = int.restrictTo d := rfl

theorem restrictTo_clearNextNetop (d e : Dir) (int : Interpreter) :
    (int.clearNextNetop e).restrictTo d = (int.restrictTo d).clearNextNetop e := by
  cases d <;> cases e <;> rfl

@[simp] theorem restrictTo_restrictTo (d : Dir) (int : Interpreter) :
    (int.restrictTo d).restrictTo d = int.restrictTo d := by
  have hc : ∀ c : Cipher, (c.restrictTo d).restrictTo d = c.restrictTo d := by
    intro c; cases d <;> rfl
  cases d <;> simp [restrictTo, Option.map_map, Function.comp_def, hc]

/-- What no instruction touches: the provider, the two slots, the last
task id and `wants_tasks`. -/
structure Control where
  spec : TaskProvider
  currentProgOut : Option Program
  currentProgIn : Option Program
  lastTaskId : TaskID
  wantsTasks : Bool

/-- The `Control` part of the interpreter. -/
def control (int : Interpreter) : Control :=
  ⟨int.spec, int.currentProgOut, int.currentProgIn, int.lastTaskId, int.wantsTasks⟩

@[simp] theorem control_record (int : Interpreter) (e : Event) : (int.record e).control = int.control :=
  rfl

@[simp] theorem control_clearNextNetop (int : Interpreter) (d : Dir) :
    (int.clearNextNetop d).control = int.control := by
  cases d <;> rfl

theorem currentProg_of_control {int int' : Interpreter} (h : int'.control = int.control) (d : Dir) :
    int'.currentProg d = int.currentProg d := by
  simp only [control, Control.mk.injEq] at h
  cases d <;> simp [currentProg, h]

@[simp] theorem retire_currentProg (int : Interpreter) (d e : Dir) (id : TaskID) :
    (int.retire d id).currentProg e = int.currentProg e := by
  cases e <;> rfl

@[simp] theorem retire_cipher (int : Interpreter) (d : Dir) (id : TaskID) :
    (int.retire d id).cipher = int.cipher := rfl

@[simp] theorem record_history (int : Interpreter) (e : Event) :
    (int.record e).history = int.history ++ [e] := rfl

@[simp] theorem record_nextNetop (int : Interpreter) (e : Event) (d : Dir) :
    (int.record e).nextNetop d = int.nextNetop d := by
  cases d <;> rfl

@[simp] theorem record_currentProg (int : Interpreter) (e : Event) (d : Dir) :
    (int.record e).currentProg d = int.currentProg d := by
  cases d <;> rfl

@[simp] theorem currentProg_setCurrentProg (int : Interpreter) (d e : Dir) (p : Option Program) :
    (int.setCurrentProg d p).currentProg e = if e = d then p else int.currentProg e := by
  cases d <;> cases e <;> rfl

@[simp] theorem setCurrentProg_wantsTasks (int : Interpreter) (d : Dir) (p : Option Program) :
    (int.setCurrentProg d p).wantsTasks = int.wantsTasks := by
  cases d <;> rfl

@[simp] theorem setCurrentProg_lastTaskId (int : Interpreter) (d : Dir) (p : Option Program) :
    (int.setCurrentProg d p).lastTaskId = int.lastTaskId := by
  cases d <;> rfl

@[simp] theorem setCurrentProg_history (int : Interpreter) (d : Dir) (p : Option Program) :
    (int.setCurrentProg d p).history = int.history := by
  cases d <;> rfl

@[simp] theorem setCurrentProg_spec (int : Interpreter) (d : Dir) (p : Option Program) :
    (int.setCurrentProg d p).spec = int.spec := by
  cases d <;> rfl

@[simp] theorem setCurrentProg_cipher (int : Interpreter) (d : Dir) (p : Option Program) :
    (int.setCurrentProg d p).cipher = int.cipher := by
  cases d <;> rfl

@[simp] theorem restrictTo_setCurrentProg (int : Interpreter) (d e : Dir) (p : Option Program) :
    (int.setCurrentProg e p).restrictTo d = int.restrictTo d := by
  cases e <;> rfl

@[simp] theorem nextNetop_setCurrentProg (int : Interpreter) (d e : Dir) (p : Option Program) :
    (int.setCurrentProg e p).nextNetop d = int.nextNetop d := by
  cases e <;> cases d <;> rfl

@[simp] theorem clearNextNetop_history (int : Interpreter) (d : Dir) :
    (int.clearNextNetop d).history = int.history := by
  cases d <;> rfl

@[simp] theorem clearNextNetop_cipher (int : Interpreter) (d : Dir) :
    (int.clearNextNetop d).cipher = int.cipher := by
  cases d <;> rfl

@[simp] theorem nextNetop_clearNextNetop_other (int : Interpreter) {d e : Dir} (h : e ≠ d) :
    (int.clearNextNetop d).nextNetop e = int.nextNetop e := by
  cases d <;> cases e <;> first | rfl | exact absurd rfl h

@[simp] theorem nextNetop_clearNextNetop_self (int : Interpreter) (d : Dir) :
    (int.clearNextNetop d).nextNetop d = none := by
  cases d <;> rfl

end Interpreter

namespace Program

variable (lib : CryptoLib) {p q : Program} {int int' : Interpreter} {ins : Instruction}

/-- **What a successful instruction can do**, said once: keep the program's
task and index, and to the interpreter either nothing (the heap
instructions, which touch no direction), or replace the cipher
(`DecryptField` moving only its receiving half, `EncryptField` only its
sending half, `InitFixedSharedKey` all of it), or publish one op: an
outgoing one for `ReadApp` and `WriteNet`, an incoming one for `ReadNet` and
`WriteApp`. -/
theorem executeInstruction_ok_cases (h : p.executeInstruction lib int ins = .ok (q, int')) :
    q.task = p.task ∧ q.nextInsIndex = p.nextInsIndex ∧
    ((int' = int ∧ ∀ d, ins.touches d = false) ∨
     (∃ a c c', ins = .decryptField a ∧ int.cipher = some c ∧ c'.onlySend = c.onlySend ∧
        int' = { int with cipher := some c' }) ∨
     (∃ a c t, ins = .encryptField a ∧ int.cipher = some c ∧
        int' = { int with cipher := some (c.encrypt lib t).2 }) ∨
     (∃ a c, ins = .initFixedSharedKey a ∧ int' = { int with cipher := some c }) ∨
     (∃ op, ((∃ a, ins = .readApp a) ∨ ∃ a, ins = .writeNet a) ∧
        int' = { int with nextNetopOut := some op }) ∨
     (∃ op, ((∃ a, ins = .readNet a) ∨ ∃ a, ins = .writeApp a) ∧
        int' = { int with nextNetopIn := some op })) := by
  cases ins <;> simp [executeInstruction, Instruction.touches] at h ⊢ <;> (try split at h) <;>
    (try simp [Cipher.decrypt_eq_ok] at h) <;> aesop

/-- An instruction keeps the program's task and index. -/
theorem executeInstruction_program (h : p.executeInstruction lib int ins = .ok (q, int')) :
    q.task = p.task ∧ q.nextInsIndex = p.nextInsIndex :=
  ⟨(executeInstruction_ok_cases lib h).1, (executeInstruction_ok_cases lib h).2.1⟩

/-- Of the interpreter, an instruction changes the cipher and the pending ops only. -/
theorem executeInstruction_frame (h : p.executeInstruction lib int ins = .ok (q, int')) :
    int' = { int with
      cipher := int'.cipher
      nextNetopIn := int'.nextNetopIn
      nextNetopOut := int'.nextNetopOut } := by
  obtain ⟨-, -, ⟨rfl, -⟩ | ⟨_, _, _, -, -, -, rfl⟩ | ⟨_, _, _, -, -, rfl⟩ | ⟨_, _, -, rfl⟩ |
    ⟨_, -, rfl⟩ | ⟨_, -, rfl⟩⟩ := executeInstruction_ok_cases lib h <;> rfl

/-- An instruction that does not yield in `d` leaves `d`'s pending op alone. -/
theorem executeInstruction_nextNetop {d : Dir} (hy : ins.yields d = false)
    (h : p.executeInstruction lib int ins = .ok (q, int')) : int'.nextNetop d = int.nextNetop d := by
  obtain ⟨-, -, ⟨rfl, -⟩ | ⟨_, _, _, -, -, -, rfl⟩ | ⟨_, _, _, -, -, rfl⟩ | ⟨_, _, -, rfl⟩ |
    ⟨_, ⟨_, rfl⟩ | ⟨_, rfl⟩, rfl⟩ | ⟨_, ⟨_, rfl⟩ | ⟨_, rfl⟩, rfl⟩⟩ := executeInstruction_ok_cases lib h <;>
    cases d <;> first | rfl | simp [Instruction.yields] at hy

/-- An instruction that yields in `d` publishes an op of `d`. -/
theorem executeInstruction_yields {d : Dir} (hy : ins.yields d = true)
    (h : p.executeInstruction lib int ins = .ok (q, int')) : (int'.nextNetop d).isSome := by
  obtain ⟨-, -, ⟨-, ht⟩ | ⟨_, _, _, rfl, -⟩ | ⟨_, _, _, rfl, -⟩ | ⟨_, _, rfl, -⟩ |
    ⟨_, ⟨_, rfl⟩ | ⟨_, rfl⟩, rfl⟩ | ⟨_, ⟨_, rfl⟩ | ⟨_, rfl⟩, rfl⟩⟩ := executeInstruction_ok_cases lib h
  · exact absurd (Instruction.yields_touches hy) (by simp [ht])
  all_goals cases d <;> first | rfl | simp [Instruction.yields] at hy

/-- An instruction that does not touch direction `d` leaves `d`'s part alone. -/
theorem restrictTo_executeInstruction {d : Dir} (hd : ins.touches d = false)
    (h : p.executeInstruction lib int ins = .ok (q, int')) : int'.restrictTo d = int.restrictTo d := by
  obtain ⟨-, -, ⟨rfl, -⟩ | ⟨_, c, c', rfl, hc, hs, rfl⟩ | ⟨_, c, t, rfl, hc, rfl⟩ | ⟨_, _, rfl, -⟩ |
    ⟨_, ⟨_, rfl⟩ | ⟨_, rfl⟩, rfl⟩ | ⟨_, ⟨_, rfl⟩ | ⟨_, rfl⟩, rfl⟩⟩ := executeInstruction_ok_cases lib h
  · rfl
  · -- a decryption moves the receiving half only
    cases d <;> simp [Instruction.touches] at hd
    simp [Interpreter.restrictTo, Cipher.restrictTo, hc, hs]
  · -- an encryption moves the sending half only
    cases d <;> simp [Instruction.touches] at hd
    simp [Interpreter.restrictTo, Cipher.restrictTo, hc]
  all_goals cases d <;> simp [Instruction.touches] at hd <;> rfl

/-- An instruction that does not touch the other direction reads only `d`'s
part of the interpreter. -/
theorem executeInstruction_restrictTo {d : Dir} (hd : ins.touches d.other = false) :
    p.executeInstruction lib (int.restrictTo d) ins =
      (fun r => (r.1, r.2.restrictTo d)) <$> p.executeInstruction lib int ins := by
  cases d <;> cases ins <;> simp [Instruction.touches, Dir.other] at hd <;>
    simp [executeInstruction, map_bind] <;> (try cases hc : int.cipher) <;>
    simp [Interpreter.restrictTo, hc, Cipher.restrictTo, Cipher.decrypt_onlyRecv,
      Cipher.encrypt_onlySend, map_bind]

/-- An instruction fails only by a panic. -/
theorem executeInstruction_ne_outOfFuel (p : Program) (int : Interpreter) (ins : Instruction) :
    p.executeInstruction lib int ins ≠ .error .outOfFuel := by
  have hr (l : ReadNetLength) : p.readNetRange l ≠ .error .outOfFuel := by
    cases l <;> simp [readNetRange, usizeSub_ne_outOfFuel, usizeAdd_ne_outOfFuel]
  have hc (m : Bytes) : copyFromSlice16 m ≠ .error .outOfFuel := by
    unfold copyFromSlice16; split <;> simp
  cases ins <;> simp only [executeInstruction] <;> (try split) <;>
    simp only [ne_eq, Except.bind_eq_error, Except.map_eq_error, Except.pure_ne_error, unwrap_ne_outOfFuel,
      hr, hc, Cipher.decrypt_ne_outOfFuel, false_or, or_false, and_false, exists_false,
      not_false_eq_true, Except.error.injEq, reduceCtorEq]
  exact mapM_ne_outOfFuel (fun _ => by simp) _

/-! ## `execute_next_instruction` -/

/-- `execute_next_instruction` runs the instruction at the index and adds one. -/
theorem executeNextInstruction_eq (hins : p.task.ins[p.nextInsIndex]? = some ins) :
    p.executeNextInstruction lib int =
      (fun r => ({ r.1 with nextInsIndex := r.1.nextInsIndex + 1 }, r.2)) <$>
        p.executeInstruction lib int ins := by
  simp [executeNextInstruction, hins]

/-- A successful `execute_next_instruction` is a successful run of the
instruction at the index, whose interpreter it returns. -/
theorem executeNextInstruction_ok {p' : Program} (hins : p.task.ins[p.nextInsIndex]? = some ins)
    (h : p.executeNextInstruction lib int = .ok (p', int')) :
    ∃ q, p.executeInstruction lib int ins = .ok (q, int') := by
  rw [executeNextInstruction_eq lib hins] at h
  obtain ⟨⟨q, c⟩, hq, he⟩ := Except.map_eq_ok.mp h
  cases he
  exact ⟨q, hq⟩

/-- `execute_next_instruction` leaves the `control` part and the history alone. -/
theorem executeNextInstruction_control {p' : Program}
    (h : p.executeNextInstruction lib int = .ok (p', int')) :
    int'.control = int.control ∧ int'.history = int.history := by
  unfold executeNextInstruction at h
  split at h
  · obtain ⟨⟨q, i⟩, hq, he⟩ := Except.map_eq_ok.mp h
    cases he
    rw [executeInstruction_frame lib hq]
    exact ⟨rfl, rfl⟩
  · cases h

theorem executeNextInstruction_ne_outOfFuel (p : Program) (int : Interpreter) :
    p.executeNextInstruction lib int ≠ .error .outOfFuel := by
  unfold executeNextInstruction
  split
  · simp [executeInstruction_ne_outOfFuel]
  · simp

/-- One executed instruction: same task, index one further. -/
theorem executeNextInstruction_program {p' : Program}
    (h : p.executeNextInstruction lib int = .ok (p', int')) :
    p'.task = p.task ∧ p'.nextInsIndex = p.nextInsIndex + 1 := by
  unfold executeNextInstruction at h
  split at h
  · obtain ⟨⟨q, i⟩, hq, he⟩ := Except.map_eq_ok.mp h
    cases he
    have := executeInstruction_program lib hq
    exact ⟨this.1, by simp [this.2]⟩
  · cases h

end Program

/-! ## The length a `ReadNet` asks for -/

namespace Program

variable (lib : CryptoLib)

/-- **The range a `ReadNet` publishes.** Let `v` be the stored number `n` as
a `usize` (`n` itself below `2 ^ 64`, as every number `GetNumericValue`
reads is). `IdentifierMinus((id, k))` publishes `[v - k, v - k + 1)` when
`k ≤ v` and `v - k + 1` fits a `usize`, and panics otherwise;
`Identifier(id)` publishes `[v, v + 1)` unless `v + 1` overflows. -/
theorem readNet_range (p : Program) (int : Interpreter) {id : Identifier} {n : Nat}
    (hn : p.numberHeap.get id = some n) (k : Nat) (addr : Identifier) :
    p.executeInstruction lib int (.readNet ⟨.identifierMinus id k, addr⟩) =
      (if k ≤ n % usizeModulus then
        if n % usizeModulus - k + 1 < usizeModulus then
          .ok (p, { int with
            nextNetopIn := some (.recvNet ⟨⟨n % usizeModulus - k, n % usizeModulus - k + 1⟩, addr⟩) })
        else .error (.panic "attempt to add with overflow")
      else .error (.panic "attempt to subtract with overflow")) ∧
    p.executeInstruction lib int (.readNet ⟨.identifier id, addr⟩) =
      (if n % usizeModulus + 1 < usizeModulus then
        .ok (p, { int with
          nextNetopIn := some (.recvNet ⟨⟨n % usizeModulus, n % usizeModulus + 1⟩, addr⟩) })
      else .error (.panic "attempt to add with overflow")) := by
  constructor
  · by_cases h1 : k ≤ n % usizeModulus <;> by_cases h2 : n % usizeModulus - k + 1 < usizeModulus <;>
      simp [executeInstruction, readNetRange, hn, usizeSub, usizeAdd, h1, h2] <;> omega
  · by_cases h : n % usizeModulus + 1 < usizeModulus <;>
      simp [executeInstruction, readNetRange, hn, usizeAdd, h, Nat.le_of_not_lt]

theorem readNet_range_fifteen :
    ({ Program.new ⟨[], ⟨0⟩⟩ with numberHeap := Heap.new.insert "len" 31 } : Program).numberHeap.get
      "len" = some 31 ∧
    ({ Program.new ⟨[], ⟨0⟩⟩ with numberHeap := Heap.new.insert "len" 31 } : Program).executeInstruction
      CryptoLib.plain echoStart (.readNet ⟨.identifierMinus "len" 16, "payload"⟩) =
      .ok ({ Program.new ⟨[], ⟨0⟩⟩ with numberHeap := Heap.new.insert "len" 31 },
        { echoStart with nextNetopIn := some (.recvNet ⟨⟨15, 16⟩, "payload"⟩) }) := by
  refine ⟨rfl, ?_⟩
  rw [(readNet_range CryptoLib.plain _ echoStart rfl 16 "payload").1]
  rfl

/-- A stored length below the subtrahend: the `ReadNet` panics instead of
publishing a range. -/
theorem readNet_underflow :
    ({ Program.new ⟨[], ⟨0⟩⟩ with numberHeap := Heap.new.insert "len" 15 } : Program).executeInstruction
      CryptoLib.plain echoStart (.readNet ⟨.identifierMinus "len" 16, "payload"⟩) =
      .error (.panic "attempt to subtract with overflow") := rfl

end Program

end Proteus
