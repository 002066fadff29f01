import Proteus.Lang.Loop

/-!
Proteus.Lang.Run — the calls a pump makes, and the states they reach.

The interpreter is driven by two pumps, one per direction, through four
entry points: `next_net_cmd_in`, `next_net_cmd_out`, `store_in` and
`store_out` (`SharedAsyncInterpreter` takes the lock around each, so a
call is one atomic step). `Reachable spec int` says that `int` is what
`Interpreter::new(spec)` returns, followed by any sequence of calls, in
any order, none of which failed.

`call_cases` says once what a call can do to the state; the invariant
modules go through it and never unfold a call. `new_spec` says what
`Interpreter::new` leaves: empty slots, `wants_tasks` set, the init
task's id, an empty history. `echoStart`, what `Interpreter::new` returns
for the small provider `echoProvider`, is the reachable state the later
modules run their theorems on.
-/

namespace Proteus

/-- An entry point of the interpreter, with its arguments. -/
inductive Call
  | nextNetCmd (d : Dir)
  | store (d : Dir) (addr : Identifier) (bytes : Bytes)

namespace Interpreter

variable (lib : CryptoLib)

/-- One call, with `fuel` passes of the outer loop; the state it leaves. -/
def call (fuel : Nat) : Call → Interpreter → Except Fault Interpreter
  | .nextNetCmd d, int => Prod.snd <$> int.nextNetCmd lib d fuel
  | .store d addr bytes, int => .ok (int.store d addr bytes)

end Interpreter

/-- The states a pump can see between calls. -/
inductive Reachable (lib : CryptoLib) (spec : TaskProvider) : Interpreter → Prop
  | new {int : Interpreter} : Interpreter.new lib spec = .ok int → Reachable lib spec int
  | call {int int' : Interpreter} {fuel : Nat} {c : Call} :
      Reachable lib spec int → int.call lib fuel c = .ok int' → Reachable lib spec int'

variable {lib : CryptoLib}

/-! ## 1. What a call does -/

/-- A successful call is a run of the outer loop of its direction, or a store. -/
theorem call_cases {fuel : Nat} {c : Call} {int int' : Interpreter}
    (h : int.call lib fuel c = .ok int') :
    (∃ d r, c = .nextNetCmd d ∧ CallRun lib d int r int') ∨
      (∃ d addr bytes, c = .store d addr bytes ∧ int' = int.store d addr bytes) := by
  cases c with
  | nextNetCmd d =>
    obtain ⟨⟨r, _⟩, hr, rfl⟩ := Except.map_eq_ok.mp h
    exact .inl ⟨d, r, rfl, nextNetCmd_callRun lib _ _ _ _ hr⟩
  | store d addr bytes =>
    cases h
    exact .inr ⟨d, addr, bytes, rfl, rfl⟩

namespace Interpreter

@[simp] theorem currentProg_store (int : Interpreter) (d e : Dir) (addr : Identifier)
    (bytes : Bytes) :
    (int.store d addr bytes).currentProg e =
      if e = d then (int.currentProg d).map (·.storeBytes addr bytes) else int.currentProg e := by
  unfold store
  split <;> rename_i h <;> split_ifs with he <;> simp_all

/-- A store changes the slot of its direction, and nothing else. -/
theorem store_frame (int : Interpreter) (d : Dir) (addr : Identifier) (bytes : Bytes) :
    int.store d addr bytes = { int with
      currentProgIn := (int.store d addr bytes).currentProgIn
      currentProgOut := (int.store d addr bytes).currentProgOut } := by
  unfold store
  split
  · cases d <;> rfl
  · rfl

@[simp] theorem store_wantsTasks (int : Interpreter) (d : Dir) (addr : Identifier) (bytes : Bytes) :
    (int.store d addr bytes).wantsTasks = int.wantsTasks := by
  rw [store_frame]

@[simp] theorem store_history (int : Interpreter) (d : Dir) (addr : Identifier) (bytes : Bytes) :
    (int.store d addr bytes).history = int.history := by
  rw [store_frame]

@[simp] theorem store_lastTaskId (int : Interpreter) (d : Dir) (addr : Identifier) (bytes : Bytes) :
    (int.store d addr bytes).lastTaskId = int.lastTaskId := by
  rw [store_frame]

@[simp] theorem store_spec (int : Interpreter) (d : Dir) (addr : Identifier) (bytes : Bytes) :
    (int.store d addr bytes).spec = int.spec := by
  rw [store_frame]

@[simp] theorem store_cipher (int : Interpreter) (d : Dir) (addr : Identifier) (bytes : Bytes) :
    (int.store d addr bytes).cipher = int.cipher := by
  rw [store_frame]

@[simp] theorem restrictTo_store (int : Interpreter) (d e : Dir) (addr : Identifier)
    (bytes : Bytes) : (int.store e addr bytes).restrictTo d = int.restrictTo d := by
  rw [store_frame]
  rfl

@[simp] theorem nextNetop_store (int : Interpreter) (d e : Dir) (addr : Identifier)
    (bytes : Bytes) : (int.store e addr bytes).nextNetop d = int.nextNetop d := by
  rw [store_frame]
  cases d <;> rfl

/-! ## 2. `Interpreter::new` -/

/-- The init loop runs the init task and touches only the cipher and the
pending ops; an op of `d` is published only by an instruction that yields in
`d`. -/
theorem runToEnd_spec :
    ∀ (k : Nat) (p p' : Program) (int int' : Interpreter),
      runToEnd lib k p int = .ok (p', int') →
      p'.task = p.task ∧ int'.control = int.control ∧ int'.history = int.history ∧
        ∀ d, (∀ ins ∈ p.task.ins, ins.yields d = false) → int'.nextNetop d = int.nextNetop d
  | 0, p, p', int, int', h => by
    cases h
    exact ⟨rfl, rfl, rfl, fun _ _ => rfl⟩
  | k + 1, p, p', int, int', h => by
    unfold runToEnd at h
    split at h
    · rename_i hnext
      split at h
      · rename_i q c hx
        obtain ⟨ht, hc, hh, hn⟩ := runToEnd_spec k q p' c int' h
        have hq := Program.executeNextInstruction_program lib hx
        have hcc := Program.executeNextInstruction_control lib hx
        refine ⟨ht.trans hq.1, hc.trans hcc.1, hh.trans hcc.2, fun d hy => ?_⟩
        rw [hn d (hq.1 ▸ hy)]
        obtain ⟨ins, hget⟩ : ∃ ins, p.task.ins[p.nextInsIndex]? = some ins :=
          ⟨_, List.getElem?_eq_getElem (by simpa [Program.hasNextInstruction] using hnext)⟩
        obtain ⟨_, hq'⟩ := Program.executeNextInstruction_ok lib hget hx
        exact Program.executeInstruction_nextNetop lib (hy _ (List.getElem?_mem hget)) hq'
      · cases h
    · cases h
      exact ⟨rfl, rfl, rfl, fun _ _ => rfl⟩

/-- What `Interpreter::new` leaves. -/
theorem new_spec {spec : TaskProvider} {int : Interpreter} (h : Interpreter.new lib spec = .ok int) :
    int.spec = spec ∧ (∀ d, int.currentProg d = none) ∧ int.wantsTasks = true ∧
      int.lastTaskId = spec.getInitTask.id ∧ int.history = [] ∧
      ∀ d, (∀ ins ∈ spec.getInitTask.ins, ins.yields d = false) → int.nextNetop d = none := by
  simp only [Interpreter.new, Except.bind_eq_ok, Except.pure_eq_ok] at h
  obtain ⟨⟨p', int'⟩, hr, rfl⟩ := h
  obtain ⟨ht, hc, hh, hn⟩ := runToEnd_spec _ _ _ _ _ hr
  simp only [control, Control.mk.injEq] at hc
  refine ⟨hc.1, fun d => ?_, hc.2.2.2.2, by simp [ht, Program.new], hh, fun d hy => ?_⟩
  · cases d <;> simp [currentProg, hc]
  · have := hn d hy
    cases d <;> simpa [nextNetop] using this

end Interpreter

/-- The provider never changes. -/
theorem Reachable.spec_eq {spec : TaskProvider} {int : Interpreter} (hr : Reachable lib spec int) :
    int.spec = spec := by
  induction hr with
  | new h => exact (Interpreter.new_spec h).1
  | call _ hc ih =>
    rcases call_cases hc with ⟨d, r, -, hrun⟩ | ⟨d, addr, bytes, -, rfl⟩
    · rw [hrun.spec, ih]
    · rw [Interpreter.store_spec, ih]

/-- A successful call of `next_net_cmd_d` leaves a reachable state. -/
theorem Reachable.nextNetCmd {spec : TaskProvider} {int int' : Interpreter} (hr : Reachable lib spec int)
    {d : Dir} {fuel : Nat} {r : Except Unit (NetOp d)} (hc : int.nextNetCmd lib d fuel = .ok (r, int')) :
    Reachable lib spec int' :=
  .call hr (show int.call lib fuel (.nextNetCmd d) = .ok int' by simp [Interpreter.call, hc])

/-- A store leaves a reachable state. -/
theorem Reachable.store {spec : TaskProvider} {int : Interpreter} (hr : Reachable lib spec int) (d : Dir)
    (addr : Identifier) (bytes : Bytes) : Reachable lib spec (int.store d addr bytes) :=
  .call hr (show int.call lib 0 (.store d addr bytes) = .ok _ from rfl)

/-! ## 3. A worked provider -/

theorem echoStart_reachable : Reachable CryptoLib.plain echoProvider echoStart := .new rfl

/-- The state the first `next_net_cmd_in` leaves on `echoStart`. -/
def echoAfterIn : Interpreter :=
  match echoStart.call CryptoLib.plain 1 (.nextNetCmd .incoming) with
  | .ok int => int
  | .error _ => echoStart

theorem echoAfterIn_reachable : Reachable CryptoLib.plain echoProvider echoAfterIn :=
  .call echoStart_reachable (rfl : echoStart.call CryptoLib.plain 1 (.nextNetCmd .incoming) = .ok echoAfterIn)

end Proteus
