import Proteus.Lang.Execute

/-!
Proteus.Lang.Loop — the two loops of `next_net_cmd_*`, said once as
relations, and the frame facts of loading and storing.

`runUntilNetop` and `nextNetCmd` are fuelled recursions. Every theorem
about a call goes through the two relations here instead of unfolding
them:

* `Program.Runs p inss p'` — `p` executes the instructions `inss`, each
  the one at its index, and becomes `p'`.
* `LoopRun d p int exit` — the inner `while` loop, pass by pass; a
  successful `runUntilNetop` with enough fuel is one
  (`runUntilNetop_loopRun`).
* `CallRun d int r int'` — the outer `loop`: the optional load, then a
  blocked return, a returned op, or a retired program and another pass;
  every successful `nextNetCmd` is one (`nextNetCmd_callRun`).

`nextNetCmd_mono` is the fuel law: once some fuel gives a result that is
not `outOfFuel`, every larger fuel gives the same result.
-/

namespace Proteus

variable (lib : CryptoLib)

/-! ## 1. Runs of one program -/

/-- `p` executes `inss`, each the instruction at its index at that point,
and becomes `p'`. -/
inductive Program.Runs : Program → List Instruction → Program → Prop
  | nil {p : Program} : Program.Runs p [] p
  | cons {p q p' : Program} {ins : Instruction} {inss : List Instruction} {int int' : Interpreter} :
      p.task.ins[p.nextInsIndex]? = some ins →
      p.executeNextInstruction lib int = .ok (q, int') →
      Program.Runs q inss p' → Program.Runs p (ins :: inss) p'

namespace Program.Runs

variable {lib} {p p' : Program} {inss : List Instruction}

theorem task (h : Program.Runs lib p inss p') : p'.task = p.task := by
  induction h with
  | nil => rfl
  | cons _ hx _ ih => rw [ih, (Program.executeNextInstruction_program lib hx).1]

theorem index (h : Program.Runs lib p inss p') : p'.nextInsIndex = p.nextInsIndex + inss.length := by
  induction h with
  | nil => rfl
  | cons _ hx _ ih => rw [ih, (Program.executeNextInstruction_program lib hx).2]; simp; omega

/-- The instructions run are the task's, from the index on, in order. -/
theorem labels (h : Program.Runs lib p inss p') :
    inss = (p.task.ins.drop p.nextInsIndex).take inss.length := by
  induction h with
  | nil => rfl
  | @cons p q _ ins _ _ _ hget hx _ ih =>
    obtain ⟨ht, hi⟩ := Program.executeNextInstruction_program lib hx
    rw [ht, hi] at ih
    obtain ⟨hlt, heq⟩ := List.getElem?_eq_some_iff.mp hget
    rw [List.drop_eq_getElem_cons hlt, heq, List.length_cons, List.take_succ_cons, ← ih]

/-- The instructions run are the task's. -/
theorem subset (h : Program.Runs lib p inss p') : ∀ ins ∈ inss, ins ∈ p.task.ins := by
  induction h with
  | nil => simp
  | cons hget hx _ ih =>
    rw [(Program.executeNextInstruction_program lib hx).1] at ih
    exact List.forall_mem_cons.mpr ⟨List.getElem?_mem hget, ih⟩

theorem append {inss₂ : List Instruction} {p'' : Program} (h₁ : Program.Runs lib p inss p')
    (h₂ : Program.Runs lib p' inss₂ p'') : Program.Runs lib p (inss ++ inss₂) p'' := by
  induction h₁ with
  | nil => exact h₂
  | cons hget hx _ ih => exact .cons hget hx (ih h₂)

end Program.Runs

/-! ## 2. The inner loop -/

/-- The passes of the inner `while` loop that do not return: `p` runs `inss`
in direction `d` from `int` and becomes `q` in `c`, and no instruction on
the way leaves an op of `d` pending. -/
inductive QuietRun (d : Dir) :
    Program → Interpreter → List Instruction → Program → Interpreter → Prop
  | nil {p : Program} {int : Interpreter} : QuietRun d p int [] p int
  | cons {p q p' : Program} {int int' c : Interpreter} {ins : Instruction} {inss : List Instruction} :
      p.task.ins[p.nextInsIndex]? = some ins →
      p.executeNextInstruction lib int = .ok (q, int') →
      int'.nextNetop d = none →
      QuietRun d q (int'.record (.execute d ins)) inss p' c →
      QuietRun d p int (ins :: inss) p' c

/-- The inner `while` loop of `next_net_cmd_d`: quiet passes, then the program
runs out, or one more instruction leaves an op pending, which is taken. -/
inductive LoopRun (d : Dir) : Program → Interpreter → LoopExit d → Prop
  | exhausted {p q : Program} {int c : Interpreter} {inss : List Instruction} :
      QuietRun lib d p int inss q c → q.task.ins[q.nextInsIndex]? = none →
      LoopRun d p int (.exhausted q c)
  | netop {p q q' : Program} {int c c' : Interpreter} {inss : List Instruction} {ins : Instruction}
      {op : NetOp d} :
      QuietRun lib d p int inss q c → q.task.ins[q.nextInsIndex]? = some ins →
      q.executeNextInstruction lib c = .ok (q', c') → c'.nextNetop d = some op →
      LoopRun d p int (.netop op q' ((c'.record (.execute d ins)).clearNextNetop d))

/-- A quiet pass in front of a loop run. -/
theorem LoopRun.cons {d : Dir} {p q : Program} {int int' : Interpreter} {ins : Instruction}
    {r : LoopExit d} (hget : p.task.ins[p.nextInsIndex]? = some ins)
    (hx : p.executeNextInstruction lib int = .ok (q, int')) (hn : int'.nextNetop d = none)
    (h : LoopRun lib d q (int'.record (.execute d ins)) r) : LoopRun lib d p int r := by
  cases h with
  | exhausted hq hnone => exact .exhausted (.cons hget hx hn hq) hnone
  | netop hq hget' hx' hop => exact .netop (.cons hget hx hn hq) hget' hx' hop

/-- With fuel for every instruction left, a successful inner loop is a `LoopRun`. -/
theorem runUntilNetop_loopRun {d : Dir} :
    ∀ (k : Nat) (p : Program) (int : Interpreter) (r : LoopExit d),
      p.task.ins.length - p.nextInsIndex ≤ k →
      Interpreter.runUntilNetop lib d k p int = .ok r → LoopRun lib d p int r
  | 0, p, int, r, hk, h => by
    cases h
    exact .exhausted .nil (List.getElem?_eq_none (by omega))
  | k + 1, p, int, r, hk, h => by
    unfold Interpreter.runUntilNetop at h
    split at h
    · rename_i ins hget
      split at h
      · rename_i q int' hx
        have hi := (Program.executeNextInstruction_program lib hx).2
        have ht := (Program.executeNextInstruction_program lib hx).1
        simp only [Interpreter.record_nextNetop] at h
        split at h
        · rename_i op hop
          cases h
          exact .netop .nil hget hx hop
        · rename_i hop
          exact .cons lib hget hx hop (runUntilNetop_loopRun k q _ r (by rw [ht, hi]; omega) h)
      · cases h
    · rename_i hget
      cases h
      exact .exhausted .nil hget

/-- The inner loop fails only by a panic. -/
theorem runUntilNetop_ne_outOfFuel {d : Dir} :
    ∀ (k : Nat) (p : Program) (int : Interpreter),
      Interpreter.runUntilNetop lib d k p int ≠ .error .outOfFuel
  | 0, _, _ => by simp [Interpreter.runUntilNetop]
  | k + 1, p, int => by
    unfold Interpreter.runUntilNetop
    split
    · split
      · simp only [Interpreter.record_nextNetop]
        split
        · simp
        · exact runUntilNetop_ne_outOfFuel k _ _
      · rename_i e he
        rintro ⟨⟩
        exact Program.executeNextInstruction_ne_outOfFuel lib p int he
    · simp

namespace QuietRun

variable {lib} {d : Dir} {p q : Program} {int c : Interpreter} {inss : List Instruction}

/-- An op of `e` is published only by an instruction that yields in `e`. -/
theorem nextNetop_eq {e : Dir} (h : QuietRun lib d p int inss q c)
    (he : ∀ ins ∈ inss, ins.yields e = false) : c.nextNetop e = int.nextNetop e := by
  induction h with
  | nil => rfl
  | cons hget hx _ _ ih =>
    obtain ⟨_, hq⟩ := Program.executeNextInstruction_ok lib hget hx
    rw [ih (fun i hi => he i (List.mem_cons_of_mem _ hi)), Interpreter.record_nextNetop,
      Program.executeInstruction_nextNetop lib (he _ (List.mem_cons_self _ _)) hq]

theorem runs (h : QuietRun lib d p int inss q c) : Program.Runs lib p inss q := by
  induction h with
  | nil => exact .nil
  | cons hget hx _ _ ih => exact .cons hget hx ih

theorem history (h : QuietRun lib d p int inss q c) :
    c.history = int.history ++ inss.map (.execute d) := by
  induction h with
  | nil => simp
  | cons _ hx _ _ ih =>
    rw [ih, Interpreter.record_history, (Program.executeNextInstruction_control lib hx).2]
    simp

theorem control (h : QuietRun lib d p int inss q c) : c.control = int.control := by
  induction h with
  | nil => rfl
  | cons _ hx _ _ ih =>
    rw [ih, Interpreter.control_record, (Program.executeNextInstruction_control lib hx).1]

/-- No instruction of a quiet run yields in its direction. -/
theorem quiet (h : QuietRun lib d p int inss q c) : ∀ ins ∈ inss, ins.yields d = false := by
  induction h with
  | nil => simp
  | cons hget hx hn _ ih =>
    refine List.forall_mem_cons.mpr ⟨?_, ih⟩
    obtain ⟨_, hq⟩ := Program.executeNextInstruction_ok lib hget hx
    cases hy : Instruction.yields d _
    · rfl
    · simpa [hn] using Program.executeInstruction_yields lib hy hq

/-- A quiet run whose instructions do not touch `e` leaves `e`'s part alone. -/
theorem restrictTo_eq {e : Dir} (h : QuietRun lib d p int inss q c)
    (he : ∀ ins ∈ inss, ins.touches e = false) : c.restrictTo e = int.restrictTo e := by
  induction h with
  | nil => rfl
  | cons hget hx _ _ ih =>
    obtain ⟨_, hq⟩ := Program.executeNextInstruction_ok lib hget hx
    rw [ih (fun i hi => he i (List.mem_cons_of_mem _ hi)), Interpreter.restrictTo_record,
      Program.restrictTo_executeInstruction lib (he _ (List.mem_cons_self _ _)) hq]

end QuietRun

/-- The state a loop exit leaves. -/
def LoopExit.state {d : Dir} : LoopExit d → Interpreter
  | .netop _ _ int | .exhausted _ int => int

/-- The program a loop exit leaves. -/
def LoopExit.program {d : Dir} : LoopExit d → Program
  | .netop _ p _ | .exhausted p _ => p

/-- The loop run that returned an op, inverted. -/
theorem LoopRun.netop_inv {d : Dir} {p p' : Program} {int int' : Interpreter} {op : NetOp d}
    (h : LoopRun lib d p int (.netop op p' int')) :
    ∃ inss q c ins c', QuietRun lib d p int inss q c ∧ q.task.ins[q.nextInsIndex]? = some ins ∧
      q.executeNextInstruction lib c = .ok (p', c') ∧ c'.nextNetop d = some op ∧
      int' = (c'.record (.execute d ins)).clearNextNetop d := by
  cases h with
  | netop hq hget hx hop => exact ⟨_, _, _, _, _, hq, hget, hx, hop, rfl⟩

/-- The loop run that ran out of instructions, inverted. -/
theorem LoopRun.exhausted_inv {d : Dir} {p p' : Program} {int int' : Interpreter}
    (h : LoopRun lib d p int (.exhausted p' int')) :
    ∃ inss, QuietRun lib d p int inss p' int' ∧ p'.task.ins[p'.nextInsIndex]? = none := by
  cases h with
  | exhausted hq hnone => exact ⟨_, hq, hnone⟩

/-- A loop run is a run of the program: its instructions are the ones the
history gains, and the `control` part stays put. -/
theorem LoopRun.runs {d : Dir} {p : Program} {int : Interpreter} {r : LoopExit d}
    (h : LoopRun lib d p int r) :
    ∃ inss, Program.Runs lib p inss r.program ∧
      r.state.history = int.history ++ inss.map (.execute d) ∧ r.state.control = int.control := by
  cases h with
  | exhausted hq _ => exact ⟨_, hq.runs, hq.history, hq.control⟩
  | netop hq hget hx _ =>
    have hc := Program.executeNextInstruction_control lib hx
    refine ⟨_, hq.runs.append (.cons hget hx .nil), ?_, ?_⟩
    · simp [LoopExit.state, hc.2, hq.history, Interpreter.clearNextNetop]
      cases d <;> rfl
    · simp [LoopExit.state, hc.1, hq.control]

/-! ## 3. Loading tasks -/

/-- What `load_tasks` does to the slot of direction `d`, given the provider's
answer: `set_task` when the answer offers `d` a task, nothing otherwise. -/
def TaskSet.loadSlot (ts : TaskSet) (d : Dir) (slot : Option Program) :
    Except Fault (Option Program) :=
  match ts.offered d with
  | some t => Interpreter.setTask slot t
  | none => .ok slot

theorem setTask_eq_ok {o o' : Option Program} {t : Task} :
    Interpreter.setTask o t = .ok o' ↔
      (o = none ∧ o' = some (Program.new t)) ∨ (∃ p, o = some p ∧ p.task.id = t.id ∧ o' = some p) := by
  unfold Interpreter.setTask
  split
  · split <;> simp_all [eq_comm]
  · simp [eq_comm]

/-- `load_tasks` records its query, loads each slot, and clears `wants_tasks`. -/
theorem loadTasks_spec {int int' : Interpreter} (h : int.loadTasks = .ok int') :
    (∀ d, (int.spec.getNextTasks int.lastTaskId).loadSlot d (int.currentProg d) =
      .ok (int'.currentProg d)) ∧
    int' = { int with
      currentProgIn := int'.currentProgIn
      currentProgOut := int'.currentProgOut
      wantsTasks := false
      history := int.history ++ [.getNextTasks int.lastTaskId] } := by
  cases hts : int.spec.getNextTasks int.lastTaskId <;>
    simp only [Interpreter.loadTasks, Interpreter.record, hts, Except.bind_eq_ok, Except.pure_eq_ok] at h
  all_goals
    obtain ⟨a, ha, h⟩ := h
    first
      | obtain ⟨_, rfl, rfl⟩ := h
      | obtain ⟨b, hb, _, rfl, rfl⟩ := h
    refine ⟨fun d => ?_, rfl⟩
    cases d <;> simp_all [TaskSet.loadSlot, TaskSet.offered, Interpreter.currentProg]

theorem loadTasks_ne_outOfFuel (int : Interpreter) : int.loadTasks ≠ .error .outOfFuel := by
  have hs (o : Option Program) (t : Task) : Interpreter.setTask o t ≠ .error .outOfFuel := by
    unfold Interpreter.setTask; split <;> (try split) <;> simp
  cases hts : int.spec.getNextTasks int.lastTaskId <;> simp [Interpreter.loadTasks, Interpreter.record, hts, hs]

/-! ## 4. The outer loop -/

theorem loadIfWanted_eq_ok {int int₁ : Interpreter} :
    int.loadIfWanted = .ok int₁ ↔
      (int.wantsTasks = true ∧ int.loadTasks = .ok int₁) ∨ (int.wantsTasks = false ∧ int₁ = int) := by
  unfold Interpreter.loadIfWanted
  cases h : int.wantsTasks <;> simp [eq_comm]

/-- After the loop head `wants_tasks` is clear; a load adds one query, and
nothing else to the history. -/
theorem loadIfWanted_spec {int int₁ : Interpreter} (h : int.loadIfWanted = .ok int₁) :
    int₁.wantsTasks = false ∧
      int₁.history = int.history ++ (if int.wantsTasks then [.getNextTasks int.lastTaskId] else []) ∧
      int₁.spec = int.spec := by
  rcases loadIfWanted_eq_ok.mp h with ⟨hw, hl⟩ | ⟨hw, rfl⟩
  · rw [(loadTasks_spec hl).2]
    simp [hw]
  · simp [hw]

theorem loadIfWanted_ne_outOfFuel (int : Interpreter) : int.loadIfWanted ≠ .error .outOfFuel := by
  unfold Interpreter.loadIfWanted
  split
  · exact loadTasks_ne_outOfFuel int
  · simp

/-- The outer `loop` of `next_net_cmd_d`, pass by pass: after the head, the
direction has no program (`Err(())`), or its program publishes an op, or
the program runs out, is retired, and the loop goes round again. -/
inductive CallRun (d : Dir) : Interpreter → Except Unit (NetOp d) → Interpreter → Prop
  | blocked {int int₁ : Interpreter} :
      int.loadIfWanted = .ok int₁ → int₁.currentProg d = none → CallRun d int (.error ()) int₁
  | netop {int int₁ int₂ : Interpreter} {p p' : Program} {op : NetOp d} :
      int.loadIfWanted = .ok int₁ → int₁.currentProg d = some p →
      LoopRun lib d p (int₁.setCurrentProg d none) (.netop op p' int₂) →
      CallRun d int (.ok op) (int₂.setCurrentProg d (some p'))
  | retire {int int₁ int₂ int₃ : Interpreter} {p p' : Program} {r : Except Unit (NetOp d)} :
      int.loadIfWanted = .ok int₁ → int₁.currentProg d = some p →
      LoopRun lib d p (int₁.setCurrentProg d none) (.exhausted p' int₂) →
      CallRun d (int₂.retire d p'.task.id) r int₃ → CallRun d int r int₃

/-- Every successful call is a `CallRun`. -/
theorem nextNetCmd_callRun {d : Dir} :
    ∀ (n : Nat) (int int' : Interpreter) (r : Except Unit (NetOp d)),
      Interpreter.nextNetCmd lib d n int = .ok (r, int') → CallRun lib d int r int'
  | 0, _, _, _, h => by cases h
  | n + 1, int, int', r, h => by
    unfold Interpreter.nextNetCmd at h
    split at h
    · cases h
    · rename_i int₁ hl
      split at h
      · rename_i p hp
        split at h
        · rename_i op p' int₂ he
          cases h
          exact .netop hl hp (runUntilNetop_loopRun lib _ p _ _ le_rfl he)
        · rename_i p' int₂ he
          exact .retire hl hp (runUntilNetop_loopRun lib _ p _ _ le_rfl he)
            (nextNetCmd_callRun n _ _ _ h)
        · cases h
      · rename_i hp
        cases h
        exact .blocked hl hp

/-- A call ends with `wants_tasks` clear. -/
theorem CallRun.wantsTasks {d : Dir} {int int' : Interpreter} {r : Except Unit (NetOp d)}
    (h : CallRun lib d int r int') : int'.wantsTasks = false := by
  induction h with
  | blocked hl _ => exact (loadIfWanted_spec hl).1
  | netop hl _ hrun =>
    obtain ⟨-, -, -, hc⟩ := hrun.runs
    rw [Interpreter.setCurrentProg_wantsTasks]
    exact (congrArg Interpreter.Control.wantsTasks hc).trans
      ((Interpreter.setCurrentProg_wantsTasks _ _ _).trans (loadIfWanted_spec hl).1)
  | retire _ _ _ _ ih => exact ih

/-- A call keeps the provider. -/
theorem CallRun.spec {d : Dir} {int int' : Interpreter} {r : Except Unit (NetOp d)}
    (h : CallRun lib d int r int') : int'.spec = int.spec := by
  induction h with
  | blocked hl _ => exact (loadIfWanted_spec hl).2.2
  | netop hl _ hrun =>
    obtain ⟨-, -, -, hc⟩ := hrun.runs
    rw [Interpreter.setCurrentProg_spec]
    exact (congrArg Interpreter.Control.spec hc).trans
      ((Interpreter.setCurrentProg_spec _ _ _).trans (loadIfWanted_spec hl).2.2)
  | retire hl _ hrun _ ih =>
    obtain ⟨-, -, -, hc⟩ := hrun.runs
    exact ih.trans ((congrArg Interpreter.Control.spec hc).trans
      ((Interpreter.setCurrentProg_spec _ _ _).trans (loadIfWanted_spec hl).2.2))

/-- More fuel changes nothing once a call has returned or panicked. -/
theorem nextNetCmd_mono {d : Dir} :
    ∀ (n m : Nat) (int : Interpreter), n ≤ m →
      Interpreter.nextNetCmd lib d n int ≠ .error .outOfFuel →
      Interpreter.nextNetCmd lib d m int = Interpreter.nextNetCmd lib d n int
  | 0, _, _, _, h => absurd rfl h
  | n + 1, 0, _, hnm, _ => absurd hnm (by omega)
  | n + 1, m + 1, int, hnm, h => by
    unfold Interpreter.nextNetCmd at h ⊢
    split <;> try rfl
    rename_i hl
    split <;> try rfl
    rename_i hp
    split <;> try rfl
    rename_i he
    simp only [hl, hp, he] at h
    exact nextNetCmd_mono n m _ (by omega) h

end Proteus
