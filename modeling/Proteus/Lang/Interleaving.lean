import Proteus.Lang.Run

/-!
Proteus.Lang.Interleaving — the two pumps cannot see each other. With a
provider that always hands out the same pair of tasks, each touching only
its own direction, what each direction's calls return does not depend on
how the two pumps' calls interleave.

A pump (`Pump d`) calls `next_net_cmd_d`; when the call returns a
`RecvNet` (in) or a `RecvApp` (out), the pump owes the interpreter a
store, which its next turn makes with the next blob of its list. A
schedule is the order of the turns (`List Dir`); `Harness.run` plays it,
up to the first failed call.

* `SplitPair spec pair` — the hypotheses on the provider.
* `Steady` — the invariant of every reachable state under such a
  provider: each slot holds a program of its direction's task, and a slot
  is empty only while `wants_tasks` is set.
* `Interpreter.nextProg pair d` — the program direction `d` runs at its
  next call: the one in its slot, or the fresh one the next load installs.
* `runUntilNetop_restrictTo`, `nextNetCmd_sameView` — a call of `d` reads
  only `d`'s view: its part of the interpreter (`restrictTo d`) and its
  next program. From two states with the same view it gives the same
  result, and again states with the same view.
* `Steady.callRun` — a call keeps `Steady`, and leaves the view of the
  other direction alone.
* `Harness.run_sameView` — so a pump sees only its own turns: whatever
  the other pump does in between, its results are those of its own turns
  run alone.
* **`interleavings_agree`** — two schedules with the same number of turns
  of each pump, run from a reachable state without a failed call, hand
  each pump the same results. `results_solo` says which: those of the
  pump's own turns run alone. `nextNetCmd_ne_blocked`: no call ever
  returns `Err(())`.
-/

namespace Proteus

/-! ## 1. The provider and the invariant -/

/-- The task a pair offers to direction `d`. -/
def TaskPair.task (pair : TaskPair) : Dir → Task
  | .incoming => pair.inTask
  | .outgoing => pair.outTask

/-- A provider that answers every query with `pair`, whose in task touches
nothing of the out direction (no `ReadApp`, `WriteNet`, `EncryptField` or
`InitFixedSharedKey`) and whose out task nothing of the in direction (no
`ReadNet`, `WriteApp`, `DecryptField` or `InitFixedSharedKey`). -/
structure SplitPair (spec : TaskProvider) (pair : TaskPair) : Prop where
  answer : ∀ id, spec.getNextTasks id = .inAndOutTasks pair
  separate : ∀ d, ∀ ins ∈ (pair.task d).ins, ins.touches d.other = false

namespace Interpreter

/-- The program direction `d` runs at its next call: the one in its slot,
or, when the slot is empty, the fresh program the next load installs. -/
def nextProg (pair : TaskPair) (int : Interpreter) (d : Dir) : Program :=
  (int.currentProg d).getD (Program.new (pair.task d))

@[simp] theorem restrictTo_retire (int : Interpreter) (d e : Dir) (id : TaskID) :
    (int.retire e id).restrictTo d = int.restrictTo d := rfl

theorem restrictTo_clearNextNetop_other (int : Interpreter) {d e : Dir} (h : e ≠ d) :
    (int.clearNextNetop e).restrictTo d = int.restrictTo d := by
  cases d <;> cases e <;> first | rfl | exact absurd rfl h

theorem nextProg_of_currentProg {pair : TaskPair} {int : Interpreter} {d : Dir} {p : Program}
    (h : int.currentProg d = some p) : int.nextProg pair d = p := by
  simp [nextProg, h]

end Interpreter

/-- The invariant: the provider is `spec`, each slot holds a program of its
direction's task, and a slot is empty only while `wants_tasks` is set. -/
structure Steady (spec : TaskProvider) (pair : TaskPair) (int : Interpreter) : Prop where
  spec_eq : int.spec = spec
  slot_task : ∀ d p, int.currentProg d = some p → p.task = pair.task d
  empty_wants : ∀ d, int.currentProg d = none → int.wantsTasks = true

/-- Two states the calls of `d` cannot tell apart. -/
def SameView (pair : TaskPair) (d : Dir) (int₁ int₂ : Interpreter) : Prop :=
  int₁.restrictTo d = int₂.restrictTo d ∧ int₁.nextProg pair d = int₂.nextProg pair d

theorem Interpreter.setTask_of_task {o : Option Program} {t : Task}
    (h : ∀ p, o = some p → p.task = t) :
    Interpreter.setTask o t = .ok (some (o.getD (Program.new t))) := by
  cases o with
  | none => rfl
  | some p => simp [Interpreter.setTask, h p rfl]

variable {lib : CryptoLib} {spec : TaskProvider} {pair : TaskPair}

namespace Steady

theorem nextProg_task (h : Steady spec pair int) (d : Dir) : (int.nextProg pair d).task = pair.task d := by
  cases hp : int.currentProg d with
  | none => simp [Interpreter.nextProg, hp, Program.new]
  | some p => rw [Interpreter.nextProg_of_currentProg hp, h.slot_task d p hp]

/-- With `wants_tasks` clear every slot is full. -/
theorem full (h : Steady spec pair int) (hw : int.wantsTasks = false) (d : Dir) :
    int.currentProg d = some (int.nextProg pair d) := by
  cases hp : int.currentProg d with
  | none => simp [h.empty_wants d hp] at hw
  | some p => rw [Interpreter.nextProg_of_currentProg hp]

/-- `load_tasks` fills each slot with its next program and clears
`wants_tasks`; each direction's part stays put. -/
theorem loadTasks (hs : SplitPair spec pair) (h : Steady spec pair int) :
    ∃ l, int.loadTasks = .ok l ∧ l.spec = int.spec ∧ l.wantsTasks = false ∧
      (∀ d, l.currentProg d = some (int.nextProg pair d)) ∧ ∀ d, l.restrictTo d = int.restrictTo d := by
  have hin := @Interpreter.setTask_of_task int.currentProgIn pair.inTask (h.slot_task .incoming)
  have hout := @Interpreter.setTask_of_task int.currentProgOut pair.outTask (h.slot_task .outgoing)
  refine ⟨{ int with
      currentProgIn := some (int.nextProg pair .incoming)
      currentProgOut := some (int.nextProg pair .outgoing)
      wantsTasks := false
      history := int.history ++ [.getNextTasks int.lastTaskId] }, ?_, rfl, rfl,
    fun d => by cases d <;> rfl, fun _ => rfl⟩
  simp only [Interpreter.loadTasks, Interpreter.record, h.spec_eq, hs.answer, hin, hout]
  rfl

/-- The head of the outer loop leaves every slot full with its next program,
and each direction's part alone. -/
theorem load (hs : SplitPair spec pair) (h : Steady spec pair int) :
    ∃ l, int.loadIfWanted = .ok l ∧ Steady spec pair l ∧ l.wantsTasks = false ∧
      (∀ d, l.currentProg d = some (int.nextProg pair d)) ∧ ∀ d, l.restrictTo d = int.restrictTo d := by
  cases hw : int.wantsTasks
  · exact ⟨int, by simp [Interpreter.loadIfWanted, hw], h, hw, h.full hw, fun _ => rfl⟩
  · obtain ⟨l, hl, hspec, hw', hfull, hres⟩ := h.loadTasks hs
    refine ⟨l, by simp only [Interpreter.loadIfWanted, hw, if_true, hl],
      ⟨hspec.trans h.spec_eq, fun d p hp => ?_, fun d hp => by simp [hfull d] at hp⟩, hw', hfull, hres⟩
    rw [hfull d, Option.some.injEq] at hp
    rw [← hp, h.nextProg_task]

/-- Where the inner loop of `d`, started on a loaded state with `d`'s slot
emptied, leaves the interpreter: with the program put back, or retired,
the state is steady again. -/
theorem exit (h : Steady spec pair l) (hw : l.wantsTasks = false) {d : Dir} {i : Interpreter}
    (hc : i.control = (l.setCurrentProg d none).control) :
    (∀ q : Program, q.task = pair.task d → Steady spec pair (i.setCurrentProg d (some q))) ∧
      ∀ id, Steady spec pair (i.retire d id) := by
  have hcur := Interpreter.currentProg_of_control hc
  have hspec : i.spec = spec :=
    (congrArg Interpreter.Control.spec hc).trans ((Interpreter.setCurrentProg_spec _ _ _).trans h.spec_eq)
  have hw' : i.wantsTasks = false :=
    (congrArg Interpreter.Control.wantsTasks hc).trans ((Interpreter.setCurrentProg_wantsTasks _ _ _).trans hw)
  have hother : ∀ e, e ≠ d → i.currentProg e = some (l.nextProg pair e) := fun e he => by
    rw [hcur e, Interpreter.currentProg_setCurrentProg, if_neg he, h.full hw]
  refine ⟨fun q hq => ⟨by simp [hspec], fun e p hp => ?_, fun e hp => ?_⟩,
    fun id => ⟨hspec, fun e p hp => ?_, fun _ _ => rfl⟩⟩
  · rcases Dir.eq_or_eq_other d e with rfl | rfl
    · simp only [Interpreter.currentProg_setCurrentProg, if_true, Option.some.injEq] at hp
      rw [← hp, hq]
    · simp only [Interpreter.currentProg_setCurrentProg, if_neg (Dir.other_ne d),
        hother _ (Dir.other_ne d), Option.some.injEq] at hp
      rw [← hp, h.nextProg_task]
  · rcases Dir.eq_or_eq_other d e with rfl | rfl
    · simp at hp
    · simp [hother _ (Dir.other_ne d)] at hp
  · rw [Interpreter.retire_currentProg] at hp
    rcases Dir.eq_or_eq_other d e with rfl | rfl
    · simp [hcur] at hp
    · rw [hother _ (Dir.other_ne d), Option.some.injEq] at hp
      rw [← hp, h.nextProg_task]

end Steady

/-! ## 2. A direction reads only its own view -/

/-- The part of a loop exit direction `d` sees. -/
def LoopExit.restrictTo {d : Dir} : LoopExit d → LoopExit d
  | .netop op p int => .netop op p (int.restrictTo d)
  | .exhausted p int => .exhausted p (int.restrictTo d)

/-- An instruction that touches nothing of the other direction runs the same
on `d`'s part alone. -/
theorem Program.executeNextInstruction_restrictTo (lib : CryptoLib) {p : Program} {ins : Instruction}
    {d : Dir} (hget : p.task.ins[p.nextInsIndex]? = some ins) (hd : ins.touches d.other = false)
    (int : Interpreter) :
    p.executeNextInstruction lib (int.restrictTo d) =
      (fun r => (r.1, r.2.restrictTo d)) <$> p.executeNextInstruction lib int := by
  rw [executeNextInstruction_eq lib hget, executeNextInstruction_eq lib hget,
    executeInstruction_restrictTo lib hd]
  cases p.executeInstruction lib int ins <;> rfl

/-- The inner loop of `d`, on a program whose task touches nothing of the
other direction, reads only `d`'s part of the interpreter. -/
theorem runUntilNetop_restrictTo (lib : CryptoLib) {d : Dir} :
    ∀ (k : Nat) (p : Program) (int₁ int₂ : Interpreter),
      (∀ ins ∈ p.task.ins, ins.touches d.other = false) → int₁.restrictTo d = int₂.restrictTo d →
      LoopExit.restrictTo <$> Interpreter.runUntilNetop lib d k p int₁ =
        LoopExit.restrictTo <$> Interpreter.runUntilNetop lib d k p int₂
  | 0, p, _, _, _, h => by
    show Except.ok (LoopExit.restrictTo _) = Except.ok (LoopExit.restrictTo _)
    simp only [LoopExit.restrictTo, h]
  | k + 1, p, int₁, int₂, hp, h => by
    unfold Interpreter.runUntilNetop
    cases hget : p.task.ins[p.nextInsIndex]? with
    | none =>
      show Except.ok (LoopExit.restrictTo _) = Except.ok (LoopExit.restrictTo _)
      simp only [LoopExit.restrictTo, h]
    | some ins =>
      have hx := (Program.executeNextInstruction_restrictTo lib hget (hp ins (List.getElem?_mem hget))
        int₁).symm.trans (h ▸ Program.executeNextInstruction_restrictTo lib hget
          (hp ins (List.getElem?_mem hget)) int₂)
      rcases Except.map_eq_map hx with ⟨e, hx₁, hx₂⟩ | ⟨⟨q, i₁⟩, ⟨q₂, i₂⟩, hx₁, hx₂, hi⟩
      · simp only [hx₁, hx₂]
      · obtain ⟨rfl, hi⟩ := Prod.mk.inj hi
        have hn : i₁.nextNetop d = i₂.nextNetop d := by
          rw [← Interpreter.restrictTo_nextNetop, hi, Interpreter.restrictTo_nextNetop]
        simp only [hx₁, hx₂, Interpreter.record_nextNetop, hn]
        cases i₂.nextNetop d with
        | some op =>
          show Except.ok (LoopExit.restrictTo _) = Except.ok (LoopExit.restrictTo _)
          simp only [LoopExit.restrictTo, Interpreter.restrictTo_clearNextNetop,
            Interpreter.restrictTo_record, hi]
        | none =>
          have hq := (Program.executeNextInstruction_program lib hx₁).1
          exact runUntilNetop_restrictTo lib k q _ _ (fun ins hi => hp ins (hq ▸ hi)) (by simpa using hi)

/-- Where the inner loop leaves the interpreter: its `control` part as it
found it, and the program of the same task. -/
theorem runUntilNetop_exit (lib : CryptoLib) {d : Dir} {p : Program} {int : Interpreter}
    {x : LoopExit d}
    (h : Interpreter.runUntilNetop lib d (p.task.ins.length - p.nextInsIndex) p int = .ok x) :
    x.state.control = int.control ∧ x.program.task = p.task :=
  let ⟨_, hruns, _, hc⟩ := (runUntilNetop_loopRun lib _ _ _ _ le_rfl h).runs
  ⟨hc, hruns.task⟩

/-- **A call reads only its direction's view.** From two steady states
that direction `d` cannot tell apart, a call of `next_net_cmd_d` that
succeeds on the first succeeds on the second with the same result, and
leaves states `d` again cannot tell apart. -/
theorem nextNetCmd_sameView (lib : CryptoLib) (hs : SplitPair spec pair) {d : Dir} :
    ∀ (fuel : Nat) {int₁ int₂ int₁' : Interpreter} {r : Except Unit (NetOp d)},
      Steady spec pair int₁ → Steady spec pair int₂ → SameView pair d int₁ int₂ →
      int₁.nextNetCmd lib d fuel = .ok (r, int₁') →
      ∃ int₂', int₂.nextNetCmd lib d fuel = .ok (r, int₂') ∧ SameView pair d int₁' int₂'
  | 0, _, _, _, _, _, _, _, h => by cases h
  | fuel + 1, int₁, int₂, int₁', r, h₁, h₂, ⟨hv, hp⟩, h => by
    obtain ⟨l₁, hl₁, hs₁, hw₁, hc₁, hr₁⟩ := h₁.load hs
    obtain ⟨l₂, hl₂, hs₂, hw₂, hc₂, hr₂⟩ := h₂.load hs
    have hP := h₁.nextProg_task d
    have hsep : ∀ ins ∈ (int₁.nextProg pair d).task.ins, ins.touches d.other = false :=
      hP ▸ hs.separate d
    have hB := runUntilNetop_restrictTo lib
      ((int₁.nextProg pair d).task.ins.length - (int₁.nextProg pair d).nextInsIndex)
      (int₁.nextProg pair d) (l₁.setCurrentProg d none) (l₂.setCurrentProg d none) hsep
      (by simp only [Interpreter.restrictTo_setCurrentProg, hr₁, hr₂, hv])
    simp only [Interpreter.nextNetCmd, hl₁, hc₁] at h
    simp only [Interpreter.nextNetCmd, hl₂, hc₂, ← hp]
    cases hrun₁ : Interpreter.runUntilNetop lib d _ _ (l₁.setCurrentProg d none) with
    | error e => rw [hrun₁] at h; cases h
    | ok x₁ =>
      cases hrun₂ : Interpreter.runUntilNetop lib d _ _ (l₂.setCurrentProg d none) with
      | error e => rw [hrun₁, hrun₂] at hB; cases hB
      | ok x₂ =>
        rw [hrun₁, hrun₂] at hB
        have hx := Except.ok.inj hB
        rw [hrun₁] at h
        have he₁ := runUntilNetop_exit lib hrun₁
        have he₂ := runUntilNetop_exit lib hrun₂
        cases x₁ <;> cases x₂ <;> simp only [LoopExit.restrictTo, reduceCtorEq, LoopExit.netop.injEq,
          LoopExit.exhausted.injEq, LoopExit.state, LoopExit.program] at hx he₁ he₂
        · obtain ⟨rfl, rfl, hi⟩ := hx
          obtain ⟨rfl, rfl⟩ := Prod.mk.inj (Except.ok.inj h)
          exact ⟨_, rfl, by simp only [Interpreter.restrictTo_setCurrentProg, hi],
            by simp [Interpreter.nextProg]⟩
        · obtain ⟨rfl, hi⟩ := hx
          have hnone : ∀ {l i : Interpreter} {id : TaskID}, i.control = (l.setCurrentProg d none).control →
              (i.retire d id).nextProg pair d = Program.new (pair.task d) := fun hc => by
            simp [Interpreter.nextProg, Interpreter.currentProg_of_control hc]
          exact nextNetCmd_sameView lib hs fuel ((hs₁.exit hw₁ he₁.1).2 _) ((hs₂.exit hw₂ he₂.1).2 _)
            ⟨by simp only [Interpreter.restrictTo_retire, hi], by rw [hnone he₁.1, hnone he₂.1]⟩ h

/-! ## 3. A call leaves the other direction alone -/

theorem SameView.trans {d : Dir} {int₁ int₂ int₃ : Interpreter} (h₁ : SameView pair d int₁ int₂)
    (h₂ : SameView pair d int₂ int₃) : SameView pair d int₁ int₃ :=
  ⟨h₁.1.trans h₂.1, h₁.2.trans h₂.2⟩

theorem sameView_setCurrentProg {d e : Dir} (hde : d ≠ e) (int : Interpreter) (o : Option Program) :
    SameView pair d int (int.setCurrentProg e o) :=
  ⟨by simp, by simp [Interpreter.nextProg, hde]⟩

theorem sameView_retire (d e : Dir) (int : Interpreter) (id : TaskID) :
    SameView pair d int (int.retire e id) :=
  ⟨rfl, by simp [Interpreter.nextProg]⟩

/-- The inner loop of `e`, on a program whose task touches nothing of
another direction `d`, leaves `d`'s part alone. -/
theorem LoopRun.restrictTo_other (lib : CryptoLib) {d e : Dir} (hed : e ≠ d) {p : Program}
    {int : Interpreter} {r : LoopExit e} (h : LoopRun lib e p int r)
    (hp : ∀ ins ∈ p.task.ins, ins.touches d = false) : r.state.restrictTo d = int.restrictTo d := by
  cases h with
  | exhausted hq _ => exact hq.restrictTo_eq fun i hi => hp i (hq.runs.subset i hi)
  | netop hq hget hx _ =>
    obtain ⟨_, hq'⟩ := Program.executeNextInstruction_ok lib hget hx
    have hmem := hq.runs.task ▸ List.getElem?_mem hget
    rw [LoopExit.state, Interpreter.restrictTo_clearNextNetop_other _ hed, Interpreter.restrictTo_record,
      Program.restrictTo_executeInstruction lib (hp _ hmem) hq',
      hq.restrictTo_eq fun i hi => hp i (hq.runs.subset i hi)]

/-- One pass of the outer loop of `e`, from a steady state: the loop
leaves a state steady once its program is put back or retired, and that
the other direction cannot tell from the one the call started in. -/
theorem Steady.pass (lib : CryptoLib) (hs : SplitPair spec pair) {e : Dir} {int l : Interpreter}
    {p : Program} {x : LoopExit e} (h : Steady spec pair int) (hl : int.loadIfWanted = .ok l)
    (hp : l.currentProg e = some p) (hx : LoopRun lib e p (l.setCurrentProg e none) x) :
    (∀ q : Program, q.task = pair.task e → Steady spec pair (x.state.setCurrentProg e (some q))) ∧
      (∀ id, Steady spec pair (x.state.retire e id)) ∧ x.program.task = pair.task e ∧
      ∀ d, d ≠ e → SameView pair d int x.state := by
  obtain ⟨l', hl', hsl, hw, hfull, hres⟩ := h.load hs
  rw [hl] at hl'
  cases hl'
  obtain ⟨inss, hruns, -, hc⟩ := hx.runs
  have hpe : p = int.nextProg pair e := Option.some.inj (hp.symm.trans (hfull e))
  have htask : p.task = pair.task e := hpe ▸ h.nextProg_task e
  refine ⟨(hsl.exit hw hc).1, (hsl.exit hw hc).2, hruns.task.trans htask, fun d hde => ⟨?_, ?_⟩⟩
  · have hd : e.other = d := ((Dir.eq_or_eq_other e d).resolve_left hde).symm
    rw [LoopRun.restrictTo_other lib (Ne.symm hde) hx (htask ▸ hd ▸ hs.separate e),
      Interpreter.restrictTo_setCurrentProg, hres]
  · refine (Interpreter.nextProg_of_currentProg ?_).symm
    rw [Interpreter.currentProg_of_control hc, Interpreter.currentProg_setCurrentProg, if_neg hde, hfull d]

/-- **A call keeps the invariant.** From a steady state, a run of the outer
loop of `e` leaves a steady state, which the other direction cannot tell
from the one the call started in. -/
theorem Steady.callRun (lib : CryptoLib) (hs : SplitPair spec pair) {e : Dir} {int int' : Interpreter}
    {r : Except Unit (NetOp e)} (h : Steady spec pair int) (hrun : CallRun lib e int r int') :
    Steady spec pair int' ∧ ∀ d, d ≠ e → SameView pair d int int' := by
  induction hrun with
  | blocked hl hp =>
    obtain ⟨l, hl', -, -, hfull, -⟩ := h.load hs
    rw [hl] at hl'
    cases hl'
    simp [hfull] at hp
  | netop hl hp hloop =>
    have hpass := h.pass lib hs hl hp hloop
    exact ⟨hpass.1 _ hpass.2.2.1, fun d hde => (hpass.2.2.2 d hde).trans (sameView_setCurrentProg hde _ _)⟩
  | retire hl hp hloop _ ih =>
    have hpass := h.pass lib hs hl hp hloop
    have ih' := ih (hpass.2.1 _)
    exact ⟨ih'.1, fun d hde =>
      ((hpass.2.2.2 d hde).trans (sameView_retire d _ _ _)).trans (ih'.2 d hde)⟩

/-- A successful call of `next_net_cmd_e` from a steady state leaves a
steady state with `wants_tasks` clear, which the other direction cannot
tell from the one the call started in. -/
theorem Steady.nextNetCmd (lib : CryptoLib) (hs : SplitPair spec pair) {e : Dir} {fuel : Nat}
    {int int' : Interpreter} {r : Except Unit (NetOp e)} (h : Steady spec pair int)
    (hc : int.nextNetCmd lib e fuel = .ok (r, int')) :
    Steady spec pair int' ∧ int'.wantsTasks = false ∧ ∀ d, d ≠ e → SameView pair d int int' := by
  have hrun := nextNetCmd_callRun lib _ _ _ _ hc
  exact ⟨(h.callRun lib hs hrun).1, hrun.wantsTasks, (h.callRun lib hs hrun).2⟩

/-! ## 4. Stores -/

theorem Steady.store (h : Steady spec pair int) (d : Dir) (addr : Identifier) (bytes : Bytes) :
    Steady spec pair (int.store d addr bytes) := by
  refine ⟨by simp [h.spec_eq], fun e p hp => ?_, fun e hp => ?_⟩
  · rw [Interpreter.currentProg_store] at hp
    split_ifs at hp with hed
    · subst hed
      obtain ⟨q, hq, rfl⟩ := Option.map_eq_some'.mp hp
      exact h.slot_task e q hq
    · exact h.slot_task e p hp
  · rw [Interpreter.currentProg_store] at hp
    split_ifs at hp with hed
    · subst hed
      simpa using h.empty_wants e (Option.map_eq_none'.mp hp)
    · simpa using h.empty_wants e hp

theorem sameView_store_other {d e : Dir} (hde : d ≠ e) (int : Interpreter) (addr : Identifier)
    (bytes : Bytes) : SameView pair d int (int.store e addr bytes) :=
  ⟨by simp, by simp [Interpreter.nextProg, hde]⟩

/-- A store of `d` into a full slot keeps two states `d` cannot tell apart. -/
theorem SameView.store {d : Dir} {int₁ int₂ : Interpreter} (hv : SameView pair d int₁ int₂)
    (h₁ : int₁.currentProg d ≠ none) (h₂ : int₂.currentProg d ≠ none) (addr : Identifier)
    (bytes : Bytes) : SameView pair d (int₁.store d addr bytes) (int₂.store d addr bytes) := by
  obtain ⟨p₁, hp₁⟩ := Option.ne_none_iff_exists'.mp h₁
  obtain ⟨p₂, hp₂⟩ := Option.ne_none_iff_exists'.mp h₂
  have hp : p₁ = p₂ := by
    rw [← Interpreter.nextProg_of_currentProg hp₁, ← Interpreter.nextProg_of_currentProg hp₂]
    exact hv.2
  refine ⟨by simp [hv.1], ?_⟩
  simp [Interpreter.nextProg, hp₁, hp₂, hp]

/-! ## 5. Two pumps -/

/-- The address an op asks its pump to fill: the `addr` of a `RecvNet` (in)
or of a `RecvApp` (out). -/
def NetOp.recvAddr : (d : Dir) → NetOp d → Option Identifier
  | .incoming, .recvNet args => some args.addr
  | .outgoing, .recvApp args => some args.addr
  | _, _ => none

/-- A pump of direction `d`: the address it owes a store to, the blobs it
has left, and what its calls of `next_net_cmd_d` returned, oldest first. -/
structure Pump (d : Dir) where
  owed : Option Identifier
  blobs : List Bytes
  results : List (Except Unit (NetOp d))

/-- The interpreter and its two pumps. -/
structure Harness where
  int : Interpreter
  pumpIn : Pump .incoming
  pumpOut : Pump .outgoing

namespace Harness

/-- The pump of a direction. -/
def pump (h : Harness) : (d : Dir) → Pump d
  | .incoming => h.pumpIn
  | .outgoing => h.pumpOut

/-- Replace the pump of a direction. -/
def setPump (h : Harness) : (d : Dir) → Pump d → Harness
  | .incoming, p => { h with pumpIn := p }
  | .outgoing, p => { h with pumpOut := p }

@[simp] theorem setPump_int (h : Harness) (d : Dir) (p : Pump d) : (h.setPump d p).int = h.int := by
  cases d <;> rfl

@[simp] theorem pump_setPump_self (h : Harness) (d : Dir) (p : Pump d) : (h.setPump d p).pump d = p := by
  cases d <;> rfl

theorem pump_setPump_other (h : Harness) {d e : Dir} (hde : d ≠ e) (p : Pump e) :
    (h.setPump e p).pump d = h.pump d := by
  cases d <;> cases e <;> first | rfl | exact absurd rfl hde

/-- The start: both pumps owe nothing and have their blobs. -/
def start (int : Interpreter) (blobsIn blobsOut : List Bytes) : Harness :=
  ⟨int, ⟨none, blobsIn, []⟩, ⟨none, blobsOut, []⟩⟩

variable (lib : CryptoLib)

/-- One turn of the pump of `d`: the store it owes, with its next blob, or
else a call of `next_net_cmd_d`, whose result it keeps, and which makes it
owe a store when it is a `RecvNet` or a `RecvApp`. `none` when the call
fails or the blobs run out. -/
def step (fuel : Nat) (h : Harness) (d : Dir) : Option Harness :=
  match (h.pump d).owed, (h.pump d).blobs with
  | some addr, blob :: blobs =>
    some { h.setPump d ⟨none, blobs, (h.pump d).results⟩ with int := h.int.store d addr blob }
  | some _, [] => none
  | none, _ =>
    match h.int.nextNetCmd lib d fuel with
    | .ok (r, int) =>
      some { h.setPump d ⟨r.toOption.bind (NetOp.recvAddr d), (h.pump d).blobs, (h.pump d).results ++ [r]⟩
        with int := int }
    | .error _ => none

/-- A schedule played turn by turn, up to the first failure. -/
def run (fuel : Nat) : List Dir → Harness → Option Harness
  | [], h => some h
  | d :: σ, h => (h.step lib fuel d).bind (run fuel σ)

/-- What the pump of `d` and its calls can observe: its part of the
interpreter, its next program, and itself. -/
def view (pair : TaskPair) (h : Harness) (d : Dir) : Interpreter × Program × Pump d :=
  (h.int.restrictTo d, h.int.nextProg pair d, h.pump d)

/-- The invariant of the harness: a steady interpreter, and a program in the
slot of every pump that owes a store. -/
structure Inv (spec : TaskProvider) (pair : TaskPair) (h : Harness) : Prop where
  steady : Steady spec pair h.int
  owed : ∀ d, (h.pump d).owed ≠ none → h.int.currentProg d ≠ none

@[simp] theorem pump_withInt (h : Harness) (int : Interpreter) (d : Dir) :
    ({ h with int := int }).pump d = h.pump d := by
  cases d <;> rfl

/-! ### One turn -/

/-- A store turn keeps the invariant and touches no other pump's view. -/
theorem Inv.storeTurn {h : Harness} (hi : h.Inv spec pair) (d : Dir) (addr : Identifier) (blob : Bytes)
    (blobs : List Bytes) :
    ({ h.setPump d ⟨none, blobs, (h.pump d).results⟩ with int := h.int.store d addr blob } : Harness).Inv
      spec pair ∧
      ∀ e, e ≠ d → ({ h.setPump d ⟨none, blobs, (h.pump d).results⟩ with int := h.int.store d addr blob } :
        Harness).view pair e = h.view pair e := by
  have hslot : ∀ e, h.int.currentProg e ≠ none → (h.int.store d addr blob).currentProg e ≠ none := by
    intro e he
    rw [Interpreter.currentProg_store]
    split_ifs with hed
    · subst hed; simpa using he
    · exact he
  refine ⟨⟨hi.steady.store d addr blob, fun e he => ?_⟩, fun e hed => ?_⟩
  · rcases Dir.eq_or_eq_other d e with rfl | rfl
    · simp at he
    · rw [pump_withInt, pump_setPump_other _ (Dir.other_ne d)] at he
      exact hslot _ (hi.owed _ he)
  · have hv : SameView pair e h.int (h.int.store d addr blob) := sameView_store_other hed _ _ _
    simp only [view, pump_withInt, pump_setPump_other _ hed, ← hv.1, ← hv.2]

/-- A call turn keeps the invariant (the call leaves every slot full) and
touches no other pump's view. -/
theorem Inv.callTurn (hs : SplitPair spec pair) {h : Harness} (hi : h.Inv spec pair) {d : Dir}
    {fuel : Nat} {r : Except Unit (NetOp d)} {int : Interpreter}
    (hc : h.int.nextNetCmd lib d fuel = .ok (r, int)) (p : Pump d) :
    ({ h.setPump d p with int := int } : Harness).Inv spec pair ∧
      ∀ e, e ≠ d → ({ h.setPump d p with int := int } : Harness).view pair e = h.view pair e := by
  obtain ⟨hst, hw, hv⟩ := hi.steady.nextNetCmd lib hs hc
  refine ⟨⟨hst, fun e _ => by simp [hst.full hw e]⟩, fun e hed => ?_⟩
  simp only [view, pump_withInt, pump_setPump_other _ hed, (hv e hed).1, (hv e hed).2]

/-- **A turn of the other pump.** It keeps the invariant and leaves the view
of `d` alone. -/
theorem step_other (hs : SplitPair spec pair) {fuel : Nat} {h h' : Harness} {d e : Dir} (hed : e ≠ d)
    (hi : h.Inv spec pair) (hstep : h.step lib fuel d = some h') :
    h'.Inv spec pair ∧ h'.view pair e = h.view pair e := by
  unfold step at hstep
  split at hstep
  · cases hstep
    exact ⟨(hi.storeTurn _ _ _ _).1, (hi.storeTurn _ _ _ _).2 e hed⟩
  · cases hstep
  · split at hstep
    · rename_i hc
      cases hstep
      exact ⟨(hi.callTurn lib hs hc _).1, (hi.callTurn lib hs hc _).2 e hed⟩
    · cases hstep

/-- **A turn of the pump itself.** From two harnesses with the invariant
that `d` cannot tell apart, a turn of `d` that succeeds on the first
succeeds on the second, and `d` still cannot tell the two apart. -/
theorem step_self (hs : SplitPair spec pair) {fuel : Nat} {h₁ h₂ h₁' : Harness} {d : Dir}
    (hi₁ : h₁.Inv spec pair) (hi₂ : h₂.Inv spec pair) (hv : h₁.view pair d = h₂.view pair d)
    (hstep : h₁.step lib fuel d = some h₁') :
    ∃ h₂', h₂.step lib fuel d = some h₂' ∧ h₁'.Inv spec pair ∧ h₂'.Inv spec pair ∧
      h₁'.view pair d = h₂'.view pair d := by
  simp only [view, Prod.mk.injEq] at hv
  obtain ⟨hres, hprog, hpump⟩ := hv
  unfold step at hstep ⊢
  rw [← hpump]
  split at hstep
  · rename_i addr blob blobs howed hblobs
    cases hstep
    simp only [howed, hblobs]
    have hsame : SameView pair d (h₁.int.store d addr blob) (h₂.int.store d addr blob) :=
      SameView.store ⟨hres, hprog⟩ (hi₁.owed d (by simp [howed])) (hi₂.owed d (by simp [← hpump, howed]))
        addr blob
    refine ⟨_, rfl, (hi₁.storeTurn _ _ _ _).1, ?_, ?_⟩
    · rw [hpump]; exact (hi₂.storeTurn _ _ _ _).1
    · simp only [view, pump_withInt, pump_setPump_self, hsame.1, hsame.2]
  · cases hstep
  · rename_i howed
    simp only [howed]
    split at hstep
    · rename_i r int₁ hc₁
      cases hstep
      obtain ⟨int₂, hc₂, hsame⟩ :=
        nextNetCmd_sameView lib hs fuel hi₁.steady hi₂.steady ⟨hres, hprog⟩ hc₁
      simp only [hc₂]
      refine ⟨_, rfl, (hi₁.callTurn lib hs hc₁ _).1, ?_, ?_⟩
      · exact (hi₂.callTurn lib hs hc₂ _).1
      · simp only [view, pump_withInt, pump_setPump_self, hsame.1, hsame.2]
    · cases hstep

/-! ### Whole schedules -/

/-- **A pump sees only its own turns.** If a schedule runs from `h₁`, the
turns of `d` alone run from any `h₂` that `d` cannot tell from `h₁`, and
`d` cannot tell the two ends apart. -/
theorem run_sameView (hs : SplitPair spec pair) {fuel : Nat} (d : Dir) :
    ∀ (σ : List Dir) {h₁ h₂ h₁' : Harness}, h₁.Inv spec pair → h₂.Inv spec pair →
      h₁.view pair d = h₂.view pair d → h₁.run lib fuel σ = some h₁' →
      ∃ h₂', h₂.run lib fuel (σ.filter (· = d)) = some h₂' ∧ h₁'.view pair d = h₂'.view pair d
  | [], _, h₂, _, _, _, hv, hrun => by
    cases hrun
    exact ⟨h₂, rfl, hv⟩
  | e :: σ, h₁, h₂, h₁', hi₁, hi₂, hv, hrun => by
    obtain ⟨k₁, hk₁, hrest⟩ := Option.bind_eq_some.mp hrun
    by_cases hed : e = d
    · subst hed
      obtain ⟨k₂, hk₂, hj₁, hj₂, hv'⟩ := step_self lib hs hi₁ hi₂ hv hk₁
      obtain ⟨h₂', hrun₂, hv''⟩ := run_sameView hs e σ hj₁ hj₂ hv' hrest
      exact ⟨h₂', by simp [run, hk₂, hrun₂], hv''⟩
    · obtain ⟨hj₁, hv'⟩ := step_other lib hs (Ne.symm hed) hi₁ hk₁
      obtain ⟨h₂', hrun₂, hv''⟩ := run_sameView hs d σ hj₁ hi₂ (hv'.trans hv) hrest
      exact ⟨h₂', by simpa [hed] using hrun₂, hv''⟩

/-- More fuel changes no turn that succeeded. -/
theorem step_mono {fuel fuel' : Nat} (hle : fuel ≤ fuel') {h h' : Harness} {d : Dir}
    (hstep : h.step lib fuel d = some h') : h.step lib fuel' d = some h' := by
  unfold step at hstep ⊢
  split at hstep
  · exact hstep
  · cases hstep
  · rename_i howed
    simp only [howed]
    split at hstep
    · rename_i hc
      rw [nextNetCmd_mono lib fuel fuel' _ hle (by simp [hc]), hc]
      exact hstep
    · cases hstep

theorem run_mono {fuel fuel' : Nat} (hle : fuel ≤ fuel') :
    ∀ (σ : List Dir) {h h' : Harness}, h.run lib fuel σ = some h' → h.run lib fuel' σ = some h'
  | [], _, _, hrun => hrun
  | d :: σ, _, _, hrun => by
    obtain ⟨k, hk, hrest⟩ := Option.bind_eq_some.mp hrun
    simp [run, step_mono lib hle hk, run_mono hle σ hrest]

end Harness

/-! ## 6. Interleavings -/

/-- Every reachable state is steady. -/
theorem Reachable.steady (hs : SplitPair spec pair) {int : Interpreter} (hr : Reachable lib spec int) :
    Steady spec pair int := by
  induction hr with
  | new h =>
    obtain ⟨hspec, hnone, hw, -⟩ := Interpreter.new_spec h
    exact ⟨hspec, fun d p hp => by simp [hnone d] at hp, fun _ _ => hw⟩
  | call _ hc ih =>
    rcases call_cases hc with ⟨d, r, rfl, hrun⟩ | ⟨d, addr, bytes, rfl, rfl⟩
    · exact (ih.callRun lib hs hrun).1
    · exact ih.store d addr bytes

/-- **Interleavings do not matter.** Under a provider that always hands out
the same pair of tasks, each touching only its own direction, take two
schedules of the two pumps with the same number of turns of each pump,
both run from a reachable state with the same blobs and no failed call.
Each pump receives the same results in both runs. -/
theorem interleavings_agree (hs : SplitPair spec pair) {int : Interpreter} (hr : Reachable lib spec int)
    (blobsIn blobsOut : List Bytes) {σ₁ σ₂ : List Dir} (hσ : ∀ d, σ₁.count d = σ₂.count d)
    {fuel₁ fuel₂ : Nat} {h₁ h₂ : Harness}
    (h₁ok : (Harness.start int blobsIn blobsOut).run lib fuel₁ σ₁ = some h₁)
    (h₂ok : (Harness.start int blobsIn blobsOut).run lib fuel₂ σ₂ = some h₂) (d : Dir) :
    (h₁.pump d).results = (h₂.pump d).results := by
  have hi : (Harness.start int blobsIn blobsOut).Inv spec pair :=
    ⟨hr.steady hs, fun e he => by cases e <;> simp [Harness.start, Harness.pump] at he⟩
  obtain ⟨k₁, hk₁, hv₁⟩ := Harness.run_sameView lib hs d σ₁ hi hi rfl
    (Harness.run_mono lib (le_max_left fuel₁ fuel₂) σ₁ h₁ok)
  obtain ⟨k₂, hk₂, hv₂⟩ := Harness.run_sameView lib hs d σ₂ hi hi rfl
    (Harness.run_mono lib (le_max_right fuel₁ fuel₂) σ₂ h₂ok)
  rw [List.filter_eq, hσ d, ← List.filter_eq, hk₂, Option.some.injEq] at hk₁
  subst hk₁
  exact congrArg (fun v => v.2.2.results) (hv₁.trans hv₂.symm)

/-- The pair `echoProvider` hands out. -/
def echoPair : TaskPair :=
  ⟨⟨[.readNet ⟨.range ⟨1, 2⟩, "x"⟩], ⟨1⟩⟩, ⟨[.readApp ⟨⟨1, 2⟩, "y"⟩], ⟨2⟩⟩⟩

theorem echoProvider_splitPair : SplitPair echoProvider echoPair :=
  ⟨fun _ => rfl, fun d ins hins => by
    cases d <;> simp only [echoPair, TaskPair.task, List.mem_singleton] at hins <;> subst hins <;> rfl⟩

theorem echo_interleavings_agree :
    SplitPair echoProvider echoPair ∧
    Reachable CryptoLib.plain echoProvider echoStart ∧
    (∀ d, [Dir.incoming, .incoming, .outgoing, .incoming].count d =
      [Dir.outgoing, .incoming, .incoming, .incoming].count d) ∧
    ∃ h₁ h₂,
      (Harness.start echoStart [[7]] []).run CryptoLib.plain 2
        [.incoming, .incoming, .outgoing, .incoming] = some h₁ ∧
      (Harness.start echoStart [[7]] []).run CryptoLib.plain 2
        [.outgoing, .incoming, .incoming, .incoming] = some h₂ ∧
      ∀ d, (h₁.pump d).results = (h₂.pump d).results := by
  have hs := echoProvider_splitPair
  have hσ : ∀ d, [Dir.incoming, .incoming, .outgoing, .incoming].count d =
      [Dir.outgoing, .incoming, .incoming, .incoming].count d := by
    intro d; cases d <;> rfl
  obtain ⟨h₁, e₁⟩ : ∃ h₁, (Harness.start echoStart [[7]] []).run CryptoLib.plain 2
      [.incoming, .incoming, .outgoing, .incoming] = some h₁ := ⟨_, rfl⟩
  obtain ⟨h₂, e₂⟩ : ∃ h₂, (Harness.start echoStart [[7]] []).run CryptoLib.plain 2
      [.outgoing, .incoming, .incoming, .incoming] = some h₂ := ⟨_, rfl⟩
  exact ⟨hs, echoStart_reachable, hσ, h₁, h₂, e₁, e₂,
    interleavings_agree hs echoStart_reachable [[7]] [] hσ e₁ e₂⟩

/-- **A pump's results are those of its own turns run alone.** Whatever the
other pump does in between, the turns of `d` in a schedule run by
themselves from the same start, and hand `d` the same results. -/
theorem results_solo (hs : SplitPair spec pair) {int : Interpreter} (hr : Reachable lib spec int)
    (blobsIn blobsOut : List Bytes) {σ : List Dir} {fuel : Nat} {h : Harness}
    (hrun : (Harness.start int blobsIn blobsOut).run lib fuel σ = some h) (d : Dir) :
    ∃ h', (Harness.start int blobsIn blobsOut).run lib fuel (σ.filter (· = d)) = some h' ∧
      (h.pump d).results = (h'.pump d).results := by
  have hi : (Harness.start int blobsIn blobsOut).Inv spec pair :=
    ⟨hr.steady hs, fun e he => by cases e <;> simp [Harness.start, Harness.pump] at he⟩
  obtain ⟨h', hrun', hv⟩ := Harness.run_sameView lib hs d σ hi hi rfl hrun
  exact ⟨h', hrun', congrArg (fun v => v.2.2.results) hv⟩

theorem echo_results_solo :
    SplitPair echoProvider echoPair ∧
    Reachable CryptoLib.plain echoProvider echoStart ∧
    ∃ h, (Harness.start echoStart [[7]] []).run CryptoLib.plain 2
        [.outgoing, .incoming, .incoming, .incoming] = some h ∧
      ∃ h', (Harness.start echoStart [[7]] []).run CryptoLib.plain 2
          ([.outgoing, .incoming, .incoming, .incoming].filter (· = .incoming)) = some h' ∧
        (h.pump .incoming).results = (h'.pump .incoming).results := by
  have hs := echoProvider_splitPair
  obtain ⟨h, e⟩ : ∃ h, (Harness.start echoStart [[7]] []).run CryptoLib.plain 2
      [.outgoing, .incoming, .incoming, .incoming] = some h := ⟨_, rfl⟩
  exact ⟨hs, echoStart_reachable, h, e, results_solo hs echoStart_reachable [[7]] [] e .incoming⟩

/-- **No direction is ever blocked.** Under such a provider, from every
reachable state, a call of `next_net_cmd_d` never returns `Err(())`: the
head of its loop always leaves it a program. -/
theorem nextNetCmd_ne_blocked (hs : SplitPair spec pair) {int int' : Interpreter}
    (hr : Reachable lib spec int) {d : Dir} {fuel : Nat} {r : Except Unit (NetOp d)}
    (hc : int.nextNetCmd lib d fuel = .ok (r, int')) : r ≠ .error () := by
  have h := hr.steady hs
  have hrun := nextNetCmd_callRun lib _ _ _ _ hc
  clear hc hr
  induction hrun with
  | blocked hl hp =>
    obtain ⟨l, hl', -, -, hfull, -⟩ := h.load hs
    rw [hl] at hl'
    cases hl'
    simp [hfull] at hp
  | netop => simp
  | retire hl hp hloop _ ih => exact ih ((h.pass lib hs hl hp hloop).2.1 _)

theorem echo_ne_blocked :
    SplitPair echoProvider echoPair ∧
    Reachable CryptoLib.plain echoProvider echoStart ∧
    ∃ r int', echoStart.nextNetCmd CryptoLib.plain .outgoing 1 = .ok (r, int') ∧ r ≠ .error () := by
  have hs := echoProvider_splitPair
  obtain ⟨r, int', e⟩ : ∃ r int', echoStart.nextNetCmd CryptoLib.plain .outgoing 1 = .ok (r, int') :=
    ⟨_, _, rfl⟩
  exact ⟨hs, echoStart_reachable, r, int', e, nextNetCmd_ne_blocked hs echoStart_reachable e⟩

end Proteus
