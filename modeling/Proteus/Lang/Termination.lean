import Proteus.Lang.Queries

/-!
Proteus.Lang.Termination — how long a call of `next_net_cmd_d` runs.

The outer `loop` of `next_net_cmd_d` goes round again each time the
program of `d` runs out and retires. Whether a call returns thus depends
on what the provider hands back: a provider that offers `d` a task with
no I/O would make the loop install, run out and retire for ever.

**`nextNetCmd_twoPasses`**: when every task offered to `d` has an
instruction that yields in `d`, a call from a reachable state returns or
panics within two passes of the loop, so every fuel from 2 on gives the
same result; and a call that returns has queried the provider at most
once. **`nextNetCmdIn_panics`** is a call that panics under that
assumption: the call does not always return `Ok` or `Err(())`.

How the proof goes: between calls `wants_tasks` is set only while both
slots are empty (`reachable_wantsInv`). A pass that starts with
`wants_tasks` set and the slot of `d` empty installs a fresh program,
which cannot run out before its yielding instruction
(`LoopRun.fresh_not_exhausted`), so it returns (`freshPass`). A call
starts with such a pass, or its first pass retires a program and the
second is such a pass.
-/

namespace Proteus

variable {lib : CryptoLib} {spec : TaskProvider} {d : Dir}

/-- A fresh program that runs out has run all of its task without yielding. -/
theorem LoopRun.fresh_not_exhausted {t : Task} {int c : Interpreter} {q : Program}
    (h : LoopRun lib d (Program.new t) int (.exhausted q c)) : ∀ ins ∈ t.ins, ins.yields d = false := by
  obtain ⟨inss, hq, hnone⟩ := h.exhausted_inv
  have hlab := hq.runs.labels
  have hidx := hq.runs.index
  have hlen : t.ins.length ≤ inss.length := by
    have := List.getElem?_eq_none_iff.mp hnone
    rw [hidx, hq.runs.task] at this
    simpa [Program.new] using this
  rw [show (Program.new t).task = t from rfl, show (Program.new t).nextInsIndex = 0 from rfl,
    List.drop_zero, List.take_of_length_le hlen] at hlab
  exact hlab ▸ hq.quiet

/-- Between calls, `wants_tasks` is set only while both slots are empty. -/
theorem reachable_wantsInv {int : Interpreter} (hr : Reachable lib spec int) :
    int.wantsTasks = true → ∀ e, int.currentProg e = none := by
  induction hr with
  | new h => exact fun _ => (Interpreter.new_spec h).2.1
  | call _ hc ih =>
    rcases call_cases hc with ⟨d, r, -, hrun⟩ | ⟨d, addr, bytes, -, rfl⟩
    · simp [hrun.wantsTasks]
    · intro hw e
      rw [Interpreter.store_wantsTasks] at hw
      simp [Interpreter.currentProg_store, ih hw]

/-- The events a load adds: at most one query, and none when `wants_tasks`
was clear. -/
theorem loadIfWanted_queries {int int₁ : Interpreter} (h : int.loadIfWanted = .ok int₁) :
    ∃ s, int₁.history = int.history ++ s ∧ (s.filterMap Event.queryId).length ≤ 1 ∧
      (int.wantsTasks = false → s = []) := by
  refine ⟨_, (loadIfWanted_spec h).2.1, ?_, fun hw => by simp [hw]⟩
  split <;> simp [Event.queryId]

theorem queryId_map_execute (inss : List Instruction) :
    (inss.map (Event.execute d)).filterMap Event.queryId = [] := by
  simp [List.filterMap_map, Function.comp_def, Event.queryId]

/-- A pass that loads into an empty slot returns or panics, and queries once. -/
theorem freshPass (hy : ∀ id t, (spec.getNextTasks id).offered d = some t → ∃ ins ∈ t.ins, ins.yields d = true)
    {int : Interpreter} (hs : int.spec = spec) (hw : int.wantsTasks = true)
    (hp : int.currentProg d = none) :
    int.nextNetCmd lib d 1 ≠ .error .outOfFuel ∧
      ∀ r int', int.nextNetCmd lib d 1 = .ok (r, int') →
        ∃ seg, int'.history = int.history ++ seg ∧ (seg.filterMap Event.queryId).length ≤ 1 := by
  unfold Interpreter.nextNetCmd
  cases hl : int.loadIfWanted with
  | error e =>
    refine ⟨?_, fun _ _ h => by cases h⟩
    rintro ⟨⟩
    exact loadIfWanted_ne_outOfFuel int hl
  | ok int₁ =>
    obtain ⟨s, hh, hq, -⟩ := loadIfWanted_queries hl
    have hload : int.loadTasks = .ok int₁ := by simpa [Interpreter.loadIfWanted, hw] using hl
    have hslot := (loadTasks_spec hload).1 d
    simp only [hp] at hslot
    cases hp₁ : int₁.currentProg d with
    | none =>
      simp only [hp₁]
      exact ⟨by simp, fun r int' h => by cases h; exact ⟨s, hh, hq⟩⟩
    | some p =>
      simp only [hp₁]
      obtain ⟨t, ht, hnew⟩ : ∃ t, (spec.getNextTasks int.lastTaskId).offered d = some t ∧
          p = Program.new t := by
        unfold TaskSet.loadSlot at hslot
        rw [hp₁, hs] at hslot
        split at hslot
        · rename_i t ht
          rcases setTask_eq_ok.mp hslot with ⟨-, h⟩ | ⟨_, h, -⟩
          · exact ⟨t, ht, (Option.some.inj h)⟩
          · cases h
        · cases hslot
      subst hnew
      obtain ⟨ins, hin, hyi⟩ := hy _ _ ht
      cases hrun : Interpreter.runUntilNetop lib d _ (Program.new t) (int₁.setCurrentProg d none) with
      | error e =>
        refine ⟨?_, fun _ _ h => by cases h⟩
        rintro ⟨⟩
        exact runUntilNetop_ne_outOfFuel lib _ _ _ hrun
      | ok exit =>
        have hloop := runUntilNetop_loopRun lib _ _ _ _ le_rfl hrun
        cases exit with
        | netop op p' int₂ =>
          refine ⟨by simp, fun r int' h => ?_⟩
          cases h
          obtain ⟨inss, -, hh₂, -⟩ := hloop.runs
          refine ⟨s ++ inss.map (.execute d), ?_, ?_⟩
          · simp [LoopExit.state] at hh₂
            simp [hh₂, hh]
          · rwa [List.filterMap_append, queryId_map_execute, List.append_nil]
        | exhausted p' int₂ =>
          have := hloop.fresh_not_exhausted ins hin
          rw [hyi] at this
          cases this

/-- **A call returns or panics within two passes.** When every task the
provider offers to `d` has an instruction that yields in `d`, a call of
`next_net_cmd_d` from a reachable state gives the same result for every
fuel from 2 on, that result is not a lack of fuel, and a call that returns
has queried the provider at most once. -/
theorem nextNetCmd_twoPasses
    (hy : ∀ id t, (spec.getNextTasks id).offered d = some t → ∃ ins ∈ t.ins, ins.yields d = true)
    {int : Interpreter} (hr : Reachable lib spec int) :
    (∀ fuel, 2 ≤ fuel → int.nextNetCmd lib d fuel = int.nextNetCmd lib d 2) ∧
      int.nextNetCmd lib d 2 ≠ .error .outOfFuel ∧
      ∀ r int', int.nextNetCmd lib d 2 = .ok (r, int') →
        ∃ seg, int'.history = int.history ++ seg ∧ (seg.filterMap Event.queryId).length ≤ 1 := by
  suffices h : int.nextNetCmd lib d 2 ≠ .error .outOfFuel ∧
      ∀ r int', int.nextNetCmd lib d 2 = .ok (r, int') →
        ∃ seg, int'.history = int.history ++ seg ∧ (seg.filterMap Event.queryId).length ≤ 1 from
    ⟨fun fuel hf => nextNetCmd_mono lib 2 fuel int hf h.1, h⟩
  have hs := hr.spec_eq
  cases hw : int.wantsTasks
  case true =>
    have hf := @freshPass lib _ _ hy _ hs hw (reachable_wantsInv hr hw d)
    rwa [nextNetCmd_mono lib 1 2 int (by omega) hf.1]
  case false =>
    have hl : int.loadIfWanted = .ok int := by simp [Interpreter.loadIfWanted, hw]
    unfold Interpreter.nextNetCmd
    simp only [hl]
    cases hp : int.currentProg d with
    | none => exact ⟨by simp, fun r int' h => by cases h; exact ⟨[], by simp, by simp⟩⟩
    | some p =>
      simp only
      cases hrun : Interpreter.runUntilNetop lib d _ p (int.setCurrentProg d none) with
      | error e =>
        refine ⟨?_, fun _ _ h => by cases h⟩
        rintro ⟨⟩
        exact runUntilNetop_ne_outOfFuel lib _ _ _ hrun
      | ok exit =>
        obtain ⟨inss, -, hh, hc⟩ := (runUntilNetop_loopRun lib _ _ _ _ le_rfl hrun).runs
        cases exit with
        | netop op p' int₂ =>
          refine ⟨by simp, fun r int' h => ?_⟩
          cases h
          exact ⟨inss.map (.execute d), by simpa [LoopExit.state] using hh, by
            rw [queryId_map_execute]; simp⟩
        | exhausted p' int₂ =>
          simp only [LoopExit.state] at hh hc
          have hc' := Interpreter.currentProg_of_control hc d
          simp only [Interpreter.currentProg_setCurrentProg, if_true] at hc'
          obtain ⟨hne, hseg⟩ := @freshPass lib _ _ hy (int₂.retire d p'.task.id)
            ((congrArg Interpreter.Control.spec hc).trans ((Interpreter.setCurrentProg_spec _ _ _).trans hs))
            rfl hc'
          simp only
          refine ⟨hne, fun r int' h => ?_⟩
          obtain ⟨seg, hseg, hq⟩ := hseg r int' h
          refine ⟨inss.map (.execute d) ++ .retire d p'.task.id :: seg, ?_, ?_⟩
          · simp [hseg, Interpreter.retire, hh]
          · rwa [List.filterMap_append, queryId_map_execute, List.filterMap_cons,
              show (Event.retire d p'.task.id).queryId = none from rfl, List.nil_append]

theorem echoStart_twoPasses :
    (∀ id t, (echoProvider.getNextTasks id).offered .incoming = some t →
      ∃ ins ∈ t.ins, ins.yields .incoming = true) ∧
    Reachable CryptoLib.plain echoProvider echoStart ∧
    echoStart.nextNetCmd CryptoLib.plain .incoming 2 ≠ .error .outOfFuel := by
  have hy : ∀ id t, (echoProvider.getNextTasks id).offered .incoming = some t →
      ∃ ins ∈ t.ins, ins.yields .incoming = true := by
    intro id t h
    simp only [echoProvider, TaskSet.offered, Option.some.injEq] at h
    subst h
    exact ⟨_, List.mem_singleton_self _, rfl⟩
  exact ⟨hy, echoStart_reachable, (nextNetCmd_twoPasses hy echoStart_reachable).2.1⟩

/-! ## A call that panics -/

/-- A provider whose in task reads as many bytes as a number it never stored. -/
def unsetLengthProvider : TaskProvider where
  getInitTask := ⟨[], ⟨0⟩⟩
  getNextTasks _ := .inAndOutTasks
    ⟨⟨[.readNet ⟨.identifier "len", "x"⟩], ⟨1⟩⟩, ⟨[.readApp ⟨⟨1, 2⟩, "y"⟩], ⟨2⟩⟩⟩

/-- The in task has a `ReadNet`, yet the first `next_net_cmd_in` panics on
the `unwrap` of the missing length: the call neither returns `Ok` nor
`Err(())`. -/
theorem nextNetCmdIn_panics :
    (∀ id t, (unsetLengthProvider.getNextTasks id).offered .incoming = some t →
      ∃ ins ∈ t.ins, ins.yields .incoming = true) ∧
    Reachable CryptoLib.plain unsetLengthProvider { echoStart with spec := unsetLengthProvider } ∧
    Interpreter.nextNetCmdIn CryptoLib.plain 2 { echoStart with spec := unsetLengthProvider } =
      .error (.panic "called Option::unwrap() on a None value") := by
  refine ⟨fun id t h => ?_, .new rfl, rfl⟩
  simp only [unsetLengthProvider, TaskSet.offered, Option.some.injEq] at h
  subst h
  exact ⟨_, List.mem_singleton_self _, rfl⟩

end Proteus
