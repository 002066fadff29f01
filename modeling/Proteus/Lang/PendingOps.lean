import Proteus.Lang.Run

/-!
Proteus.Lang.PendingOps — every pending op reaches the direction that made it.

An instruction that yields (`ReadNet`, `WriteApp` in; `ReadApp`,
`WriteNet` out) leaves an op in `next_netop_in` or `next_netop_out`; the
inner loop of `next_net_cmd_d` takes only `d`'s slot. An op left in the
other slot would wait there, and a later op would overwrite it.

**`reachable_pendingOps`**: for a provider whose init task does no I/O
and whose tasks never yield in the direction they are not offered to
(`IoSeparated`), both pending slots are empty in every reachable state,
and a call of `next_net_cmd_d` executes only `d`'s instructions, none of
them I/O except, when it returns an op, the last, whose op it returns.
`Delivered` pins that op down: the instruction is executed at the state
the call had reached, at one of its loop heads (`PassHead`) and through
the quiet instructions of that pass.

How the proof goes: `PendingInv` (empty pending slots, every installed
program offered to its slot) holds after `Interpreter::new` and is kept by
loading, by quiet passes, by the pass that returns, by a retirement, and
by a store.
-/

namespace Proteus

/-- The instruction an event says was executed, with its direction. -/
def Event.executed : Event → Option (Dir × Instruction)
  | .execute d ins => some (d, ins)
  | _ => none

/-- A provider whose init task does no I/O, and whose tasks yield only in the
direction they are offered to. -/
structure IoSeparated (spec : TaskProvider) : Prop where
  init : ∀ ins ∈ spec.getInitTask.ins, ∀ e, ins.yields e = false
  offered : ∀ id d t, (spec.getNextTasks id).offered d = some t → ∀ ins ∈ t.ins, ins.yields d.other = false

/-- Both pending slots empty, and each installed program offered to its slot. -/
structure PendingInv (spec : TaskProvider) (int : Interpreter) : Prop where
  spec_eq : int.spec = spec
  nextNetop_none : ∀ e, int.nextNetop e = none
  offered : ∀ e p, int.currentProg e = some p → ∃ id, (spec.getNextTasks id).offered e = some p.task

variable {lib : CryptoLib} {spec : TaskProvider}

namespace PendingInv

variable {int int' : Interpreter}

theorem of_control (hi : PendingInv spec int) (hc : int'.control = int.control)
    (hn : ∀ e, int'.nextNetop e = none) : PendingInv spec int' where
  spec_eq := by
    simp only [Interpreter.control, Interpreter.Control.mk.injEq] at hc
    rw [hc.1, hi.spec_eq]
  nextNetop_none := hn
  offered e p hp := hi.offered e p (Interpreter.currentProg_of_control hc e ▸ hp)

theorem setCurrentProg (hi : PendingInv spec int) {d : Dir} {p : Option Program}
    (hp : ∀ q, p = some q → ∃ id, (spec.getNextTasks id).offered d = some q.task) :
    PendingInv spec (int.setCurrentProg d p) where
  spec_eq := by simp [hi.spec_eq]
  nextNetop_none e := by simp [hi.nextNetop_none e]
  offered e q hq := by
    rw [Interpreter.currentProg_setCurrentProg] at hq
    split_ifs at hq with he
    · exact he ▸ hp q hq
    · exact hi.offered e q hq

theorem retire (hi : PendingInv spec int) (d : Dir) (id : TaskID) :
    PendingInv spec (int.retire d id) :=
  ⟨hi.spec_eq, hi.nextNetop_none, hi.offered⟩

/-- Loading installs only offered tasks and adds no execution. -/
theorem loadIfWanted (hi : PendingInv spec int) (h : int.loadIfWanted = .ok int') :
    PendingInv spec int' ∧ ∃ s, int'.history = int.history ++ s ∧ s.filterMap Event.executed = [] := by
  rcases loadIfWanted_eq_ok.mp h with ⟨-, hl⟩ | ⟨-, rfl⟩
  · obtain ⟨hslot, heq⟩ := loadTasks_spec hl
    refine ⟨⟨by rw [heq]; exact hi.spec_eq, fun e => ?_, fun e p hp => ?_⟩,
      [.getNextTasks int.lastTaskId], by rw [heq], rfl⟩
    · have := hi.nextNetop_none e
      rw [heq]
      cases e <;> exact this
    have hs := hslot e
    unfold TaskSet.loadSlot at hs
    split at hs
    · rename_i t ht
      rcases setTask_eq_ok.mp hs with ⟨-, hnew⟩ | ⟨q, hq, -, hq'⟩
      · rw [hp] at hnew
        cases hnew
        exact ⟨_, hi.spec_eq ▸ ht⟩
      · rw [hp] at hq'
        cases hq'
        exact hi.offered e _ hq
    · exact hi.offered e p ((Except.ok.inj hs).trans hp)
  · exact ⟨hi, [], by simp, rfl⟩

end PendingInv

/-! ## The inner loop -/

variable {d : Dir} {p q q' : Program} {int c c' : Interpreter} {inss : List Instruction}

/-- A quiet run of a program offered to `d` keeps the invariant and does no I/O. -/
theorem QuietRun.pending (hs : IoSeparated spec) (h : QuietRun lib d p int inss q c)
    (hi : PendingInv spec int) (hp : ∃ id, (spec.getNextTasks id).offered d = some p.task) :
    PendingInv spec c ∧ ∀ ins ∈ inss, ∀ e, ins.yields e = false := by
  obtain ⟨id, hid⟩ := hp
  have hall : ∀ ins ∈ inss, ∀ e, ins.yields e = false := by
    intro ins hin e
    rcases Dir.eq_or_eq_other d e with rfl | rfl
    · exact h.quiet ins hin
    · exact hs.offered id _ _ hid ins (h.runs.subset ins hin)
  refine ⟨hi.of_control h.control fun e => ?_, hall⟩
  rw [h.nextNetop_eq fun ins hin => hall ins hin e]
  exact hi.nextNetop_none e

/-- The pass that returns: its instruction yields in `d`, and once its op is
taken both pending slots are empty again. -/
theorem PendingInv.publish (hs : IoSeparated spec) (hi : PendingInv spec c)
    (hp : ∃ id, (spec.getNextTasks id).offered d = some q.task) {ins : Instruction} {op : NetOp d}
    (hget : q.task.ins[q.nextInsIndex]? = some ins) (hx : q.executeNextInstruction lib c = .ok (q', c'))
    (hop : c'.nextNetop d = some op) :
    PendingInv spec ((c'.record (.execute d ins)).clearNextNetop d) ∧ ins.yields d = true := by
  obtain ⟨id, hid⟩ := hp
  obtain ⟨_, hq⟩ := Program.executeNextInstruction_ok lib hget hx
  have hother := Program.executeInstruction_nextNetop lib
    (hs.offered id d _ hid ins (List.getElem?_mem hget)) hq
  refine ⟨hi.of_control (by simp [(Program.executeNextInstruction_control lib hx).1]) fun e => ?_, ?_⟩
  · rcases Dir.eq_or_eq_other d e with rfl | rfl
    · simp
    · simp [hother, hi.nextNetop_none]
  · cases hy : ins.yields d
    · simp [Program.executeInstruction_nextNetop lib hy hq, hi.nextNetop_none] at hop
    · rfl

/-! ## Calls -/

/-- The loop heads a call of `next_net_cmd_d` from `int` passes: the state
after the head of its first pass, and, each time a pass runs its program out
and retires it, the state after the head of the next pass. -/
inductive PassHead (lib : CryptoLib) (d : Dir) : Interpreter → Interpreter → Prop
  | first {int int₁ : Interpreter} : int.loadIfWanted = .ok int₁ → PassHead lib d int int₁
  | retire {int int₁ int₂ int₃ : Interpreter} {p p' : Program} :
      int.loadIfWanted = .ok int₁ → int₁.currentProg d = some p →
      LoopRun lib d p (int₁.setCurrentProg d none) (.exhausted p' int₂) →
      PassHead lib d (int₂.retire d p'.task.id) int₃ → PassHead lib d int int₃

/-- What a call of direction `d` from `int` that returned `r` and left `int'`
executed, read off the events `seg` it added: instructions of `d` that do no
I/O, and, when it returned an op, then the one instruction `ins` that
published that op. The op is the one `ins` leaves pending when executed at
`q` in `c`, and `q`, `c` are where the call stood: at a loop head `int₁` of
the call, its program `p` ran the last quiet instructions `inss` of the call
and became `q` in `c`. -/
def Delivered (lib : CryptoLib) (d : Dir) (int : Interpreter) (r : Except Unit (NetOp d))
    (seg : List Event) (int' : Interpreter) : Prop :=
  ∃ pre : List Instruction, (∀ i ∈ pre, ∀ e, i.yields e = false) ∧
    match r with
    | .error _ => seg.filterMap Event.executed = pre.map (Prod.mk d)
    | .ok op => ∃ (ins : Instruction) (int₁ : Interpreter) (p : Program) (inss : List Instruction)
        (q : Program) (c : Interpreter) (q' : Program) (c' : Interpreter),
        seg.filterMap Event.executed = (pre ++ [ins]).map (Prod.mk d) ∧ ins.yields d = true ∧
        PassHead lib d int int₁ ∧ int₁.currentProg d = some p ∧
        QuietRun lib d p (int₁.setCurrentProg d none) inss q c ∧ inss <:+ pre ∧
        q.task.ins[q.nextInsIndex]? = some ins ∧ q.executeNextInstruction lib c = .ok (q', c') ∧
        c'.nextNetop d = some op ∧ int'.currentProg d = some q'

/-- A pass that ran its program out and retired it, in front of what the
rest of the call delivered. -/
theorem Delivered.retire {r : Except Unit (NetOp d)} {seg s : List Event} {int₁ int₂ int' : Interpreter}
    {p' : Program} (h : Delivered lib d (int₂.retire d p'.task.id) r seg int')
    (hl : int.loadIfWanted = .ok int₁) (hp : int₁.currentProg d = some p)
    (hrun : LoopRun lib d p (int₁.setCurrentProg d none) (.exhausted p' int₂))
    (hq : ∀ i ∈ inss, ∀ e, i.yields e = false)
    (hs : s.filterMap Event.executed = inss.map (Prod.mk d)) : Delivered lib d int r (s ++ seg) int' := by
  obtain ⟨pre, hpre, hr⟩ := h
  refine ⟨inss ++ pre, fun i hi => (List.mem_append.mp hi).elim (hq i) (hpre i), ?_⟩
  cases r with
  | error => simp [List.filterMap_append, hs, hr]
  | ok op =>
    obtain ⟨ins, int₃, p₃, inss₃, q, c, q', c', he, hy, hhead, hp₃, hq₃, hsuf, hlast⟩ := hr
    exact ⟨ins, int₃, p₃, inss₃, q, c, q', c', by simp [List.filterMap_append, hs, he], hy,
      .retire hl hp hrun hhead, hp₃, hq₃, hsuf.trans (List.suffix_append _ _), hlast⟩

theorem executed_map_execute (d : Dir) (inss : List Instruction) :
    (inss.map (Event.execute d)).filterMap Event.executed = inss.map (Prod.mk d) := by
  rw [List.filterMap_map, ← List.filterMap_eq_map]
  rfl

/-- A call keeps the invariant, and delivers what its last pass published. -/
theorem CallRun.pending (hs : IoSeparated spec) {r : Except Unit (NetOp d)} {int' : Interpreter}
    (h : CallRun lib d int r int') (hi : PendingInv spec int) :
    PendingInv spec int' ∧ ∃ seg, int'.history = int.history ++ seg ∧ Delivered lib d int r seg int' := by
  induction h with
  | blocked hl _ =>
    obtain ⟨hi₁, s, hh, hs⟩ := hi.loadIfWanted hl
    exact ⟨hi₁, s, hh, [], by simp, hs⟩
  | @netop int int₁ int₂ p p' op hl hp hrun =>
    obtain ⟨hi₁, s, hh, hs₀⟩ := hi.loadIfWanted hl
    have hoff := hi₁.offered d p hp
    obtain ⟨inss, q, c, ins, c', hq, hget, hx, hop, rfl⟩ := hrun.netop_inv
    · obtain ⟨hic, hquiet⟩ := hq.pending hs (hi₁.setCurrentProg (by simp)) hoff
      have htask := hq.runs.task
      obtain ⟨hin, hy⟩ := hic.publish hs (htask ▸ hoff) hget hx hop
      refine ⟨hin.setCurrentProg fun q hq' => ?_, s ++ inss.map (.execute d) ++ [.execute d ins],
        ?_, inss, hquiet, ins, int₁, p, inss, q, c, p', c', ?_, hy, .first hl, hp, hq, List.suffix_refl _,
        hget, hx, hop, by simp⟩
      · cases hq'
        rw [(Program.executeNextInstruction_program lib hx).1, htask]
        exact hoff
      · simp [hq.history, hh, (Program.executeNextInstruction_control lib hx).2]
      · rw [List.filterMap_append, List.filterMap_append, hs₀, executed_map_execute]
        simp [Event.executed]
  | @retire int int₁ int₂ int₃ p p' r hl hp hrun _ ih =>
    obtain ⟨hi₁, s, hh, hs₀⟩ := hi.loadIfWanted hl
    obtain ⟨inss, hq, -⟩ := hrun.exhausted_inv
    · obtain ⟨hic, hquiet⟩ := hq.pending hs (hi₁.setCurrentProg (by simp)) (hi₁.offered d p hp)
      obtain ⟨hi', seg, hseg, hdel⟩ := ih (hic.retire d _)
      refine ⟨hi', s ++ inss.map (.execute d) ++ [.retire d p'.task.id] ++ seg, ?_,
        hdel.retire hl hp hrun hquiet ?_⟩
      · simp [hseg, Interpreter.retire, hq.history, hh]
      · rw [List.filterMap_append, List.filterMap_append, hs₀, executed_map_execute]
        simp [Event.executed]

/-! ## Reachable states -/

theorem PendingInv.store {int : Interpreter} (hi : PendingInv spec int) (d : Dir) (addr : Identifier)
    (bytes : Bytes) : PendingInv spec (int.store d addr bytes) where
  spec_eq := by simp [hi.spec_eq]
  nextNetop_none e := by simp [hi.nextNetop_none e]
  offered e p hp := by
    rw [Interpreter.currentProg_store] at hp
    split_ifs at hp with he
    · subst he
      obtain ⟨q, hq, rfl⟩ := Option.map_eq_some'.mp hp
      exact hi.offered e q hq
    · exact hi.offered e p hp

theorem reachable_pendingInv (hs : IoSeparated spec) {int : Interpreter} (hr : Reachable lib spec int) :
    PendingInv spec int := by
  induction hr with
  | new h =>
    obtain ⟨hspec, hslots, -, -, -, hn⟩ := Interpreter.new_spec h
    exact ⟨hspec, fun e => hn e fun ins hin => hs.init ins hin e, fun e p hp => by simp [hslots] at hp⟩
  | call _ hc ih =>
    rcases call_cases hc with ⟨d, r, -, hrun⟩ | ⟨d, addr, bytes, -, rfl⟩
    · exact (hrun.pending hs ih).1
    · exact ih.store d addr bytes

/-- **Pending ops are delivered.** For a provider whose init task does no
I/O and whose tasks yield only in the direction they are offered to, both
pending slots are empty in every reachable state; and every call of
`next_net_cmd_d` from there executes instructions of `d` only, none of them
I/O except, when it returns an op, the last one: the op returned is the one
that instruction left pending, executed where the call's last pass had
brought its program. -/
theorem reachable_pendingOps (hs : IoSeparated spec) {int : Interpreter}
    (hr : Reachable lib spec int) :
    (∀ e, int.nextNetop e = none) ∧
      ∀ d fuel r int', int.nextNetCmd lib d fuel = .ok (r, int') →
        ∃ seg, int'.history = int.history ++ seg ∧ Delivered lib d int r seg int' := by
  have hi := reachable_pendingInv hs hr
  exact ⟨hi.nextNetop_none, fun d fuel r int' h =>
    ((nextNetCmd_callRun lib _ _ _ _ h).pending hs hi).2⟩

theorem echoProvider_ioSeparated : IoSeparated echoProvider ∧
    Reachable CryptoLib.plain echoProvider echoStart ∧ ∀ e, echoStart.nextNetop e = none := by
  have hs : IoSeparated echoProvider :=
    ⟨by simp [echoProvider], fun id d t h => by
      cases d <;> simp only [echoProvider, TaskSet.offered, Option.some.injEq] at h <;> subst h <;>
        simp [Instruction.yields, Dir.other]⟩
  exact ⟨hs, echoStart_reachable, (reachable_pendingOps hs echoStart_reachable).1⟩

/-! ## When the init task does I/O

`IoSeparated` asks the init task to do no I/O, and that is needed: the
loop of `Interpreter::new` runs the init task with nobody to take its ops,
so an op it publishes stays in `next_netop_d` (`new_nextNetop_isSome`),
and the first call of `next_net_cmd_d` returns it as soon as its own
program has run one quiet instruction (`nextNetCmd_returnsPending`), in
place of whatever that program would publish. -/

/-- The loop head leaves the pending ops alone. -/
theorem loadIfWanted_nextNetop {int l : Interpreter} (h : int.loadIfWanted = .ok l) (d : Dir) :
    l.nextNetop d = int.nextNetop d := by
  rcases loadIfWanted_eq_ok.mp h with ⟨-, hl⟩ | ⟨-, rfl⟩
  · rw [(loadTasks_spec hl).2]
    cases d <;> rfl
  · rfl

/-- Run to the end of its task, the init loop leaves an op of `d` pending
when one was pending or it runs an instruction that yields in `d`. -/
theorem runToEnd_nextNetop_isSome {d : Dir} :
    ∀ (k : Nat) (p p' : Program) (int int' : Interpreter),
      Interpreter.runToEnd lib k p int = .ok (p', int') → p.task.ins.length - p.nextInsIndex ≤ k →
      ((int.nextNetop d).isSome ∨ ∃ ins ∈ p.task.ins.drop p.nextInsIndex, ins.yields d = true) →
      (int'.nextNetop d).isSome
  | 0, p, p', int, int', h, hk, hy => by
    cases h
    rcases hy with hy | ⟨ins, hins, -⟩
    · exact hy
    · simp [List.drop_eq_nil_of_le (show p.task.ins.length ≤ p.nextInsIndex by omega)] at hins
  | k + 1, p, p', int, int', h, hk, hy => by
    unfold Interpreter.runToEnd at h
    split at h
    · rename_i hnext
      have hlt : p.nextInsIndex < p.task.ins.length := by simpa [Program.hasNextInstruction] using hnext
      split at h
      · rename_i q c hx
        have hget : p.task.ins[p.nextInsIndex]? = some p.task.ins[p.nextInsIndex] :=
          List.getElem?_eq_getElem hlt
        have hq := Program.executeNextInstruction_program lib hx
        obtain ⟨_, hq'⟩ := Program.executeNextInstruction_ok lib hget hx
        refine runToEnd_nextNetop_isSome k q p' c int' h (by rw [hq.1, hq.2]; omega) ?_
        rw [hq.1, hq.2]
        by_cases hyi : p.task.ins[p.nextInsIndex].yields d = true
        · exact .inl (Program.executeInstruction_yields lib hyi hq')
        · rw [Program.executeInstruction_nextNetop lib (by simpa using hyi) hq']
          rcases hy with hy | ⟨j, hj, hjy⟩
          · exact .inl hy
          · rw [List.drop_eq_getElem_cons hlt] at hj
            rcases List.mem_cons.mp hj with rfl | hj
            · exact absurd hjy hyi
            · exact .inr ⟨j, hj, hjy⟩
      · cases h
    · rename_i hnext
      cases h
      rcases hy with hy | ⟨ins, hins, -⟩
      · exact hy
      · have : p.task.ins.length ≤ p.nextInsIndex := by simpa [Program.hasNextInstruction] using hnext
        simp [List.drop_eq_nil_of_le this] at hins

/-- **`Interpreter::new` leaves the init task's ops pending.** It leaves an
op of `d` pending exactly when its init task has an instruction that
yields in `d`. -/
theorem new_nextNetop_isSome {int : Interpreter} (h : Interpreter.new lib spec = .ok int) (d : Dir) :
    (int.nextNetop d).isSome ↔ ∃ ins ∈ spec.getInitTask.ins, ins.yields d = true := by
  constructor
  · intro hs
    by_contra hno
    have := (Interpreter.new_spec h).2.2.2.2.2 d fun ins hins => by
      simpa using fun hy => hno ⟨ins, hins, hy⟩
    simp [this] at hs
  · rintro ⟨ins, hins, hy⟩
    simp only [Interpreter.new, Except.bind_eq_ok, Except.pure_eq_ok] at h
    obtain ⟨⟨p', int'⟩, hr, rfl⟩ := h
    have := runToEnd_nextNetop_isSome _ _ _ _ _ hr (by simp [Program.new])
      (.inr ⟨ins, by simpa [Program.new] using hins, hy⟩)
    cases d <;> exact this

/-- **A pending op is returned in place of the program's own.** When an op
of `d` is pending and the program the loop head gives `d` starts with an
instruction that does not yield in `d` and runs, the call returns the
pending op, with its program one instruction further. -/
theorem nextNetCmd_returnsPending {d : Dir} {int l : Interpreter} {op₀ : NetOp d}
    (hop : int.nextNetop d = some op₀) (hl : int.loadIfWanted = .ok l) {p : Program}
    (hp : l.currentProg d = some p) {ins : Instruction} (hins : p.task.ins[p.nextInsIndex]? = some ins)
    (hy : ins.yields d = false) (hx : ∃ r, p.executeNextInstruction lib (l.setCurrentProg d none) = .ok r)
    (fuel : Nat) :
    ∃ q int', int.nextNetCmd lib d (fuel + 1) = .ok (.ok op₀, int') ∧ int'.currentProg d = some q ∧
      q.task = p.task ∧ q.nextInsIndex = p.nextInsIndex + 1 := by
  obtain ⟨⟨q, int₁⟩, hx⟩ := hx
  have hn : int₁.nextNetop d = some op₀ := by
    obtain ⟨_, hq'⟩ := Program.executeNextInstruction_ok lib hins hx
    rw [Program.executeInstruction_nextNetop lib hy hq', Interpreter.nextNetop_setCurrentProg,
      loadIfWanted_nextNetop hl, hop]
  obtain ⟨k, hk⟩ : ∃ k, p.task.ins.length - p.nextInsIndex = k + 1 :=
    ⟨_, (Nat.succ_pred_eq_of_pos (Nat.sub_pos_of_lt (List.getElem?_eq_some_iff.mp hins).1)).symm⟩
  refine ⟨q, ((int₁.record (.execute d ins)).clearNextNetop d).setCurrentProg d (some q), ?_, by simp,
    Program.executeNextInstruction_program lib hx⟩
  simp only [Interpreter.nextNetCmd, hl, hp, hk, Interpreter.runUntilNetop, hins, hx,
    Interpreter.record_nextNetop, hn]

/-- A provider whose init task reads from the app, and whose out task
installs a key before reading from the app itself. -/
def leakyProvider : TaskProvider where
  getInitTask := ⟨[.readApp ⟨⟨5, 6⟩, "z"⟩], ⟨0⟩⟩
  getNextTasks _ := .outTask ⟨[.initFixedSharedKey ⟨"pw", .client⟩, .readApp ⟨⟨1, 2⟩, "y"⟩], ⟨1⟩⟩

/-- What `Interpreter::new(leakyProvider)` returns. -/
def leakyStart : Interpreter :=
  match Interpreter.new CryptoLib.plain leakyProvider with
  | .ok int => int
  | .error _ => echoStart

theorem leakyStart_pending :
    Interpreter.new CryptoLib.plain leakyProvider = .ok leakyStart ∧
    ((leakyStart.nextNetop .outgoing).isSome ↔
      ∃ ins ∈ leakyProvider.getInitTask.ins, ins.yields .outgoing = true) :=
  ⟨rfl, @new_nextNetop_isSome CryptoLib.plain leakyProvider leakyStart rfl .outgoing⟩

/-- Its init task's `ReadApp` is left pending, and the first
`next_net_cmd_out` returns it (5..6 into `z`) in place of its own program's
(1..2 into `y`), one instruction into that program. -/
example : leakyStart.nextNetop .outgoing = some (.recvApp ⟨⟨5, 6⟩, "z"⟩) ∧
    ∃ q int', leakyStart.nextNetCmd CryptoLib.plain .outgoing 1 = .ok (.ok (.recvApp ⟨⟨5, 6⟩, "z"⟩), int') ∧
      int'.currentProg .outgoing = some q ∧ q.nextInsIndex = 1 :=
  ⟨rfl, _, _, rfl, rfl, rfl⟩

end Proteus
