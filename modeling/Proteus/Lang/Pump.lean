import Proteus.Lang.Interleaving
import Proteus.Lang.PendingOps

/-!
Proteus.Lang.Pump — the calls of a pump read forwards, for a provider that
hands out one split pair of tasks (`SplitPair`), the way the interpreter
tests drive it: a call, the store it asks for, the next call.

* `AtBoundary pair d int` — direction `d` is between two messages: its
  next program has not started, or has run its whole task.
* `Steady.nextNetCmd_netop`, `Steady.nextNetCmd_error` — a call whose next
  program, run from any state with no op of `d` pending and the cipher of
  the state called, publishes `op` (or fails): the call returns `op` (or
  fails alike), and the cipher it leaves is the one that run leaves.
* `Steady.nextNetCmd_boundary` — a call at a boundary: given one pass of
  the outer loop to retire a finished program, it starts a fresh one.
* `Reachable.store_netop`, `Reachable.store_error` — the store a pump owes,
  then the next call, from any reachable state.
* `Ready`, `results_of_solo` — a pump between two messages, and what
  `Harness.run_sameView` gives for it: a schedule hands a pump the results
  of its own turns run alone.
* `sentFrames`, `delivered` — the bytes a list of results sends to the
  network or hands to the app.
-/

namespace Proteus

/-! ## 1. Calls, read forwards -/

/-- Direction `d` is between two messages: the program it runs next has not
started, or has run its whole task. -/
def AtBoundary (pair : TaskPair) (d : Dir) (int : Interpreter) : Prop :=
  (int.nextProg pair d).nextInsIndex = 0 ∨ (int.nextProg pair d).nextInsIndex = (pair.task d).ins.length

/-- The loop head installs programs and clears `wants_tasks`; the cipher
stays. -/
theorem Interpreter.loadIfWanted_cipher {int l : Interpreter} (h : int.loadIfWanted = .ok l) :
    l.cipher = int.cipher := by
  rcases loadIfWanted_eq_ok.mp h with ⟨-, hl⟩ | ⟨-, rfl⟩
  · rw [(loadTasks_spec hl).2]
  · rfl

section Ops

variable (lib : CryptoLib)

/-- A `ReadNet` of a fixed range is an op at once: the inner loop of the in
direction returns it after that one instruction, with the program one
instruction on and the cipher as it was. -/
theorem runUntilNetop_readNet {q : Program} {r : Range} {addr : Identifier}
    (h : q.task.ins[q.nextInsIndex]? = some (.readNet ⟨.range r, addr⟩)) (c : Interpreter) (fuel : Nat) :
    ∃ c', Interpreter.runUntilNetop lib .incoming (fuel + 1) q c =
        .ok (.netop (.recvNet ⟨r, addr⟩) { q with nextInsIndex := q.nextInsIndex + 1 } c') ∧ c'.cipher = c.cipher := by
  simp [Interpreter.runUntilNetop, Program.executeNextInstruction, h, Program.executeInstruction,
    Program.readNetRange, Except.pure_def, Except.ok_bind, Interpreter.nextNetop, Interpreter.record]

/-- A `ReadApp` is an op at once. -/
theorem runUntilNetop_readApp {q : Program} {r : Range} {addr : Identifier}
    (h : q.task.ins[q.nextInsIndex]? = some (.readApp ⟨r, addr⟩)) (c : Interpreter) (fuel : Nat) :
    ∃ c', Interpreter.runUntilNetop lib .outgoing (fuel + 1) q c =
        .ok (.netop (.recvApp ⟨r, addr⟩) { q with nextInsIndex := q.nextInsIndex + 1 } c') ∧ c'.cipher = c.cipher := by
  simp [Interpreter.runUntilNetop, Program.executeNextInstruction, h, Program.executeInstruction,
    Except.pure_def, Except.ok_bind, Interpreter.nextNetop, Interpreter.record]

end Ops

namespace Steady

variable {lib : CryptoLib} {spec : TaskProvider} {pair : TaskPair} {int : Interpreter}

/-- The inner loop of a call starts from the loaded state with `d`'s slot
emptied: no op of `d` pending when `int` has none, and `int`'s cipher. -/
theorem load_quiet (hs : SplitPair spec pair) (h : Steady spec pair int) {d : Dir}
    (hn : int.nextNetop d = none) :
    ∃ l, int.loadIfWanted = .ok l ∧ Steady spec pair l ∧ l.wantsTasks = false ∧
      l.currentProg d = some (int.nextProg pair d) ∧ l.restrictTo d = int.restrictTo d ∧
      (l.setCurrentProg d none).nextNetop d = none ∧ (l.setCurrentProg d none).cipher = int.cipher := by
  obtain ⟨l, hl, hst, hw, hfull, hres⟩ := h.load hs
  refine ⟨l, hl, hst, hw, hfull d, hres d, ?_, by simp [Interpreter.loadIfWanted_cipher hl]⟩
  rw [Interpreter.nextNetop_setCurrentProg, ← Interpreter.restrictTo_nextNetop, hres d,
    Interpreter.restrictTo_nextNetop, hn]

/-- A call whose next program, run from any state with no op of `d` pending
and `int`'s cipher, publishes `op` and stops as a program and a cipher with
property `P`: the call returns `op` and puts that program back. -/
theorem nextNetCmd_netop (hs : SplitPair spec pair) (h : Steady spec pair int) {d : Dir}
    (hn : int.nextNetop d = none) {op : NetOp d} (P : Program → Option Cipher → Prop)
    (hrun : ∀ c : Interpreter, c.nextNetop d = none → c.cipher = int.cipher → ∃ q' c',
      Interpreter.runUntilNetop lib d
        ((int.nextProg pair d).task.ins.length - (int.nextProg pair d).nextInsIndex) (int.nextProg pair d) c =
        .ok (.netop op q' c') ∧ P q' c'.cipher) (fuel : Nat) :
    ∃ int' q', int.nextNetCmd lib d (fuel + 1) = .ok (.ok op, int') ∧ int'.currentProg d = some q' ∧
      P q' int'.cipher := by
  obtain ⟨l, hl, -, -, hfull, -, hq, hc⟩ := h.load_quiet hs hn
  obtain ⟨q', c', hc', hP⟩ := hrun _ hq hc
  exact ⟨c'.setCurrentProg d (some q'), q', by simp only [Interpreter.nextNetCmd, hl, hfull, hc'],
    by simp, by simpa using hP⟩

/-- A call whose next program, run from any state with no op of `d` pending
and `int`'s cipher, fails, fails alike. -/
theorem nextNetCmd_error (hs : SplitPair spec pair) (h : Steady spec pair int) {d : Dir}
    (hn : int.nextNetop d = none) {e : Fault}
    (hrun : ∀ c : Interpreter, c.nextNetop d = none → c.cipher = int.cipher → Interpreter.runUntilNetop lib d
      ((int.nextProg pair d).task.ins.length - (int.nextProg pair d).nextInsIndex) (int.nextProg pair d) c =
        .error e) (fuel : Nat) :
    int.nextNetCmd lib d (fuel + 1) = .error e := by
  obtain ⟨l, hl, -, -, hfull, -, hq, hc⟩ := h.load_quiet hs hn
  simp only [Interpreter.nextNetCmd, hl, hfull, hrun _ hq hc]

/-- A call whose next program has run its whole task retires it, and goes on,
one pass less, from a steady state with `d`'s slot empty, `d`'s part and the
cipher alone. -/
theorem nextNetCmd_finished (hs : SplitPair spec pair) (h : Steady spec pair int) {d : Dir}
    (hfin : (int.nextProg pair d).nextInsIndex = (pair.task d).ins.length) (fuel : Nat) :
    ∃ int₁, int.nextNetCmd lib d (fuel + 1) = int₁.nextNetCmd lib d fuel ∧ Steady spec pair int₁ ∧
      int₁.currentProg d = none ∧ int₁.restrictTo d = int.restrictTo d ∧ int₁.cipher = int.cipher := by
  obtain ⟨l, hl, hst, hw, hfull, hres⟩ := h.load hs
  have hk : (int.nextProg pair d).task.ins.length - (int.nextProg pair d).nextInsIndex = 0 := by
    rw [h.nextProg_task, hfin, Nat.sub_self]
  exact ⟨(l.setCurrentProg d none).retire d (int.nextProg pair d).task.id,
    by simp only [Interpreter.nextNetCmd, hl, hfull d, hk, Interpreter.runUntilNetop],
    (hst.exit hw rfl).2 _, by simp, by simp [hres], by simp [Interpreter.loadIfWanted_cipher hl]⟩

/-- A call at a boundary starts the next program of `d`: if every program of
`d`'s task at index `0`, run from any state with no op of `d` pending and
`int`'s cipher, publishes `op` and stops with property `P`, the call, given a
pass to retire a finished program, returns `op`. -/
theorem nextNetCmd_boundary (hs : SplitPair spec pair) (h : Steady spec pair int) {d : Dir}
    (hn : int.nextNetop d = none) (hb : AtBoundary pair d int) {op : NetOp d} (P : Program → Option Cipher → Prop)
    (hrun : ∀ q : Program, q.task = pair.task d → q.nextInsIndex = 0 → ∀ c : Interpreter,
      c.nextNetop d = none → c.cipher = int.cipher → ∃ q' c',
        Interpreter.runUntilNetop lib d (pair.task d).ins.length q c = .ok (.netop op q' c') ∧ P q' c'.cipher)
    (fuel : Nat) :
    ∃ int' q', int.nextNetCmd lib d (fuel + 2) = .ok (.ok op, int') ∧ int'.currentProg d = some q' ∧
      P q' int'.cipher := by
  have hstart : ∀ (int₀ : Interpreter) (f : Nat), Steady spec pair int₀ → int₀.nextNetop d = none →
      int₀.cipher = int.cipher → (int₀.nextProg pair d).nextInsIndex = 0 →
      ∃ int' q', int₀.nextNetCmd lib d (f + 1) = .ok (.ok op, int') ∧ int'.currentProg d = some q' ∧
        P q' int'.cipher := by
    intro int₀ f h₀ hn₀ hc₀ hi₀
    refine h₀.nextNetCmd_netop hs hn₀ P (fun c hc hcc => ?_) f
    rw [h₀.nextProg_task, hi₀, Nat.sub_zero]
    exact hrun _ (h₀.nextProg_task d) hi₀ c hc (hcc.trans hc₀)
  rcases hb with hi | hfin
  · exact hstart int (fuel + 1) h hn rfl hi
  · obtain ⟨int₁, hc, h₁, hnone, hres, hcip⟩ := h.nextNetCmd_finished hs hfin (fuel + 1)
    rw [hc]
    refine hstart int₁ fuel h₁ ?_ hcip (by simp [Interpreter.nextProg, hnone, Program.new])
    rw [← Interpreter.restrictTo_nextNetop, hres, Interpreter.restrictTo_nextNetop, hn]

end Steady

/-! ## 2. A store, then the next call -/

namespace Reachable

variable {lib : CryptoLib} {spec : TaskProvider} {pair : TaskPair} {int : Interpreter}

/-- The call after a pump's store into `d`'s program `q`: if `q` with the
bytes stored, run from any state with no op of `d` pending and `int`'s
cipher, publishes `op` and stops with property `P`, the call returns `op`. -/
theorem store_netop (hs : SplitPair spec pair) (hio : IoSeparated spec) (hr : Reachable lib spec int) {d : Dir}
    {q : Program} (hcur : int.currentProg d = some q) (addr : Identifier) (bytes : Bytes) {op : NetOp d}
    (P : Program → Option Cipher → Prop)
    (hrun : ∀ c : Interpreter, c.nextNetop d = none → c.cipher = int.cipher → ∃ q' c',
      Interpreter.runUntilNetop lib d (q.task.ins.length - q.nextInsIndex) (q.storeBytes addr bytes) c =
        .ok (.netop op q' c') ∧ P q' c'.cipher) (fuel : Nat) :
    ∃ int' q', (int.store d addr bytes).nextNetCmd lib d (fuel + 1) = .ok (.ok op, int') ∧
      int'.currentProg d = some q' ∧ P q' int'.cipher := by
  have hr' := hr.store d addr bytes
  refine (hr'.steady hs).nextNetCmd_netop hs ((reachable_pendingInv hio hr').nextNetop_none _) P
    (fun c hn hcc => ?_) fuel
  rw [Interpreter.nextProg_of_currentProg (show _ = some (q.storeBytes addr bytes) by simp [hcur])]
  exact hrun c hn (hcc.trans (by simp))

/-- The call after a store fails when `q`, with the bytes stored, fails. -/
theorem store_error (hs : SplitPair spec pair) (hio : IoSeparated spec) (hr : Reachable lib spec int) {d : Dir}
    {q : Program} (hcur : int.currentProg d = some q) (addr : Identifier) (bytes : Bytes) {e : Fault}
    (hrun : ∀ c : Interpreter, c.nextNetop d = none → c.cipher = int.cipher →
      Interpreter.runUntilNetop lib d (q.task.ins.length - q.nextInsIndex) (q.storeBytes addr bytes) c = .error e)
    (fuel : Nat) :
    (int.store d addr bytes).nextNetCmd lib d (fuel + 1) = .error e := by
  have hr' := hr.store d addr bytes
  refine (hr'.steady hs).nextNetCmd_error hs ((reachable_pendingInv hio hr').nextNetop_none _)
    (fun c hn hcc => ?_) fuel
  rw [Interpreter.nextProg_of_currentProg (show _ = some (q.storeBytes addr bytes) by simp [hcur])]
  exact hrun c hn (hcc.trans (by simp))

/-- The call after a store, at a `ReadNet` of a fixed range, returns that op,
with the program one instruction on and the cipher as it was. -/
theorem store_readNet (hs : SplitPair spec pair) (hio : IoSeparated spec) (hr : Reachable lib spec int)
    {q : Program} (hcur : int.currentProg .incoming = some q) (addr : Identifier) (bytes : Bytes) {r : Range}
    {addr' : Identifier} (hins : q.task.ins[q.nextInsIndex]? = some (.readNet ⟨.range r, addr'⟩)) (fuel : Nat) :
    ∃ int', (int.store .incoming addr bytes).nextNetCmd lib .incoming (fuel + 1) =
        .ok (.ok (.recvNet ⟨r, addr'⟩), int') ∧
      int'.currentProg .incoming = some { q.storeBytes addr bytes with nextInsIndex := q.nextInsIndex + 1 } ∧
      int'.cipher = int.cipher := by
  have hlt : q.nextInsIndex < q.task.ins.length :=
    Nat.lt_of_not_le fun hle => by rw [List.getElem?_eq_none hle] at hins; cases hins
  obtain ⟨int', q', hc, hcur', rfl, hcip⟩ := hr.store_netop hs hio hcur addr bytes
    (fun q' ci => q' = { q.storeBytes addr bytes with nextInsIndex := q.nextInsIndex + 1 } ∧ ci = int.cipher)
    (fun c _ hcc => by
      rw [show q.task.ins.length - q.nextInsIndex = (q.task.ins.length - q.nextInsIndex - 1) + 1 by omega]
      obtain ⟨c', hrun, hc'⟩ := runUntilNetop_readNet lib
        (show (q.storeBytes addr bytes).task.ins[(q.storeBytes addr bytes).nextInsIndex]? = _ from hins) c _
      exact ⟨_, c', hrun, rfl, hc'.trans hcc⟩) fuel
  exact ⟨int', hc, hcur', hcip⟩

end Reachable

/-! ## 3. Pumps -/

namespace Harness

variable (lib : CryptoLib)

theorem run_append (fuel : Nat) : ∀ (σ₁ σ₂ : List Dir) (h : Harness),
    h.run lib fuel (σ₁ ++ σ₂) = (h.run lib fuel σ₁).bind (run lib fuel σ₂)
  | [], _, _ => rfl
  | d :: σ₁, σ₂, h => by
    show (h.step lib fuel d).bind (run lib fuel (σ₁ ++ σ₂)) = _
    simp only [run, Option.bind_assoc, run_append fuel σ₁ σ₂]

end Harness

variable {lib : CryptoLib} {spec : TaskProvider} {pair : TaskPair} {int : Interpreter}

/-- The pump of `d` between two messages: a reachable interpreter with `d` at
a boundary, and a pump that owes no store. -/
structure Ready (lib : CryptoLib) (spec : TaskProvider) (pair : TaskPair) (d : Dir) (h : Harness) : Prop where
  reachable : Reachable lib spec h.int
  boundary : AtBoundary pair d h.int
  owed : (h.pump d).owed = none

theorem start_ready (hr : Reachable lib spec int) {d : Dir} (hb : AtBoundary pair d int)
    (blobsIn blobsOut : List Bytes) : Ready lib spec pair d (Harness.start int blobsIn blobsOut) :=
  ⟨hr, hb, by cases d <;> rfl⟩

/-- A schedule with `n` turns of `d` that runs leaves `d` with the view of its
`n` turns run alone, whatever the other pump does in between. -/
theorem view_of_solo (hs : SplitPair spec pair) (hr : Reachable lib spec int) (blobsIn blobsOut : List Bytes)
    {d : Dir} {n fuel : Nat} {h₀ : Harness}
    (hsolo : (Harness.start int blobsIn blobsOut).run lib fuel (List.replicate n d) = some h₀)
    {σ : List Dir} (hσ : σ.count d = n) {h : Harness}
    (hrun : (Harness.start int blobsIn blobsOut).run lib fuel σ = some h) :
    h.view pair d = h₀.view pair d := by
  have hi : (Harness.start int blobsIn blobsOut).Inv spec pair :=
    ⟨hr.steady hs, fun e he => by cases e <;> simp [Harness.start, Harness.pump] at he⟩
  obtain ⟨h', hrun', hv⟩ := Harness.run_sameView lib hs d σ hi hi rfl hrun
  rw [List.filter_eq, hσ, hsolo, Option.some.injEq] at hrun'
  subst hrun'
  exact hv

/-- So it hands `d` the results of those `n` turns run alone. -/
theorem results_of_solo (hs : SplitPair spec pair) (hr : Reachable lib spec int) (blobsIn blobsOut : List Bytes)
    {d : Dir} {n fuel : Nat} {h₀ : Harness}
    (hsolo : (Harness.start int blobsIn blobsOut).run lib fuel (List.replicate n d) = some h₀)
    {σ : List Dir} (hσ : σ.count d = n) {h : Harness}
    (hrun : (Harness.start int blobsIn blobsOut).run lib fuel σ = some h) :
    (h.pump d).results = (h₀.pump d).results :=
  congrArg (fun v => v.2.2.results) (view_of_solo hs hr blobsIn blobsOut hsolo hσ hrun)

/-! ## 4. What the pumps carry -/

/-- The frames a list of out-pump results sends. -/
def sentFrames (rs : List (Except Unit NetOpOut)) : List Bytes :=
  rs.filterMap fun
    | .ok (.sendNet args) => some args.bytes
    | _ => none

/-- The payloads a list of in-pump results hands to the app. -/
def delivered (rs : List (Except Unit NetOpIn)) : List Bytes :=
  rs.filterMap fun
    | .ok (.sendApp args) => some args.bytes
    | _ => none

theorem sentFrames_append (l₁ l₂ : List (Except Unit NetOpOut)) :
    sentFrames (l₁ ++ l₂) = sentFrames l₁ ++ sentFrames l₂ := List.filterMap_append _ _ _

theorem delivered_append (l₁ l₂ : List (Except Unit NetOpIn)) :
    delivered (l₁ ++ l₂) = delivered l₁ ++ delivered l₂ := List.filterMap_append _ _ _

end Proteus
