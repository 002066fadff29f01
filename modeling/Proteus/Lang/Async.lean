import Proteus.Lang.Run

/-!
Proteus.Lang.Async — `SharedAsyncInterpreter`, and when a pump that is
told `Pending` can get anywhere.

`SharedAsyncInterpreter::next_net_cmd_d` (`interpreter.rs` 413–445) is a
`poll_fn` future. A poll that gets the lock calls `next_net_cmd_d` and is
`Ready` with the op it returns, or `Pending` on its `Err(())`; either way
the interpreter keeps what the call did (`pollNextNetCmd`). A poll whose
`try_lock` fails is `Pending` and touches nothing, so the steps of the
model are the polls that got the lock. `store_d` is `Ready` as soon as it
has the lock, and its call is `Interpreter.store`.

Direction `d` is `Blocked` when its slot is empty and `wants_tasks` is
clear: its call then returns `Err(())` and changes nothing.

* **`blocked_untilRetire`** — from a blocked state, any calls and stores
  of either direction, in any order and with any fuel, that retire no
  task leave `d` blocked, and every poll of `d`'s future then answers
  `Pending` with the state unchanged. Its own re-polls and stores (whose
  bytes are dropped) change nothing, and a call of the other direction
  that publishes an op or blocks leaves the slot empty and `wants_tasks`
  clear: only a retirement, which sets `wants_tasks`, can give `d` a
  program again.
-/

namespace Proteus

/-- `std::task::Poll`. -/
inductive Poll (α : Type)
  | ready (a : α)
  | pending

namespace Interpreter

variable (lib : CryptoLib)

/-- One poll of `SharedAsyncInterpreter::next_net_cmd_d` that got the lock:
`Ready` with the op `next_net_cmd_d` returns, `Pending` on its `Err(())`. -/
def pollNextNetCmd (d : Dir) (fuel : Nat) (int : Interpreter) :
    Except Fault (Poll (NetOp d) × Interpreter) :=
  (fun r => (match r.1 with
    | .ok op => .ready op
    | .error () => .pending, r.2)) <$> int.nextNetCmd lib d fuel

end Interpreter

/-- Direction `d` has no program and no load is due. -/
def Blocked (d : Dir) (int : Interpreter) : Prop :=
  int.currentProg d = none ∧ int.wantsTasks = false

variable {lib : CryptoLib}

/-! ## 1. One call -/

/-- A blocked call returns `Err(())` and changes nothing. -/
theorem Blocked.nextNetCmd {d : Dir} {int : Interpreter} (hb : Blocked d int) (fuel : Nat) :
    int.nextNetCmd lib d (fuel + 1) = .ok (.error (), int) := by
  simp [Interpreter.nextNetCmd, Interpreter.loadIfWanted, hb.1, hb.2]

/-- A call's history extends the one it started from. -/
theorem CallRun.history_extends {d : Dir} {int int' : Interpreter} {r : Except Unit (NetOp d)}
    (h : CallRun lib d int r int') : int.history <+: int'.history := by
  induction h with
  | blocked hl _ => exact ⟨_, ((loadIfWanted_spec hl).2.1).symm⟩
  | @netop int int₁ int₂ p p' op hl _ hrun =>
    obtain ⟨inss, -, hh, -⟩ := hrun.runs
    simp only [LoopExit.state, Interpreter.setCurrentProg_history] at hh
    exact ⟨(if int.wantsTasks then [.getNextTasks int.lastTaskId] else []) ++ inss.map (.execute d), by
      rw [Interpreter.setCurrentProg_history, hh, (loadIfWanted_spec hl).2.1, List.append_assoc]⟩
  | @retire int int₁ int₂ int₃ p p' r hl _ hrun _ ih =>
    obtain ⟨inss, -, hh, -⟩ := hrun.runs
    simp only [LoopExit.state, Interpreter.setCurrentProg_history] at hh
    refine List.IsPrefix.trans ⟨(if int.wantsTasks then [.getNextTasks int.lastTaskId] else []) ++
      inss.map (.execute d) ++ [.retire d p'.task.id], ?_⟩ ih
    simp [Interpreter.retire, hh, (loadIfWanted_spec hl).2.1]

/-- A call of either direction from a blocked state that retires nothing
leaves `d` blocked. -/
theorem Blocked.callRun {d e : Dir} {int int' : Interpreter} {r : Except Unit (NetOp e)}
    (hb : Blocked d int) (h : CallRun lib e int r int') {seg : List Event}
    (hseg : int'.history = int.history ++ seg) (hno : ∀ e id, Event.retire e id ∉ seg) : Blocked d int' := by
  have hload : ∀ {int₁}, int.loadIfWanted = .ok int₁ → int₁ = int := fun hl => by
    rcases loadIfWanted_eq_ok.mp hl with ⟨hw, -⟩ | ⟨-, rfl⟩
    · simp [hb.2] at hw
    · rfl
  cases h with
  | blocked hl _ => rwa [hload hl]
  | netop hl hp hrun =>
    rw [hload hl] at hp
    have hed : e ≠ d := fun hed => by simp [hed, hb.1] at hp
    obtain ⟨-, -, -, hc⟩ := hrun.runs
    simp only [LoopExit.state] at hc
    refine ⟨?_, (CallRun.netop hl (hload hl ▸ hp) hrun).wantsTasks⟩
    rw [Interpreter.currentProg_setCurrentProg, if_neg (Ne.symm hed),
      Interpreter.currentProg_of_control hc, Interpreter.currentProg_setCurrentProg, if_neg (Ne.symm hed),
      hload hl, hb.1]
  | @retire _ int₁ int₂ _ _ p' _ hl _ hrun hrest =>
    obtain ⟨inss, -, hh, -⟩ := hrun.runs
    obtain ⟨t, ht⟩ := hrest.history_extends
    simp only [LoopExit.state, LoopExit.program] at hh
    rw [hload hl] at hh
    have : seg = inss.map (.execute e) ++ .retire e p'.task.id :: t := by
      rw [← List.append_cancel_left_eq int.history, ← hseg, ← ht]
      simp [Interpreter.retire, hh]
    exact absurd (this ▸ List.mem_append_right _ (List.mem_cons_self _ _)) (hno e p'.task.id)

/-- A successful call extends the history. -/
theorem call_history_extends {fuel : Nat} {c : Call} {int int' : Interpreter}
    (h : int.call lib fuel c = .ok int') : int.history <+: int'.history := by
  rcases call_cases h with ⟨d, r, -, hrun⟩ | ⟨d, addr, bytes, -, rfl⟩
  · exact hrun.history_extends
  · exact (Interpreter.store_history int d addr bytes).symm ▸ List.prefix_refl _

/-- One call or store from a blocked state that retires nothing. -/
theorem Blocked.call {d : Dir} {int int' : Interpreter} {fuel : Nat} {c : Call} (hb : Blocked d int)
    (h : int.call lib fuel c = .ok int') {seg : List Event} (hseg : int'.history = int.history ++ seg)
    (hno : ∀ e id, Event.retire e id ∉ seg) : Blocked d int' := by
  rcases call_cases h with ⟨e, r, -, hrun⟩ | ⟨e, addr, bytes, -, rfl⟩
  · exact hb.callRun hrun hseg hno
  · refine ⟨?_, by rw [Interpreter.store_wantsTasks, hb.2]⟩
    rw [Interpreter.currentProg_store]
    split_ifs with hde
    · rw [← hde, hb.1]
      rfl
    · exact hb.1

/-! ## 2. Any run -/

/-- A run of calls extends the history. -/
theorem foldlM_call_history_extends : ∀ (calls : List (Nat × Call)) (int int' : Interpreter),
    calls.foldlM (fun i c => i.call lib c.1 c.2) int = .ok int' → int.history <+: int'.history
  | [], _, _, h => by
    cases h
    exact List.prefix_refl _
  | c :: calls, int, int', h => by
    simp only [List.foldlM_cons, Except.bind_eq_ok] at h
    obtain ⟨int₁, h₁, h₂⟩ := h
    exact (call_history_extends h₁).trans (foldlM_call_history_extends calls int₁ int' h₂)

/-- **A blocked direction waits for a retirement.** From a state where
direction `d` is blocked, any sequence of calls and stores of either
direction, with any fuel, whose events retire no task leaves `d` blocked,
and every poll of `d`'s future then answers `Pending` and changes nothing. -/
theorem blocked_untilRetire {d : Dir} {int int' : Interpreter} (hb : Blocked d int)
    {calls : List (Nat × Call)} (hrun : calls.foldlM (fun i c => i.call lib c.1 c.2) int = .ok int')
    {seg : List Event} (hseg : int'.history = int.history ++ seg) (hno : ∀ e id, Event.retire e id ∉ seg) :
    Blocked d int' ∧ ∀ fuel, int'.pollNextNetCmd lib d (fuel + 1) = .ok (.pending, int') := by
  suffices h : Blocked d int' from ⟨h, fun fuel => by simp [Interpreter.pollNextNetCmd, h.nextNetCmd fuel]⟩
  induction calls generalizing int seg with
  | nil =>
    cases hrun
    exact hb
  | cons c calls ih =>
    simp only [List.foldlM_cons, Except.bind_eq_ok] at hrun
    obtain ⟨int₁, h₁, h₂⟩ := hrun
    obtain ⟨s₁, hs₁⟩ := call_history_extends h₁
    obtain ⟨s₂, hs₂⟩ := foldlM_call_history_extends calls int₁ int' h₂
    obtain rfl : seg = s₁ ++ s₂ := by
      rw [← List.append_cancel_left_eq int.history, ← hseg, ← hs₂, ← hs₁, List.append_assoc]
    exact ih (hb.call h₁ hs₁.symm fun e id h => hno e id (List.mem_append_left _ h)) h₂ hs₂.symm
      fun e id h => hno e id (List.mem_append_right _ h)

/-- A provider that only ever offers an out task, reading one byte from the
app: the incoming direction never gets a program. -/
def outOnlyProvider : TaskProvider where
  getInitTask := ⟨[], ⟨0⟩⟩
  getNextTasks _ := .outTask ⟨[.readApp ⟨⟨1, 2⟩, "y"⟩], ⟨1⟩⟩

/-- The state the first `next_net_cmd_in` leaves for `outOnlyProvider`:
the out task is loaded, and the incoming direction is blocked. -/
def outOnlyBlocked : Interpreter :=
  match ({ echoStart with spec := outOnlyProvider } : Interpreter).call CryptoLib.plain 1
      (.nextNetCmd .incoming) with
  | .ok int => int
  | .error _ => echoStart

/-- From there, the outgoing pump takes its op and answers it, and the
incoming pump polls again and stores. -/
def outOnlyCalls : List (Nat × Call) :=
  [(1, .nextNetCmd .outgoing), (1, .store .outgoing "y" [7]), (2, .nextNetCmd .incoming),
    (1, .store .incoming "x" [8])]

/-- What those calls leave. -/
def outOnlyAfter : Interpreter :=
  match outOnlyCalls.foldlM (fun i c => i.call CryptoLib.plain c.1 c.2) outOnlyBlocked with
  | .ok int => int
  | .error _ => outOnlyBlocked

theorem outOnly_stillBlocked :
    Blocked .incoming outOnlyBlocked ∧
    outOnlyCalls.foldlM (fun i c => i.call CryptoLib.plain c.1 c.2) outOnlyBlocked = .ok outOnlyAfter ∧
    outOnlyAfter.history = outOnlyBlocked.history ++ [.execute .outgoing (.readApp ⟨⟨1, 2⟩, "y"⟩)] ∧
    (∀ e id, Event.retire e id ∉ [Event.execute .outgoing (.readApp ⟨⟨1, 2⟩, "y"⟩)]) ∧
    Blocked .incoming outOnlyAfter ∧
    ∀ fuel, outOnlyAfter.pollNextNetCmd CryptoLib.plain .incoming (fuel + 1) = .ok (.pending, outOnlyAfter) :=
  have hb : Blocked .incoming outOnlyBlocked := ⟨rfl, rfl⟩
  have hno : ∀ e id, Event.retire e id ∉ [Event.execute .outgoing (.readApp ⟨⟨1, 2⟩, "y"⟩)] := by simp
  ⟨hb, rfl, rfl, hno, @blocked_untilRetire CryptoLib.plain .incoming outOnlyBlocked outOnlyAfter hb
    outOnlyCalls rfl [.execute .outgoing (.readApp ⟨⟨1, 2⟩, "y"⟩)] rfl hno⟩

end Proteus
