import Proteus.Lang.Run

/-!
Proteus.Lang.Queries — when the interpreter asks the provider for tasks.

`get_next_tasks` is called by `load_tasks` only, at the head of the outer
loop of `next_net_cmd_*`, when `wants_tasks` is set; `wants_tasks` is set
by `Interpreter::new` and by every retirement. The history records the
queries and the retirements.

**`reachable_queries`**: in every reachable state, the ids queried are the
init task's id followed by the ids of the retired programs, in order;
every retirement is followed at once by the query with its id; and
`wants_tasks` is set only before the first query.

How the proof goes: inside a call, a retirement and the query that answers
it are one pass of the loop apart. So the invariant is stated of the
history with the pending query appended (`withPendingQuery`): loading
does not change that list, a quiet or returning run adds executions, and
a retirement adds the retirement and its answer.
-/

namespace Proteus

namespace Event

/-- The id a `get_next_tasks` event queried. -/
def queryId : Event → Option TaskID
  | .getNextTasks id => some id
  | _ => none

/-- The id of a retired program. -/
def retiredId : Event → Option TaskID
  | .retire _ id => some id
  | _ => none

end Event

/-- Every retirement in `h` is followed at once by the query for its id. -/
def Answered (h : List Event) : Prop :=
  ∀ l₁ d id l₂, h = l₁ ++ .retire d id :: l₂ → l₂.head? = some (.getNextTasks id)

theorem Answered.nil : Answered [] := by
  intro l₁ _ _ _ h
  simp at h

theorem Answered.append {l s : List Event} (hl : Answered l) (hs : Answered s) :
    Answered (l ++ s) := by
  intro l₁ d id l₂ h
  obtain ⟨a, -, rfl⟩ | ⟨c, rfl, hc⟩ := List.append_eq_append_iff.mp h
  · exact hs a d id l₂ rfl
  · cases c with
    | nil => exact hs [] d id l₂ hc.symm
    | cons x c =>
      obtain ⟨rfl, rfl⟩ := List.cons_eq_cons.mp hc
      have := hl l₁ d id c rfl
      cases c with
      | nil => cases this
      | cons y c => exact this

/-- The queries of `h` are `initId` and then the retired ids, and each
retirement is answered at once. -/
def QueriesRetired (initId : TaskID) (h : List Event) : Prop :=
  h.filterMap Event.queryId = initId :: h.filterMap Event.retiredId ∧ Answered h

namespace QueriesRetired

variable {initId : TaskID} {l : List Event}

theorem append_executes (hl : QueriesRetired initId l) (d : Dir) (inss : List Instruction) :
    QueriesRetired initId (l ++ inss.map (.execute d)) := by
  refine ⟨by simp [List.filterMap_map, Function.comp_def, Event.queryId, Event.retiredId, hl.1],
    hl.2.append ?_⟩
  intro l₁ e id l₂ h
  have : Event.retire e id ∈ inss.map (.execute d) := by rw [h]; simp
  simp at this

theorem append_retire (hl : QueriesRetired initId l) (d : Dir) (id : TaskID) :
    QueriesRetired initId (l ++ [.retire d id, .getNextTasks id]) := by
  refine ⟨by simp [Event.queryId, Event.retiredId, hl.1], hl.2.append ?_⟩
  intro l₁ d' id' l₂ h
  match l₁, h with
  | [], h =>
    obtain ⟨⟨rfl, rfl⟩, rfl⟩ := by simpa using h
    rfl
  | [_], h => simp at h
  | _ :: _ :: l₁, h => simp at h

end QueriesRetired

namespace Interpreter

/-- The history, with the query the next loop head makes when `wants_tasks`
is set. -/
def withPendingQuery (int : Interpreter) : List Event :=
  int.history ++ if int.wantsTasks then [.getNextTasks int.lastTaskId] else []

@[simp] theorem withPendingQuery_setCurrentProg (int : Interpreter) (d : Dir) (p : Option Program) :
    (int.setCurrentProg d p).withPendingQuery = int.withPendingQuery := by
  cases d <;> rfl

@[simp] theorem withPendingQuery_store (int : Interpreter) (d : Dir) (addr : Identifier)
    (bytes : Bytes) : (int.store d addr bytes).withPendingQuery = int.withPendingQuery := by
  rw [store_frame]
  rfl

/-- Loading leaves the history with its pending query as it was. -/
theorem loadIfWanted_withPendingQuery {int int₁ : Interpreter} (h : int.loadIfWanted = .ok int₁) :
    int₁.withPendingQuery = int.withPendingQuery ∧ int₁.wantsTasks = false := by
  rcases loadIfWanted_eq_ok.mp h with ⟨hw, hl⟩ | ⟨hw, rfl⟩
  · rw [(loadTasks_spec hl).2]
    simp [withPendingQuery, hw]
  · exact ⟨rfl, hw⟩

/-- Past the loop head, events are appended to the history as they happen. -/
theorem withPendingQuery_of_control {int c : Interpreter} {s : List Event}
    (hw : int.wantsTasks = false) (hc : c.control = int.control) (hh : c.history = int.history ++ s) :
    c.withPendingQuery = int.withPendingQuery ++ s ∧ c.wantsTasks = false := by
  simp only [control, Control.mk.injEq] at hc
  simp [withPendingQuery, hh, hc, hw]

theorem retire_withPendingQuery {int : Interpreter} (hw : int.wantsTasks = false) (d : Dir)
    (id : TaskID) :
    (int.retire d id).withPendingQuery = int.withPendingQuery ++ [.retire d id, .getNextTasks id] := by
  simp [withPendingQuery, retire, hw]

end Interpreter

/-! ## The invariant over calls -/

variable {lib : CryptoLib}

/-- A call of the outer loop keeps the invariant, ends with `wants_tasks`
clear, and only appends to the history with its pending query. -/
theorem CallRun.queriesRetired {d : Dir} {int int' : Interpreter} {r : Except Unit (NetOp d)}
    {initId : TaskID} (h : CallRun lib d int r int')
    (hi : QueriesRetired initId int.withPendingQuery) :
    QueriesRetired initId int'.withPendingQuery ∧ int'.wantsTasks = false ∧
      int.withPendingQuery <+: int'.withPendingQuery := by
  induction h with
  | blocked hl _ =>
    obtain ⟨he, hw⟩ := Interpreter.loadIfWanted_withPendingQuery hl
    exact ⟨he ▸ hi, hw, he ▸ List.prefix_refl _⟩
  | netop hl _ hrun =>
    obtain ⟨he, hw⟩ := Interpreter.loadIfWanted_withPendingQuery hl
    obtain ⟨inss, -, hh, hc⟩ := hrun.runs
    obtain ⟨he', hw'⟩ := Interpreter.withPendingQuery_of_control (by simpa using hw) hc hh
    simp only [LoopExit.state, Interpreter.withPendingQuery_setCurrentProg] at he' hw' ⊢
    rw [he', he]
    exact ⟨hi.append_executes d inss, by cases d <;> exact hw', List.prefix_append _ _⟩
  | retire hl _ hrun _ ih =>
    obtain ⟨he, hw⟩ := Interpreter.loadIfWanted_withPendingQuery hl
    obtain ⟨inss, -, hh, hc⟩ := hrun.runs
    obtain ⟨he', hw'⟩ := Interpreter.withPendingQuery_of_control (by simpa using hw) hc hh
    simp only [LoopExit.state, Interpreter.withPendingQuery_setCurrentProg] at he' hw'
    rw [Interpreter.retire_withPendingQuery hw', he', he] at ih
    obtain ⟨hq, hw'', hpre⟩ := ih ((hi.append_executes d inss).append_retire d _)
    exact ⟨hq, hw'', (List.prefix_append _ _).trans ((List.prefix_append _ _).trans hpre)⟩

/-- The invariant over reachable states; `wants_tasks` is set only before
the first call, when the query due is the init task's. -/
theorem reachable_queriesRetired {spec : TaskProvider} {int : Interpreter}
    (hr : Reachable lib spec int) :
    QueriesRetired spec.getInitTask.id int.withPendingQuery ∧
      (int.wantsTasks = true → int.history = [] ∧ int.lastTaskId = spec.getInitTask.id) := by
  induction hr with
  | new h =>
    obtain ⟨-, -, hw, hid, hh, -⟩ := Interpreter.new_spec h
    refine ⟨?_, fun _ => ⟨hh, hid⟩⟩
    simp only [Interpreter.withPendingQuery, hw, hh, hid, if_true, List.nil_append]
    refine ⟨rfl, ?_⟩
    intro l₁ d id l₂ h
    match l₁, h with
    | [], h => simp at h
    | [_], h => simp at h
  | call _ hc ih =>
    rcases call_cases hc with ⟨d, r, -, hrun⟩ | ⟨d, addr, bytes, -, rfl⟩
    · obtain ⟨hi, hw, -⟩ := hrun.queriesRetired ih.1
      exact ⟨hi, by simp [hw]⟩
    · simpa using ih

/-- **Queries follow retirements.** In every reachable state, either no
call has run yet, `wants_tasks` is set and the query due is the init task's
id, or `wants_tasks` is clear and the ids queried are the init task's id
followed by the retired ids in order; every retirement is followed at once
by the query with its id; and a call of `next_net_cmd_d` from there starts
with the query due, if any, and only appends to the history. So the first
call's first event is the query with the init task's id. -/
theorem reachable_queries {spec : TaskProvider} {int : Interpreter} (hr : Reachable lib spec int) :
    ((int.wantsTasks = true ∧ int.history = [] ∧ int.lastTaskId = spec.getInitTask.id) ∨
      (int.wantsTasks = false ∧
        int.history.filterMap Event.queryId =
          spec.getInitTask.id :: int.history.filterMap Event.retiredId)) ∧
      Answered int.history ∧
      ∀ d fuel r int', int.nextNetCmd lib d fuel = .ok (r, int') →
        int.history ++ (if int.wantsTasks then [.getNextTasks spec.getInitTask.id] else []) <+: int'.history := by
  obtain ⟨hi, hh⟩ := reachable_queriesRetired hr
  have hcall : ∀ d fuel r int', int.nextNetCmd lib d fuel = .ok (r, int') →
      int.withPendingQuery <+: int'.history := fun d fuel r int' h => by
    obtain ⟨-, hw, hpre⟩ := (nextNetCmd_callRun lib _ _ _ _ h).queriesRetired hi
    simpa [Interpreter.withPendingQuery, hw] using hpre
  cases hw : int.wantsTasks
  · have he : int.withPendingQuery = int.history := by simp [Interpreter.withPendingQuery, hw]
    rw [he] at hi hcall
    exact ⟨.inr ⟨rfl, hi.1⟩, hi.2, by simpa using hcall⟩
  · obtain ⟨hnil, hid⟩ := hh hw
    refine ⟨.inl ⟨rfl, hnil, hid⟩, hnil ▸ Answered.nil, fun d fuel r int' h => ?_⟩
    simpa [Interpreter.withPendingQuery, hw, hid] using hcall d fuel r int' h

theorem echoAfterIn_queries :
    Reachable CryptoLib.plain echoProvider echoAfterIn ∧
    ((echoAfterIn.wantsTasks = true ∧ echoAfterIn.history = [] ∧
        echoAfterIn.lastTaskId = echoProvider.getInitTask.id) ∨
      (echoAfterIn.wantsTasks = false ∧
        echoAfterIn.history.filterMap Event.queryId =
          echoProvider.getInitTask.id :: echoAfterIn.history.filterMap Event.retiredId)) ∧
      Answered echoAfterIn.history ∧
      ∀ d fuel r int', echoAfterIn.nextNetCmd CryptoLib.plain d fuel = .ok (r, int') →
        echoAfterIn.history ++ (if echoAfterIn.wantsTasks then [.getNextTasks echoProvider.getInitTask.id] else []) <+:
          int'.history :=
  ⟨echoAfterIn_reachable, reachable_queries echoAfterIn_reachable⟩

end Proteus
