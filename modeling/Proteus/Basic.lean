import Mathlib.Data.List.Basic
import Mathlib.Algebra.Group.Nat.Basic

/-!
Proteus.Basic — what every module of the model shares: byte strings, the
two ways a call of the Rust code can fail to return, and the checked
`usize` arithmetic of a 64-bit target.

A Rust `panic!` (an `unwrap` of `None`, `todo!()`, an arithmetic overflow
under overflow checks) is `Fault.panic`. `Fault.outOfFuel` is not Rust
behaviour: it is what a fuelled model of an unbounded `loop` returns when
its fuel is spent, so that "the call returns" can be stated as "some fuel
gives a result that is not `outOfFuel`".
-/

namespace Proteus

/-- `bytes::Bytes`, `BytesMut` and `Vec<u8>`: a byte string. -/
abbrev Bytes := List UInt8

/-- How a call fails to return a value. -/
inductive Fault
  | panic (msg : String)
  | outOfFuel
  deriving DecidableEq, Repr

/-- `Option::unwrap`. -/
def unwrap {α : Type} : Option α → Except Fault α
  | some a => .ok a
  | none => .error (.panic "called Option::unwrap() on a None value")

@[simp] theorem unwrap_some {α : Type} (a : α) : unwrap (some a) = .ok a := rfl

@[simp] theorem unwrap_ne_outOfFuel {α : Type} (o : Option α) : unwrap o ≠ .error .outOfFuel := by
  cases o <;> simp [unwrap]

@[simp] theorem unwrap_none {α : Type} :
    unwrap (none : Option α) = .error (.panic "called Option::unwrap() on a None value") := rfl

theorem unwrap_eq_ok {α : Type} {o : Option α} {a : α} : unwrap o = .ok a ↔ o = some a := by
  cases o <;> simp [unwrap]

/-! ## `usize` on a 64-bit target -/

/-- `usize::MAX + 1`. -/
def usizeModulus : Nat := 2 ^ 64

/-- `isize::MAX`. -/
def isizeMax : Nat := 2 ^ 63 - 1

/-- `a + b` on `usize` with overflow checks: a panic past `usize::MAX`. -/
def usizeAdd (a b : Nat) : Except Fault Nat :=
  if a + b < usizeModulus then .ok (a + b) else .error (.panic "attempt to add with overflow")

/-- `a - b` on `usize` with overflow checks: a panic below zero. -/
def usizeSub (a b : Nat) : Except Fault Nat :=
  if b ≤ a then .ok (a - b) else .error (.panic "attempt to subtract with overflow")

theorem usizeAdd_ne_outOfFuel {a b : Nat} : usizeAdd a b ≠ .error .outOfFuel := by
  unfold usizeAdd; split <;> simp

theorem usizeSub_ne_outOfFuel {a b : Nat} : usizeSub a b ≠ .error .outOfFuel := by
  unfold usizeSub; split <;> simp

theorem usizeAdd_eq_ok {a b c : Nat} : usizeAdd a b = .ok c ↔ a + b < usizeModulus ∧ c = a + b := by
  unfold usizeAdd; split <;> simp_all [eq_comm]

theorem usizeSub_eq_ok {a b c : Nat} : usizeSub a b = .ok c ↔ b ≤ a ∧ c = a - b := by
  unfold usizeSub; split <;> simp_all [eq_comm]

/-! ## `Except` plumbing -/

@[simp] theorem Except.bind_eq_ok {ε α β : Type} {x : Except ε α} {f : α → Except ε β} {b : β} :
    x >>= f = .ok b ↔ ∃ a, x = .ok a ∧ f a = .ok b := by
  cases x <;> simp [bind, Except.bind]

@[simp] theorem Except.map_eq_ok {ε α β : Type} {x : Except ε α} {f : α → β} {b : β} :
    f <$> x = .ok b ↔ ∃ a, x = .ok a ∧ f a = b := by
  cases x <;> simp [Functor.map, Except.map]

@[simp] theorem Except.pure_eq_ok {ε α : Type} {a b : α} : (pure a : Except ε α) = .ok b ↔ a = b := by
  simp [pure, Except.pure]

@[simp] theorem Except.bind_eq_error {ε α β : Type} {x : Except ε α} {f : α → Except ε β} {e : ε} :
    x >>= f = .error e ↔ x = .error e ∨ ∃ a, x = .ok a ∧ f a = .error e := by
  cases x <;> simp [bind, Except.bind]

@[simp] theorem Except.map_eq_error {ε α β : Type} {x : Except ε α} {f : α → β} {e : ε} :
    f <$> x = .error e ↔ x = .error e := by
  cases x <;> simp [Functor.map, Except.map]

/-- Two computations that one map sends to the same place fail alike, or
both succeed with results the map identifies. -/
theorem Except.map_eq_map {ε α β : Type} {f : α → β} {x y : Except ε α} (h : f <$> x = f <$> y) :
    (∃ e, x = .error e ∧ y = .error e) ∨ ∃ a b, x = .ok a ∧ y = .ok b ∧ f a = f b := by
  cases x <;> cases y <;> simp_all [Functor.map, Except.map]

@[simp] theorem Except.pure_ne_error {ε α : Type} {a : α} {e : ε} : (pure a : Except ε α) ≠ .error e := by
  simp [pure, Except.pure]

/-! The three laws below run a `do` block forwards: they are the steps of
the symbolic executions of concrete tasks, and are passed to `simp` there
rather than tagged, so that the `Except` lemmas above keep their shape. -/

theorem Except.pure_def {ε α : Type} (a : α) : (pure a : Except ε α) = .ok a := rfl

theorem Except.ok_bind {ε α β : Type} (a : α) (f : α → Except ε β) :
    (Except.ok a : Except ε α) >>= f = f a := rfl

theorem Except.error_bind {ε α β : Type} (e : ε) (f : α → Except ε β) :
    (Except.error e : Except ε α) >>= f = .error e := rfl

/-- A `mapM` whose steps never run out of fuel does not either. -/
theorem mapM_ne_outOfFuel {α β : Type} {f : α → Except Fault β} (hf : ∀ a, f a ≠ .error .outOfFuel) :
    ∀ l : List α, l.mapM f ≠ .error .outOfFuel
  | [] => by simp only [List.mapM_nil, ne_eq, Except.pure_ne_error, not_false_eq_true]
  | a :: l => by
    simp only [List.mapM_cons, ne_eq, Except.bind_eq_error, Except.pure_ne_error, hf,
      mapM_ne_outOfFuel hf l, false_or, and_false, exists_false, not_false_eq_true]

end Proteus
