import Proteus.Basic

/-!
Proteus.Net.Socks — the SOCKS5 greeting codec of `net/socks/mod.rs`.

`Greeting::deserialize` reads from a `BytesMut` and consumes what it
reads: each `buf.has_remaining().then(|| buf.get_u8())?` takes one byte
off the front, or returns `None` when the buffer is empty. The model
passes the buffer explicitly and returns it with the result, so what the
call consumes is part of what it computes. `serialize` writes the
version, the method list's length `as u8`, and the methods.

* `deserialize_eq` — what `deserialize` returns, in closed form: a
  greeting when at least `2 + b[1]` bytes are there, `None` and an empty
  buffer otherwise.
* **`greeting_roundTrip`** — on a well-formed greeting (at most 255
  methods, `num_auth_methods` their number), parsing the serialization
  followed by anything gives the greeting back and leaves exactly the
  rest; and whatever a successful parse consumed is the serialization of
  what it returned.
* `deserialize_serialize` — `serialize` writes the list's length, so any
  greeting of at most 255 methods parses back with `num_auth_methods`
  replaced by that length.
* **`deserialize_none`** — a parse that returns `None` has consumed the
  whole buffer: it is left empty, not as it was. **`deserialize_partial`**
  is a one-byte buffer that the failed parse empties.
-/

namespace Proteus

/-- `socks::Greeting`. -/
structure Greeting where
  version : UInt8
  numAuthMethods : UInt8
  supportedAuthMethods : List UInt8
  deriving DecidableEq, Repr

namespace Greeting

/-- `buf.has_remaining().then(|| buf.get_u8())`, with the buffer after it. -/
def takeU8 : Bytes → Option UInt8 × Bytes
  | [] => (none, [])
  | b :: rest => (some b, rest)

/-- The `for _ in 0..num_auth_methods` loop: push `n` more methods onto `acc`,
or stop at the first empty read. -/
def readMethods : Nat → List UInt8 → Bytes → Option (List UInt8) × Bytes
  | 0, acc, buf => (some acc, buf)
  | n + 1, acc, buf =>
    match takeU8 buf with
    | (some m, buf) => readMethods n (acc ++ [m]) buf
    | (none, buf) => (none, buf)

/-- `Greeting::deserialize`: the greeting, if any, and the buffer it leaves. -/
def deserialize (buf : Bytes) : Option Greeting × Bytes :=
  match takeU8 buf with
  | (none, buf) => (none, buf)
  | (some version, buf) =>
    match takeU8 buf with
    | (none, buf) => (none, buf)
    | (some numAuthMethods, buf) =>
      match readMethods numAuthMethods.toNat [] buf with
      | (none, buf) => (none, buf)
      | (some supportedAuthMethods, buf) =>
        (some ⟨version, numAuthMethods, supportedAuthMethods⟩, buf)

/-- `Greeting::serialize`: the length byte is `supported_auth_methods.len() as u8`. -/
def serialize (g : Greeting) : Bytes :=
  [g.version, UInt8.ofNat g.supportedAuthMethods.length] ++ g.supportedAuthMethods

/-! ## Closed forms -/

theorem readMethods_eq : ∀ (n : Nat) (acc : List UInt8) (buf : Bytes),
    readMethods n acc buf =
      if n ≤ buf.length then (some (acc ++ buf.take n), buf.drop n) else (none, [])
  | 0, acc, buf => by simp [readMethods]
  | n + 1, acc, [] => by simp [readMethods, takeU8]
  | n + 1, acc, b :: rest => by
    simp only [readMethods, takeU8, readMethods_eq n]
    by_cases h : n ≤ rest.length <;> simp [h]

/-- What `deserialize` returns. -/
theorem deserialize_eq (buf : Bytes) :
    deserialize buf =
      match buf with
      | version :: num :: rest =>
        if num.toNat ≤ rest.length then (some ⟨version, num, rest.take num.toNat⟩, rest.drop num.toNat)
        else (none, [])
      | _ => (none, []) := by
  match buf with
  | [] => rfl
  | [_] => rfl
  | version :: num :: rest =>
    simp only [deserialize, takeU8, readMethods_eq, List.nil_append]
    split_ifs <;> rfl

/-! ## The round trip -/

theorem UInt8.ofNat_toNat (n : UInt8) : UInt8.ofNat n.toNat = n := by
  apply UInt8.eq_of_val_eq
  apply Fin.ext
  simp [UInt8.ofNat, UInt8.toNat, Fin.ofNat, Nat.mod_eq_of_lt n.val.isLt]

/-- **Round trip.** A greeting with at most 255 methods, whose
`num_auth_methods` is their number, parses back from its serialization
followed by any bytes, leaving exactly those bytes. Conversely, a parse
that returns a greeting has consumed exactly that greeting's
serialization. -/
theorem greeting_roundTrip :
    (∀ (g : Greeting) (s : Bytes), g.supportedAuthMethods.length ≤ 255 →
      g.numAuthMethods.toNat = g.supportedAuthMethods.length →
      deserialize (g.serialize ++ s) = (some g, s)) ∧
    (∀ (b : Bytes) (g : Greeting) (rest : Bytes), deserialize b = (some g, rest) →
      b = g.serialize ++ rest) := by
  constructor
  · intro ⟨version, num, methods⟩ s hlen hnum
    simp only at hlen hnum
    have hofNat : UInt8.ofNat methods.length = num := hnum ▸ UInt8.ofNat_toNat num
    rw [deserialize_eq, serialize]
    simp [hofNat, hnum]
  · intro b g rest h
    rw [deserialize_eq] at h
    match b, h with
    | version :: num :: tail, h =>
      simp only at h
      split_ifs at h with hle
      · obtain ⟨rfl, rfl⟩ := Prod.mk.inj_iff.mp h |>.imp Option.some.inj id
        have hlen : (tail.take num.toNat).length = num.toNat := by simp [hle]
        simp only [serialize, hlen, UInt8.ofNat_toNat, List.cons_append, List.nil_append,
          List.take_append_drop]
      · cases h

theorem greeting_roundTrip_two :
    ((⟨5, 2, [0, 2]⟩ : Greeting).supportedAuthMethods.length ≤ 255 ∧
      (⟨5, 2, [0, 2]⟩ : Greeting).numAuthMethods.toNat = 2) ∧
    deserialize ((⟨5, 2, [0, 2]⟩ : Greeting).serialize ++ [9]) = (some ⟨5, 2, [0, 2]⟩, [9]) :=
  ⟨⟨by decide, rfl⟩, greeting_roundTrip.1 _ _ (by decide) rfl⟩

/-- **`serialize` writes the list's length.** Any greeting with at most
255 methods parses back from its serialization, with `num_auth_methods`
replaced by the number of methods: the two agree only on well-formed
greetings. -/
theorem deserialize_serialize (g : Greeting) (s : Bytes) (hlen : g.supportedAuthMethods.length ≤ 255) :
    deserialize (g.serialize ++ s) =
      (some ⟨g.version, UInt8.ofNat g.supportedAuthMethods.length, g.supportedAuthMethods⟩, s) := by
  have hnum : (UInt8.ofNat g.supportedAuthMethods.length).toNat = g.supportedAuthMethods.length := by
    simp [UInt8.toNat, UInt8.ofNat, Fin.ofNat, Nat.mod_eq_of_lt (by omega : g.supportedAuthMethods.length < 256)]
  rw [deserialize_eq, serialize]
  simp [hnum]

/-- A greeting claiming seven methods but listing two parses back claiming
two. -/
theorem deserialize_serialize_seven :
    (⟨5, 7, [0, 2]⟩ : Greeting).supportedAuthMethods.length ≤ 255 ∧
    deserialize ((⟨5, 7, [0, 2]⟩ : Greeting).serialize ++ []) =
      (some ⟨5, UInt8.ofNat (⟨5, 7, [0, 2]⟩ : Greeting).supportedAuthMethods.length, [0, 2]⟩, []) :=
  ⟨by decide, deserialize_serialize _ _ (by decide)⟩

/-! ## A failed parse -/

/-- **A failed parse empties the buffer.** `deserialize` returns `None`
exactly when fewer than two bytes, or fewer than `2 + b[1]`, are there,
and it has then consumed every byte: the buffer is left empty, which is
the buffer it was given only when that was empty. -/
theorem deserialize_none (b : Bytes) :
    ((deserialize b).1 = none ↔ ∀ version num rest, b = version :: num :: rest → rest.length < num.toNat) ∧
    ((deserialize b).1 = none → (deserialize b).2 = []) := by
  rw [deserialize_eq]
  match b with
  | [] => simp
  | [_] => simp
  | version :: num :: rest =>
    by_cases h : num.toNat ≤ rest.length <;> simp [h]
    omega

/-- One byte of a greeting: the parse fails, and the byte is gone. -/
theorem deserialize_partial : deserialize [5] = (none, []) := rfl

end Greeting

end Proteus
