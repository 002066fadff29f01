import Proteus.Lang.Types

/-!
Proteus.Lang.Message — a message: a byte buffer laid out by a concrete
format, with typed access to its fields.

`crate::lang::message` is not among the source files; the interpreter
uses `Message::{new, get_field_bytes, set_field_bytes,
get_field_unsigned_numeric, set_field_unsigned_numeric, len_suffix,
into_inner, into_inner_field}`, and what each does is modelled from the
spec (§3 "Message", §4.2). The buffer length is a field of the structure:
no message of the wrong size can be built, and every write proves it
keeps the size ("the buffer is never resized after creation").

Numbers are big-endian (§3 "NumericType"). A numeric field is a
`PrimitiveArray` of one numeric element; its width is that element's.
-/

namespace Proteus

/-! ## 1. Big-endian numbers -/

/-- The big-endian value of a byte string. -/
def beToNat (bs : Bytes) : Nat := bs.foldl (fun acc b => acc * 256 + b.toNat) 0

/-- `v` as `w` bytes, most significant first (`v` taken modulo `256 ^ w`). -/
def natToBe : Nat → Nat → Bytes
  | 0, _ => []
  | w + 1, v => natToBe w (v / 256) ++ [(v % 256).toUInt8]

@[simp] theorem length_natToBe (w v : Nat) : (natToBe w v).length = w := by
  induction w generalizing v with
  | zero => rfl
  | succ w ih => simp [natToBe, ih]

theorem beToNat_append_byte (bs : Bytes) (b : UInt8) :
    beToNat (bs ++ [b]) = beToNat bs * 256 + b.toNat := by
  simp [beToNat, List.foldl_append]

theorem beToNat_natToBe (w v : Nat) : beToNat (natToBe w v) = v % 256 ^ w := by
  induction w generalizing v with
  | zero => simp [natToBe, beToNat, Nat.mod_one]
  | succ w ih =>
    have hb : ((v % 256).toUInt8).toNat = v % 256 := by
      simp [Nat.toUInt8, UInt8.toNat, UInt8.ofNat, Fin.ofNat]
    rw [natToBe, beToNat_append_byte, ih, hb, Nat.pow_succ, Nat.mul_comm (256 ^ w) 256,
      Nat.mod_mul]
    omega

theorem beToNat_lt (bs : Bytes) : beToNat bs < 256 ^ bs.length := by
  induction bs using List.reverseRecOn with
  | nil => simp [beToNat]
  | append_singleton bs b ih =>
    rw [beToNat_append_byte, List.length_append, List.length_singleton, Nat.pow_succ]
    have : b.toNat < 256 := b.val.isLt
    omega

/-! ## 2. Messages -/

/-- Overwrite `bytes.length` bytes of `buf` from offset `off`. -/
def splice (buf : Bytes) (off : Nat) (bytes : Bytes) : Bytes :=
  buf.take off ++ bytes ++ buf.drop (off + bytes.length)

theorem length_splice {buf bytes : Bytes} {off : Nat} (h : off + bytes.length ≤ buf.length) :
    (splice buf off bytes).length = buf.length := by
  simp [splice]; omega

theorem take_drop_splice {buf bytes : Bytes} {off : Nat} (h : off ≤ buf.length) :
    ((splice buf off bytes).drop off).take bytes.length = bytes := by
  simp [splice, List.drop_append_eq_append_drop, List.take_append_eq_append_take, h,
    Nat.min_eq_left h]

/-- Overwriting a whole segment of a buffer replaces it. -/
theorem splice_append_mid (a b c b' : Bytes) (h : b'.length = b.length) :
    splice (a ++ b ++ c) a.length b' = a ++ b' ++ c := by
  rw [splice, h, ← List.length_append, List.append_assoc a b c, List.take_left, ← List.append_assoc,
    List.drop_left]

/-- The width of a numeric field: one element of a numeric type. -/
def PrimitiveArray.numericWidth : PrimitiveArray → Option Nat
  | ⟨.numeric t, 1⟩ => some t.size
  | _ => none

theorem PrimitiveArray.numericWidth_eq {a : PrimitiveArray} {w : Nat}
    (h : a.numericWidth = some w) : a.size = w ∧ w ≤ 8 := by
  match a, h with
  | ⟨.numeric t, 1⟩, h =>
    cases h
    exact ⟨by simp [PrimitiveArray.size, PrimitiveType.size], t.size_le_eight⟩

/-- Modelled from the spec: `message::Message` (§3), a buffer of exactly the
concrete format's size. -/
structure Message where
  format : ConcreteFormat
  buf : Bytes
  size_eq : buf.length = format.size

namespace Message

/-- Modelled from the spec: `Message::new`, a zeroed buffer of the format's size. -/
def new (cformat : ConcreteFormat) : Message :=
  ⟨cformat, List.replicate cformat.size 0, by simp⟩

/-- Modelled from the spec: `Message::get_field_bytes`. -/
def getFieldBytes (m : Message) (id : Identifier) : Option Bytes :=
  (m.format.locate id).map fun (off, a) => (m.buf.drop off).take a.size

/-- Modelled from the spec: `Message::set_field_bytes`, which fails unless the
input is exactly the field's length. -/
def setFieldBytes (m : Message) (id : Identifier) (bytes : Bytes) : Option Message :=
  match h : m.format.locate id with
  | none => none
  | some (off, a) =>
    if hl : bytes.length = a.size then
      some ⟨m.format, splice m.buf off bytes, by
        have := ConcreteFormat.locate_le h
        have := m.size_eq
        rw [length_splice (by omega)]; exact m.size_eq⟩
    else none

/-- Modelled from the spec: `Message::get_field_unsigned_numeric`, the
big-endian value of a numeric field. -/
def getFieldUnsignedNumeric (m : Message) (id : Identifier) : Option Nat := do
  let (off, a) ← m.format.locate id
  let w ← a.numericWidth
  pure (beToNat ((m.buf.drop off).take w))

/-- Modelled from the spec: `Message::set_field_unsigned_numeric`, which fails
when `v` does not fit the field's width. -/
def setFieldUnsignedNumeric (m : Message) (id : Identifier) (v : Nat) : Option Message := do
  let (_, a) ← m.format.locate id
  let w ← a.numericWidth
  if v < 256 ^ w then m.setFieldBytes id (natToBe w v) else none

/-- Modelled from the tests: `Message::len_suffix`, the bytes after the field
to the end of the buffer. The spec's words say "from the start of the
field"; the `write_net` checks of both test harnesses say otherwise: the
plaintext frame's prefix, computed over `length`, is the payload length
(21, not 23), and the encrypted one's, over `length_mac`, is payload plus
MAC (37, spec S4). -/
def lenSuffix (m : Message) (id : Identifier) : Option Nat :=
  (m.format.locate id).map fun (off, a) => m.buf.length - (off + a.size)

/-- `Message::into_inner`: the whole buffer. -/
def intoInner (m : Message) : Bytes := m.buf

/-- `Message::into_inner_field`: one field's bytes. -/
def intoInnerField (m : Message) (id : Identifier) : Option Bytes := m.getFieldBytes id

/-! ## 3. Reading back what was written -/

/-- A write of the right length into a located field splices the bytes in at
the field's offset and keeps the format. -/
theorem setFieldBytes_of_locate {m : Message} {id : Identifier} {off : Nat} {a : PrimitiveArray}
    (h : m.format.locate id = some (off, a)) (bytes : Bytes) (hl : bytes.length = a.size) :
    ∃ m', m.setFieldBytes id bytes = some m' ∧ m'.format = m.format ∧ m'.buf = splice m.buf off bytes := by
  unfold setFieldBytes
  split
  · simp_all
  · rename_i off' a' h'
    rw [h, Option.some.injEq, Prod.mk.injEq] at h'
    obtain ⟨rfl, rfl⟩ := h'
    rw [dif_pos hl]
    exact ⟨_, rfl, rfl, rfl⟩

/-- A write into a field that spans a whole segment of the buffer replaces
that segment. The format is named `F`, so that a chain of writes keeps
locating its fields in `F`. -/
theorem setFieldBytes_segment {m : Message} {F : ConcreteFormat} (hF : m.format = F) {id : Identifier}
    {off : Nat} {a : PrimitiveArray} (h : F.locate id = some (off, a)) {pre mid post : Bytes}
    (hbuf : m.buf = pre ++ mid ++ post) (hoff : pre.length = off) (hmid : mid.length = a.size) (bytes : Bytes)
    (hl : bytes.length = a.size) :
    ∃ m', m.setFieldBytes id bytes = some m' ∧ m'.format = F ∧ m'.buf = pre ++ bytes ++ post := by
  subst hF
  obtain ⟨m', h', hf, hb⟩ := setFieldBytes_of_locate h bytes hl
  exact ⟨m', h', hf, by rw [hb, hbuf, ← hoff, splice_append_mid _ _ _ _ (hl.trans hmid.symm)]⟩

/-- The bytes of a field that spans a whole segment of the buffer. -/
theorem getFieldBytes_segment {m : Message} {F : ConcreteFormat} (hF : m.format = F) {id : Identifier}
    {off : Nat} {a : PrimitiveArray} (h : F.locate id = some (off, a)) {pre mid post : Bytes}
    (hbuf : m.buf = pre ++ mid ++ post) (hoff : pre.length = off) (hmid : mid.length = a.size) :
    m.getFieldBytes id = some mid := by
  simp [getFieldBytes, hF, h, hbuf, ← hoff, ← hmid]

/-- A write of the wrong length into a located field fails. -/
theorem setFieldBytes_eq_none {m : Message} {id : Identifier} {off : Nat} {a : PrimitiveArray}
    (h : m.format.locate id = some (off, a)) (bytes : Bytes) (hl : bytes.length ≠ a.size) :
    m.setFieldBytes id bytes = none := by
  unfold setFieldBytes
  split
  · rfl
  · rename_i off' a' h'
    rw [h, Option.some.injEq, Prod.mk.injEq] at h'
    obtain ⟨rfl, rfl⟩ := h'
    rw [dif_neg hl]

/-- A successful `set_field_bytes` is read back by `get_field_bytes`
(spec §8, invariant 1). -/
theorem getFieldBytes_setFieldBytes {m m' : Message} {id : Identifier} {bytes : Bytes}
    (h : m.setFieldBytes id bytes = some m') : m'.getFieldBytes id = some bytes := by
  unfold setFieldBytes at h
  split at h
  · cases h
  · rename_i off a hloc
    split at h
    · rename_i hl
      cases h
      have hle := ConcreteFormat.locate_le hloc
      have hb : off ≤ m.buf.length := by rw [m.size_eq]; omega
      simp only [getFieldBytes, hloc, Option.map_some', ← hl, take_drop_splice hb]
    · cases h

/-- A numeric field written with a value that fits reads back as that value
(spec §8, invariant 2). -/
theorem getFieldUnsignedNumeric_setFieldUnsignedNumeric {m m' : Message} {id : Identifier}
    {v : Nat} (h : m.setFieldUnsignedNumeric id v = some m') :
    m'.getFieldUnsignedNumeric id = some v := by
  simp only [setFieldUnsignedNumeric, Option.bind_eq_bind, Option.bind_eq_some] at h
  obtain ⟨⟨off, a⟩, hloc, w, hw, hset⟩ := h
  split at hset
  · rename_i hv
    have hb := getFieldBytes_setFieldBytes hset
    have hf : m'.format = m.format := by
      unfold setFieldBytes at hset; split at hset <;> [cases hset; (split at hset <;> cases hset; rfl)]
    simp only [getFieldBytes, hf, hloc, Option.map_some', Option.some.injEq] at hb
    simp only [getFieldUnsignedNumeric, hf, hloc, hw, Option.bind_eq_bind, Option.some_bind,
      Option.pure_def, (PrimitiveArray.numericWidth_eq hw).1 ▸ hb, beToNat_natToBe,
      Nat.mod_eq_of_lt hv]
  · cases hset

/-- `len_suffix` counts from the end of the field to the end of the buffer. -/
theorem lenSuffix_eq {m : Message} {id : Identifier} {off : Nat} {a : PrimitiveArray}
    (h : m.format.locate id = some (off, a)) :
    m.lenSuffix id = some (m.format.size - (off + a.size)) := by
  simp [lenSuffix, h, m.size_eq]

end Message

end Proteus
