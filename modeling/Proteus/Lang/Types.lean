import Proteus.Basic

/-!
Proteus.Lang.Types — identifiers, the typed heaps of a program, and the
format model: abstract formats whose dynamic arrays are sized by other
fields, and the concrete formats `concretize` makes of them.

`crate::lang::types` and `crate::lang::mem` are not among the source
files; `interpreter.rs` uses them through `Heap::{new, get, insert,
remove}`, `AbstractFormat::{get_dynamic_arrays, concretize}` and the
`Format`/`Field`/`Array` values of its tests. What is here follows those
uses and the spec (§3, §4.1, §4.2).

* `Heap V` — a map `Identifier → Option V`; `insert` overwrites, `remove`
  returns the value and the heap without it.
* `AbstractFormat.getDynamicArrays` — the NAMES of the dynamic fields.
  The interpreter looks each one up in the byte heap, and the tests
  store the payload under the field's name (`"payload"`), never under
  the `SizeOf` target (`"length"` is only on the number heap). So the
  name, not the target, is what the byte heap is keyed by.
* `ConcreteFormat` — every field a `PrimitiveArray`: a dynamic array
  becomes a `u8` array of the length it was given. A concrete format
  cannot hold an unresolved size.
-/

namespace Proteus

/-- `types::Identifier`: an interned string, compared structurally. -/
abbrev Identifier := String

/-! ## 1. Heaps -/

/-- Modelled from the spec: `mem::Heap<V>` (§3 "Heap<V>", §4.1), a map from
identifiers to values. -/
structure Heap (V : Type) where
  get : Identifier → Option V

namespace Heap

variable {V : Type}

/-- `Heap::new`: the empty heap. -/
def new : Heap V := ⟨fun _ => none⟩

/-- `Heap::insert`: overwrite the value at `k`. -/
def insert (h : Heap V) (k : Identifier) (v : V) : Heap V :=
  ⟨fun k' => if k' = k then some v else h.get k'⟩

/-- `Heap::remove`: the value at `k`, and the heap without it. -/
def remove (h : Heap V) (k : Identifier) : Option V × Heap V :=
  (h.get k, ⟨fun k' => if k' = k then none else h.get k'⟩)

@[simp] theorem get_new (k : Identifier) : (new : Heap V).get k = none := rfl

@[simp] theorem get_insert (h : Heap V) (k k' : Identifier) (v : V) :
    (h.insert k v).get k' = if k' = k then some v else h.get k' := rfl

@[simp] theorem remove_fst (h : Heap V) (k : Identifier) : (h.remove k).1 = h.get k := rfl

@[simp] theorem get_remove_snd (h : Heap V) (k k' : Identifier) :
    (h.remove k).2.get k' = if k' = k then none else h.get k' := rfl

end Heap

/-! ## 2. Types and formats -/

/-- `types::NumericType`. -/
inductive NumericType
  | u8 | u16 | u32 | u64 | i8 | i16 | i32 | i64
  deriving DecidableEq, Repr

/-- Width in bytes. -/
def NumericType.size : NumericType → Nat
  | .u8 | .i8 => 1
  | .u16 | .i16 => 2
  | .u32 | .i32 => 4
  | .u64 | .i64 => 8

theorem NumericType.size_le_eight (t : NumericType) : t.size ≤ 8 := by
  cases t <;> decide

/-- `types::PrimitiveType`. -/
inductive PrimitiveType
  | numeric (t : NumericType)
  | bool
  | char
  deriving DecidableEq, Repr

/-- Width in bytes: `bool` and `char` are one byte (§3). -/
def PrimitiveType.size : PrimitiveType → Nat
  | .numeric t => t.size
  | .bool | .char => 1

/-- `types::PrimitiveArray(T, n)`: `n` elements of `T`. -/
structure PrimitiveArray where
  elem : PrimitiveType
  count : Nat
  deriving DecidableEq, Repr

/-- Byte length `n · sizeof(T)`. -/
def PrimitiveArray.size (a : PrimitiveArray) : Nat := a.count * a.elem.size

/-- `types::UnaryOp`. -/
inductive UnaryOp
  | sizeOf (id : Identifier)
  deriving DecidableEq, Repr

/-- `types::DynamicArray(UnaryOp)`. -/
structure DynamicArray where
  op : UnaryOp
  deriving DecidableEq, Repr

/-- `types::Array`: the type of a field. -/
inductive FieldArray
  | primitive (a : PrimitiveArray)
  | dynamic (a : DynamicArray)
  deriving DecidableEq, Repr

/-- `types::Field`. -/
structure Field where
  name : Identifier
  dtype : FieldArray
  deriving DecidableEq, Repr

/-- `types::Format`: the field order is the byte order on the wire. -/
structure Format where
  name : Identifier
  fields : List Field
  deriving DecidableEq, Repr

/-- `types::AbstractFormat`: a format whose dynamic arrays are not yet sized. -/
structure AbstractFormat where
  format : Format
  deriving DecidableEq, Repr

/-- A field of a concrete format: its size is known. -/
structure ConcreteField where
  name : Identifier
  dtype : PrimitiveArray
  deriving DecidableEq, Repr

/-- `types::ConcreteFormat`. -/
structure ConcreteFormat where
  name : Identifier
  fields : List ConcreteField
  deriving DecidableEq, Repr

namespace AbstractFormat

/-- Modelled from the spec: `AbstractFormat::get_dynamic_arrays` (§4.2), the
names of the fields whose size must be supplied. -/
def getDynamicArrays (af : AbstractFormat) : List Identifier :=
  af.format.fields.filterMap fun f =>
    match f.dtype with
    | .dynamic _ => some f.name
    | .primitive _ => none

/-- Modelled from the spec: `AbstractFormat::concretize` (§4.2). A dynamic
field becomes a `u8` array of the length supplied for its name; the
interpreter supplies one for every name `getDynamicArrays` returns. -/
def concretize (af : AbstractFormat) (sizes : List (Identifier × Nat)) : ConcreteFormat :=
  { name := af.format.name
    fields := af.format.fields.map fun f =>
      { name := f.name
        dtype := match f.dtype with
          | .primitive a => a
          | .dynamic _ => ⟨.numeric .u8, (sizes.lookup f.name).getD 0⟩ } }

end AbstractFormat

namespace ConcreteFormat

/-- Total byte length: the sum of the field lengths. -/
def size (cf : ConcreteFormat) : Nat := cf.fields.foldr (fun f n => f.dtype.size + n) 0

/-- Offset and type of the first field named `id`, scanning from offset `off`. -/
def locateFrom (id : Identifier) : Nat → List ConcreteField → Option (Nat × PrimitiveArray)
  | _, [] => none
  | off, f :: fs => if f.name = id then some (off, f.dtype) else locateFrom id (off + f.dtype.size) fs

/-- The side table of a message: offset and type of field `id`. -/
def locate (cf : ConcreteFormat) (id : Identifier) : Option (Nat × PrimitiveArray) :=
  locateFrom id 0 cf.fields

/-- A located field lies inside the fields scanned. -/
theorem locateFrom_le (id : Identifier) :
    ∀ (off : Nat) (fs : List ConcreteField) {o : Nat} {a : PrimitiveArray},
      locateFrom id off fs = some (o, a) →
        off ≤ o ∧ o + a.size ≤ off + fs.foldr (fun f n => f.dtype.size + n) 0
  | _, [], _, _, h => by simp [locateFrom] at h
  | off, f :: fs, o, a, h => by
    unfold locateFrom at h
    split at h
    · cases h; simp
    · have := locateFrom_le id (off + f.dtype.size) fs h
      simp only [List.foldr_cons]
      omega

theorem locate_le {cf : ConcreteFormat} {id : Identifier} {o : Nat} {a : PrimitiveArray}
    (h : cf.locate id = some (o, a)) : o + a.size ≤ cf.size := by
  simpa [size] using (locateFrom_le id 0 cf.fields h).2

end ConcreteFormat

end Proteus
