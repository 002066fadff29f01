import Proteus.Lang.Task

/-!
Proteus.Lang.Parse — the tree builder of the `.psf` front end
(`lang/parse/implementation.rs`).

pest parses a `.psf` file against `proteus_lite.pest` into a tree of
`Pair`s, and the `parse_*` functions walk that tree to build the
specification: the formats with the semantics of their fields, the
role/phase sequence, and the crypto segment. The grammar file is not
among the sources, so the model starts from the tree: a `RulePair` is the
rule a pair matched, the text it spans and the pairs inside it, and every
`parse_*` below is read off the source over it.

* Every `assert!(p.as_rule() == Rule::…)`, every `next().unwrap()` on a
  pair's children (the source's "Unwraps OK: ITR"), the
  `unimplemented!()` and `panic!()` arms, and the `unwrap` in
  `parse_simple` are panics.
* The one `Err` is that of the `usize` parse in
  `parse_positive_numeric_literal`, which `?` passes up unchanged
  (`usizeFromStr`, the standard library's `from_str` in base 10).
* The `for` loops of `parse_format`, `parse_encryption_directives`,
  `parse_crypto_segment` and `parse_psf_impl` are `mapM` and `foldlM`:
  the first failure ends them. The bodies of the last two are
  `cryptoSegmentStep` and `psfStep`.

`crate::lang::types` is not among the sources either. The types it
supplies here (`FieldSemantic`, `SequenceSpecifier`, `CryptoSpec`, `PSF`,
…) follow their uses in this file and its tests, and their `FromStr`
impls accept the strings the tests parse. What `parse_psf_impl` makes of
a whole file is in `Proteus.Lang.ParseTheorems`.
-/

namespace Proteus

/-! ## 1. `FromStr` of the leaf types -/

/-- `NumericType::from_str` on the names the tests parse. -/
def NumericType.fromStr : String → Option NumericType
  | "u8" => some .u8
  | "u16" => some .u16
  | "u32" => some .u32
  | "u64" => some .u64
  | "i8" => some .i8
  | "i16" => some .i16
  | "i32" => some .i32
  | "i64" => some .i64
  | _ => none

/-- `PrimitiveType::from_str`: a numeric type, `bool` or `char`. -/
def PrimitiveType.fromStr (s : String) : Option PrimitiveType :=
  match NumericType.fromStr s with
  | some t => some (.numeric t)
  | none =>
    match s with
    | "bool" => some .bool
    | "char" => some .char
    | _ => none

/-- `Role::from_str`. -/
def Role.fromStr : String → Option Role
  | "CLIENT" => some .client
  | "SERVER" => some .server
  | _ => none

namespace Parse

/-! ## 2. The specification a `.psf` file describes -/

/-- `types::FieldSemantic`: what a field of a format carries. -/
inductive FieldSemantic
  | payload
  | padding
  | length
  | fixedString (s : String)
  deriving DecidableEq, Repr

/-- `FieldSemantic::from_str`: the keyword semantics; a fixed string has
its own rule. -/
def FieldSemantic.fromStr : String → Option FieldSemantic
  | "PAYLOAD" => some .payload
  | "PADDING" => some .padding
  | "LENGTH" => some .length
  | _ => none

/-- `types::SemanticBinding`: field `field` of format `format` carries `semantic`. -/
structure SemanticBinding where
  format : Identifier
  field : Identifier
  semantic : FieldSemantic
  deriving DecidableEq, Repr

/-- `types::Phase`. -/
inductive Phase
  | handshake
  | data
  deriving DecidableEq, Repr

/-- `Phase::from_str`. -/
def Phase.fromStr : String → Option Phase
  | "HANDSHAKE" => some .handshake
  | "DATA" => some .data
  | _ => none

/-- `types::SequenceSpecifier`: in this phase, this role sends this format. -/
structure SequenceSpecifier where
  role : Role
  phase : Phase
  format : Identifier
  deriving DecidableEq, Repr

/-- `types::Password`. -/
structure Password where
  password : String
  deriving DecidableEq, Repr

/-- `types::Cipher`. -/
inductive Cipher
  | chaCha20Poly1305
  deriving DecidableEq, Repr

/-- `Cipher::from_str`. -/
def Cipher.fromStr : String → Option Cipher
  | "CHACHA20-POLY1305" => some .chaCha20Poly1305
  | _ => none

/-- `types::EncryptionFormatBinding`: format `toFormatName` is the
encryption of format `fromFormatName`. -/
structure EncryptionFormatBinding where
  toFormatName : Identifier
  fromFormatName : Identifier
  deriving DecidableEq, Repr

/-- `types::EncryptionFieldDirective`: the plaintext field, and the fields
its ciphertext and MAC go to. -/
structure EncryptionFieldDirective where
  ptextName : Identifier
  ctextName : Identifier
  macName : Identifier
  deriving DecidableEq, Repr

/-- `types::EncryptionDirectives`. -/
structure EncryptionDirectives where
  encFmtBnd : EncryptionFormatBinding
  encFieldDirs : List EncryptionFieldDirective
  deriving DecidableEq, Repr

/-- `types::CryptoSpec`. -/
structure CryptoSpec where
  password : Option Password
  cipher : Cipher
  encryptionDirectives : List EncryptionDirectives
  deriving DecidableEq, Repr

/-- `CryptoSpec::new(password, cipher, directives.iter())`. -/
def CryptoSpec.new (password : Option Password) (cipher : Cipher)
    (directives : List EncryptionDirectives) : CryptoSpec :=
  ⟨password, cipher, directives⟩

/-- `types::AbstractFormatAndSemantics`: a format, and the semantics bound
to its fields by name. -/
structure AbstractFormatAndSemantics where
  format : AbstractFormat
  semantics : Heap FieldSemantic

/-- `From<AbstractFormat>`: no field has a semantics yet. -/
def AbstractFormatAndSemantics.ofAbstractFormat (format : AbstractFormat) :
    AbstractFormatAndSemantics :=
  ⟨format, Heap.new⟩

/-- `types::PSF`: the formats by name, the sequence, and the crypto segment. -/
structure PSF where
  formats : Heap AbstractFormatAndSemantics
  sequence : List SequenceSpecifier
  cryptoSpec : Option CryptoSpec

/-! ## 3. The parse tree -/

/-- The rules of `proteus_lite.pest` that the tree builder names; `other`
is any rule it does not (a string body, `EOI`). -/
inductive Rule
  | psf | format | field | nameValue | typeValue | array | primitiveArray | dynamicArray
  | sizeOfOp | identifier | primitiveType | numericType | positiveNumericLiteral
  | fieldSemantic | fixedStringSemantic | semanticBinding | role | phase | sequenceSpecifier
  | passwordAssignment | cipher | cipherAssignment | encryptionFormatBinding
  | encryptionFieldDirective | encryptionDirectives | cryptoSegment
  | other (name : String)
  deriving DecidableEq, Repr

/-- The rule's name in the grammar, as an `assert!` prints it. -/
def Rule.name : Rule → String
  | .psf => "psf"
  | .format => "format"
  | .field => "field"
  | .nameValue => "name_value"
  | .typeValue => "type_value"
  | .array => "array"
  | .primitiveArray => "primitive_array"
  | .dynamicArray => "dynamic_array"
  | .sizeOfOp => "size_of_op"
  | .identifier => "identifier"
  | .primitiveType => "primitive_type"
  | .numericType => "numeric_type"
  | .positiveNumericLiteral => "positive_numeric_literal"
  | .fieldSemantic => "field_semantic"
  | .fixedStringSemantic => "fixed_string_semantic"
  | .semanticBinding => "semantic_binding"
  | .role => "role"
  | .phase => "phase"
  | .sequenceSpecifier => "sequence_specifier"
  | .passwordAssignment => "password_assignment"
  | .cipher => "cipher"
  | .cipherAssignment => "cipher_assignment"
  | .encryptionFormatBinding => "encryption_format_binding"
  | .encryptionFieldDirective => "encryption_field_directive"
  | .encryptionDirectives => "encryption_directives"
  | .cryptoSegment => "crypto_segment"
  | .other n => n

/-- A pest `Pair`: the rule it matched, the text it spans (`as_str`) and
the pairs inside it (`into_inner`), in order. -/
inductive RulePair
  | mk (rule : Rule) (str : String) (inner : List RulePair)

namespace RulePair

/-- `as_rule`. -/
def rule : RulePair → Rule
  | mk r _ _ => r

/-- `as_str`. -/
def str : RulePair → String
  | mk _ s _ => s

/-- `into_inner`. -/
def inner : RulePair → List RulePair
  | mk _ _ i => i

@[simp] theorem rule_mk (r : Rule) (s : String) (i : List RulePair) : (mk r s i).rule = r := rfl

@[simp] theorem str_mk (r : Rule) (s : String) (i : List RulePair) : (mk r s i).str = s := rfl

@[simp] theorem inner_mk (r : Rule) (s : String) (i : List RulePair) : (mk r s i).inner = i := rfl

end RulePair

/-! ## 4. Failures -/

/-- `core::num::IntErrorKind`, as `str::parse::<usize>` reports it. -/
inductive IntErrorKind
  | empty
  | invalidDigit
  | posOverflow
  deriving DecidableEq, Repr

/-- Why a `parse_*` does not return `Ok`: a panic, or the `Err` of a
`usize` parse, which `?` passes up unchanged. -/
inductive ParseError
  | panic (msg : String)
  | parseInt (kind : IntErrorKind)
  deriving DecidableEq, Repr

/-- `assert!(p.as_rule() == Rule::r)`. -/
def expectRule (p : RulePair) (r : Rule) : Except ParseError Unit :=
  if p.rule = r then .ok () else .error (.panic ("assertion failed: p.as_rule() == Rule::" ++ r.name))

/-- `Option::unwrap`: the children's `next().unwrap()`, `cipher.unwrap()`
and `get_mut(..).unwrap()`. -/
def unwrapOption {α : Type} : Option α → Except ParseError α
  | some a => .ok a
  | none => .error (.panic "called Option::unwrap() on a None value")

@[simp] theorem unwrapOption_some {α : Type} (a : α) : unwrapOption (some a) = .ok a := rfl

@[simp] theorem unwrapOption_none {α : Type} :
    unwrapOption (none : Option α) = .error (.panic "called Option::unwrap() on a None value") := rfl

/-- `parse_simple`: `p.as_str().parse().unwrap()`. -/
def parseSimple {T : Type} (fromStr : String → Option T) (p : RulePair) : Except ParseError T :=
  match fromStr p.str with
  | some t => .ok t
  | none => .error (.panic "called Result::unwrap() on an Err value")

/-! ## 5. `usize::from_str` -/

/-- One digit of `from_str_radix` in base 10: the digit check first, then
the checked `* 10` and `+ d` (either overflow is `PosOverflow`). -/
def usizeFromStrStep (acc : Nat) (c : Char) : Except IntErrorKind Nat :=
  if c.isDigit then
    if acc * 10 + (c.toNat - '0'.toNat) < usizeModulus then .ok (acc * 10 + (c.toNat - '0'.toNat))
    else .error .posOverflow
  else .error .invalidDigit

/-- `<usize as FromStr>::from_str`: an empty string is `Empty`, a lone
sign is `InvalidDigit`, a leading `+` is skipped, and the digits are
folded from the left. -/
def usizeFromStr (s : String) : Except IntErrorKind Nat :=
  match s.toList with
  | [] => .error .empty
  | ['+'] => .error .invalidDigit
  | ['-'] => .error .invalidDigit
  | '+' :: cs => cs.foldlM usizeFromStrStep 0
  | cs => cs.foldlM usizeFromStrStep 0

/-! ## 6. The `parse_*` functions -/

/-- `parse_numeric_type`. -/
def parseNumericType (p : RulePair) : Except ParseError NumericType := do
  expectRule p .numericType
  parseSimple NumericType.fromStr p

/-- `parse_primitive_type`. -/
def parsePrimitiveType (p : RulePair) : Except ParseError PrimitiveType := do
  expectRule p .primitiveType
  parseSimple PrimitiveType.fromStr p

/-- `parse_positive_numeric_literal`: the `usize` parse's `Err` is returned. -/
def parsePositiveNumericLiteral (p : RulePair) : Except ParseError Nat := do
  expectRule p .positiveNumericLiteral
  match usizeFromStr p.str with
  | .ok n => pure n
  | .error k => .error (.parseInt k)

/-- `parse_identifier`: an identifier is the text itself. -/
def parseIdentifier (p : RulePair) : Except ParseError Identifier := do
  expectRule p .identifier
  parseSimple some p

/-- `parse_primitive_array`: `[T; n]`. -/
def parsePrimitiveArray (p : RulePair) : Except ParseError PrimitiveArray := do
  expectRule p .primitiveArray
  let pt ← parsePrimitiveType (← unwrapOption p.inner[0]?)
  let pnl ← parsePositiveNumericLiteral (← unwrapOption p.inner[1]?)
  pure ⟨pt, pnl⟩

/-- `parse_sizeof_op`: `x.size_of`. -/
def parseSizeofOp (p : RulePair) : Except ParseError UnaryOp := do
  expectRule p .sizeOfOp
  pure (.sizeOf (← parseIdentifier (← unwrapOption p.inner[0]?)))

/-- `parse_dynamic_array`: `[u8; x.size_of]`. -/
def parseDynamicArray (p : RulePair) : Except ParseError DynamicArray := do
  expectRule p .dynamicArray
  pure ⟨← parseSizeofOp (← unwrapOption p.inner[0]?)⟩

/-- `parse_array`: a primitive or a dynamic array; any other child is
`unimplemented!()`. -/
def parseArray (p : RulePair) : Except ParseError FieldArray := do
  expectRule p .array
  let q ← unwrapOption p.inner[0]?
  match q.rule with
  | .primitiveArray => .primitive <$> parsePrimitiveArray q
  | .dynamicArray => .dynamic <$> parseDynamicArray q
  | _ => .error (.panic "not implemented")

/-- `parse_name_value`: `NAME: x`. -/
def parseNameValue (p : RulePair) : Except ParseError Identifier := do
  expectRule p .nameValue
  parseIdentifier (← unwrapOption p.inner[0]?)

/-- `parse_type_value`: `TYPE: T` is an array of one `T`; any other child
than a type or an array is `panic!()`. -/
def parseTypeValue (p : RulePair) : Except ParseError FieldArray := do
  expectRule p .typeValue
  let q ← unwrapOption p.inner[0]?
  match q.rule with
  | .primitiveType => pure (.primitive ⟨← parsePrimitiveType q, 1⟩)
  | .array => parseArray q
  | _ => .error (.panic "explicit panic")

/-- `parse_field`: `{ NAME: x; TYPE: T }`. -/
def parseField (p : RulePair) : Except ParseError Field := do
  expectRule p .field
  let name ← parseNameValue (← unwrapOption p.inner[0]?)
  let dtype ← parseTypeValue (← unwrapOption p.inner[1]?)
  pure ⟨name, dtype⟩

/-- `parse_format`: `DEFINE Name field, field, …;`, with at least one
field. -/
def parseFormat (p : RulePair) : Except ParseError Format := do
  expectRule p .format
  let id ← parseIdentifier (← unwrapOption p.inner[0]?)
  let first ← parseField (← unwrapOption p.inner[1]?)
  let rest ← (p.inner.drop 2).mapM parseField
  pure ⟨id, first :: rest⟩

/-- `parse_fixed_string_semantic`: `FIXED_STRING("s")`, the text of the
string's body. -/
def parseFixedStringSemantic (p : RulePair) : Except ParseError FieldSemantic := do
  expectRule p .fixedStringSemantic
  let q ← unwrapOption p.inner[0]?
  let r ← unwrapOption q.inner[0]?
  pure (.fixedString r.str)

/-- `parse_field_semantic`: a fixed string, or a keyword read by
`parse_simple`; any other child is `unimplemented!()`. -/
def parseFieldSemantic (p : RulePair) : Except ParseError FieldSemantic := do
  expectRule p .fieldSemantic
  match p.inner[0]? with
  | some q =>
    if q.rule = .fixedStringSemantic then parseFixedStringSemantic q
    else .error (.panic "not implemented")
  | none => parseSimple FieldSemantic.fromStr p

/-- `parse_semantic_binding`: `{ FORMAT: F; FIELD: x; SEMANTIC: S };`. -/
def parseSemanticBinding (p : RulePair) : Except ParseError SemanticBinding := do
  expectRule p .semanticBinding
  let format ← parseIdentifier (← unwrapOption p.inner[0]?)
  let field ← parseIdentifier (← unwrapOption p.inner[1]?)
  let semantic ← parseFieldSemantic (← unwrapOption p.inner[2]?)
  pure ⟨format, field, semantic⟩

/-- `parse_role`. -/
def parseRole (p : RulePair) : Except ParseError Role := do
  expectRule p .role
  parseSimple Role.fromStr p

/-- `parse_phase`. -/
def parsePhase (p : RulePair) : Except ParseError Phase := do
  expectRule p .phase
  parseSimple Phase.fromStr p

/-- `parse_sequence_specifier`: `{ ROLE: R; PHASE: P; FORMAT: F };`. -/
def parseSequenceSpecifier (p : RulePair) : Except ParseError SequenceSpecifier := do
  expectRule p .sequenceSpecifier
  let role ← parseRole (← unwrapOption p.inner[0]?)
  let phase ← parsePhase (← unwrapOption p.inner[1]?)
  let format ← parseIdentifier (← unwrapOption p.inner[2]?)
  pure ⟨role, phase, format⟩

/-- `parse_password_assignment`: `PASSWORD = "s";`, the text of the
string's body. -/
def parsePasswordAssignment (p : RulePair) : Except ParseError Password := do
  expectRule p .passwordAssignment
  let q ← unwrapOption p.inner[0]?
  let r ← unwrapOption q.inner[0]?
  pure ⟨r.str⟩

/-- `parse_cipher`. -/
def parseCipher (p : RulePair) : Except ParseError Cipher := do
  expectRule p .cipher
  parseSimple Cipher.fromStr p

/-- `parse_cipher_assignment`: `CIPHER = C;`. -/
def parseCipherAssignment (p : RulePair) : Except ParseError Cipher := do
  expectRule p .cipherAssignment
  parseCipher (← unwrapOption p.inner[0]?)

/-- `parse_encryption_format_binding`: `ENCRYPT To FROM From`. -/
def parseEncryptionFormatBinding (p : RulePair) : Except ParseError EncryptionFormatBinding := do
  expectRule p .encryptionFormatBinding
  let toFormatName ← parseIdentifier (← unwrapOption p.inner[0]?)
  let fromFormatName ← parseIdentifier (← unwrapOption p.inner[1]?)
  pure ⟨toFormatName, fromFormatName⟩

/-- `parse_encryption_field_directive`: `{ PTEXT: p; CTEXT: c; MAC: m }`. -/
def parseEncryptionFieldDirective (p : RulePair) : Except ParseError EncryptionFieldDirective := do
  expectRule p .encryptionFieldDirective
  let ptextName ← parseIdentifier (← unwrapOption p.inner[0]?)
  let ctextName ← parseIdentifier (← unwrapOption p.inner[1]?)
  let macName ← parseIdentifier (← unwrapOption p.inner[2]?)
  pure ⟨ptextName, ctextName, macName⟩

/-- `parse_encryption_directives`: a format binding, then its field
directives. -/
def parseEncryptionDirectives (p : RulePair) : Except ParseError EncryptionDirectives := do
  expectRule p .encryptionDirectives
  let encFmtBnd ← parseEncryptionFormatBinding (← unwrapOption p.inner[0]?)
  let encFieldDirs ← (p.inner.drop 1).mapM parseEncryptionFieldDirective
  pure ⟨encFmtBnd, encFieldDirs⟩

/-- The locals of `parse_crypto_segment`'s loop. -/
structure CryptoAcc where
  password : Option Password
  cipher : Option Cipher
  encryptionDirectives : List EncryptionDirectives

/-- One turn of `parse_crypto_segment`'s loop: a later password or cipher
replaces an earlier one, directives accumulate, and any other entry is
`unimplemented!()`. -/
def cryptoSegmentStep (acc : CryptoAcc) (e : RulePair) : Except ParseError CryptoAcc :=
  match e.rule with
  | .passwordAssignment => do
    let password ← parsePasswordAssignment e
    pure { acc with password := some password }
  | .cipherAssignment => do
    let cipher ← parseCipherAssignment e
    pure { acc with cipher := some cipher }
  | .encryptionDirectives => do
    let d ← parseEncryptionDirectives e
    pure { acc with encryptionDirectives := acc.encryptionDirectives ++ [d] }
  | _ => .error (.panic "not implemented")

/-- `parse_crypto_segment`: the loop, then `CryptoSpec::new(password,
cipher.unwrap(), …)`. -/
def parseCryptoSegment (p : RulePair) : Except ParseError CryptoSpec := do
  expectRule p .cryptoSegment
  let acc ← p.inner.foldlM cryptoSegmentStep ⟨none, none, []⟩
  let cipher ← unwrapOption acc.cipher
  pure (CryptoSpec.new acc.password cipher acc.encryptionDirectives)

/-- The locals of `parse_psf_impl`'s loop. -/
structure PsfAcc where
  formats : Heap AbstractFormatAndSemantics
  sequence : List SequenceSpecifier
  cryptoSpec : Option CryptoSpec

/-- One turn of `parse_psf_impl`'s loop. A format is inserted under its
name, replacing any earlier one with its semantics; a semantic binding
looks its format up (`get_mut(..).unwrap()`) and binds the field; a
sequence specifier is pushed; a crypto segment replaces any earlier one;
any other pair is skipped. -/
def psfStep (acc : PsfAcc) (x : RulePair) : Except ParseError PsfAcc :=
  match x.rule with
  | .format => do
    let format := AbstractFormatAndSemantics.ofAbstractFormat ⟨← parseFormat x⟩
    pure { acc with formats := acc.formats.insert format.format.format.name format }
  | .semanticBinding => do
    let b ← parseSemanticBinding x
    let entry ← unwrapOption (acc.formats.get b.format)
    pure { acc with
      formats := acc.formats.insert b.format
        { entry with semantics := entry.semantics.insert b.field b.semantic } }
  | .sequenceSpecifier => do
    let s ← parseSequenceSpecifier x
    pure { acc with sequence := acc.sequence ++ [s] }
  | .cryptoSegment => do
    let c ← parseCryptoSegment x
    pure { acc with cryptoSpec := some c }
  | _ => pure acc

/-- `parse_psf_impl`: the loop over the top-level pairs. -/
def parsePsfImpl (p : RulePair) : Except ParseError PSF := do
  expectRule p .psf
  let acc ← p.inner.foldlM psfStep ⟨Heap.new, [], none⟩
  pure ⟨acc.formats, acc.sequence, acc.cryptoSpec⟩

end Parse

end Proteus
