import Proteus.Lang.Pump

/-!
Proteus.Lang.EncryptedLengthPayload — the encrypted length-prefixed
pipeline of the interpreter tests (`tests::encrypted::EncryptedLengthPayloadSpec`):
the provider, its messages, and its tasks as calls.

The init task derives a key from the password `hunter2` and installs it as a
client. The provider then hands out the same pair for every query. The out
task reads a payload, writes `|p| + 16` (the bytes after `length_mac`) into
the `u16` length field, encrypts the length and then the payload, and writes
the two ciphertexts and their two tags to the network. The in task reads the
length and its tag, decrypts the length, reads as many bytes less sixteen,
then the payload's tag, decrypts the payload and hands it to the app.

The cipher is `Crypto.Chacha`'s, over any `CryptoLib`. The results that need
decryption to undo encryption assume the library `Lawful`, and they relate
two ciphers by `Cipher.Follows`: the receiving half of one meets the sending
half of the other, nonce for nonce.

* `outTail`, `inMid`, `inTail`, `inMid_rejects`, `inMid_short`,
  `inTail_rejects` — the tasks run symbolically, from every program at
  that index: the two `DecryptField`s with a tag that verifies and one that
  does not, and the `ReadNet` of a length under sixteen.
* `outHead_call`, …, `inMid_rejects_call` — the same segments as calls from
  any reachable state (`Lang.Pump`); a call that follows a store is stated
  from the state before the store.
* **`inPump_rejects`** — a length whose tag does not verify panics with
  `decryption failure`.

What the pumps make of these calls, over whole streams and every schedule,
is `Lang.Receiver` (any frame) and `Lang.EncryptedPipeline` (sealed frames,
one end to the other).

The source's harness for this provider sends the in direction the length
`|p| + 16`, a zero tag, the payload and a zero tag, all in the clear, and
checks that the frame it is sent carries the payload at bytes
`18 .. |f| - 16`. Under `CryptoLib.clear` that is exactly the frame
`Lang.EncryptedPipeline` seals; under an AEAD that rejects the zero tag it
is `inPump_rejects`.
-/

namespace Proteus

namespace EncryptedLengthPayloadSpec

/-! ## 1. The provider -/

/-- `abs_format_out`: the length, its tag, the payload the length sizes,
and the payload's tag. -/
def absFormatOut : AbstractFormat :=
  ⟨⟨"DataMessageOut",
    [⟨"length", .primitive ⟨.numeric .u16, 1⟩⟩, ⟨"length_mac", .primitive ⟨.numeric .u8, 16⟩⟩,
      ⟨"payload", .dynamic ⟨.sizeOf "length"⟩⟩, ⟨"payload_mac", .primitive ⟨.numeric .u8, 16⟩⟩]⟩⟩

/-- `abs_format_in_1`: the length and its tag. -/
def absFormatIn1 : AbstractFormat :=
  ⟨⟨"DataMessageIn1",
    [⟨"length", .primitive ⟨.numeric .u16, 1⟩⟩, ⟨"length_mac", .primitive ⟨.numeric .u8, 16⟩⟩]⟩⟩

/-- `abs_format_in_2`: the payload and its tag. -/
def absFormatIn2 : AbstractFormat :=
  ⟨⟨"DataMessageIn2",
    [⟨"payload", .dynamic ⟨.sizeOf "length"⟩⟩, ⟨"payload_mac", .primitive ⟨.numeric .u8, 16⟩⟩]⟩⟩

/-- The `out_task` of `get_next_tasks`. `1..(u16::MAX - 32) as usize` is `1..65503`. -/
def outTask : Task :=
  ⟨[.readApp ⟨⟨1, 65503⟩, "payload"⟩,
    .concretizeFormat ⟨absFormatOut, "cformat"⟩,
    .createMessage ⟨"cformat", "message"⟩,
    .setArrayBytes ⟨"payload", "message", "payload"⟩,
    .computeLength ⟨"message", "length_mac", "length_value_on_heap"⟩,
    .setNumericValue ⟨"length_value_on_heap", "message", "length"⟩,
    .encryptField ⟨"message", "length", "enc_length_heap", "length_mac_heap"⟩,
    .encryptField ⟨"message", "payload", "enc_payload_heap", "payload_mac_heap"⟩,
    .setArrayBytes ⟨"enc_length_heap", "message", "length"⟩,
    .setArrayBytes ⟨"enc_payload_heap", "message", "payload"⟩,
    .setArrayBytes ⟨"length_mac_heap", "message", "length_mac"⟩,
    .setArrayBytes ⟨"payload_mac_heap", "message", "payload_mac"⟩,
    .writeNet ⟨"message"⟩], default⟩

/-- The `in_task` of `get_next_tasks`. -/
def inTask : Task :=
  ⟨[.readNet ⟨.range ⟨2, 3⟩, "length"⟩,
    .readNet ⟨.range ⟨16, 17⟩, "length_mac"⟩,
    .concretizeFormat ⟨absFormatIn1, "cformat1"⟩,
    .createMessage ⟨"cformat1", "message_length_part"⟩,
    .setArrayBytes ⟨"length", "message_length_part", "length"⟩,
    .setArrayBytes ⟨"length_mac", "message_length_part", "length_mac"⟩,
    .decryptField ⟨"message_length_part", "length", "length_mac", "dec_length_heap"⟩,
    .setArrayBytes ⟨"dec_length_heap", "message_length_part", "length"⟩,
    .getNumericValue ⟨"message_length_part", "length", "payload_len_value_heap"⟩,
    .readNet ⟨.identifierMinus "payload_len_value_heap" 16, "payload"⟩,
    .readNet ⟨.range ⟨16, 17⟩, "payload_mac"⟩,
    .concretizeFormat ⟨absFormatIn2, "cformat2"⟩,
    .createMessage ⟨"cformat2", "message_payload_part"⟩,
    .setArrayBytes ⟨"payload", "message_payload_part", "payload"⟩,
    .setArrayBytes ⟨"payload_mac", "message_payload_part", "payload_mac"⟩,
    .decryptField ⟨"message_payload_part", "payload", "payload_mac", "dec_payload_heap"⟩,
    .setArrayBytes ⟨"dec_payload_heap", "message_payload_part", "payload"⟩,
    .writeApp ⟨"message_payload_part", "payload"⟩], default⟩

/-- `get_init_task`: the shared key from the password `hunter2`, as a client. -/
def initTask : Task := ⟨[.initFixedSharedKey ⟨"hunter2", .client⟩], default⟩

/-- The pair `get_next_tasks` returns for every task id. -/
def pair : TaskPair := ⟨inTask, outTask⟩

/-- `EncryptedLengthPayloadSpec::new()`. -/
def new : TaskProvider where
  getInitTask := initTask
  getNextTasks _ := .inAndOutTasks pair

theorem splitPair : SplitPair new pair :=
  ⟨fun _ => rfl, fun d => by cases d <;> decide⟩

theorem ioSeparated : IoSeparated new := by
  refine ⟨fun i h => ?_, fun _ d t h => ?_⟩
  · simp only [new, initTask, List.mem_singleton] at h; subst h; intro e; cases e <;> rfl
  · cases d <;> simp only [new, TaskSet.offered, Option.some.injEq] at h <;> subst h <;> decide

/-- What `Interpreter::new(EncryptedLengthPayloadSpec::new())` returns: the
init task has installed the client's cipher on the key of `hunter2`. -/
def fresh (lib : CryptoLib) : Interpreter where
  spec := new
  cipher := some (Cipher.new (lib.deriveKey256 "hunter2" "stupid stupid stupid") .sender)
  nextNetopOut := none
  nextNetopIn := none
  currentProgOut := none
  currentProgIn := none
  lastTaskId := default
  wantsTasks := true
  history := []

/-- The init task's one instruction installs the cipher; nothing is pending. -/
theorem new_eq (lib : CryptoLib) : Interpreter.new lib new = .ok (fresh lib) := rfl

/-! ## 2. The messages -/

@[simp] theorem size_u8 (k : Nat) : (⟨.numeric .u8, k⟩ : PrimitiveArray).size = k := by
  simp [PrimitiveArray.size, PrimitiveType.size, NumericType.size]

@[simp] theorem size_u16 : (⟨.numeric .u16, 1⟩ : PrimitiveArray).size = 2 := rfl

/-- The out task's message, step by step: the payload set, the length
computed from `length_mac` on, the length set and read back, then the two
ciphertexts and the two tags set in place. Whatever bytes of the right
lengths the cipher returns, the message is those four, in order. -/
theorem outMessage (p : Bytes) (hp : p.length + 16 < 65536) {ct₁ mac₁ ct₂ mac₂ : Bytes}
    (h₁ : ct₁.length = 2) (h₂ : mac₁.length = 16) (h₃ : ct₂.length = p.length) (h₄ : mac₂.length = 16) :
    ∃ m₁ m₂ m₃ m₄ m₅ m₆,
      (Message.new (absFormatOut.concretize [("payload", p.length)])).setFieldBytes "payload" p = some m₁ ∧
      m₁.lenSuffix "length_mac" = some (p.length + 16) ∧
      m₁.setFieldUnsignedNumeric "length" (p.length + 16) = some m₂ ∧
      m₂.getFieldBytes "length" = some (natToBe 2 (p.length + 16)) ∧ m₂.getFieldBytes "payload" = some p ∧
      m₂.setFieldBytes "length" ct₁ = some m₃ ∧ m₃.setFieldBytes "payload" ct₂ = some m₄ ∧
      m₄.setFieldBytes "length_mac" mac₁ = some m₅ ∧ m₅.setFieldBytes "payload_mac" mac₂ = some m₆ ∧
      m₆.buf = ct₁ ++ mac₁ ++ ct₂ ++ mac₂ := by
  set F := absFormatOut.concretize [("payload", p.length)]
  have hL : F.locate "length" = some (0, ⟨.numeric .u16, 1⟩) := rfl
  have hLM : F.locate "length_mac" = some (2, ⟨.numeric .u8, 16⟩) := rfl
  have hP : F.locate "payload" = some (18, ⟨.numeric .u8, p.length⟩) := rfl
  have hPM : F.locate "payload_mac" = some (18 + p.length, ⟨.numeric .u8, 16⟩) := by
    simp [F, ConcreteFormat.locate, ConcreteFormat.locateFrom, AbstractFormat.concretize, absFormatOut]
  have hsize : F.size = 34 + p.length := by
    simp [F, ConcreteFormat.size, AbstractFormat.concretize, absFormatOut]; omega
  have h₀ : (Message.new F).buf =
      (List.replicate 2 0 ++ List.replicate 16 0) ++ List.replicate p.length 0 ++ List.replicate 16 0 := by
    simp only [Message.new, hsize, ← List.replicate_add]; congr 1; omega
  have f₀ : (Message.new F).format = F := rfl
  -- the payload, and the length it gives
  obtain ⟨m₁, e₁, f₁, b₁⟩ := Message.setFieldBytes_segment f₀ hP h₀ (by simp) (by simp) p (by simp)
  have hlen : m₁.lenSuffix "length_mac" = some (p.length + 16) := by
    rw [Message.lenSuffix_eq (f₁ ▸ hLM), f₁, hsize]; simp; omega
  obtain ⟨m₂, e₂, f₂, b₂⟩ := Message.setFieldBytes_segment f₁ hL
    (show m₁.buf = [] ++ List.replicate 2 0 ++ (List.replicate 16 0 ++ p ++ List.replicate 16 0) by simp [b₁])
    rfl (by simp) (natToBe 2 (p.length + 16)) (by simp)
  have e₂' : m₁.setFieldUnsignedNumeric "length" (p.length + 16) = some m₂ := by
    simp [Message.setFieldUnsignedNumeric, f₁ ▸ hL, PrimitiveArray.numericWidth, NumericType.size, e₂]; omega
  have b₂' : m₂.buf = [] ++ natToBe 2 (p.length + 16) ++ (List.replicate 16 0 ++ p ++ List.replicate 16 0) := by
    simp [b₂]
  -- the two ciphertexts and the two tags, each in its place
  obtain ⟨m₃, e₃, f₃, b₃⟩ := Message.setFieldBytes_segment f₂ hL b₂' rfl (by simp) ct₁ (by simp [h₁])
  obtain ⟨m₄, e₄, f₄, b₄⟩ := Message.setFieldBytes_segment f₃ hP
    (show m₃.buf = ct₁ ++ List.replicate 16 0 ++ p ++ List.replicate 16 0 by simp [b₃]) (by simp [h₁]) (by simp)
    ct₂ (by simp [h₃])
  obtain ⟨m₅, e₅, f₅, b₅⟩ := Message.setFieldBytes_segment f₄ hLM
    (show m₄.buf = ct₁ ++ List.replicate 16 0 ++ (ct₂ ++ List.replicate 16 0) by simp [b₄]) h₁ (by simp) mac₁
    (by simp [h₂])
  obtain ⟨m₆, e₆, -, b₆⟩ := Message.setFieldBytes_segment f₅ hPM
    (show m₅.buf = ct₁ ++ mac₁ ++ ct₂ ++ List.replicate 16 0 ++ [] by simp [b₅]) (by simp [h₁, h₂, h₃]; omega)
    (by simp) mac₂ (by simp [h₄])
  exact ⟨m₁, m₂, m₃, m₄, m₅, m₆, e₁, hlen, e₂', Message.getFieldBytes_segment f₂ hL b₂' rfl (by simp),
    Message.getFieldBytes_segment f₂ hP
      (show m₂.buf = natToBe 2 (p.length + 16) ++ List.replicate 16 0 ++ p ++ List.replicate 16 0 by simp [b₂])
      (by simp) (by simp), e₃, e₄, e₅, e₆, by simp [b₆]⟩

/-- The in task's first message: the length and its tag set and read back,
then the decrypted length set and read as a number. -/
theorem inHeaderMessage {lc lm pt : Bytes} (hc : lc.length = 2) (hm : lm.length = 16) (hpt : pt.length = 2) :
    ∃ m₁ m₂ m₃, (Message.new (absFormatIn1.concretize [])).setFieldBytes "length" lc = some m₁ ∧
      m₁.setFieldBytes "length_mac" lm = some m₂ ∧
      m₂.getFieldBytes "length" = some lc ∧ m₂.getFieldBytes "length_mac" = some lm ∧
      m₂.setFieldBytes "length" pt = some m₃ ∧ m₃.getFieldUnsignedNumeric "length" = some (beToNat pt) := by
  set F := absFormatIn1.concretize []
  have hL : F.locate "length" = some (0, ⟨.numeric .u16, 1⟩) := rfl
  have hLM : F.locate "length_mac" = some (2, ⟨.numeric .u8, 16⟩) := rfl
  have f₀ : (Message.new F).format = F := rfl
  obtain ⟨m₁, e₁, f₁, b₁⟩ := Message.setFieldBytes_segment f₀ hL
    (show (Message.new F).buf = [] ++ List.replicate 2 0 ++ List.replicate 16 0 from rfl) rfl (by simp) lc (by simp [hc])
  obtain ⟨m₂, e₂, f₂, b₂⟩ := Message.setFieldBytes_segment f₁ hLM
    (show m₁.buf = lc ++ List.replicate 16 0 ++ [] by simp [b₁]) hc (by simp) lm (by simp [hm])
  have b₂' : m₂.buf = [] ++ lc ++ lm := by simp [b₂]
  obtain ⟨m₃, e₃, f₃, b₃⟩ := Message.setFieldBytes_segment f₂ hL b₂' rfl (by simp [hc]) pt (by simp [hpt])
  refine ⟨m₁, m₂, m₃, e₁, e₂, Message.getFieldBytes_segment f₂ hL b₂' rfl (by simp [hc]),
    Message.getFieldBytes_segment f₂ hLM (show m₂.buf = lc ++ lm ++ [] by simp [b₂]) hc (by simp [hm]), e₃, ?_⟩
  simp [Message.getFieldUnsignedNumeric, f₃, hL, PrimitiveArray.numericWidth, NumericType.size, b₃, ← hpt]

/-- The in task's second message, sized by the payload's ciphertext: the
payload and its tag set and read back, then the plaintext set and handed
out. -/
theorem inPayloadMessage {pc pm pt : Bytes} (hm : pm.length = 16) (hpt : pt.length = pc.length) :
    ∃ m₁ m₂ m₃, (Message.new (absFormatIn2.concretize [("payload", pc.length)])).setFieldBytes "payload" pc = some m₁ ∧
      m₁.setFieldBytes "payload_mac" pm = some m₂ ∧
      m₂.getFieldBytes "payload" = some pc ∧ m₂.getFieldBytes "payload_mac" = some pm ∧
      m₂.setFieldBytes "payload" pt = some m₃ ∧ m₃.intoInnerField "payload" = some pt := by
  set F := absFormatIn2.concretize [("payload", pc.length)]
  have hP : F.locate "payload" = some (0, ⟨.numeric .u8, pc.length⟩) := rfl
  have hPM : F.locate "payload_mac" = some (pc.length, ⟨.numeric .u8, 16⟩) := by
    simp [F, ConcreteFormat.locate, ConcreteFormat.locateFrom, AbstractFormat.concretize, absFormatIn2]
  have f₀ : (Message.new F).format = F := rfl
  have h₀ : (Message.new F).buf = [] ++ List.replicate pc.length 0 ++ List.replicate 16 0 := by
    simp only [Message.new, List.nil_append, ← List.replicate_add]
    congr 1
    simp [F, ConcreteFormat.size, AbstractFormat.concretize, absFormatIn2]
  obtain ⟨m₁, e₁, f₁, b₁⟩ := Message.setFieldBytes_segment f₀ hP h₀ rfl (by simp) pc (by simp)
  obtain ⟨m₂, e₂, f₂, b₂⟩ := Message.setFieldBytes_segment f₁ hPM
    (show m₁.buf = pc ++ List.replicate 16 0 ++ [] by simp [b₁]) rfl (by simp) pm (by simp [hm])
  have b₂' : m₂.buf = [] ++ pc ++ pm := by simp [b₂]
  obtain ⟨m₃, e₃, f₃, b₃⟩ := Message.setFieldBytes_segment f₂ hP b₂' rfl (by simp) pt (by simp [hpt])
  exact ⟨m₁, m₂, m₃, e₁, e₂, Message.getFieldBytes_segment f₂ hP b₂' rfl (by simp),
    Message.getFieldBytes_segment f₂ hPM (show m₂.buf = pc ++ pm ++ [] by simp [b₂]) rfl (by simp [hm]), e₃,
    Message.getFieldBytes_segment f₃ hP (show m₃.buf = [] ++ pt ++ pm by simp [b₃]) rfl (by simp [hpt])⟩

/-- The frame the out task sends for `p` under cipher `ci`, and the cipher after:
the length field (`|p| + 16`, the bytes after `length_mac`) encrypted, its tag,
the payload encrypted, its tag. -/
def sealFrame (lib : CryptoLib) (ci : Cipher) (p : Bytes) : Bytes × Cipher :=
  let l := ci.encrypt lib (natToBe 2 (p.length + 16))
  let m := l.2.encrypt lib p
  (l.1.1 ++ l.1.2 ++ m.1.1 ++ m.1.2, m.2)

/-- A sealed frame is `34` bytes longer than its payload: two length bytes
and two tags. -/
theorem sealFrame_length {lib : CryptoLib} (hl : lib.Lawful) (ci : Cipher) (p : Bytes) :
    (sealFrame lib ci p).1.length = p.length + 34 := by
  simp only [sealFrame, List.length_append, Cipher.encrypt_ciphertext_length hl, Cipher.encrypt_mac_length hl,
    length_natToBe]
  omega

/-- Sealing a frame draws two sending nonces: the length's and the payload's. -/
theorem sealFrame_snd (lib : CryptoLib) (ci : Cipher) (p : Bytes) : (sealFrame lib ci p).2 = ci.advance 2 0 := by
  simp only [sealFrame, Cipher.encrypt_snd, Cipher.advance_advance]

/-! ## 3. The tasks, run symbolically -/

section Runs

variable (lib : CryptoLib)

/-- From index 1, the payload stored: the out task seals it and stops at
the `WriteNet`. -/
theorem outTail (hl : lib.Lawful) {q : Program} (hq : q.task = outTask) (hi : q.nextInsIndex = 1) {p : Bytes}
    (hp : q.bytesHeap.get "payload" = some p) (hlen : p.length + 16 < 65536) {c : Interpreter}
    (hn : c.nextNetop .outgoing = none) {ci : Cipher} (hc : c.cipher = some ci) :
    ∃ q' c', Interpreter.runUntilNetop lib .outgoing 12 q c =
        .ok (.netop (.sendNet ⟨(sealFrame lib ci p).1⟩) q' c') ∧
      q'.task = outTask ∧ q'.nextInsIndex = 13 ∧ c'.cipher = some (sealFrame lib ci p).2 := by
  obtain ⟨m₁, m₂, m₃, m₄, m₅, m₆, h₁, h₂, h₃, h₄, h₅, h₆, h₇, h₈, h₉, h₁₀⟩ := outMessage p hlen
    (show (ci.encrypt lib (natToBe 2 (p.length + 16))).1.1.length = 2 by
      rw [Cipher.encrypt_ciphertext_length hl, length_natToBe])
    (Cipher.encrypt_mac_length hl ci (natToBe 2 (p.length + 16)))
    (Cipher.encrypt_ciphertext_length hl (ci.encrypt lib (natToBe 2 (p.length + 16))).2 p)
    (Cipher.encrypt_mac_length hl (ci.encrypt lib (natToBe 2 (p.length + 16))).2 p)
  have hd : absFormatOut.getDynamicArrays = ["payload"] := rfl
  have hn' : c.nextNetopOut = none := hn
  simp [Interpreter.runUntilNetop, Program.executeNextInstruction, hq, hi, outTask,
    Program.executeInstruction, hp, hc, h₁, h₂, h₃, h₄, h₅, h₆, h₇, h₈, h₉, h₁₀, hd, hn', List.mapM.loop, Except.ok_bind,
    Except.pure_def, Interpreter.nextNetop, Message.intoInner, Interpreter.record, sealFrame, and_assoc]


/-- From index 2, the length and its tag stored: the in task decrypts the
length and stops at the `ReadNet` for as many payload bytes as it says, less
sixteen. -/
theorem inMid {q : Program} (hq : q.task = inTask) (hi : q.nextInsIndex = 2) {lc lm : Bytes}
    (hlc : q.bytesHeap.get "length" = some lc) (hlm : q.bytesHeap.get "length_mac" = some lm)
    (hc₂ : lc.length = 2) (hm₁₆ : lm.length = 16) {c : Interpreter} (hn : c.nextNetop .incoming = none)
    {ci ci' : Cipher} (hc : c.cipher = some ci) {pt : Bytes} (hd : ci.decrypt lib lc lm = .ok (pt, ci'))
    (hpt : pt.length = 2) (h16 : 16 ≤ beToNat pt) :
    ∃ q' c', Interpreter.runUntilNetop lib .incoming 16 q c =
        .ok (.netop (.recvNet ⟨⟨beToNat pt - 16, beToNat pt - 16 + 1⟩, "payload"⟩) q' c') ∧
      q'.task = inTask ∧ q'.nextInsIndex = 10 ∧ c'.cipher = some ci' := by
  obtain ⟨m₁, m₂, m₃, e₁, e₂, g₁, g₂, e₃, g₃⟩ := inHeaderMessage hc₂ hm₁₆ hpt
  have hlt : beToNat pt < 65536 := by simpa [hpt] using beToNat_lt pt
  have hmod : beToNat pt % usizeModulus = beToNat pt := Nat.mod_eq_of_lt (by unfold usizeModulus; omega)
  have hsub : usizeSub (beToNat pt) 16 = .ok (beToNat pt - 16) := by simp [usizeSub, h16]
  have hadd : usizeAdd (beToNat pt - 16) 1 = .ok (beToNat pt - 16 + 1) := by
    simp [usizeAdd, usizeModulus]; omega
  have hcopy : Program.copyFromSlice16 lm = .ok lm := by simp [Program.copyFromSlice16, hm₁₆]
  have hd₀ : absFormatIn1.getDynamicArrays = [] := rfl
  have hn' : c.nextNetopIn = none := hn
  simp [Interpreter.runUntilNetop, Program.executeNextInstruction, hq, hi, inTask,
    Program.executeInstruction, hlc, hlm, hc, hd, e₁, e₂, g₁, g₂, e₃, g₃, hd₀, hn', hmod, hsub, hadd, hcopy,
    Program.readNetRange, Except.ok_bind, List.mapM.loop, Except.pure_def, Interpreter.nextNetop,
    Interpreter.record, and_assoc]

/-- From index 2, when the length does not open under the next receiving
nonce, the in task panics in `DecryptField`. -/
theorem inMid_rejects {q : Program} (hq : q.task = inTask) (hi : q.nextInsIndex = 2) {lc lm : Bytes}
    (hlc : q.bytesHeap.get "length" = some lc) (hlm : q.bytesHeap.get "length_mac" = some lm)
    (hc₂ : lc.length = 2) (hm₁₆ : lm.length = 16) {c : Interpreter} (hn : c.nextNetop .incoming = none)
    {ci : Cipher} (hc : c.cipher = some ci)
    (hd : lib.aeadDecrypt ci.decryptionKey (ci.decryptionNonceGen.getNonce lib.salsa20).1 lc lm = none) :
    Interpreter.runUntilNetop lib .incoming 16 q c = .error (.panic "decryption failure") := by
  obtain ⟨m₁, m₂, -, e₁, e₂, g₁, g₂, -, -⟩ := inHeaderMessage hc₂ hm₁₆ (length_natToBe 2 0)
  have hcopy : Program.copyFromSlice16 lm = .ok lm := by simp [Program.copyFromSlice16, hm₁₆]
  have hd₀ : absFormatIn1.getDynamicArrays = [] := rfl
  have hn' : c.nextNetopIn = none := hn
  simp [Interpreter.runUntilNetop, Program.executeNextInstruction, hq, hi, inTask,
    Program.executeInstruction, hlc, hlm, hc, e₁, e₂, g₁, g₂, hd₀, hn', hcopy, Cipher.decrypt, hd,
    Except.ok_bind, Except.error_bind, List.mapM.loop, Except.pure_def, Interpreter.nextNetop, Interpreter.record]

/-- From index 2, when the length opens to less than sixteen, the in task
panics in the `ReadNet` that takes sixteen from it. -/
theorem inMid_short {q : Program} (hq : q.task = inTask) (hi : q.nextInsIndex = 2) {lc lm : Bytes}
    (hlc : q.bytesHeap.get "length" = some lc) (hlm : q.bytesHeap.get "length_mac" = some lm)
    (hc₂ : lc.length = 2) (hm₁₆ : lm.length = 16) {c : Interpreter} (hn : c.nextNetop .incoming = none)
    {ci ci' : Cipher} (hc : c.cipher = some ci) {pt : Bytes} (hd : ci.decrypt lib lc lm = .ok (pt, ci'))
    (hpt : pt.length = 2) (h16 : beToNat pt < 16) :
    Interpreter.runUntilNetop lib .incoming 16 q c = .error (.panic "attempt to subtract with overflow") := by
  obtain ⟨m₁, m₂, m₃, e₁, e₂, g₁, g₂, e₃, g₃⟩ := inHeaderMessage hc₂ hm₁₆ hpt
  have hmod : beToNat pt % usizeModulus = beToNat pt := Nat.mod_eq_of_lt (by unfold usizeModulus; omega)
  have hsub : usizeSub (beToNat pt) 16 = .error (.panic "attempt to subtract with overflow") := by
    unfold usizeSub; rw [if_neg (by omega)]
  have hcopy : Program.copyFromSlice16 lm = .ok lm := by simp [Program.copyFromSlice16, hm₁₆]
  have hd₀ : absFormatIn1.getDynamicArrays = [] := rfl
  have hn' : c.nextNetopIn = none := hn
  simp [Interpreter.runUntilNetop, Program.executeNextInstruction, hq, hi, inTask,
    Program.executeInstruction, hlc, hlm, hc, hd, e₁, e₂, g₁, g₂, e₃, g₃, hd₀, hn', hmod, hsub, hcopy,
    Program.readNetRange, Except.ok_bind, Except.error_bind, List.mapM.loop, Except.pure_def, Interpreter.nextNetop,
    Interpreter.record]

/-- From index 11, the payload and its tag stored: the in task decrypts the
payload and stops at the `WriteApp`. -/
theorem inTail {q : Program} (hq : q.task = inTask) (hi : q.nextInsIndex = 11) {pc pm : Bytes}
    (hpc : q.bytesHeap.get "payload" = some pc) (hpm : q.bytesHeap.get "payload_mac" = some pm)
    (hm₁₆ : pm.length = 16) {c : Interpreter} (hn : c.nextNetop .incoming = none)
    {ci ci' : Cipher} (hc : c.cipher = some ci) {pt : Bytes} (hd : ci.decrypt lib pc pm = .ok (pt, ci'))
    (hpt : pt.length = pc.length) :
    ∃ q' c', Interpreter.runUntilNetop lib .incoming 7 q c = .ok (.netop (.sendApp ⟨pt⟩) q' c') ∧
      q'.task = inTask ∧ q'.nextInsIndex = 18 ∧ c'.cipher = some ci' := by
  obtain ⟨m₁, m₂, m₃, e₁, e₂, g₁, g₂, e₃, g₃⟩ := inPayloadMessage hm₁₆ hpt
  have hcopy : Program.copyFromSlice16 pm = .ok pm := by simp [Program.copyFromSlice16, hm₁₆]
  have hd₀ : absFormatIn2.getDynamicArrays = ["payload"] := rfl
  have hn' : c.nextNetopIn = none := hn
  simp [Interpreter.runUntilNetop, Program.executeNextInstruction, hq, hi, inTask,
    Program.executeInstruction, hpc, hpm, hc, hd, e₁, e₂, g₁, g₂, e₃, g₃, hd₀, hn', hcopy, List.mapM.loop,
    Except.ok_bind, Except.pure_def, Interpreter.nextNetop, Interpreter.record, and_assoc]

/-- From index 11, when the payload does not open under the next receiving
nonce, the in task panics in `DecryptField`. -/
theorem inTail_rejects {q : Program} (hq : q.task = inTask) (hi : q.nextInsIndex = 11) {pc pm : Bytes}
    (hpc : q.bytesHeap.get "payload" = some pc) (hpm : q.bytesHeap.get "payload_mac" = some pm)
    (hm₁₆ : pm.length = 16) {c : Interpreter} (hn : c.nextNetop .incoming = none) {ci : Cipher}
    (hc : c.cipher = some ci)
    (hd : lib.aeadDecrypt ci.decryptionKey (ci.decryptionNonceGen.getNonce lib.salsa20).1 pc pm = none) :
    Interpreter.runUntilNetop lib .incoming 7 q c = .error (.panic "decryption failure") := by
  obtain ⟨m₁, m₂, -, e₁, e₂, g₁, g₂, -, -⟩ := @inPayloadMessage pc pm pc hm₁₆ rfl
  have hcopy : Program.copyFromSlice16 pm = .ok pm := by simp [Program.copyFromSlice16, hm₁₆]
  have hd₀ : absFormatIn2.getDynamicArrays = ["payload"] := rfl
  have hn' : c.nextNetopIn = none := hn
  simp [Interpreter.runUntilNetop, Program.executeNextInstruction, hq, hi, inTask,
    Program.executeInstruction, hpc, hpm, hc, e₁, e₂, g₁, g₂, hd₀, hn', hcopy, Cipher.decrypt, hd, List.mapM.loop,
    Except.ok_bind, Except.error_bind, Except.pure_def, Interpreter.nextNetop, Interpreter.record]

end Runs

/-! ## 4. The calls of each direction -/

section Calls

variable {lib : CryptoLib} {int : Interpreter}

theorem outHead_call (hr : Reachable lib new int) (hb : AtBoundary pair .outgoing int) (fuel : Nat) :
    ∃ int' q, int.nextNetCmd lib .outgoing (fuel + 2) = .ok (.ok (.recvApp ⟨⟨1, 65503⟩, "payload"⟩), int') ∧
      int'.currentProg .outgoing = some q ∧ ((q.task = outTask ∧ q.nextInsIndex = 1) ∧ int'.cipher = int.cipher) :=
  (hr.steady splitPair).nextNetCmd_boundary splitPair ((reachable_pendingInv ioSeparated hr).nextNetop_none _) hb
    (fun q ci => (q.task = outTask ∧ q.nextInsIndex = 1) ∧ ci = int.cipher) (fun q hq hi c _ hcc => by
      obtain ⟨c', hrun, hc'⟩ := runUntilNetop_readApp lib
        (show q.task.ins[q.nextInsIndex]? = some (.readApp ⟨⟨1, 65503⟩, "payload"⟩) by rw [hq, hi]; rfl) c 12
      exact ⟨_, c', hrun, ⟨hq, by rw [hi]⟩, hc'.trans hcc⟩) fuel

theorem outTail_call (hl : lib.Lawful) (hr : Reachable lib new int) {q : Program}
    (hcur : int.currentProg .outgoing = some q) (hq : q.task = outTask) (hi : q.nextInsIndex = 1) (p : Bytes)
    (hlen : p.length + 16 < 65536) {ci : Cipher} (hc : int.cipher = some ci) (fuel : Nat) :
    ∃ int' q', (int.store .outgoing "payload" p).nextNetCmd lib .outgoing (fuel + 1) =
        .ok (.ok (.sendNet ⟨(sealFrame lib ci p).1⟩), int') ∧ int'.currentProg .outgoing = some q' ∧
      ((q'.task = outTask ∧ q'.nextInsIndex = 13) ∧ int'.cipher = some (sealFrame lib ci p).2) :=
  hr.store_netop splitPair ioSeparated hcur "payload" p
    (fun q' c => (q'.task = outTask ∧ q'.nextInsIndex = 13) ∧ c = some (sealFrame lib ci p).2) (fun c hn hcc => by
      rw [hq, hi]
      obtain ⟨q', c', hrun, ht, hi', hc'⟩ :=
        outTail lib hl (show (q.storeBytes "payload" p).task = outTask from hq) hi (by simp [Program.storeBytes]) hlen
          hn (hcc.trans hc)
      exact ⟨q', c', hrun, ⟨ht, hi'⟩, hc'⟩) fuel

theorem inHead_call (hr : Reachable lib new int) (hb : AtBoundary pair .incoming int) (fuel : Nat) :
    ∃ int' q, int.nextNetCmd lib .incoming (fuel + 2) = .ok (.ok (.recvNet ⟨⟨2, 3⟩, "length"⟩), int') ∧
      int'.currentProg .incoming = some q ∧ ((q.task = inTask ∧ q.nextInsIndex = 1) ∧ int'.cipher = int.cipher) :=
  (hr.steady splitPair).nextNetCmd_boundary splitPair ((reachable_pendingInv ioSeparated hr).nextNetop_none _) hb
    (fun q ci => (q.task = inTask ∧ q.nextInsIndex = 1) ∧ ci = int.cipher) (fun q hq hi c _ hcc => by
      obtain ⟨c', hrun, hc'⟩ := runUntilNetop_readNet lib
        (show q.task.ins[q.nextInsIndex]? = some (.readNet ⟨.range ⟨2, 3⟩, "length"⟩) by rw [hq, hi]; rfl) c 17
      exact ⟨_, c', hrun, ⟨hq, by rw [hi]⟩, hc'.trans hcc⟩) fuel

theorem inMid_call (hr : Reachable lib new int) {q : Program} (hcur : int.currentProg .incoming = some q)
    (hq : q.task = inTask) (hi : q.nextInsIndex = 2) {lc : Bytes} (hlc : q.bytesHeap.get "length" = some lc)
    (lm : Bytes) (hc₂ : lc.length = 2) (hm₁₆ : lm.length = 16) {ci ci' : Cipher} (hc : int.cipher = some ci)
    {pt : Bytes} (hd : ci.decrypt lib lc lm = .ok (pt, ci')) (hpt : pt.length = 2) (h16 : 16 ≤ beToNat pt)
    (fuel : Nat) :
    ∃ int' q', (int.store .incoming "length_mac" lm).nextNetCmd lib .incoming (fuel + 1) =
        .ok (.ok (.recvNet ⟨⟨beToNat pt - 16, beToNat pt - 16 + 1⟩, "payload"⟩), int') ∧
      int'.currentProg .incoming = some q' ∧ ((q'.task = inTask ∧ q'.nextInsIndex = 10) ∧ int'.cipher = some ci') :=
  hr.store_netop splitPair ioSeparated hcur "length_mac" lm
    (fun q' c => (q'.task = inTask ∧ q'.nextInsIndex = 10) ∧ c = some ci') (fun c hn hcc => by
      rw [hq, hi]
      obtain ⟨q', c', hrun, ht, hi', hc'⟩ := inMid lib (show (q.storeBytes "length_mac" lm).task = inTask from hq) hi
        (by simp [Program.storeBytes, hlc])
        (by simp [Program.storeBytes]) hc₂ hm₁₆ hn (hcc.trans hc) hd hpt h16
      exact ⟨q', c', hrun, ⟨ht, hi'⟩, hc'⟩) fuel

theorem inTail_call (hr : Reachable lib new int) {q : Program} (hcur : int.currentProg .incoming = some q)
    (hq : q.task = inTask) (hi : q.nextInsIndex = 11) {pc : Bytes} (hpc : q.bytesHeap.get "payload" = some pc)
    (pm : Bytes) (hm₁₆ : pm.length = 16) {ci ci' : Cipher} (hc : int.cipher = some ci) {pt : Bytes}
    (hd : ci.decrypt lib pc pm = .ok (pt, ci')) (hpt : pt.length = pc.length) (fuel : Nat) :
    ∃ int' q', (int.store .incoming "payload_mac" pm).nextNetCmd lib .incoming (fuel + 1) =
        .ok (.ok (.sendApp ⟨pt⟩), int') ∧
      int'.currentProg .incoming = some q' ∧ ((q'.task = inTask ∧ q'.nextInsIndex = 18) ∧ int'.cipher = some ci') :=
  hr.store_netop splitPair ioSeparated hcur "payload_mac" pm
    (fun q' c => (q'.task = inTask ∧ q'.nextInsIndex = 18) ∧ c = some ci') (fun c hn hcc => by
      rw [hq, hi]
      obtain ⟨q', c', hrun, ht, hi', hc'⟩ := inTail lib (show (q.storeBytes "payload_mac" pm).task = inTask from hq) hi
        (by simp [Program.storeBytes, hpc])
        (by simp [Program.storeBytes]) hm₁₆ hn (hcc.trans hc) hd hpt
      exact ⟨q', c', hrun, ⟨ht, hi'⟩, hc'⟩) fuel

/-- The call after the length's tag is stored panics when the length does
not open. -/
theorem inMid_rejects_call (hr : Reachable lib new int) {q : Program} (hcur : int.currentProg .incoming = some q)
    (hq : q.task = inTask) (hi : q.nextInsIndex = 2) {lc : Bytes} (hlc : q.bytesHeap.get "length" = some lc)
    (lm : Bytes) (hc₂ : lc.length = 2) (hm₁₆ : lm.length = 16) {ci : Cipher} (hc : int.cipher = some ci)
    (hd : lib.aeadDecrypt ci.decryptionKey (ci.decryptionNonceGen.getNonce lib.salsa20).1 lc lm = none) (fuel : Nat) :
    (int.store .incoming "length_mac" lm).nextNetCmd lib .incoming (fuel + 1) = .error (.panic "decryption failure") :=
  hr.store_error splitPair ioSeparated hcur "length_mac" lm (fun c hn hcc => by
    rw [hq, hi]
    exact inMid_rejects lib (show (q.storeBytes "length_mac" lm).task = inTask from hq) hi
      (by simp [Program.storeBytes, hlc]) (by simp [Program.storeBytes]) hc₂ hm₁₆ hn
      (hcc.trans hc) hd) fuel

/-- The call after the length's tag is stored panics when the length opens
to less than sixteen. -/
theorem inMid_short_call (hr : Reachable lib new int) {q : Program} (hcur : int.currentProg .incoming = some q)
    (hq : q.task = inTask) (hi : q.nextInsIndex = 2) {lc : Bytes} (hlc : q.bytesHeap.get "length" = some lc)
    (lm : Bytes) (hc₂ : lc.length = 2) (hm₁₆ : lm.length = 16) {ci ci' : Cipher} (hc : int.cipher = some ci)
    {pt : Bytes} (hd : ci.decrypt lib lc lm = .ok (pt, ci')) (hpt : pt.length = 2) (h16 : beToNat pt < 16)
    (fuel : Nat) :
    (int.store .incoming "length_mac" lm).nextNetCmd lib .incoming (fuel + 1) =
      .error (.panic "attempt to subtract with overflow") :=
  hr.store_error splitPair ioSeparated hcur "length_mac" lm (fun c hn hcc => by
    rw [hq, hi]
    exact inMid_short lib (show (q.storeBytes "length_mac" lm).task = inTask from hq) hi
      (by simp [Program.storeBytes, hlc]) (by simp [Program.storeBytes]) hc₂ hm₁₆ hn (hcc.trans hc) hd hpt h16) fuel

/-- The call after the payload's tag is stored panics when the payload does
not open. -/
theorem inTail_rejects_call (hr : Reachable lib new int) {q : Program} (hcur : int.currentProg .incoming = some q)
    (hq : q.task = inTask) (hi : q.nextInsIndex = 11) {pc : Bytes} (hpc : q.bytesHeap.get "payload" = some pc)
    (pm : Bytes) (hm₁₆ : pm.length = 16) {ci : Cipher} (hc : int.cipher = some ci)
    (hd : lib.aeadDecrypt ci.decryptionKey (ci.decryptionNonceGen.getNonce lib.salsa20).1 pc pm = none) (fuel : Nat) :
    (int.store .incoming "payload_mac" pm).nextNetCmd lib .incoming (fuel + 1) = .error (.panic "decryption failure") :=
  hr.store_error splitPair ioSeparated hcur "payload_mac" pm (fun c hn hcc => by
    rw [hq, hi]
    exact inTail_rejects lib (show (q.storeBytes "payload_mac" pm).task = inTask from hq) hi
      (by simp [Program.storeBytes, hpc]) (by simp [Program.storeBytes]) hm₁₆ hn (hcc.trans hc) hd) fuel

end Calls

/-! ## 5. A length whose tag does not verify -/

section Edge

variable {lib : CryptoLib} {int : Interpreter}

/-- **A tag that does not verify is fatal.** From a reachable state whose in
direction is between two messages and whose cipher is `ci`: the in call asks
for the two length bytes, then for the sixteen bytes of their tag; if the
pair does not open under `ci`'s next receiving nonce, the next in call
panics. -/
theorem inPump_rejects (hr : Reachable lib new int) (hb : AtBoundary pair .incoming int) {ci : Cipher}
    (hc : int.cipher = some ci) {lc lm : Bytes} (hc₂ : lc.length = 2) (hm₁₆ : lm.length = 16)
    (hd : lib.aeadDecrypt ci.decryptionKey (ci.decryptionNonceGen.getNonce lib.salsa20).1 lc lm = none)
    (fuel : Nat) :
    ∃ int₁ int₂, int.nextNetCmd lib .incoming (fuel + 2) = .ok (.ok (.recvNet ⟨⟨2, 3⟩, "length"⟩), int₁) ∧
      (int₁.store .incoming "length" lc).nextNetCmd lib .incoming (fuel + 1) =
        .ok (.ok (.recvNet ⟨⟨16, 17⟩, "length_mac"⟩), int₂) ∧
      (int₂.store .incoming "length_mac" lm).nextNetCmd lib .incoming (fuel + 1) =
        .error (.panic "decryption failure") := by
  obtain ⟨int₁, q₁, hc₁, hcur₁, ⟨ht₁, hi₁⟩, hcip₁⟩ := inHead_call hr hb fuel
  have hr₁ := hr.nextNetCmd hc₁
  obtain ⟨int₃, hc₃, hcur₃, hcip₃⟩ := hr₁.store_readNet splitPair ioSeparated hcur₁ "length" lc
    (by rw [ht₁, hi₁]; rfl) fuel
  exact ⟨int₁, int₃, hc₁, hc₃, inMid_rejects_call ((hr₁.store .incoming "length" lc).nextNetCmd hc₃) hcur₃ ht₁
    (by simp [hi₁]) (by simp [Program.storeBytes]) lm hc₂ hm₁₆ (by simp [hcip₃, hcip₁, hc]) hd fuel⟩

theorem inPump_rejects_ones :
    Reachable CryptoLib.clear new (fresh CryptoLib.clear) ∧ AtBoundary pair .incoming (fresh CryptoLib.clear) ∧
    (fresh CryptoLib.clear).cipher = some (Cipher.new [] .sender) ∧ ([0, 21] : Bytes).length = 2 ∧
    (List.replicate 16 1 : Bytes).length = 16 ∧
    CryptoLib.clear.aeadDecrypt (Cipher.new [] .sender).decryptionKey
      ((Cipher.new [] .sender).decryptionNonceGen.getNonce CryptoLib.clear.salsa20).1 [0, 21] (List.replicate 16 1) =
        none ∧
    ∃ int₁ int₂, (fresh CryptoLib.clear).nextNetCmd CryptoLib.clear .incoming (0 + 2) =
        .ok (.ok (.recvNet ⟨⟨2, 3⟩, "length"⟩), int₁) ∧
      (int₁.store .incoming "length" [0, 21]).nextNetCmd CryptoLib.clear .incoming (0 + 1) =
        .ok (.ok (.recvNet ⟨⟨16, 17⟩, "length_mac"⟩), int₂) ∧
      (int₂.store .incoming "length_mac" (List.replicate 16 1)).nextNetCmd CryptoLib.clear .incoming (0 + 1) =
        .error (.panic "decryption failure") :=
  have hd : CryptoLib.clear.aeadDecrypt (Cipher.new [] .sender).decryptionKey
      ((Cipher.new [] .sender).decryptionNonceGen.getNonce CryptoLib.clear.salsa20).1 [0, 21] (List.replicate 16 1) =
        none := by decide
  have hc₂ : ([0, 21] : Bytes).length = 2 := rfl
  ⟨.new (new_eq _), .inl rfl, rfl, hc₂, List.length_replicate _ _, hd,
    inPump_rejects (.new (new_eq _)) (.inl rfl) rfl hc₂ (List.length_replicate _ _) hd 0⟩

end Edge

end EncryptedLengthPayloadSpec

end Proteus
