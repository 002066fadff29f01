import Proteus.Lang.EncryptedLengthPayload

/-!
Proteus.Lang.Receiver — the in direction of `EncryptedLengthPayloadSpec` on
whatever the network sends.

The in task reads a frame in four parts: the length and its tag, the payload
and its tag. It opens the length with the receiving half of the cipher,
reads as many payload bytes as the length says less sixteen, and opens the
payload with the next receiving nonce. None of the bytes is trusted here: a
`Frame` is any four parts of the sizes the task's fixed `ReadNet`s ask for,
the payload of any length.

`openFrame` says what a receiver that fails closed makes of one frame: the
payload's size it asks for, the plaintext and the cipher after, or nothing
when a tag does not verify or the length is under sixteen. `openFrames` runs
it over a stream up to the first frame that does not open. The results show
the interpreter computes exactly that. The lemmas for one frame ask only
that its decryptions have the lengths the in task's formats need
(`Frame.Sized`): every frame has them under an AEAD whose plaintexts are as
long as their ciphertexts (`CryptoLib.KeepsLength`), and a sealed frame under
a lawful one, which is how `Lang.EncryptedPipeline` reads its frames.

* `inFrame_head`, `inFrame_tail` — the two halves of a frame as calls from
  any reachable state, each ending on the outcome of its `DecryptField`.
* **`inPump_anyFrame`** — one frame, call by call, with the text of each
  panic: the app is handed a plaintext only when both tags verify.
* `inCycle_frame` — one sized frame through the in pump: nine turns that
  hand out `frameResults` and leave the pump ready, or a run that fails.
* **`inPump_session`** — any stream of frames, in every schedule: the in
  pump hands the app exactly the payloads `openFrames` opens, in order, and
  the run stops at the first frame that does not open.
-/

namespace Proteus

namespace EncryptedLengthPayloadSpec

/-! ## 1. Frames, and what a receiver makes of them -/

/-- A frame as the in task reads it: two length bytes and their tag, the
payload's bytes and their tag. The three fixed parts have the sizes their
`ReadNet`s ask for; the payload may have any length. -/
structure Frame where
  length : Bytes
  lengthMac : Bytes
  payload : Bytes
  payloadMac : Bytes
  length_size : length.length = 2
  lengthMac_size : lengthMac.length = 16
  payloadMac_size : payloadMac.length = 16

/-- The blobs the in pump stores for a frame, in order. -/
def Frame.parts (f : Frame) : List Bytes := [f.length, f.lengthMac, f.payload, f.payloadMac]

/-- What a receiver with cipher `ci` makes of frame `f`: the length opened
under the next receiving nonce, the payload's size it gives (sixteen less),
the payload opened under the nonce after, and the cipher after both. `none`
when a tag does not verify or the length is under sixteen. -/
def openFrame (lib : CryptoLib) (ci : Cipher) (f : Frame) : Option (Nat × Bytes × Cipher) :=
  match ci.decrypt lib f.length f.lengthMac with
  | .error _ => none
  | .ok (len, ci₁) =>
    if beToNat len < 16 then none
    else match ci₁.decrypt lib f.payload f.payloadMac with
      | .error _ => none
      | .ok (pt, ci₂) => some (beToNat len - 16, pt, ci₂)

/-- The frames of a stream that open, from cipher `ci`, up to the first that
does not: for each, the payload's size asked for and the plaintext. -/
def openFrames (lib : CryptoLib) : Cipher → List Frame → List (Nat × Bytes)
  | _, [] => []
  | ci, f :: fs =>
    match openFrame lib ci f with
    | none => []
    | some (n, pt, ci') => (n, pt) :: openFrames lib ci' fs

/-- The decryptions of frame `f` from cipher `ci` have the lengths the in
task's formats need: the length opens to two bytes, and the payload to as
many bytes as its ciphertext. Every frame has them under an AEAD that keeps
lengths, and a sealed frame under a lawful one. -/
def Frame.Sized (lib : CryptoLib) (ci : Cipher) (f : Frame) : Prop :=
  ∀ len ci₁, ci.decrypt lib f.length f.lengthMac = .ok (len, ci₁) → len.length = 2 ∧
    ∀ pt ci₂, ci₁.decrypt lib f.payload f.payloadMac = .ok (pt, ci₂) → pt.length = f.payload.length

theorem Frame.sized_of_keepsLength {lib : CryptoLib} (hk : lib.KeepsLength) (ci : Cipher) (f : Frame) :
    f.Sized lib ci := fun _ _ hd =>
  ⟨(Cipher.decrypt_length hk hd).trans f.length_size, fun _ _ hd₂ => Cipher.decrypt_length hk hd₂⟩

/-- What the in pump's calls return for a frame that opens to `pt`, its
payload asked for as `n` bytes. -/
def frameResults (n : Nat) (pt : Bytes) : List (Except Unit (NetOp .incoming)) :=
  [.ok (NetOpIn.recvNet ⟨⟨2, 3⟩, "length"⟩), .ok (NetOpIn.recvNet ⟨⟨16, 17⟩, "length_mac"⟩),
    .ok (NetOpIn.recvNet ⟨⟨n, n + 1⟩, "payload"⟩), .ok (NetOpIn.recvNet ⟨⟨16, 17⟩, "payload_mac"⟩),
    .ok (NetOpIn.sendApp ⟨pt⟩)]

/-! ## 2. A frame, call by call -/

section Calls

variable {lib : CryptoLib} {int : Interpreter}

/-- The first half of any frame: from a boundary, the in calls ask for the
length and its tag, and the call after the tag opens the length under the
next receiving nonce. It panics when the length does not open or is under
sixteen; otherwise it asks for the payload, its program at index `10`. The
length is assumed to open, if it does, to two bytes. -/
theorem inFrame_head (hr : Reachable lib new int) (hb : AtBoundary pair .incoming int)
    {ci : Cipher} (hc : int.cipher = some ci) {lc lm : Bytes} (hc₂ : lc.length = 2) (hm₁₆ : lm.length = 16)
    (hlen : ∀ len ci₁, ci.decrypt lib lc lm = .ok (len, ci₁) → len.length = 2) (fuel : Nat) :
    ∃ int₁ int₂, int.nextNetCmd lib .incoming (fuel + 2) = .ok (.ok (.recvNet ⟨⟨2, 3⟩, "length"⟩), int₁) ∧
      (int₁.store .incoming "length" lc).nextNetCmd lib .incoming (fuel + 1) =
        .ok (.ok (.recvNet ⟨⟨16, 17⟩, "length_mac"⟩), int₂) ∧
      match ci.decrypt lib lc lm with
      | .error e => (int₂.store .incoming "length_mac" lm).nextNetCmd lib .incoming (fuel + 1) = .error e
      | .ok (len, ci₁) =>
        if beToNat len < 16 then
          (int₂.store .incoming "length_mac" lm).nextNetCmd lib .incoming (fuel + 1) =
            .error (.panic "attempt to subtract with overflow")
        else ∃ int₃ q, (int₂.store .incoming "length_mac" lm).nextNetCmd lib .incoming (fuel + 1) =
            .ok (.ok (.recvNet ⟨⟨beToNat len - 16, beToNat len - 16 + 1⟩, "payload"⟩), int₃) ∧
          Reachable lib new int₃ ∧ int₃.currentProg .incoming = some q ∧ q.task = inTask ∧
          q.nextInsIndex = 10 ∧ int₃.cipher = some ci₁ := by
  obtain ⟨int₁, q₁, hcall₁, hcur₁, ⟨ht₁, hi₁⟩, hcip₁⟩ := inHead_call hr hb fuel
  have hr₁ := hr.nextNetCmd hcall₁
  obtain ⟨int₂, hcall₂, hcur₂, hcip₂⟩ := hr₁.store_readNet splitPair ioSeparated hcur₁ "length" lc
    (by rw [ht₁, hi₁]; rfl) fuel
  have hr₂ := (hr₁.store .incoming "length" lc).nextNetCmd hcall₂
  have hci₂ : int₂.cipher = some ci := by simp [hcip₂, hcip₁, hc]
  refine ⟨int₁, int₂, hcall₁, hcall₂, ?_⟩
  split
  next e hd =>
    obtain ⟨hd', rfl⟩ := (Cipher.decrypt_eq_error lib).mp hd
    exact inMid_rejects_call hr₂ hcur₂ ht₁ (by simp [hi₁]) (by simp [Program.storeBytes]) lm hc₂ hm₁₆ hci₂ hd' fuel
  next len ci₁ hd =>
  have hlen : len.length = 2 := hlen _ _ hd
  split
  next h16 =>
    exact inMid_short_call hr₂ hcur₂ ht₁ (by simp [hi₁]) (by simp [Program.storeBytes]) lm hc₂ hm₁₆ hci₂ hd hlen
      h16 fuel
  next h16 =>
  obtain ⟨int₃, q₃, hcall₃, hcur₃, ⟨ht₃, hi₃⟩, hcip₃⟩ := inMid_call hr₂ hcur₂ ht₁ (by simp [hi₁])
    (by simp [Program.storeBytes]) lm hc₂ hm₁₆ hci₂ hd hlen (by omega) fuel
  exact ⟨int₃, q₃, hcall₃, (hr₂.store .incoming "length_mac" lm).nextNetCmd hcall₃, hcur₃, ht₃, hi₃, hcip₃⟩

/-- The second half: from the in program at index `10`, the call after the
payload is stored asks for its tag, and the call after the tag opens the
payload under the next receiving nonce. It panics when the payload does not
open; otherwise it hands the app the plaintext, and the direction is between
messages again. The payload is assumed to open, if it does, to as many bytes
as its ciphertext. -/
theorem inFrame_tail (hr : Reachable lib new int) {q : Program}
    (hcur : int.currentProg .incoming = some q) (hq : q.task = inTask) (hi : q.nextInsIndex = 10) {ci : Cipher}
    (hc : int.cipher = some ci) (pc : Bytes) {pm : Bytes} (hp₁₆ : pm.length = 16)
    (hpt : ∀ pt ci₂, ci.decrypt lib pc pm = .ok (pt, ci₂) → pt.length = pc.length) (fuel : Nat) :
    ∃ int₄, (int.store .incoming "payload" pc).nextNetCmd lib .incoming (fuel + 1) =
        .ok (.ok (.recvNet ⟨⟨16, 17⟩, "payload_mac"⟩), int₄) ∧
      match ci.decrypt lib pc pm with
      | .error e => (int₄.store .incoming "payload_mac" pm).nextNetCmd lib .incoming (fuel + 1) = .error e
      | .ok (pt, ci₂) => ∃ int₅,
        (int₄.store .incoming "payload_mac" pm).nextNetCmd lib .incoming (fuel + 1) =
          .ok (.ok (.sendApp ⟨pt⟩), int₅) ∧
        Reachable lib new int₅ ∧ int₅.cipher = some ci₂ ∧ AtBoundary pair .incoming int₅ := by
  obtain ⟨int₄, hcall₄, hcur₄, hcip₄⟩ := hr.store_readNet splitPair ioSeparated hcur "payload" pc
    (by rw [hq, hi]; rfl) fuel
  have hr₄ := (hr.store .incoming "payload" pc).nextNetCmd hcall₄
  have hci₄ : int₄.cipher = some ci := by simp [hcip₄, hc]
  refine ⟨int₄, hcall₄, ?_⟩
  split
  next e hd =>
    obtain ⟨hd', rfl⟩ := (Cipher.decrypt_eq_error lib).mp hd
    exact inTail_rejects_call hr₄ hcur₄ hq (by simp [hi]) (by simp [Program.storeBytes]) pm hp₁₆ hci₄ hd' fuel
  next pt ci₂ hd =>
  obtain ⟨int₅, q₅, hcall₅, hcur₅, ⟨-, hi₅⟩, hcip₅⟩ := inTail_call hr₄ hcur₄ hq (by simp [hi])
    (by simp [Program.storeBytes]) pm hp₁₆ hci₄ hd (hpt _ _ hd) fuel
  refine ⟨int₅, hcall₅, (hr₄.store .incoming "payload_mac" pm).nextNetCmd hcall₅, hcip₅, .inr ?_⟩
  rw [Interpreter.nextProg_of_currentProg hcur₅, hi₅]
  rfl

/-- **Any frame: the receiver fails closed.** From a reachable state whose in
direction is between two messages and whose cipher is `ci`, the in pump is
fed any frame: two length bytes `lc` and a 16-byte tag `lm`, then any payload
bytes `pc` and a 16-byte tag `pm`, under an AEAD whose plaintexts are as long
as their ciphertexts. The calls ask for the length and its tag, and the
length is opened under the next receiving nonce. If it does not open, the
next call panics; if it opens to less than sixteen, the `ReadNet` panics on
the subtraction. Otherwise the calls ask for that many bytes less sixteen and
for the payload's tag, and the payload is opened under the nonce after. If it
does not open, the last call panics. If it does, the app is handed exactly
its plaintext, the cipher has drawn both nonces, and the direction is between
messages again. -/
theorem inPump_anyFrame (hk : lib.KeepsLength) (hr : Reachable lib new int) (hb : AtBoundary pair .incoming int)
    {ci : Cipher} (hc : int.cipher = some ci) {lc lm pc pm : Bytes} (hc₂ : lc.length = 2) (hm₁₆ : lm.length = 16)
    (hp₁₆ : pm.length = 16) (fuel : Nat) :
    ∃ int₁ int₂, int.nextNetCmd lib .incoming (fuel + 2) = .ok (.ok (.recvNet ⟨⟨2, 3⟩, "length"⟩), int₁) ∧
      (int₁.store .incoming "length" lc).nextNetCmd lib .incoming (fuel + 1) =
        .ok (.ok (.recvNet ⟨⟨16, 17⟩, "length_mac"⟩), int₂) ∧
      match ci.decrypt lib lc lm with
      | .error e => (int₂.store .incoming "length_mac" lm).nextNetCmd lib .incoming (fuel + 1) = .error e
      | .ok (len, ci₁) =>
        if beToNat len < 16 then
          (int₂.store .incoming "length_mac" lm).nextNetCmd lib .incoming (fuel + 1) =
            .error (.panic "attempt to subtract with overflow")
        else ∃ int₃ int₄,
          (int₂.store .incoming "length_mac" lm).nextNetCmd lib .incoming (fuel + 1) =
            .ok (.ok (.recvNet ⟨⟨beToNat len - 16, beToNat len - 16 + 1⟩, "payload"⟩), int₃) ∧
          (int₃.store .incoming "payload" pc).nextNetCmd lib .incoming (fuel + 1) =
            .ok (.ok (.recvNet ⟨⟨16, 17⟩, "payload_mac"⟩), int₄) ∧
          match ci₁.decrypt lib pc pm with
          | .error e => (int₄.store .incoming "payload_mac" pm).nextNetCmd lib .incoming (fuel + 1) = .error e
          | .ok (pt, ci₂) => ∃ int₅,
            (int₄.store .incoming "payload_mac" pm).nextNetCmd lib .incoming (fuel + 1) =
              .ok (.ok (.sendApp ⟨pt⟩), int₅) ∧ int₅.cipher = some ci₂ ∧ AtBoundary pair .incoming int₅ := by
  obtain ⟨int₁, int₂, hcall₁, hcall₂, hhead⟩ :=
    inFrame_head hr hb hc hc₂ hm₁₆ (fun _ _ hd => (Cipher.decrypt_length hk hd).trans hc₂) fuel
  refine ⟨int₁, int₂, hcall₁, hcall₂, ?_⟩
  split
  next e hd => simpa only [hd] using hhead
  next len ci₁ hd =>
  simp only [hd] at hhead
  split
  next h16 => simpa only [h16, if_true] using hhead
  next h16 =>
  rw [if_neg h16] at hhead
  obtain ⟨int₃, q, hcall₃, hr₃, hcur, hq, hi, hc₃⟩ := hhead
  obtain ⟨int₄, hcall₄, htail⟩ :=
    inFrame_tail hr₃ hcur hq hi hc₃ pc hp₁₆ (fun _ _ hd => Cipher.decrypt_length hk hd) fuel
  refine ⟨int₃, int₄, hcall₃, hcall₄, ?_⟩
  split
  next e hd₂ => simpa only [hd₂] using htail
  next pt ci₂ hd₂ =>
  simp only [hd₂] at htail
  obtain ⟨int₅, hcall₅, -, hc₅, hb₅⟩ := htail
  exact ⟨int₅, hcall₅, hc₅, hb₅⟩

/-- The clear frame of `[7, 8]`: the length `18` and the payload both open
under their zero tags, and the app is handed the payload. -/
theorem inPump_anyFrame_sevenEight :
    CryptoLib.clear.KeepsLength ∧ Reachable CryptoLib.clear new (fresh CryptoLib.clear) ∧
    AtBoundary pair .incoming (fresh CryptoLib.clear) ∧
    (fresh CryptoLib.clear).cipher = some (Cipher.new [] .sender) ∧ ([0, 18] : Bytes).length = 2 ∧
    (List.replicate 16 0 : Bytes).length = 16 ∧
    ∃ int₁ int₂, (fresh CryptoLib.clear).nextNetCmd CryptoLib.clear .incoming (0 + 2) =
        .ok (.ok (.recvNet ⟨⟨2, 3⟩, "length"⟩), int₁) ∧
      (int₁.store .incoming "length" [0, 18]).nextNetCmd CryptoLib.clear .incoming (0 + 1) =
        .ok (.ok (.recvNet ⟨⟨16, 17⟩, "length_mac"⟩), int₂) ∧
      ∃ int₃ int₄,
        (int₂.store .incoming "length_mac" (List.replicate 16 0)).nextNetCmd CryptoLib.clear .incoming (0 + 1) =
          .ok (.ok (.recvNet ⟨⟨2, 3⟩, "payload"⟩), int₃) ∧
        (int₃.store .incoming "payload" [7, 8]).nextNetCmd CryptoLib.clear .incoming (0 + 1) =
          .ok (.ok (.recvNet ⟨⟨16, 17⟩, "payload_mac"⟩), int₄) ∧
        ∃ int₅, (int₄.store .incoming "payload_mac" (List.replicate 16 0)).nextNetCmd CryptoLib.clear .incoming
            (0 + 1) = .ok (.ok (.sendApp ⟨[7, 8]⟩), int₅) ∧
          int₅.cipher = some ((Cipher.new [] .sender).advance 0 2) ∧ AtBoundary pair .incoming int₅ :=
  ⟨CryptoLib.clear_keepsLength, .new (new_eq _), .inl rfl, rfl, rfl, List.length_replicate _ _,
    @inPump_anyFrame CryptoLib.clear (fresh CryptoLib.clear) CryptoLib.clear_keepsLength (.new (new_eq _)) (.inl rfl)
      _ rfl [0, 18] (List.replicate 16 0) [7, 8] (List.replicate 16 0) rfl (List.length_replicate _ _)
      (List.length_replicate _ _) 0⟩

end Calls

/-! ## 3. Frames through the in pump -/

section Pumps

variable {lib : CryptoLib}

/-- An in call that returned or panicked with some fuel returns the same
with one more. -/
theorem nextNetCmd_succ {int : Interpreter} {fuel : Nat}
    {r : Except Fault (Except Unit (NetOp .incoming) × Interpreter)}
    (h : int.nextNetCmd lib .incoming (fuel + 1) = r) (hr : r ≠ .error .outOfFuel) :
    int.nextNetCmd lib .incoming (fuel + 2) = r :=
  (nextNetCmd_mono lib (fuel + 1) (fuel + 2) int (by omega) (h ▸ hr)).trans h

/-- One frame through the in pump: nine turns that hand out `frameResults`
and leave the pump ready, with the cipher two nonces on, when the frame
opens; a run that fails when it does not. -/
theorem inCycle_frame {h : Harness} (hi : Ready lib new pair .incoming h) {ci : Cipher}
    (hc : h.int.cipher = some ci) {f : Frame} (hs : f.Sized lib ci) {rest : List Bytes}
    (hbl : (h.pump .incoming).blobs = f.parts ++ rest) (fuel : Nat) :
    match openFrame lib ci f with
    | none => h.run lib (fuel + 2) (List.replicate 9 .incoming) = none
    | some (n, pt, ci') => ∃ h', h.run lib (fuel + 2) (List.replicate 9 .incoming) = some h' ∧
        Ready lib new pair .incoming h' ∧ h'.int.cipher = some ci' ∧ (h'.pump .incoming).blobs = rest ∧
        (h'.pump .incoming).results = (h.pump .incoming).results ++ frameResults n pt := by
  obtain ⟨int₁, int₂, hcall₁, hcall₂, hhead⟩ :=
    inFrame_head hi.reachable hi.boundary hc f.length_size f.lengthMac_size (fun len ci₁ hd => (hs len ci₁ hd).1) fuel
  have ho : h.pumpIn.owed = none := hi.owed
  have hbl' : h.pumpIn.blobs = f.length :: f.lengthMac :: f.payload :: f.payloadMac :: rest := hbl
  -- the length and its tag: four turns, whatever the frame holds
  set h₄ : Harness := { h.setPump .incoming ⟨none, f.payload :: f.payloadMac :: rest, (h.pump .incoming).results ++
      [.ok (NetOpIn.recvNet ⟨⟨2, 3⟩, "length"⟩), .ok (NetOpIn.recvNet ⟨⟨16, 17⟩, "length_mac"⟩)]⟩ with
    int := int₂.store .incoming "length_mac" f.lengthMac }
  have hrun₄ : h.run lib (fuel + 2) (List.replicate 4 .incoming) = some h₄ := by
    simp [List.replicate, Harness.run, Harness.step, ho, hbl', hcall₁, nextNetCmd_succ hcall₂ (by simp),
      NetOp.recvAddr, Except.toOption, Harness.setPump, Harness.pump, h₄]
  have hsplit : h.run lib (fuel + 2) (List.replicate 9 .incoming) =
      h₄.run lib (fuel + 2) (List.replicate 5 .incoming) := by
    rw [show 9 = 4 + 5 from rfl, List.replicate_add, Harness.run_append, hrun₄]
    rfl
  have hfail : ∀ e, (int₂.store .incoming "length_mac" f.lengthMac).nextNetCmd lib .incoming (fuel + 1) =
      .error (.panic e) → h.run lib (fuel + 2) (List.replicate 9 .incoming) = none := fun e he => by
    rw [hsplit]
    simp [List.replicate, Harness.run, Harness.step, Harness.pump, Harness.setPump, h₄,
      nextNetCmd_succ he (by simp)]
  rcases hd : ci.decrypt lib f.length f.lengthMac with e | ⟨len, ci₁⟩
  -- the length does not open
  · simp only [hd] at hhead
    obtain ⟨-, rfl⟩ := (Cipher.decrypt_eq_error lib).mp hd
    simpa only [openFrame, hd] using hfail _ hhead
  simp only [hd] at hhead
  by_cases h16 : beToNat len < 16
  -- the length is under sixteen
  · simp only [h16, if_true] at hhead
    simpa only [openFrame, hd, h16, if_true] using hfail _ hhead
  -- the payload and its tag
  simp only [h16, if_false] at hhead
  obtain ⟨int₃, q, hcall₃, hr₃, hcur, hq, hi₃, hc₃⟩ := hhead
  obtain ⟨int₄, hcall₄, htail⟩ :=
    inFrame_tail hr₃ hcur hq hi₃ hc₃ f.payload f.payloadMac_size (hs len ci₁ hd).2 fuel
  -- the payload and its tag: four more turns, then the call that opens the payload
  set h₈ : Harness := { h₄.setPump .incoming ⟨none, rest, (h₄.pump .incoming).results ++
      [.ok (NetOpIn.recvNet ⟨⟨beToNat len - 16, beToNat len - 16 + 1⟩, "payload"⟩),
        .ok (NetOpIn.recvNet ⟨⟨16, 17⟩, "payload_mac"⟩)]⟩ with
    int := int₄.store .incoming "payload_mac" f.payloadMac }
  have hsplit₈ : h.run lib (fuel + 2) (List.replicate 9 .incoming) = h₈.step lib (fuel + 2) .incoming := by
    rw [hsplit]
    simp [List.replicate, Harness.run, Harness.step, Harness.pump, Harness.setPump, h₄, h₈,
      nextNetCmd_succ hcall₃ (by simp), nextNetCmd_succ hcall₄ (by simp), NetOp.recvAddr, Except.toOption]
  rcases hd₂ : ci₁.decrypt lib f.payload f.payloadMac with e | ⟨pt, ci₂⟩
  -- the payload does not open
  · simp only [hd₂] at htail
    obtain ⟨-, rfl⟩ := (Cipher.decrypt_eq_error lib).mp hd₂
    simp only [openFrame, hd, h16, if_false, hd₂, hsplit₈]
    simp [Harness.step, Harness.pump, Harness.setPump, h₈, nextNetCmd_succ htail (by simp)]
  -- the payload opens
  simp only [hd₂] at htail
  obtain ⟨int₅, hcall₅, hr₅, hc₅, hb₅⟩ := htail
  simp only [openFrame, hd, h16, if_false, hd₂, hsplit₈]
  refine ⟨{ h₈.setPump .incoming ⟨none, rest, (h₈.pump .incoming).results ++ [.ok (NetOpIn.sendApp ⟨pt⟩)]⟩ with
    int := int₅ }, ?_, ⟨hr₅, hb₅, by simp⟩, hc₅, by simp, by simp [h₈, h₄, Harness.setPump, Harness.pump, frameResults]⟩
  simp [Harness.step, Harness.pump, Harness.setPump, h₈, nextNetCmd_succ hcall₅ (by simp), Except.toOption,
    NetOp.recvAddr]

/-- A stream of frames through the in pump alone: one cycle for each frame
that opens, and then, if a frame does not open, a cycle that fails. -/
theorem inPump_runFrames (hk : lib.KeepsLength) : ∀ (fs : List Frame) {h : Harness} {ci : Cipher},
    Ready lib new pair .incoming h → h.int.cipher = some ci → ∀ {rest : List Bytes},
    (h.pump .incoming).blobs = fs.flatMap Frame.parts ++ rest → ∀ fuel : Nat,
    (∃ h', h.run lib (fuel + 2) (List.replicate (9 * (openFrames lib ci fs).length) .incoming) = some h' ∧
      (h'.pump .incoming).results =
        (h.pump .incoming).results ++ (openFrames lib ci fs).flatMap fun o => frameResults o.1 o.2) ∧
    ((openFrames lib ci fs).length < fs.length →
      h.run lib (fuel + 2) (List.replicate (9 * ((openFrames lib ci fs).length + 1)) .incoming) = none)
  | [], h, _, _, _, _, _, _ => ⟨⟨h, rfl, by simp [openFrames]⟩, by simp⟩
  | f :: fs, h, ci, hi, hc, rest, hbl, fuel => by
    have hcyc := inCycle_frame hi hc (Frame.sized_of_keepsLength hk ci f) (show (h.pump .incoming).blobs = f.parts ++ (fs.flatMap Frame.parts ++ rest)
      by simp [hbl]) fuel
    rcases ho : openFrame lib ci f with _ | ⟨n, pt, ci'⟩
    · simp only [ho] at hcyc
      simp only [openFrames, ho, List.length_nil, List.flatMap_nil, List.append_nil]
      exact ⟨⟨h, rfl, rfl⟩, fun _ => hcyc⟩
    · simp only [ho] at hcyc
      obtain ⟨h₁, hrun₁, hi₁, hc₁, hbl₁, hres₁⟩ := hcyc
      obtain ⟨⟨h₂, hrun₂, hres₂⟩, hfail₂⟩ := inPump_runFrames hk fs hi₁ hc₁ hbl₁ fuel
      simp only [openFrames, ho, List.length_cons, List.flatMap_cons]
      have hnext : ∀ k, h.run lib (fuel + 2) (List.replicate (9 * (k + 1)) .incoming) =
          h₁.run lib (fuel + 2) (List.replicate (9 * k) .incoming) := fun k => by
        rw [show 9 * (k + 1) = 9 + 9 * k by omega, List.replicate_add, Harness.run_append, hrun₁]
        rfl
      refine ⟨⟨h₂, (hnext _).trans hrun₂, by rw [hres₂, hres₁, List.append_assoc]⟩, fun hlt => ?_⟩
      rw [hnext]
      exact hfail₂ (by simpa using hlt)

/-- **Any stream of frames: the receiver hands out what opens, and stops.**
From a reachable state whose in direction is between two messages and whose
cipher is `ci`, under an AEAD whose plaintexts are as long as their
ciphertexts, the in pump is fed the parts of any frames `fs`. Let `k` be how
many of them open in turn (`openFrames`): the in pump alone runs `9 · k`
turns; in every schedule with that many in turns that runs, its calls
return, frame by frame, the four `RecvNet`s and the plaintext handed to the
app, and nothing else; and when a frame after them does not open, its cycle
fails, so no later frame is read. -/
theorem inPump_session (hk : lib.KeepsLength) {int : Interpreter} (hr : Reachable lib new int)
    (hb : AtBoundary pair .incoming int) {ci : Cipher} (hc : int.cipher = some ci) (fs : List Frame)
    (blobsOut : List Bytes) {fuel : Nat} (hfuel : 2 ≤ fuel) :
    (∃ h, (Harness.start int (fs.flatMap Frame.parts) blobsOut).run lib fuel
        (List.replicate (9 * (openFrames lib ci fs).length) .incoming) = some h) ∧
    (∀ (σ : List Dir) (h : Harness), σ.count .incoming = 9 * (openFrames lib ci fs).length →
      (Harness.start int (fs.flatMap Frame.parts) blobsOut).run lib fuel σ = some h →
      (h.pump .incoming).results = (openFrames lib ci fs).flatMap fun o => frameResults o.1 o.2) ∧
    ((openFrames lib ci fs).length < fs.length →
      (Harness.start int (fs.flatMap Frame.parts) blobsOut).run lib fuel
        (List.replicate (9 * ((openFrames lib ci fs).length + 1)) .incoming) = none) := by
  obtain ⟨k, rfl⟩ : ∃ k, fuel = k + 2 := ⟨fuel - 2, by omega⟩
  obtain ⟨⟨h₀, hrun₀, hres₀⟩, hfail⟩ :=
    inPump_runFrames hk fs (start_ready hr hb _ blobsOut) hc (List.append_nil _).symm k
  exact ⟨⟨h₀, hrun₀⟩, fun σ h hσ hrun => (results_of_solo splitPair hr _ blobsOut hrun₀ hσ hrun).trans hres₀, hfail⟩

/-- The clear frame of `[7, 8]`, as the source's harness builds it: the
length `18`, a zero tag, the payload, a zero tag. -/
def clearFrame : Frame :=
  ⟨[0, 18], List.replicate 16 0, [7, 8], List.replicate 16 0, rfl, List.length_replicate _ _,
    List.length_replicate _ _⟩

/-- The same frame with a forged tag on its length. -/
def forgedFrame : Frame :=
  ⟨[0, 18], List.replicate 16 1, [7, 8], List.replicate 16 0, rfl, List.length_replicate _ _,
    List.length_replicate _ _⟩

/-- A clear frame, then a forged one: the first is handed out, and the run
fails on the second. -/
theorem inPump_session_forged :
    CryptoLib.clear.KeepsLength ∧ Reachable CryptoLib.clear new (fresh CryptoLib.clear) ∧
    AtBoundary pair .incoming (fresh CryptoLib.clear) ∧
    (fresh CryptoLib.clear).cipher = some (Cipher.new [] .sender) ∧ 2 ≤ 2 ∧
    (∃ h, (Harness.start (fresh CryptoLib.clear) ([clearFrame, forgedFrame].flatMap Frame.parts) []).run
        CryptoLib.clear 2 (List.replicate 9 .incoming) = some h) ∧
    (∀ (σ : List Dir) (h : Harness), σ.count .incoming = 9 →
      (Harness.start (fresh CryptoLib.clear) ([clearFrame, forgedFrame].flatMap Frame.parts) []).run
        CryptoLib.clear 2 σ = some h →
      (h.pump .incoming).results = frameResults 2 [7, 8]) ∧
    (1 < 2 → (Harness.start (fresh CryptoLib.clear) ([clearFrame, forgedFrame].flatMap Frame.parts) []).run
        CryptoLib.clear 2 (List.replicate 18 .incoming) = none) :=
  ⟨CryptoLib.clear_keepsLength, .new (new_eq _), .inl rfl, rfl, le_refl 2,
    inPump_session CryptoLib.clear_keepsLength (.new (new_eq _)) (.inl rfl) rfl [clearFrame, forgedFrame] []
      (le_refl 2)⟩

end Pumps

end EncryptedLengthPayloadSpec

end Proteus
