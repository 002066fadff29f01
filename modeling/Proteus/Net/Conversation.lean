import Proteus.Net.Prototype

/-!
Proteus.Net.Conversation — two prototype crypto modules connected by the
handshake of `get_connected_pair`, exchanging ciphertexts in both
directions in any interleaving.

A conversation holds the two modules, the ciphertexts each party has
still to decrypt (oldest first: each party decrypts the other's
ciphertexts in the order they were produced), and the plaintexts each has
encrypted and decrypted. A step is one `encrypt_impl` or `decrypt_impl`
call at one party.

* `myRole_ne` — different public keys pick different roles, so the two
  `Cipher::new` calls cross their nonce seeds.
* `Link` — the invariant of one direction: the receiver has decrypted a
  prefix of what the sender encrypted; the ciphertexts in flight are the
  rest, sealed under the receiver's next nonces; and the receiver's
  generator, advanced past them, is the sender's. `Link.encrypt` and
  `Link.decrypt` are the two steps that move a direction; each party's
  other call leaves the direction alone.
* **`connect_conversation`** — after the handshake the two parties share
  a key and hold crossed roles, and in every run no decryption fails and
  every party has decrypted exactly the first plaintexts the other
  encrypted, in order.
-/

namespace Proteus

/-- The generator `n` nonces on. -/
def NonceGen.skip (g : NonceGen) (n : Nat) : NonceGen := { g with pos := g.pos + 12 * n }

@[simp] theorem NonceGen.skip_zero (g : NonceGen) : g.skip 0 = g := rfl

theorem NonceGen.skip_getNonce (ks : Key → Bytes → Nat → UInt8) (g : NonceGen) (n : Nat) :
    (g.getNonce ks).2.skip n = g.skip (n + 1) := by
  simp only [NonceGen.skip, NonceGen.getNonce_snd, NonceGen.mk.injEq, true_and]; omega

theorem NonceGen.getNonce_skip (ks : Key → Bytes → Nat → UInt8) (g : NonceGen) (n : Nat) :
    ((g.skip n).getNonce ks).2 = g.skip (n + 1) := by
  simp only [NonceGen.skip, NonceGen.getNonce_snd, NonceGen.mk.injEq, true_and]; omega

namespace Prototype

/-! ## 1. Roles -/

theorem bytesLt_ne_swap : ∀ {a b : Bytes}, a ≠ b → bytesLt a b ≠ bytesLt b a
  | [], [], h => absurd rfl h
  | [], _ :: _, _ => by simp [bytesLt]
  | _ :: _, [], _ => by simp [bytesLt]
  | x :: xs, y :: ys, h => by
    by_cases hxy : x = y
    · subst hxy
      simp only [bytesLt, if_true]
      exact bytesLt_ne_swap fun e => h (e ▸ rfl)
    · have hne : x.toNat ≠ y.toNat := fun e => hxy (UInt8.eq_of_val_eq (Fin.ext e))
      simp only [bytesLt, if_neg hxy, if_neg (Ne.symm hxy)]
      by_cases hlt : x.toNat < y.toNat <;> simp [hlt] <;> omega

/-- Different public keys pick different roles. -/
theorem myRole_ne {a b : Bytes} (h : a ≠ b) :
    CryptoModule.myRole a b ≠ CryptoModule.myRole b a := by
  have hlt := bytesLt_ne_swap h
  unfold CryptoModule.myRole
  revert hlt
  cases bytesLt a b <;> cases bytesLt b a <;> simp

/-- Two ciphers of one key in different roles are crossed: each one
receives on the stream the other sends on. -/
theorem Cipher.new_crossed {k : Bytes} {r r' : CipherKind} (h : r ≠ r') :
    (Cipher.new k r').decryptionNonceGen = (Cipher.new k r).encryptionNonceGen := by
  cases r <;> cases r' <;> first | rfl | exact absurd rfl h

/-! ## 2. One direction -/

/-- The ciphertexts of `plaintexts`, sealed one after another under the
nonces of `g`: what a sender whose stream stands at `g` puts on the wire. -/
def sealAll (lib : Lib) (key : Bytes) : NonceGen → List Bytes → List Bytes
  | _, [] => []
  | g, p :: ps =>
    lib.aeadEncrypt key (g.getNonce lib.salsa20).1 p :: sealAll lib key (g.getNonce lib.salsa20).2 ps

theorem sealAll_append (lib : Lib) (key : Bytes) : ∀ (g : NonceGen) (ps : List Bytes) (p : Bytes),
    sealAll lib key g (ps ++ [p]) =
      sealAll lib key g ps ++ [lib.aeadEncrypt key ((g.skip ps.length).getNonce lib.salsa20).1 p]
  | _, [], _ => rfl
  | g, q :: ps, p => by
    rw [List.cons_append]
    simp only [sealAll, sealAll_append lib key _ ps p, NonceGen.skip_getNonce, List.length_cons,
      List.cons_append]

/-- The invariant of the direction from the sending cipher `snd` to the
receiving cipher `rcv`: `rcv` has decrypted `got`, a prefix of the
plaintexts `sent`, and `inFlight` holds the rest sealed under its next
nonces, which reach the sender's stream once they are used. -/
structure Link (lib : Lib) (snd rcv : Cipher) (got inFlight sent : List Bytes) : Prop where
  key_eq : rcv.key = snd.key
  got_prefix : got <+: sent
  inFlight_eq : inFlight = sealAll lib snd.key rcv.decryptionNonceGen (sent.drop got.length)
  gen_eq : rcv.decryptionNonceGen.skip (sent.length - got.length) = snd.encryptionNonceGen

namespace Link

variable {lib : Lib} {snd rcv : Cipher} {got inFlight sent : List Bytes}

/-- The direction as the handshake leaves it. -/
theorem new {k : Bytes} {r r' : CipherKind} (h : r ≠ r') :
    Link lib (Cipher.new k r) (Cipher.new k r') [] [] [] :=
  ⟨rfl, List.nil_prefix, rfl, Cipher.new_crossed h⟩

/-- The receiver's own encryptions leave the direction alone. -/
theorem encrypt_receiver (h : Link lib snd rcv got inFlight sent) (p : Bytes) :
    Link lib snd (rcv.encrypt lib p).2 got inFlight sent :=
  ⟨h.1, h.2, h.3, h.4⟩

/-- The sender's own decryptions leave the direction alone. -/
theorem decrypt_sender (h : Link lib snd rcv got inFlight sent) (g : NonceGen) :
    Link lib { snd with decryptionNonceGen := g } rcv got inFlight sent :=
  ⟨h.1, h.2, h.3, h.4⟩

/-- Sending puts one more sealed plaintext in flight. -/
theorem encrypt (h : Link lib snd rcv got inFlight sent) (p : Bytes) :
    Link lib (snd.encrypt lib p).2 rcv got (inFlight ++ [(snd.encrypt lib p).1]) (sent ++ [p]) := by
  have hle := h.got_prefix.length_le
  refine ⟨h.key_eq, h.got_prefix.trans (List.prefix_append _ _), ?_, ?_⟩
  · rw [List.drop_append_of_le_length hle, sealAll_append, List.length_drop, h.gen_eq,
      h.inFlight_eq]
    rfl
  · rw [List.length_append, List.length_singleton,
      show sent.length + 1 - got.length = sent.length - got.length + 1 by omega,
      ← NonceGen.getNonce_skip lib.salsa20, h.gen_eq]
    rfl

/-- Receiving: under the AEAD law the oldest ciphertext in flight decrypts
to the next plaintext sent, and the receiver moves on by one nonce. -/
theorem decrypt (hl : lib.Lawful) {c : Bytes} {rest : List Bytes}
    (h : Link lib snd rcv got (c :: rest) sent) :
    ∃ p, rcv.decrypt lib c =
        .ok (p, { rcv with decryptionNonceGen := (rcv.decryptionNonceGen.getNonce lib.salsa20).2 }) ∧
      Link lib snd { rcv with decryptionNonceGen := (rcv.decryptionNonceGen.getNonce lib.salsa20).2 }
        (got ++ [p]) rest sent := by
  have hin := h.inFlight_eq
  cases hpend : sent.drop got.length with
  | nil => simp [hpend, sealAll] at hin
  | cons p ps =>
    rw [hpend, sealAll, List.cons.injEq] at hin
    obtain ⟨rfl, rfl⟩ := hin
    have hsent : sent = got ++ p :: ps := by
      rw [← hpend]; exact (List.prefix_iff_eq_append.mp h.got_prefix).symm
    refine ⟨p, by simp [Cipher.decrypt, h.key_eq, hl.decrypt_encrypt], h.key_eq,
      ⟨ps, by simp [hsent]⟩, by simp [hsent], ?_⟩
    have hlen : sent.length - got.length = sent.length - (got ++ [p]).length + 1 := by
      simp only [hsent, List.length_append, List.length_cons, List.length_nil]; omega
    rw [← h.gen_eq, hlen, ← NonceGen.skip_getNonce lib.salsa20]

end Link

/-! ## 3. Two parties -/

/-- The two parties. -/
inductive Party
  | a
  | b
  deriving DecidableEq, Repr

/-- The party at the other end. -/
def Party.other : Party → Party
  | .a => .b
  | .b => .a

@[simp] theorem Party.other_other (p : Party) : p.other.other = p := by cases p <;> rfl

@[simp] theorem Party.other_ne (p : Party) : p.other ≠ p := by cases p <;> decide

@[simp] theorem Party.ne_other (p : Party) : p ≠ p.other := by cases p <;> decide

theorem Party.eq_or_eq_other (p q : Party) : q = p ∨ q = p.other := by
  cases p <;> cases q <;> simp [Party.other]

/-- Two connected modules and the traffic between them. -/
structure Conversation where
  module : Party → CryptoModule
  /-- The ciphertexts addressed to a party that it has not decrypted yet, oldest first. -/
  inFlight : Party → List Bytes
  /-- The plaintexts a party has encrypted. -/
  sent : Party → List Bytes
  /-- The plaintexts a party's decryptions returned. -/
  got : Party → List Bytes

/-- One call at one party. -/
inductive Action
  | encrypt (p : Party) (plaintext : Bytes)
  | decrypt (p : Party)

namespace Conversation

/-- The conversation right after the handshake. -/
def start (a b : CryptoModule) : Conversation where
  module
    | .a => a
    | .b => b
  inFlight _ := []
  sent _ := []
  got _ := []

variable (lib : Lib)

/-- `encrypt_impl` at a party puts its ciphertext in flight to the other;
`decrypt_impl` at a party takes the oldest ciphertext addressed to it. A
party with nothing to decrypt waits. -/
def step (s : Conversation) : Action → Except Fault Conversation
  | .encrypt p plaintext => do
    let r ← (s.module p).encryptImpl lib plaintext
    pure { s with
      module := Function.update s.module p r.2
      inFlight := Function.update s.inFlight p.other (s.inFlight p.other ++ [r.1])
      sent := Function.update s.sent p (s.sent p ++ [plaintext]) }
  | .decrypt p =>
    match s.inFlight p with
    | [] => pure s
    | c :: rest => do
      let r ← (s.module p).decryptImpl lib c
      pure { s with
        module := Function.update s.module p r.2
        inFlight := Function.update s.inFlight p rest
        got := Function.update s.got p (s.got p ++ [r.1]) }

/-- A run of calls, up to the first fatal error. -/
def run : List Action → Conversation → Except Fault Conversation
  | [], s => .ok s
  | act :: acts, s => s.step lib act >>= run acts

/-- Both parties hold ciphers, and each direction is linked. -/
def Inv (s : Conversation) : Prop :=
  ∀ p, ∃ cs cr, (s.module p.other).cipher = some (Rc.new cs) ∧ (s.module p).cipher = some (Rc.new cr) ∧
    Link lib cs cr (s.got p) (s.inFlight p) (s.sent p.other)

variable {lib}

theorem step_inv (hl : lib.Lawful) {s : Conversation} (h : s.Inv lib) (act : Action) :
    ∃ s', s.step lib act = .ok s' ∧ s'.Inv lib := by
  cases act with
  | encrypt p plaintext =>
    obtain ⟨cs, cr, hcs, hcr, hout⟩ := h p.other
    obtain ⟨cs', cr', hcs', hcr', hin⟩ := h p
    simp only [Party.other_other] at hcs hout
    obtain rfl : cr' = cs := congrArg Rc.val (Option.some.inj (hcr'.symm.trans hcs))
    refine ⟨_, by simp [step, CryptoModule.encryptImpl_unshared hcs rfl]; rfl, fun q => ?_⟩
    rcases Party.eq_or_eq_other p q with rfl | rfl
    · exact ⟨cs', (cr'.encrypt lib plaintext).2, by simpa [Function.update_apply] using hcs', by simp [Function.update_apply],
        by simpa [Function.update_apply] using hin.encrypt_receiver plaintext⟩
    · exact ⟨(cr'.encrypt lib plaintext).2, cr, by simp [Function.update_apply], by simpa [Function.update_apply] using hcr,
        by simpa [Function.update_apply] using hout.encrypt plaintext⟩
  | decrypt p =>
    cases hq : s.inFlight p with
    | nil => exact ⟨s, by simp [step, hq], h⟩
    | cons c rest =>
      obtain ⟨cs, cr, hcs, hcr, hin⟩ := h p
      obtain ⟨cs', cr', hcs', hcr', hout⟩ := h p.other
      simp only [Party.other_other] at hcs' hout
      obtain rfl : cs' = cr := congrArg Rc.val (Option.some.inj (hcs'.symm.trans hcr))
      rw [hq] at hin
      obtain ⟨pt, hdec, hin'⟩ := hin.decrypt hl
      refine ⟨_, by simp only [step, hq, CryptoModule.decryptImpl_of_decrypt hcr rfl hdec]; rfl, fun q => ?_⟩
      rcases Party.eq_or_eq_other p q with rfl | rfl
      · exact ⟨cs, { cs' with decryptionNonceGen := (cs'.decryptionNonceGen.getNonce lib.salsa20).2 },
          by simpa [Function.update_apply] using hcs, by simp [Function.update_apply], by simpa [Function.update_apply] using hin'⟩
      · exact ⟨{ cs' with decryptionNonceGen := (cs'.decryptionNonceGen.getNonce lib.salsa20).2 }, cr',
          by simp [Function.update_apply], by simpa [Function.update_apply] using hcr', by simpa [Function.update_apply] using hout.decrypt_sender _⟩

theorem run_inv (hl : lib.Lawful) :
    ∀ (acts : List Action) {s : Conversation}, s.Inv lib → ∃ s', s.run lib acts = .ok s' ∧ s'.Inv lib
  | [], s, h => ⟨s, rfl, h⟩
  | act :: acts, s, h => by
    obtain ⟨s₁, h₁, hi₁⟩ := step_inv hl h act
    obtain ⟨s₂, h₂, hi₂⟩ := run_inv hl acts hi₁
    exact ⟨s₂, by rw [run, h₁]; exact h₂, hi₂⟩

end Conversation

/-! ## 4. After the handshake -/

/-- **Connected modules talk in lock-step.** With different public keys,
the handshake of `get_connected_pair` leaves both modules with the same
shared secret and ciphers of crossed roles. From there, in every run of
`encrypt_impl` and in-order `decrypt_impl` calls at the two parties, no
decryption fails, and what each party has decrypted is, in order, the
first plaintexts the other encrypted. -/
theorem connect_conversation (lib : Lib) (hl : lib.Lawful) {sa sb : Bytes}
    (hne : lib.publicKey sa ≠ lib.publicKey sb) :
    ∃ a b, connect lib sa sb = .ok (a, b) ∧
      (∃ k ra rb, a.ourSharedSecretKey = some k ∧ b.ourSharedSecretKey = some k ∧
        a.cipher = some (Rc.new (Cipher.new k ra)) ∧ b.cipher = some (Rc.new (Cipher.new k rb)) ∧ ra ≠ rb) ∧
      ∀ acts, ∃ s, (Conversation.start a b).run lib acts = .ok s ∧
        ∀ p, s.got p <+: s.sent p.other := by
  have hk := hl.x25519_comm sa sb
  have hr := myRole_ne hne.symm
  refine ⟨_, _, connect_eq lib sa sb,
    ⟨_, _, _, rfl, by rw [hk], rfl, by rw [hk], hr⟩, fun acts => ?_⟩
  refine (Conversation.run_inv hl acts ?_).imp fun s ⟨hs, hinv⟩ =>
    ⟨hs, fun p => let ⟨_, _, _, _, hlink⟩ := hinv p; hlink.got_prefix⟩
  intro p
  cases p
  · exact ⟨_, _, rfl, rfl, by rw [hk]; exact Link.new (Ne.symm hr)⟩
  · exact ⟨_, _, rfl, rfl, by rw [hk]; exact Link.new hr⟩

theorem connect_conversation_one_two :
    Lib.plaintext.publicKey [1] ≠ Lib.plaintext.publicKey [2] ∧
    ∃ a b, connect Lib.plaintext [1] [2] = .ok (a, b) ∧
      (∃ k ra rb, a.ourSharedSecretKey = some k ∧ b.ourSharedSecretKey = some k ∧
        a.cipher = some (Rc.new (Cipher.new k ra)) ∧ b.cipher = some (Rc.new (Cipher.new k rb)) ∧ ra ≠ rb) ∧
      ∀ acts, ∃ s, (Conversation.start a b).run Lib.plaintext acts = .ok s ∧
        ∀ p, s.got p <+: s.sent p.other :=
  ⟨by decide, connect_conversation Lib.plaintext Lib.plaintext_lawful (by decide)⟩

end Prototype

end Proteus
