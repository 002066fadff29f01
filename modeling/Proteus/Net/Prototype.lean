import Proteus.Crypto.Chacha

/-!
Proteus.Net.Prototype — `net/proto/upgen/crypto/prototype.rs`: the
prototype `CryptoModule`, its x25519 handshake, its nonce-stream cipher,
and its framed `encrypt`.

The primitives (x25519, Salsa20, ChaCha20-Poly1305 with the tag appended)
are the fields of `Lib`, and the laws the contracts rest on are
`Lib.Lawful`. A module holds its cipher behind an `Rc` (`Rc`: the value and
its strong count). `CryptoModule` derives `Clone`, and a clone shares the
cipher, raising the count both modules see; `encrypt_impl` and
`decrypt_impl` reach the cipher through `Rc::get_mut(..).unwrap()`, which
panics once the count is above one. Dropping a module, which would lower the
count again, is not modelled. `connect` is `get_connected_pair` of the
tests; what two connected modules do is `Proteus.Net.Conversation`.

* `encrypt_eq` — what `CryptoModule::encrypt` does, in closed form.
* **`encrypt_contract`** — on a short length it fails and changes
  nothing. On a length the cursor can fill, a module whose cipher is not
  shared returns that many bytes, advances the cursor by the plaintext it
  took and uses one sending nonce, and a peer module whose receiving stream
  stands where ours sends decrypts the plaintext back. A module whose cipher
  is shared with a clone panics in `Rc::get_mut(..).unwrap()`.
* `encrypt_cloned_panics` — so a cloned module cannot encrypt.
-/

namespace Proteus

namespace Prototype

/-- The primitives `prototype.rs` calls. -/
structure Lib where
  /-- `PublicKey::from(&StaticSecret)`, as bytes. -/
  publicKey : Bytes → Bytes
  /-- `x25519(my_secret, their_public)`. -/
  x25519 : Bytes → Bytes → Bytes
  /-- The Salsa20 keystream byte at a position, for a key and an 8-byte seed. -/
  salsa20 : Bytes → Bytes → Nat → UInt8
  /-- `ChaCha20Poly1305::encrypt(nonce, plaintext)`: the ciphertext with its tag. -/
  aeadEncrypt : Bytes → Bytes → Bytes → Bytes
  /-- `ChaCha20Poly1305::decrypt(nonce, ciphertext)`; `none` when the tag fails. -/
  aeadDecrypt : Bytes → Bytes → Bytes → Option Bytes

/-- The laws of the primitives: the Diffie–Hellman law, and AEAD
correctness with a 16-byte tag. -/
structure Lib.Lawful (lib : Lib) : Prop where
  x25519_comm : ∀ a b, lib.x25519 a (lib.publicKey b) = lib.x25519 b (lib.publicKey a)
  decrypt_encrypt : ∀ k n p, lib.aeadDecrypt k n (lib.aeadEncrypt k n p) = some p
  length_encrypt : ∀ k n p, (lib.aeadEncrypt k n p).length = p.length + 16

/-- A lawful instance: encryption appends a zero tag and decryption strips it. -/
def Lib.plaintext : Lib where
  publicKey s := s
  x25519 _ _ := []
  salsa20 _ _ _ := 0
  aeadEncrypt _ _ p := p ++ List.replicate 16 0
  aeadDecrypt _ _ c := some (c.take (c.length - 16))

theorem Lib.plaintext_lawful : Lib.plaintext.Lawful where
  x25519_comm _ _ := rfl
  decrypt_encrypt _ _ p := by simp [Lib.plaintext]
  length_encrypt _ _ p := by simp [Lib.plaintext]

/-- `prototype::CipherKind`. -/
inductive CipherKind
  | sender
  | receiver
  deriving DecidableEq, Repr

/-- `prototype::Cipher`: two nonce generators and the shared key, which both
ChaCha20-Poly1305 instances hold. -/
structure Cipher where
  encryptionNonceGen : NonceGen
  decryptionNonceGen : NonceGen
  key : Bytes
  deriving DecidableEq, Repr

namespace Cipher

/-- `Cipher::new(secret_key, cipher_kind)`: the sender sends on `NONCE_A` and
receives on `NONCE_B`, the receiver the other way round. -/
def new (secretKey : Bytes) (kind : CipherKind) : Cipher :=
  let encryptionNonce := match kind with
    | .sender => nonceA
    | .receiver => nonceB
  let decryptionNonce := match kind with
    | .sender => nonceB
    | .receiver => nonceA
  ⟨NonceGen.new secretKey encryptionNonce, NonceGen.new secretKey decryptionNonce, secretKey⟩

variable (lib : Lib)

/-- `Cipher::encrypt`: one sending nonce. ChaCha20-Poly1305 encryption fails
only past its length limit, so the `expect` is not modelled. -/
def encrypt (c : Cipher) (plaintext : Bytes) : Bytes × Cipher :=
  let n := c.encryptionNonceGen.getNonce lib.salsa20
  (lib.aeadEncrypt c.key n.1 plaintext, { c with encryptionNonceGen := n.2 })

/-- `Cipher::decrypt`: one receiving nonce; a tag that fails is a panic. -/
def decrypt (c : Cipher) (ciphertext : Bytes) : Except Fault (Bytes × Cipher) :=
  let n := c.decryptionNonceGen.getNonce lib.salsa20
  match lib.aeadDecrypt c.key n.1 ciphertext with
  | some plaintext => .ok (plaintext, { c with decryptionNonceGen := n.2 })
  | none => .error (.panic "decryption failure: Error")

end Cipher

/-- `std::rc::Rc<T>`: the value and its strong count, the number of handles
that share it. -/
structure Rc (α : Type) where
  val : α
  strong : Nat
  deriving DecidableEq, Repr

namespace Rc

variable {α : Type}

/-- `Rc::new`: the one handle on a fresh value. -/
def new (v : α) : Rc α := ⟨v, 1⟩

/-- `Rc::clone`: one more handle on the same value. -/
def clone (r : Rc α) : Rc α := { r with strong := r.strong + 1 }

/-- `Rc::get_mut`: the value, only when no other handle shares it. -/
def getMut (r : Rc α) : Option α := if r.strong = 1 then some r.val else none

@[simp] theorem getMut_new (v : α) : (new v).getMut = some v := rfl

@[simp] theorem new_val (v : α) : (new v).val = v := rfl

@[simp] theorem new_strong (v : α) : (new v).strong = 1 := rfl

/-- A value put in place of the only handle's. -/
@[simp] theorem mk_one (v : α) : (⟨v, 1⟩ : Rc α) = new v := rfl

theorem getMut_of_strong {r : Rc α} (h : r.strong = 1) : r.getMut = some r.val := if_pos h

theorem getMut_of_shared {r : Rc α} (h : r.strong ≠ 1) : r.getMut = none := if_neg h

@[simp] theorem clone_strong (r : Rc α) : r.clone.strong = r.strong + 1 := rfl

end Rc

/-- `<` on `[u8; 32]`: Rust compares arrays lexicographically. -/
def bytesLt : Bytes → Bytes → Bool
  | [], [] => false
  | [], _ :: _ => true
  | _ :: _, [] => false
  | a :: as, b :: bs => if a = b then bytesLt as bs else a.toNat < b.toNat

/-- `prototype::CryptoModule`. -/
structure CryptoModule where
  mySecretKey : Bytes
  myPublicKey : Option Bytes
  ourSharedSecretKey : Option Bytes
  cipher : Option (Rc Cipher)
  deriving DecidableEq, Repr

/-- `crypto::Error`; the prototype returns only `CryptFailure`. -/
inductive CryptoError
  | cryptFailure
  deriving DecidableEq, Repr

/-- `std::io::Cursor<Bytes>`: the bytes and the read position. -/
structure Cursor where
  inner : Bytes
  pos : Nat
  deriving DecidableEq, Repr

namespace Cursor

/-- `Buf::remaining`: `len.saturating_sub(pos)`. -/
def remaining (c : Cursor) : Nat := c.inner.length - c.pos

/-- `Buf::copy_to_bytes(len)`: the next `len` bytes, and the cursor past them.
`encrypt` checks the length first, so the panic is never reached from it. -/
def copyToBytes (c : Cursor) (len : Nat) : Except Fault (Bytes × Cursor) :=
  if len ≤ c.remaining then .ok ((c.inner.drop c.pos).take len, { c with pos := c.pos + len })
  else .error (.panic "advance out of bounds")

end Cursor

namespace CryptoModule

/-- `CryptoModule::new`, with the 32 bytes `OsRng` filled in as its argument. -/
def new (key : Bytes) : CryptoModule := ⟨key, none, none, none⟩

/-- The role `receive_their_half_handshake` picks: the receiver when their
key is below mine. -/
def myRole (theirPublicKey myPublicKey : Bytes) : CipherKind :=
  if bytesLt theirPublicKey myPublicKey then .receiver else .sender

/-- `CryptoModule::suggest_ciphertext_nbytes`: the plaintext and a 16-byte tag. -/
def suggestCiphertextNbytes (plaintextLen : Nat) : Except Fault Nat := usizeAdd plaintextLen 16

/-- `CryptoModule::determine_plaintext_size`: `isize::try_from(len).unwrap()`
panics past `isize::MAX`; `usize::try_from(len - 16).ok()` is `None` below 16. -/
def determinePlaintextSize (ciphertextLen : Nat) : Except Fault (Option Nat) :=
  if ciphertextLen ≤ isizeMax then .ok (if 16 ≤ ciphertextLen then some (ciphertextLen - 16) else none)
  else .error (.panic "called Result::unwrap() on an Err value: TryFromIntError(())")

variable (lib : Lib)

/-- `CryptoModule::produce_my_half_handshake`. -/
def produceMyHalfHandshake (m : CryptoModule) : Bytes × CryptoModule :=
  let pk := lib.publicKey m.mySecretKey
  (pk, { m with myPublicKey := some pk })

/-- `CryptoModule::receive_their_half_handshake`. -/
def receiveTheirHalfHandshake (m : CryptoModule) (theirPublicKey : Bytes) :
    Except Fault CryptoModule := do
  let shared := lib.x25519 m.mySecretKey theirPublicKey
  let mine ← unwrap m.myPublicKey
  pure { m with
    ourSharedSecretKey := some shared
    cipher := some (Rc.new (Cipher.new shared (myRole theirPublicKey mine))) }

/-- The derived `Clone` of `CryptoModule`: the copy holds a second handle on
the cipher, so the module cloned and its clone both see the raised count.
The first component is the module cloned, the second the clone. -/
def clone (m : CryptoModule) : CryptoModule × CryptoModule :=
  let m' := { m with cipher := m.cipher.map Rc.clone }
  (m', m')

/-- `CryptoModule::encrypt_impl`: `Rc::get_mut(&mut cipher).unwrap().encrypt(..)`
changes the cipher in place. -/
def encryptImpl (m : CryptoModule) (plaintext : Bytes) : Except Fault (Bytes × CryptoModule) := do
  let rc ← unwrap m.cipher
  let c ← unwrap rc.getMut
  let r := c.encrypt lib plaintext
  pure (r.1, { m with cipher := some { rc with val := r.2 } })

/-- `CryptoModule::decrypt_impl`. -/
def decryptImpl (m : CryptoModule) (ciphertext : Bytes) : Except Fault (Bytes × CryptoModule) := do
  let rc ← unwrap m.cipher
  let c ← unwrap rc.getMut
  let r ← c.decrypt lib ciphertext
  pure (r.1, { m with cipher := some { rc with val := r.2 } })

/-- `CryptoModule::encrypt(plaintext, ciphertext_len)`. -/
def encrypt (m : CryptoModule) (plaintext : Cursor) (ciphertextLen : Nat) :
    Except Fault (Except CryptoError Bytes × Cursor × CryptoModule) := do
  let minLen ← suggestCiphertextNbytes 0
  if ciphertextLen < minLen then
    pure (.error .cryptFailure, plaintext, m)
  else
    let available := plaintext.remaining
    let required ← unwrap (← determinePlaintextSize ciphertextLen)
    if available < required then
      .error (.panic "not implemented: not enough plaintext available.")
    else
      let r ← plaintext.copyToBytes required
      let e ← m.encryptImpl lib r.1
      pure (.ok e.1, r.2, e.2)

/-- `CryptoModule::decrypt(ciphertext)`. -/
def decrypt (m : CryptoModule) (ciphertext : Bytes) :
    Except Fault (Except CryptoError Bytes × CryptoModule) := do
  let r ← m.decryptImpl lib ciphertext
  pure (.ok r.1, r.2)

end CryptoModule

/-- `get_connected_pair` of the tests: both modules produce their half, then
each receives the other's. -/
def connect (lib : Lib) (secretA secretB : Bytes) : Except Fault (CryptoModule × CryptoModule) := do
  let a := (CryptoModule.new secretA).produceMyHalfHandshake lib
  let b := (CryptoModule.new secretB).produceMyHalfHandshake lib
  let a' ← a.2.receiveTheirHalfHandshake lib b.1
  let b' ← b.2.receiveTheirHalfHandshake lib a.1
  pure (a', b')

/-- What the handshake leaves in the two modules. -/
theorem connect_eq (lib : Lib) (secretA secretB : Bytes) :
    connect lib secretA secretB = .ok (
      ⟨secretA, some (lib.publicKey secretA), some (lib.x25519 secretA (lib.publicKey secretB)),
        some (Rc.new (Cipher.new (lib.x25519 secretA (lib.publicKey secretB))
          (CryptoModule.myRole (lib.publicKey secretB) (lib.publicKey secretA))))⟩,
      ⟨secretB, some (lib.publicKey secretB), some (lib.x25519 secretB (lib.publicKey secretA)),
        some (Rc.new (Cipher.new (lib.x25519 secretB (lib.publicKey secretA))
          (CryptoModule.myRole (lib.publicKey secretA) (lib.publicKey secretB))))⟩) := rfl

/-! ## 1. Sizes -/

namespace CryptoModule

theorem suggestCiphertextNbytes_eq {n : Nat} (h : n + 16 < usizeModulus) :
    suggestCiphertextNbytes n = .ok (n + 16) := by
  simp [suggestCiphertextNbytes, usizeAdd, h]

/-- Every suggested length up to `isize::MAX` sizes back to its plaintext. -/
theorem determinePlaintextSize_suggest {n : Nat} (h : n + 16 ≤ isizeMax) :
    (suggestCiphertextNbytes n >>= determinePlaintextSize) = .ok (some n) := by
  have hn : n + 16 < usizeModulus := by unfold isizeMax usizeModulus at *; omega
  simp [suggestCiphertextNbytes_eq hn, determinePlaintextSize, h]

/-! ## 2. Framed encryption -/

variable {lib : Lib}

/-- The `Rc::get_mut(..).unwrap()` of `encrypt_impl` and `decrypt_impl`
panics on a shared cipher. -/
theorem encryptImpl_shared {m : CryptoModule} {rc : Rc Cipher} (hc : m.cipher = some rc)
    (hs : rc.strong ≠ 1) (p : Bytes) :
    m.encryptImpl lib p = .error (.panic "called Option::unwrap() on a None value") := by
  simp [encryptImpl, hc, Rc.getMut_of_shared hs]

theorem encryptImpl_unshared {m : CryptoModule} {rc : Rc Cipher} (hc : m.cipher = some rc)
    (hs : rc.strong = 1) (p : Bytes) :
    m.encryptImpl lib p =
      .ok ((rc.val.encrypt lib p).1, { m with cipher := some { rc with val := (rc.val.encrypt lib p).2 } }) := by
  simp [encryptImpl, hc, Rc.getMut_of_strong hs]

theorem decryptImpl_of_decrypt {m : CryptoModule} {rc : Rc Cipher} {c' : Cipher} {ct p : Bytes}
    (hc : m.cipher = some rc) (hs : rc.strong = 1) (hd : rc.val.decrypt lib ct = .ok (p, c')) :
    m.decryptImpl lib ct = .ok (p, { m with cipher := some { rc with val := c' } }) := by
  simp [decryptImpl, hc, Rc.getMut_of_strong hs, hd]

variable (lib)

/-- What `encrypt` does, in closed form: a failure below the tag size, the
`unimplemented!` panic when the cursor is short, the `try_from` panic past
`isize::MAX`, and otherwise one sealed block of `L - 16` cursor bytes. -/
theorem encrypt_eq (m : CryptoModule) (cur : Cursor) (L : Nat) :
    m.encrypt lib cur L =
      if L < 16 then .ok (.error .cryptFailure, cur, m)
      else if L ≤ isizeMax then
        if cur.remaining < L - 16 then .error (.panic "not implemented: not enough plaintext available.")
        else (fun e => (.ok e.1, { cur with pos := cur.pos + (L - 16) }, e.2)) <$>
          m.encryptImpl lib ((cur.inner.drop cur.pos).take (L - 16))
      else .error (.panic "called Result::unwrap() on an Err value: TryFromIntError(())") := by
  have h16 : suggestCiphertextNbytes 0 = .ok 16 := suggestCiphertextNbytes_eq (by decide)
  by_cases hL : L < 16
  · simp only [encrypt, h16, bind, Except.bind, if_pos hL]; rfl
  by_cases hmax : L ≤ isizeMax
  · have hdet : determinePlaintextSize L = .ok (some (L - 16)) := by
      simp [determinePlaintextSize, hmax, Nat.le_of_not_lt hL]
    by_cases hcur : cur.remaining < L - 16
    · simp only [encrypt, h16, hdet, bind, Except.bind, unwrap, if_neg hL, if_pos hmax, if_pos hcur]
    · have hcopy : cur.copyToBytes (L - 16) =
          .ok ((cur.inner.drop cur.pos).take (L - 16), { cur with pos := cur.pos + (L - 16) }) :=
        if_pos (Nat.le_of_not_lt hcur)
      simp only [encrypt, h16, hdet, hcopy, bind, Except.bind, unwrap, if_neg hL, if_pos hmax,
        if_neg hcur]
      cases encryptImpl lib m _ <;> rfl
  · simp only [encrypt, h16, determinePlaintextSize, bind, Except.bind, if_neg hL, if_neg hmax]

/-- **The contract of `encrypt`.** Below the tag size it fails and changes
nothing. On a length `L` the cursor can fill, a module whose cipher no clone
shares returns `L` bytes, moves the cursor past the `L - 16` plaintext bytes
it took, and uses one sending nonce; a peer module with the same key, whose
cipher is not shared either and whose receiving stream stands where ours
sends, decrypts the block back to those bytes. A module whose cipher is
shared panics in `Rc::get_mut(..).unwrap()` instead. Every suggested length
up to `isize::MAX` sizes back to its plaintext. -/
theorem encrypt_contract (hl : lib.Lawful) {m : CryptoModule} {rc : Rc Cipher} (hc : m.cipher = some rc)
    (cur : Cursor) (L : Nat) :
    (L < 16 → m.encrypt lib cur L = .ok (.error .cryptFailure, cur, m)) ∧
    (rc.strong = 1 → 16 ≤ L → L ≤ cur.remaining + 16 → L ≤ isizeMax →
      ∃ ct, m.encrypt lib cur L = .ok (.ok ct, { cur with pos := cur.pos + (L - 16) },
          { m with cipher := some { rc with val := { rc.val with
              encryptionNonceGen := (rc.val.encryptionNonceGen.getNonce lib.salsa20).2 } } }) ∧
        ct.length = L ∧ ((cur.inner.drop cur.pos).take (L - 16)).length = L - 16 ∧
        ∀ (peer : CryptoModule) (prc : Rc Cipher), peer.cipher = some prc → prc.strong = 1 →
          prc.val.key = rc.val.key → prc.val.decryptionNonceGen = rc.val.encryptionNonceGen →
          peer.decrypt lib ct = .ok (.ok ((cur.inner.drop cur.pos).take (L - 16)),
            { peer with cipher := some { prc with val := { prc.val with
                decryptionNonceGen := (prc.val.decryptionNonceGen.getNonce lib.salsa20).2 } } })) ∧
    (rc.strong ≠ 1 → 16 ≤ L → L ≤ cur.remaining + 16 → L ≤ isizeMax →
      m.encrypt lib cur L = .error (.panic "called Option::unwrap() on a None value")) ∧
    (∀ n, n + 16 ≤ isizeMax → (suggestCiphertextNbytes n >>= determinePlaintextSize) = .ok (some n)) := by
  have hfill : 16 ≤ L → L ≤ cur.remaining + 16 → L ≤ isizeMax → m.encrypt lib cur L =
      (fun e => (.ok e.1, { cur with pos := cur.pos + (L - 16) }, e.2)) <$>
        m.encryptImpl lib ((cur.inner.drop cur.pos).take (L - 16)) := fun h16 hcur hmax => by
    rw [encrypt_eq, if_neg (by omega), if_pos hmax, if_neg (by omega)]
  refine ⟨fun hL => by rw [encrypt_eq, if_pos hL], fun hs h16 hcur hmax => ?_,
    fun hs h16 hcur hmax => by rw [hfill h16 hcur hmax, encryptImpl_shared hc hs]; rfl,
    fun _ => determinePlaintextSize_suggest⟩
  have htaken : ((cur.inner.drop cur.pos).take (L - 16)).length = L - 16 := by
    simp only [List.length_take, List.length_drop]; unfold Cursor.remaining at hcur; omega
  rw [hfill h16 hcur hmax, encryptImpl_unshared hc hs]
  refine ⟨_, rfl, by rw [Cipher.encrypt, hl.length_encrypt, htaken]; omega, htaken, ?_⟩
  intro peer prc hpc hps hkey hgen
  simp [decrypt, decryptImpl, hpc, Rc.getMut_of_strong hps, Cipher.decrypt, Cipher.encrypt, hkey, hgen,
    hl.decrypt_encrypt]

/-- A module right after its handshake, with the cipher of an empty key. -/
def sender : CryptoModule := ⟨[1], none, none, some (Rc.new (Cipher.new [] .sender))⟩

theorem encrypt_contract_seventeen :
    Lib.plaintext.Lawful ∧ sender.cipher = some (Rc.new (Cipher.new [] .sender)) ∧
    ((17 < 16 → sender.encrypt Lib.plaintext ⟨[1, 2, 3], 0⟩ 17 = .ok (.error .cryptFailure, ⟨[1, 2, 3], 0⟩, sender)) ∧
      ((Rc.new (Cipher.new [] .sender)).strong = 1 → 16 ≤ 17 → 17 ≤ (⟨[1, 2, 3], 0⟩ : Cursor).remaining + 16 →
        17 ≤ isizeMax →
        ∃ ct, sender.encrypt Lib.plaintext ⟨[1, 2, 3], 0⟩ 17 =
            .ok (.ok ct, { (⟨[1, 2, 3], 0⟩ : Cursor) with pos := 0 + (17 - 16) },
              { sender with cipher := some { Rc.new (Cipher.new [] .sender) with val := { Cipher.new [] .sender with
                  encryptionNonceGen :=
                    ((Cipher.new [] .sender).encryptionNonceGen.getNonce Lib.plaintext.salsa20).2 } } }) ∧
          ct.length = 17 ∧ (([1, 2, 3] : Bytes).drop 0 |>.take (17 - 16)).length = 17 - 16 ∧
          ∀ (peer : CryptoModule) (prc : Rc Cipher), peer.cipher = some prc → prc.strong = 1 →
            prc.val.key = (Cipher.new [] .sender).key →
            prc.val.decryptionNonceGen = (Cipher.new [] .sender).encryptionNonceGen →
            peer.decrypt Lib.plaintext ct = .ok (.ok ((([1, 2, 3] : Bytes).drop 0).take (17 - 16)),
              { peer with cipher := some { prc with val := { prc.val with
                  decryptionNonceGen := (prc.val.decryptionNonceGen.getNonce Lib.plaintext.salsa20).2 } } })) ∧
      ((Rc.new (Cipher.new [] .sender)).strong ≠ 1 → 16 ≤ 17 → 17 ≤ (⟨[1, 2, 3], 0⟩ : Cursor).remaining + 16 →
        17 ≤ isizeMax →
        sender.encrypt Lib.plaintext ⟨[1, 2, 3], 0⟩ 17 = .error (.panic "called Option::unwrap() on a None value")) ∧
      (∀ n, n + 16 ≤ isizeMax → (suggestCiphertextNbytes n >>= determinePlaintextSize) = .ok (some n))) :=
  ⟨Lib.plaintext_lawful, rfl, encrypt_contract Lib.plaintext Lib.plaintext_lawful rfl ⟨[1, 2, 3], 0⟩ 17⟩

/-- A clone of a connected module cannot encrypt: the two handles on the
cipher make `Rc::get_mut` return `None`, on the clone and on the module
cloned alike. -/
theorem encrypt_cloned_panics :
    sender.clone.2.encrypt Lib.plaintext ⟨[1, 2, 3], 0⟩ 17 =
        .error (.panic "called Option::unwrap() on a None value") ∧
      sender.clone.1.encrypt Lib.plaintext ⟨[1, 2, 3], 0⟩ 17 =
        .error (.panic "called Option::unwrap() on a None value") :=
  ⟨rfl, rfl⟩

end CryptoModule

end Prototype

end Proteus
