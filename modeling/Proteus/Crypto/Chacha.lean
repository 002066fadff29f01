import Proteus.Basic

/-!
Proteus.Crypto.Chacha — the connection cipher the interpreter owns: two
AEAD instances and two Salsa20 nonce generators.

`crate::crypto::{chacha, kdf}` are not among the source files. The
interpreter calls `kdf::derive_key_256(password, salt)`,
`Cipher::new(key, kind)`, `cipher.encrypt(plaintext)` (a ciphertext and a
MAC) and `cipher.decrypt(ciphertext, mac)`; the spec (§4.3) says what
they do, and `net/proto/upgen/crypto/prototype.rs` has a cipher of the
same shape (two `Salsa20` nonce generators seeded `[0xAA; 8]` and
`[0xBB; 8]`, crossed between the roles).

The primitives themselves — the KDF, the Salsa20 keystream and
ChaCha20-Poly1305 with a detached tag — are the fields of `CryptoLib`,
a parameter of everything that encrypts: the spec leaves the algorithm
out of scope (§1), and nothing proved here depends on which it is.

A nonce generator is the keystream of one (key, seed) pair and a
position in it; a nonce is the next twelve keystream bytes (a zero
buffer run through `apply_keystream`). Encryption reads only the
sending generator and decryption only the receiving one: the two
streams are independent.
-/

namespace Proteus

/-- A 32-byte key. -/
abbrev Key := Bytes

/-- The primitives the cipher is built from. -/
structure CryptoLib where
  /-- `kdf::derive_key_256(password, salt)`. -/
  deriveKey256 : String → String → Key
  /-- The Salsa20 keystream byte at a position, for a key and an 8-byte seed. -/
  salsa20 : Key → Bytes → Nat → UInt8
  /-- ChaCha20-Poly1305 encryption with a detached tag: (ciphertext, mac). -/
  aeadEncrypt : Key → Bytes → Bytes → Bytes × Bytes
  /-- ChaCha20-Poly1305 decryption of (ciphertext, mac); `none` when the tag
  does not verify. -/
  aeadDecrypt : Key → Bytes → Bytes → Bytes → Option Bytes

/-- A Salsa20 instance used as a nonce generator: its key, its seed, and how
many keystream bytes it has produced. -/
structure NonceGen where
  key : Key
  seed : Bytes
  pos : Nat
  deriving DecidableEq, Repr

/-- `Salsa20::new(key, seed)`. -/
def NonceGen.new (key : Key) (seed : Bytes) : NonceGen := ⟨key, seed, 0⟩

/-- `get_nonce`: the next twelve keystream bytes, and the advanced generator. -/
def NonceGen.getNonce (ks : Key → Bytes → Nat → UInt8) (g : NonceGen) : Bytes × NonceGen :=
  ((List.range 12).map fun i => ks g.key g.seed (g.pos + i), { g with pos := g.pos + 12 })

/-- The `n`-th nonce (from 0) a fresh generator produces. -/
def NonceGen.nth (ks : Key → Bytes → Nat → UInt8) (key seed : Bytes) (n : Nat) : Bytes :=
  ((NonceGen.mk key seed (12 * n)).getNonce ks).1

@[simp] theorem NonceGen.getNonce_snd (ks : Key → Bytes → Nat → UInt8) (g : NonceGen) :
    (g.getNonce ks).2 = { g with pos := g.pos + 12 } := rfl

/-- `NONCE_A`, the seed of the sender's sending stream. -/
def nonceA : Bytes := List.replicate 8 0xAA

/-- `NONCE_B`, the seed of the sender's receiving stream. -/
def nonceB : Bytes := List.replicate 8 0xBB

/-- `chacha::CipherKind`. -/
inductive CipherKind
  | sender
  | receiver
  deriving DecidableEq, Repr

/-- Modelled from the spec: `chacha::Cipher` (§3 "Cipher state", §4.3). -/
structure Cipher where
  encryptionNonceGen : NonceGen
  decryptionNonceGen : NonceGen
  encryptionKey : Key
  decryptionKey : Key
  deriving DecidableEq, Repr

namespace Cipher

/-- Modelled from the spec: `Cipher::new(key, kind)`. The sender sends on
seed A and receives on seed B; the receiver mirrors it. -/
def new (key : Key) (kind : CipherKind) : Cipher :=
  let (enc, dec) := match kind with
    | .sender => (nonceA, nonceB)
    | .receiver => (nonceB, nonceA)
  { encryptionNonceGen := NonceGen.new key enc
    decryptionNonceGen := NonceGen.new key dec
    encryptionKey := key
    decryptionKey := key }

variable (lib : CryptoLib)

/-- Modelled from the spec: `Cipher::encrypt(plaintext)`, one sending nonce. -/
def encrypt (c : Cipher) (plaintext : Bytes) : (Bytes × Bytes) × Cipher :=
  let n := c.encryptionNonceGen.getNonce lib.salsa20
  (lib.aeadEncrypt c.encryptionKey n.1 plaintext, { c with encryptionNonceGen := n.2 })

/-- Modelled from the spec: `Cipher::decrypt(ciphertext, mac)`, one receiving
nonce; a tag that does not verify is fatal (§4.3, §7). -/
def decrypt (c : Cipher) (ciphertext mac : Bytes) : Except Fault (Bytes × Cipher) :=
  let n := c.decryptionNonceGen.getNonce lib.salsa20
  match lib.aeadDecrypt c.decryptionKey n.1 ciphertext mac with
  | some plaintext => .ok (plaintext, { c with decryptionNonceGen := n.2 })
  | none => .error (.panic "decryption failure")

/-- The cipher with its sending half blanked: what decryption reads. -/
def onlyRecv (c : Cipher) : Cipher :=
  { c with encryptionNonceGen := ⟨[], [], 0⟩, encryptionKey := [] }

/-- The cipher with its receiving half blanked: what encryption reads. -/
def onlySend (c : Cipher) : Cipher :=
  { c with decryptionNonceGen := ⟨[], [], 0⟩, decryptionKey := [] }

/-- Decryption reads the receiving half alone. -/
theorem decrypt_onlyRecv (c : Cipher) (ct mac : Bytes) :
    c.onlyRecv.decrypt lib ct mac = (fun r => (r.1, r.2.onlyRecv)) <$> c.decrypt lib ct mac := by
  simp only [decrypt, onlyRecv]
  split <;> rfl

/-- Encryption reads the sending half alone. -/
theorem encrypt_onlySend (c : Cipher) (p : Bytes) :
    c.onlySend.encrypt lib p = ((c.encrypt lib p).1, (c.encrypt lib p).2.onlySend) := rfl

theorem decrypt_ne_outOfFuel (c : Cipher) (ct mac : Bytes) : c.decrypt lib ct mac ≠ .error .outOfFuel := by
  simp only [decrypt]; split <;> simp

/-- Decryption succeeds exactly when the tag verifies under the next receiving
nonce, and then advances the receiving generator only. -/
theorem decrypt_eq_ok {c c' : Cipher} {ct mac p : Bytes} :
    c.decrypt lib ct mac = .ok (p, c') ↔
      lib.aeadDecrypt c.decryptionKey (c.decryptionNonceGen.getNonce lib.salsa20).1 ct mac = some p ∧
        c' = { c with decryptionNonceGen := (c.decryptionNonceGen.getNonce lib.salsa20).2 } := by
  simp only [decrypt]
  cases lib.aeadDecrypt c.decryptionKey (c.decryptionNonceGen.getNonce lib.salsa20).1 ct mac <;>
    simp [and_comm, eq_comm]

/-- Decryption fails exactly when the tag does not verify, and then panics. -/
theorem decrypt_eq_error {c : Cipher} {ct mac : Bytes} {e : Fault} :
    c.decrypt lib ct mac = .error e ↔
      lib.aeadDecrypt c.decryptionKey (c.decryptionNonceGen.getNonce lib.salsa20).1 ct mac = none ∧
        e = .panic "decryption failure" := by
  simp only [decrypt]
  cases lib.aeadDecrypt c.decryptionKey (c.decryptionNonceGen.getNonce lib.salsa20).1 ct mac <;>
    simp [eq_comm]

/-- Encryption leaves the receiving half alone. -/
@[simp] theorem onlyRecv_encrypt (c : Cipher) (p : Bytes) :
    (c.encrypt lib p).2.onlyRecv = c.onlyRecv := rfl

end Cipher

/-- Primitives for the worked examples: a zero keystream, and an AEAD that
leaves the plaintext as it is under an empty tag. -/
def CryptoLib.plain : CryptoLib where
  deriveKey256 _ _ := []
  salsa20 _ _ _ := 0
  aeadEncrypt _ _ p := (p, [])
  aeadDecrypt _ _ c _ := some c

/-! ## Laws -/

/-- What the interpreter needs of the AEAD (spec §4.3 and its glossary): the
ciphertext is as long as the plaintext, the tag is sixteen bytes, and
decryption under the key and nonce of an encryption gives its plaintext
back. -/
structure CryptoLib.Lawful (lib : CryptoLib) : Prop where
  ciphertext_length : ∀ key nonce p, (lib.aeadEncrypt key nonce p).1.length = p.length
  mac_length : ∀ key nonce p, (lib.aeadEncrypt key nonce p).2.length = 16
  decrypt_encrypt : ∀ key nonce p,
    lib.aeadDecrypt key nonce (lib.aeadEncrypt key nonce p).1 (lib.aeadEncrypt key nonce p).2 = some p

/-- A lawful instance: a zero keystream, and an AEAD that leaves the plaintext
as it is under a zero tag of sixteen bytes, which decryption checks. -/
def CryptoLib.clear : CryptoLib where
  deriveKey256 _ _ := []
  salsa20 _ _ _ := 0
  aeadEncrypt _ _ p := (p, List.replicate 16 0)
  aeadDecrypt _ _ c mac := if mac = List.replicate 16 0 then some c else none

theorem CryptoLib.clear_lawful : CryptoLib.clear.Lawful where
  ciphertext_length _ _ _ := rfl
  mac_length _ _ _ := rfl
  decrypt_encrypt _ _ _ := by simp [CryptoLib.clear]

/-- Decryption hands back as many bytes as the ciphertext it opened, as
ChaCha20-Poly1305 does: it is a stream cipher and the tag is detached. -/
def CryptoLib.KeepsLength (lib : CryptoLib) : Prop :=
  ∀ key nonce c mac p, lib.aeadDecrypt key nonce c mac = some p → p.length = c.length

theorem CryptoLib.clear_keepsLength : CryptoLib.clear.KeepsLength := by
  intro _ _ c mac p h
  simp only [CryptoLib.clear] at h
  split at h <;> cases h
  rfl

/-- Two nonce generators whose keystreams agree from their positions on: they
hand out the same nonces. -/
def NonceGen.Agrees (ks : Key → Bytes → Nat → UInt8) (g h : NonceGen) : Prop :=
  ∀ i, ks g.key g.seed (g.pos + i) = ks h.key h.seed (h.pos + i)

theorem NonceGen.Agrees.getNonce {ks : Key → Bytes → Nat → UInt8} {g h : NonceGen} (hg : NonceGen.Agrees ks g h) :
    (g.getNonce ks).1 = (h.getNonce ks).1 ∧ NonceGen.Agrees ks (g.getNonce ks).2 (h.getNonce ks).2 :=
  ⟨List.map_congr_left fun i _ => hg i, fun i => by simpa [Nat.add_assoc] using hg (12 + i)⟩

namespace Cipher

variable (lib : CryptoLib)

/-- The receiving half of `r` opens what the sending half of `s` seals: the
same key, and nonce streams that agree. A `Sender` and a `Receiver` made
from one key start so (spec §8, property 5). -/
def Follows (s r : Cipher) : Prop :=
  r.decryptionKey = s.encryptionKey ∧ NonceGen.Agrees lib.salsa20 r.decryptionNonceGen s.encryptionNonceGen

variable {lib}

/-- Under a lawful AEAD, a receiving half that follows a sending half decrypts
what it encrypts, and the two still follow each other after. -/
theorem Follows.decrypt_encrypt (hl : lib.Lawful) {s r : Cipher} (hf : Follows lib s r) (x : Bytes) :
    ∃ r', r.decrypt lib (s.encrypt lib x).1.1 (s.encrypt lib x).1.2 = .ok (x, r') ∧
      Follows lib (s.encrypt lib x).2 r' ∧ r'.onlySend = r.onlySend := by
  obtain ⟨hk, ha⟩ := hf
  obtain ⟨hn, ha'⟩ := ha.getNonce
  refine ⟨{ r with decryptionNonceGen := (r.decryptionNonceGen.getNonce lib.salsa20).2 }, ?_, ⟨hk, ha'⟩, rfl⟩
  simp only [decrypt, encrypt, hk, hn, hl.decrypt_encrypt]

theorem encrypt_ciphertext_length (hl : lib.Lawful) (c : Cipher) (x : Bytes) :
    (c.encrypt lib x).1.1.length = x.length := hl.ciphertext_length _ _ _

theorem encrypt_mac_length (hl : lib.Lawful) (c : Cipher) (x : Bytes) : (c.encrypt lib x).1.2.length = 16 :=
  hl.mac_length _ _ _

/-- Under an AEAD that keeps lengths, a decryption's plaintext is as long as
its ciphertext. -/
theorem decrypt_length (hk : lib.KeepsLength) {c c' : Cipher} {ct mac p : Bytes}
    (h : c.decrypt lib ct mac = .ok (p, c')) : p.length = ct.length :=
  hk _ _ _ _ _ ((decrypt_eq_ok lib).mp h).1

/-- A `Sender` and a `Receiver` made from one key: the receiver opens what the
sender seals. -/
theorem follows_new (key : Key) : Follows lib (new key .sender) (new key .receiver) :=
  ⟨rfl, fun _ => rfl⟩

/-! ## Nonce counters -/

/-- The cipher with `i` more nonces drawn for sending and `j` more for
receiving: the keys and seeds as they were, each position on by twelve bytes
a nonce. -/
def advance (c : Cipher) (i j : Nat) : Cipher :=
  { c with
    encryptionNonceGen := { c.encryptionNonceGen with pos := c.encryptionNonceGen.pos + 12 * i }
    decryptionNonceGen := { c.decryptionNonceGen with pos := c.decryptionNonceGen.pos + 12 * j } }

@[simp] theorem advance_zero (c : Cipher) : c.advance 0 0 = c := rfl

@[simp] theorem advance_advance (c : Cipher) (i j i' j' : Nat) :
    (c.advance i j).advance i' j' = c.advance (i + i') (j + j') := by
  simp only [advance, Nat.mul_add, Nat.add_assoc]

/-- An encryption draws one sending nonce. -/
theorem encrypt_snd (c : Cipher) (p : Bytes) : (c.encrypt lib p).2 = c.advance 1 0 := rfl

/-- A decryption that succeeds draws one receiving nonce. -/
theorem decrypt_advance {c c' : Cipher} {ct mac p : Bytes} (h : c.decrypt lib ct mac = .ok (p, c')) :
    c' = c.advance 0 1 := by
  rw [(decrypt_eq_ok lib).mp h |>.2]
  rfl

/-- Two ciphers that follow each other still do once each has drawn as many
nonces on its side. -/
theorem Follows.advance {s r : Cipher} (hf : Follows lib s r) (n : Nat) :
    Follows lib (s.advance n 0) (r.advance 0 n) :=
  ⟨hf.1, fun i => by simpa [Cipher.advance, Nat.add_assoc] using hf.2 (12 * n + i)⟩

/-- From a fresh sending generator, the nonce after `i` encryptions is the
`i`-th of its stream. -/
theorem advance_getNonce {c : Cipher} (h : c.encryptionNonceGen.pos = 0) (i j : Nat) :
    ((c.advance i j).encryptionNonceGen.getNonce lib.salsa20).1 =
      NonceGen.nth lib.salsa20 c.encryptionNonceGen.key c.encryptionNonceGen.seed i := by
  simp [advance, NonceGen.nth, h]

end Cipher

end Proteus
