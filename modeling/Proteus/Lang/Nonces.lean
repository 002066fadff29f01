import Proteus.Lang.EncryptedLengthPayload
import Proteus.Lang.Async

/-!
Proteus.Lang.Nonces — what a connection does to its cipher: nothing but draw
nonces, one for each `EncryptField` and one for each `DecryptField` it has
executed.

`Cipher::encrypt` and `Cipher::decrypt` each take the next twelve bytes of
their direction's Salsa20 stream as the nonce, and nothing else moves a
stream (spec §4: "nonce generators are advanced only by
`EncryptField`/`DecryptField`"). The interpreter's history records every
instruction a program executes, so the position of each stream can be read
off it.

* `Program.executeInstruction_cipher` — one instruction other than
  `InitFixedSharedKey`: the cipher is drawn one sending nonce on by an
  `EncryptField`, one receiving nonce on by a `DecryptField`, and is
  otherwise untouched.
* `NonceInv` — the invariant: the provider, no installed program that
  installs a key, and the cipher `Interpreter::new` left advanced by the
  encryptions and decryptions of the history. `NonceInv.loadIfWanted`,
  `QuietRun.cipherTracks`, `LoopRun.cipherTracks`, `CallRun.nonceInv` and
  `NonceInv.store` carry it through a call.
* **`reachable_cipher`** — for a provider whose next tasks never install a
  key, in every reachable state the cipher is the one the init task
  installed, with its sending stream moved on one nonce per `EncryptField`
  in the history and its receiving stream one per `DecryptField`. No run
  restarts a stream or touches a key.
* **`reachable_nextNonce`** — so when the init task installed a fresh
  cipher, along any run of calls from a reachable state the history only
  grows, and the nonce the next `EncryptField` takes is numbered, before the
  run, by the encryptions in the history and, after it, by those and the
  encryptions the run added: no position of the sending stream is used twice.
* **`clients_follow_iff`** — for the encrypted test provider, which installs
  the client's cipher on every connection, the receiving half of one
  connection follows the sending half of another, in any two reachable
  states, exactly when the key stream of seed B from the receiver's position
  is the one of seed A from the sender's.
-/

namespace Proteus

/-! ## 1. Counting nonces -/

/-- `InitFixedSharedKey`, the one instruction that installs a cipher. -/
def Instruction.installsKey : Instruction → Bool
  | .initFixedSharedKey _ => true
  | _ => false

/-- An execution of `EncryptField`: one sending nonce drawn. -/
def Event.encrypts : Event → Bool
  | .execute _ (.encryptField _) => true
  | _ => false

/-- An execution of `DecryptField`: one receiving nonce drawn. -/
def Event.decrypts : Event → Bool
  | .execute _ (.decryptField _) => true
  | _ => false

/-- No task the provider hands out installs a key: only its init task may. -/
def NoRekey (spec : TaskProvider) : Prop :=
  ∀ id d t, (spec.getNextTasks id).offered d = some t → ∀ ins ∈ t.ins, ins.installsKey = false

/-- The cipher of `int` is `c₀` with one sending nonce drawn for each
encryption in its history and one receiving nonce for each decryption. -/
def Interpreter.CipherTracks (c₀ : Option Cipher) (int : Interpreter) : Prop :=
  int.cipher = c₀.map fun c => c.advance (int.history.countP Event.encrypts) (int.history.countP Event.decrypts)

/-- Events other than executions draw no nonce. -/
theorem countP_query (b : Bool) (id : TaskID) :
    (if b then [Event.getNextTasks id] else []).countP Event.encrypts = 0 ∧
      (if b then [Event.getNextTasks id] else []).countP Event.decrypts = 0 := by
  split <;> simp [Event.encrypts, Event.decrypts]

variable {lib : CryptoLib}

/-! ## 2. One instruction -/

/-- An instruction other than `InitFixedSharedKey` moves the cipher on by the
nonces its own execution event counts. -/
theorem Program.executeInstruction_cipher {p q : Program} {int int' : Interpreter} {ins : Instruction}
    (h : p.executeInstruction lib int ins = .ok (q, int')) (hk : ins.installsKey = false) (d : Dir) :
    int'.cipher = int.cipher.map fun c =>
      c.advance ([Event.execute d ins].countP Event.encrypts) ([Event.execute d ins].countP Event.decrypts) := by
  cases ins
  case decryptField a =>
    simp only [Program.executeInstruction] at h
    split at h
    · rename_i c hc
      simp only [Except.bind_eq_ok, Except.pure_eq_ok] at h
      obtain ⟨_, -, _, -, _, -, _, -, ⟨pt, c'⟩, hd, ⟨-, rfl⟩⟩ := h
      simp [hc, Cipher.decrypt_advance hd, Event.encrypts, Event.decrypts]
    · cases h
  case encryptField a =>
    simp only [Program.executeInstruction] at h
    split at h
    · rename_i c hc
      simp only [Except.bind_eq_ok, Except.pure_eq_ok] at h
      obtain ⟨_, -, _, -, ⟨-, rfl⟩⟩ := h
      simp [hc, Cipher.encrypt_snd, Event.encrypts, Event.decrypts]
    · cases h
  all_goals
    obtain ⟨-, -, ⟨rfl, -⟩ | ⟨_, _, _, hi, -⟩ | ⟨_, _, _, hi, -⟩ | ⟨_, _, hi, -⟩ | ⟨_, -, rfl⟩ | ⟨_, -, rfl⟩⟩ :=
      Program.executeInstruction_ok_cases lib h
    all_goals first
      | (simp [Instruction.installsKey] at hk; done)
      | nomatch hi
      | simp [Event.encrypts, Event.decrypts]

/-! ## 3. Through the inner loop -/

namespace Interpreter.CipherTracks

variable {c₀ : Option Cipher} {int : Interpreter}

/-- An executed instruction, recorded: the cipher moves on by the nonces the
new event counts. -/
theorem execute (ht : int.CipherTracks c₀) {p q : Program} {int' : Interpreter} {ins : Instruction}
    (hget : p.task.ins[p.nextInsIndex]? = some ins) (hx : p.executeNextInstruction lib int = .ok (q, int'))
    (hk : ins.installsKey = false) (d : Dir) : (int'.record (.execute d ins)).CipherTracks c₀ := by
  obtain ⟨_, hq⟩ := Program.executeNextInstruction_ok lib hget hx
  have hh : int'.history = int.history := by rw [Program.executeInstruction_frame lib hq]
  simp only [Interpreter.CipherTracks, Interpreter.record_history, List.countP_append, hh]
  rw [show (int'.record (.execute d ins)).cipher = int'.cipher from rfl, Program.executeInstruction_cipher hq hk d,
    ht, Option.map_map]
  simp [Function.comp_def]

theorem clearNextNetop (ht : int.CipherTracks c₀) (d : Dir) : (int.clearNextNetop d).CipherTracks c₀ := by
  simpa [Interpreter.CipherTracks] using ht

theorem setCurrentProg (ht : int.CipherTracks c₀) (d : Dir) (p : Option Program) :
    (int.setCurrentProg d p).CipherTracks c₀ := by
  simpa [Interpreter.CipherTracks] using ht

theorem retire (ht : int.CipherTracks c₀) (d : Dir) (id : TaskID) : (int.retire d id).CipherTracks c₀ := by
  simpa [Interpreter.CipherTracks, Interpreter.retire, Event.encrypts, Event.decrypts] using ht

end Interpreter.CipherTracks

variable {d : Dir} {p q : Program} {int c : Interpreter} {inss : List Instruction} {c₀ : Option Cipher}

/-- Quiet passes of a program whose task installs no key keep the cipher in
step with the history. -/
theorem QuietRun.cipherTracks (h : QuietRun lib d p int inss q c)
    (hk : ∀ ins ∈ p.task.ins, ins.installsKey = false) (ht : int.CipherTracks c₀) : c.CipherTracks c₀ := by
  induction h with
  | nil => exact ht
  | cons hget hx _ _ ih =>
    exact ih (by rwa [(Program.executeNextInstruction_program lib hx).1])
      (ht.execute hget hx (hk _ (List.getElem?_mem hget)) d)

/-- So does the whole inner loop, the pass that publishes an op included. -/
theorem LoopRun.cipherTracks {r : LoopExit d} (h : LoopRun lib d p int r)
    (hk : ∀ ins ∈ p.task.ins, ins.installsKey = false) (ht : int.CipherTracks c₀) : r.state.CipherTracks c₀ := by
  cases h with
  | exhausted hq _ => exact hq.cipherTracks hk ht
  | netop hq hget hx _ =>
    have htask := hq.runs.task
    exact ((hq.cipherTracks hk ht).execute hget hx (hk _ (htask ▸ List.getElem?_mem hget)) d).clearNextNetop d

/-! ## 4. The invariant, through a call -/

/-- The interpreter of provider `spec` whose init task left cipher `c₀`: no
installed program installs a key, and the cipher is `c₀` moved on by the
nonces of the history. -/
structure NonceInv (spec : TaskProvider) (c₀ : Option Cipher) (int : Interpreter) : Prop where
  spec_eq : int.spec = spec
  rekeyless : ∀ e p, int.currentProg e = some p → ∀ ins ∈ p.task.ins, ins.installsKey = false
  tracks : int.CipherTracks c₀

/-- The loop head keeps a slot's program or installs a task offered to it. -/
theorem loadIfWanted_currentProg {int₁ : Interpreter} (h : int.loadIfWanted = .ok int₁) {e : Dir} {p : Program}
    (hp : int₁.currentProg e = some p) :
    int.currentProg e = some p ∨ ∃ t, (int.spec.getNextTasks int.lastTaskId).offered e = some t ∧ p.task = t := by
  rcases loadIfWanted_eq_ok.mp h with ⟨-, hl⟩ | ⟨-, rfl⟩
  · have hs := (loadTasks_spec hl).1 e
    unfold TaskSet.loadSlot at hs
    split at hs
    · rename_i t ht
      rcases setTask_eq_ok.mp hs with ⟨-, hnew⟩ | ⟨q, hq, -, hq'⟩
      · rw [hp] at hnew
        cases hnew
        exact .inr ⟨t, ht, rfl⟩
      · rw [hp] at hq'
        cases hq'
        exact .inl hq
    · exact .inl ((Except.ok.inj hs).trans hp)
  · exact .inl hp

namespace NonceInv

variable {spec : TaskProvider} {int' : Interpreter}

theorem of_control (hi : NonceInv spec c₀ int) (hc : int'.control = int.control) (ht : int'.CipherTracks c₀) :
    NonceInv spec c₀ int' where
  spec_eq := (congrArg Interpreter.Control.spec hc).trans hi.spec_eq
  rekeyless e p hp := hi.rekeyless e p (Interpreter.currentProg_of_control hc e ▸ hp)
  tracks := ht

theorem setCurrentProg (hi : NonceInv spec c₀ int) (e : Dir) (o : Option Program)
    (ho : ∀ p, o = some p → ∀ ins ∈ p.task.ins, ins.installsKey = false) :
    NonceInv spec c₀ (int.setCurrentProg e o) where
  spec_eq := by simp [hi.spec_eq]
  rekeyless e' p hp := by
    rw [Interpreter.currentProg_setCurrentProg] at hp
    split_ifs at hp
    · exact ho p hp
    · exact hi.rekeyless e' p hp
  tracks := hi.tracks.setCurrentProg e o

/-- The loop head installs only offered tasks, which install no key, and draws
no nonce. -/
theorem loadIfWanted (hk : NoRekey spec) (hi : NonceInv spec c₀ int) {int₁ : Interpreter}
    (h : int.loadIfWanted = .ok int₁) : NonceInv spec c₀ int₁ := by
  obtain ⟨-, hh, hs⟩ := loadIfWanted_spec h
  refine ⟨hs.trans hi.spec_eq, fun e p hp => ?_, ?_⟩
  · rcases loadIfWanted_currentProg h hp with hp' | ⟨t, ht, rfl⟩
    · exact hi.rekeyless e p hp'
    · exact hk _ _ _ (hi.spec_eq ▸ ht)
  · have hq := countP_query int.wantsTasks int.lastTaskId
    simp only [Interpreter.CipherTracks, Interpreter.loadIfWanted_cipher h, hh, List.countP_append, hq.1, hq.2,
      Nat.add_zero]
    exact hi.tracks

theorem store (hi : NonceInv spec c₀ int) (e : Dir) (addr : Identifier) (bytes : Bytes) :
    NonceInv spec c₀ (int.store e addr bytes) where
  spec_eq := by simp [hi.spec_eq]
  rekeyless e' p hp := by
    rw [Interpreter.currentProg_store] at hp
    split_ifs at hp
    · obtain ⟨p₀, hp₀, rfl⟩ := Option.map_eq_some'.mp hp
      exact hi.rekeyless _ p₀ hp₀
    · exact hi.rekeyless e' p hp
  tracks := by simpa [Interpreter.CipherTracks] using hi.tracks

end NonceInv

/-- A call keeps the invariant. -/
theorem CallRun.nonceInv {spec : TaskProvider} (hk : NoRekey spec) {r : Except Unit (NetOp d)} {int' : Interpreter}
    (h : CallRun lib d int r int') (hi : NonceInv spec c₀ int) : NonceInv spec c₀ int' := by
  induction h with
  | blocked hl _ => exact hi.loadIfWanted hk hl
  | @netop int int₁ int₂ p p' op hl hp hrun =>
    have hi₁ := hi.loadIfWanted hk hl
    have hkp := hi₁.rekeyless d p hp
    obtain ⟨inss, hruns, -, hc⟩ := hrun.runs
    simp only [LoopExit.program] at hruns
    have hi₂ := (hi₁.setCurrentProg d none (by simp)).of_control hc
      (hrun.cipherTracks hkp (hi₁.tracks.setCurrentProg d none))
    exact hi₂.setCurrentProg d _ fun q hq => by cases hq; rw [hruns.task]; exact hkp
  | @retire int int₁ int₂ int₃ p p' r hl hp hrun _ ih =>
    have hi₁ := hi.loadIfWanted hk hl
    obtain ⟨inss, -, -, hc⟩ := hrun.runs
    have hi₂ := (hi₁.setCurrentProg d none (by simp)).of_control hc
      (hrun.cipherTracks (hi₁.rekeyless d p hp) (hi₁.tracks.setCurrentProg d none))
    exact ih ⟨hi₂.spec_eq, fun e q hq => hi₂.rekeyless e q (by simpa using hq), hi₂.tracks.retire d _⟩

/-! ## 5. Every reachable state -/

/-- A list of calls, each with its fuel, from a reachable state. -/
theorem Reachable.calls {spec : TaskProvider} : ∀ (cs : List (Nat × Call)) {int int' : Interpreter},
    Reachable lib spec int → cs.foldlM (fun i c => i.call lib c.1 c.2) int = .ok int' → Reachable lib spec int'
  | [], _, _, hr, h => by cases h; exact hr
  | c :: cs, _, _, hr, h => by
    simp only [List.foldlM_cons, Except.bind_eq_ok] at h
    obtain ⟨_, h₁, h₂⟩ := h
    exact Reachable.calls cs (hr.call h₁) h₂

theorem reachable_nonceInv {spec : TaskProvider} (hk : NoRekey spec) {int₀ : Interpreter}
    (h₀ : Interpreter.new lib spec = .ok int₀) (hr : Reachable lib spec int) : NonceInv spec int₀.cipher int := by
  induction hr with
  | new h =>
    rw [h₀, Except.ok.injEq] at h
    subst h
    obtain ⟨hspec, hslots, -, -, hh, -⟩ := Interpreter.new_spec h₀
    exact ⟨hspec, fun e p hp => by simp [hslots] at hp, by simp [Interpreter.CipherTracks, hh]⟩
  | call _ hc ih =>
    rcases call_cases hc with ⟨d, r, -, hrun⟩ | ⟨d, addr, bytes, -, rfl⟩
    · exact hrun.nonceInv hk ih
    · exact ih.store d addr bytes

/-- **A connection only draws nonces.** For a provider whose next tasks never
install a key, take the state `Interpreter::new` returns: in every state
reachable from it the cipher is the one the init task installed (or none, if
it installed none), with its sending stream moved on one nonce for each
`EncryptField` in the history and its receiving stream one for each
`DecryptField`. -/
theorem reachable_cipher {spec : TaskProvider} (hk : NoRekey spec) {int₀ : Interpreter}
    (h₀ : Interpreter.new lib spec = .ok int₀) (hr : Reachable lib spec int) :
    int.cipher = int₀.cipher.map fun c =>
      c.advance (int.history.countP Event.encrypts) (int.history.countP Event.decrypts) :=
  (reachable_nonceInv hk h₀ hr).tracks

namespace EncryptedLengthPayloadSpec

/-- The encrypted test provider installs its key in the init task only. -/
theorem noRekey : NoRekey new := by
  intro id d t h
  cases d <;> simp only [new, TaskSet.offered, Option.some.injEq] at h <;> subst h <;> decide

/-- The out direction's calls for one payload: the ask, the store, the frame. -/
def sealCalls : List (Nat × Call) :=
  [(2, .nextNetCmd .outgoing), (2, .store .outgoing "payload" [7, 8]), (2, .nextNetCmd .outgoing)]

/-- The state after those calls, under `CryptoLib.clear`. -/
def sealedOnce : Interpreter :=
  match sealCalls.foldlM (fun i c => i.call CryptoLib.clear c.1 c.2) (fresh CryptoLib.clear) with
  | .ok i => i
  | .error _ => fresh CryptoLib.clear

theorem reachable_sealedOnce : Reachable CryptoLib.clear new sealedOnce :=
  Reachable.calls sealCalls (.new (new_eq _)) rfl

theorem reachable_cipher_sealedOnce :
    NoRekey new ∧ Interpreter.new CryptoLib.clear new = .ok (fresh CryptoLib.clear) ∧
    Reachable CryptoLib.clear new sealedOnce ∧
    sealedOnce.cipher = (fresh CryptoLib.clear).cipher.map fun c =>
      c.advance (sealedOnce.history.countP Event.encrypts) (sealedOnce.history.countP Event.decrypts) :=
  ⟨noRekey, new_eq _, reachable_sealedOnce, reachable_cipher noRekey (new_eq _) reachable_sealedOnce⟩

/-- One payload sealed: its length and the payload, two sending nonces. -/
example : sealedOnce.history.countP Event.encrypts = 2 ∧ sealedOnce.history.countP Event.decrypts = 0 := by
  decide

end EncryptedLengthPayloadSpec

/-- **No sending nonce is used twice.** When the init task installed a cipher
whose sending stream starts at its beginning (as `InitFixedSharedKey`'s
does), take a reachable state and any run of calls from it. The history
only grows along the run; before the run, the nonce the next `EncryptField`
takes is the one numbered by the encryptions in the history, and after it
the one numbered by those and the encryptions the run added. So each
encryption takes the next position of the stream, and a position once used
is never taken again. -/
theorem reachable_nextNonce {spec : TaskProvider} (hk : NoRekey spec) {int₀ : Interpreter}
    (h₀ : Interpreter.new lib spec = .ok int₀) {c₀ : Cipher} (hc₀ : int₀.cipher = some c₀)
    (hpos : c₀.encryptionNonceGen.pos = 0) (hr : Reachable lib spec int) (cs : List (Nat × Call))
    {int' : Interpreter} (hcs : cs.foldlM (fun i c => i.call lib c.1 c.2) int = .ok int') :
    ∃ seg c c', int'.history = int.history ++ seg ∧ int.cipher = some c ∧ int'.cipher = some c' ∧
      (c.encryptionNonceGen.getNonce lib.salsa20).1 =
        NonceGen.nth lib.salsa20 c₀.encryptionNonceGen.key c₀.encryptionNonceGen.seed
          (int.history.countP Event.encrypts) ∧
      (c'.encryptionNonceGen.getNonce lib.salsa20).1 =
        NonceGen.nth lib.salsa20 c₀.encryptionNonceGen.key c₀.encryptionNonceGen.seed
          (int.history.countP Event.encrypts + seg.countP Event.encrypts) := by
  obtain ⟨seg, hseg⟩ := foldlM_call_history_extends cs int int' hcs
  have ht := (reachable_nonceInv hk h₀ hr).tracks
  have ht' := (reachable_nonceInv hk h₀ (hr.calls cs hcs)).tracks
  rw [Interpreter.CipherTracks, hc₀] at ht ht'
  refine ⟨seg, _, _, hseg.symm, ht, ht', Cipher.advance_getNonce hpos _ _, ?_⟩
  rw [Cipher.advance_getNonce hpos, ← hseg, List.countP_append]

namespace EncryptedLengthPayloadSpec

theorem reachable_nextNonce_sealedOnce :
    NoRekey new ∧ Interpreter.new CryptoLib.clear new = .ok (fresh CryptoLib.clear) ∧
    (fresh CryptoLib.clear).cipher = some (Cipher.new [] .sender) ∧
    (Cipher.new [] .sender).encryptionNonceGen.pos = 0 ∧ Reachable CryptoLib.clear new (fresh CryptoLib.clear) ∧
    sealCalls.foldlM (fun i c => i.call CryptoLib.clear c.1 c.2) (fresh CryptoLib.clear) = .ok sealedOnce ∧
    ∃ seg c c', sealedOnce.history = (fresh CryptoLib.clear).history ++ seg ∧
      (fresh CryptoLib.clear).cipher = some c ∧ sealedOnce.cipher = some c' ∧
      (c.encryptionNonceGen.getNonce CryptoLib.clear.salsa20).1 =
        NonceGen.nth CryptoLib.clear.salsa20 (Cipher.new [] .sender).encryptionNonceGen.key
          (Cipher.new [] .sender).encryptionNonceGen.seed ((fresh CryptoLib.clear).history.countP Event.encrypts) ∧
      (c'.encryptionNonceGen.getNonce CryptoLib.clear.salsa20).1 =
        NonceGen.nth CryptoLib.clear.salsa20 (Cipher.new [] .sender).encryptionNonceGen.key
          (Cipher.new [] .sender).encryptionNonceGen.seed
          ((fresh CryptoLib.clear).history.countP Event.encrypts + seg.countP Event.encrypts) :=
  ⟨noRekey, new_eq _, rfl, rfl, .new (new_eq _), rfl,
    reachable_nextNonce noRekey (new_eq _) rfl rfl (.new (new_eq _)) sealCalls rfl⟩

/-- **Two ends of this provider follow each other only as far as seeds A and
B give one key stream.** Every connection installs the key as
`Role::Client`, so it sends with the nonces of seed A and receives with
those of seed B, each stream moved on twelve bytes for each `EncryptField`
or `DecryptField` in its history. So in any two reachable states the
receiving half of one follows the sending half of the other exactly when
the key stream of seed B from the receiver's position is the one of seed A
from the sender's. -/
theorem clients_follow_iff {a b : Interpreter} (ha : Reachable lib new a) (hb : Reachable lib new b) :
    ∃ s r, a.cipher = some s ∧ b.cipher = some r ∧
      (Cipher.Follows lib s r ↔ ∀ i,
        lib.salsa20 (lib.deriveKey256 "hunter2" "stupid stupid stupid") nonceB
            (12 * b.history.countP Event.decrypts + i) =
          lib.salsa20 (lib.deriveKey256 "hunter2" "stupid stupid stupid") nonceA
            (12 * a.history.countP Event.encrypts + i)) := by
  have ta := (reachable_nonceInv noRekey (new_eq lib) ha).tracks
  have tb := (reachable_nonceInv noRekey (new_eq lib) hb).tracks
  refine ⟨_, _, ta, tb, ?_⟩
  simp [Cipher.Follows, NonceGen.Agrees, fresh, Cipher.new, NonceGen.new, Cipher.advance]

theorem clients_follow_iff_sealedOnce :
    Reachable CryptoLib.clear new (fresh CryptoLib.clear) ∧ Reachable CryptoLib.clear new sealedOnce ∧
    ∃ s r, (fresh CryptoLib.clear).cipher = some s ∧ sealedOnce.cipher = some r ∧
      (Cipher.Follows CryptoLib.clear s r ↔ ∀ i,
        CryptoLib.clear.salsa20 (CryptoLib.clear.deriveKey256 "hunter2" "stupid stupid stupid") nonceB
            (12 * sealedOnce.history.countP Event.decrypts + i) =
          CryptoLib.clear.salsa20 (CryptoLib.clear.deriveKey256 "hunter2" "stupid stupid stupid") nonceA
            (12 * (fresh CryptoLib.clear).history.countP Event.encrypts + i)) :=
  ⟨.new (new_eq _), reachable_sealedOnce, clients_follow_iff (.new (new_eq _)) reachable_sealedOnce⟩

end EncryptedLengthPayloadSpec

end Proteus
