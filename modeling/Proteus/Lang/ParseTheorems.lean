import Proteus.Lang.Parse

/-!
Proteus.Lang.ParseTheorems — what `parse_psf_impl` and
`parse_crypto_segment` make of a whole tree, for every tree.

The loop of `parse_psf_impl` depends on the ORDER of the top-level
pairs, and the theorems here say how:

* **`parsePsfImpl_ok`** — when every top-level pair parses and every
  semantic binding comes after a declaration of its format, the result
  holds the sequence specifiers in order and the last crypto segment; a
  name has an entry exactly when some format declares it, and that entry
  is its LAST declaration, carrying for each field the semantic of the
  last binding after that declaration. So a redeclared format silently
  drops the bindings made to its earlier declaration.
* **`parsePsfImpl_unbound`** — a binding before any declaration of its
  format is a panic (`get_mut(..).unwrap()`), wherever it stands.
* **`parseCryptoSegment_eq`** — the crypto segment is its last cipher,
  its last password and all its directives in order; with no cipher it
  panics.
* **`parsePositiveNumericLiteral_repr`** — the decimal text of `n`, with
  any number of leading zeros, parses back to `n` below `2 ^ 64`, and is
  the `Err` `PosOverflow`, not a panic, from there on.

How the proofs go: the body of each loop is a parse of the pair into an
`Item` followed by a step that cannot fail on a parse (`psfStep_eq`,
`cryptoSegmentStep_eq`), so once every pair parses the loop is a fold of
that step over the items (`foldlM_psfStep`). Seen from one format name,
that fold is a pure fold of `Item.entryStep` (`foldlM_applyItem_ok`),
whose facts are list inductions.
-/

namespace Proteus

namespace Parse

/-! ## 1. The loop of `parse_psf_impl` as parse-then-apply -/

/-- What one top-level pair of a `.psf` file declares, once parsed. -/
inductive Item
  | format (f : Format)
  | binding (b : SemanticBinding)
  | sequence (s : SequenceSpecifier)
  | crypto (c : CryptoSpec)
  | skip

/-- The parse half of `parse_psf_impl`'s loop body. -/
def parseItem (x : RulePair) : Except ParseError Item :=
  match x.rule with
  | .format => Item.format <$> parseFormat x
  | .semanticBinding => Item.binding <$> parseSemanticBinding x
  | .sequenceSpecifier => Item.sequence <$> parseSequenceSpecifier x
  | .cryptoSegment => Item.crypto <$> parseCryptoSegment x
  | _ => pure .skip

/-- The update half of `parse_psf_impl`'s loop body. -/
def applyItem (acc : PsfAcc) : Item → Except ParseError PsfAcc
  | .format f => pure { acc with formats := acc.formats.insert f.name (.ofAbstractFormat ⟨f⟩) }
  | .binding b => do
    let entry ← unwrapOption (acc.formats.get b.format)
    pure { acc with
      formats := acc.formats.insert b.format
        { entry with semantics := entry.semantics.insert b.field b.semantic } }
  | .sequence s => pure { acc with sequence := acc.sequence ++ [s] }
  | .crypto c => pure { acc with cryptoSpec := some c }
  | .skip => pure acc

theorem psfStep_eq (acc : PsfAcc) (x : RulePair) : psfStep acc x = parseItem x >>= applyItem acc := by
  cases hr : x.rule <;> simp only [psfStep, parseItem, hr, bind_map_left] <;> rfl

/-- Once every top-level pair parses, the loop is a fold of `applyItem`. -/
theorem foldlM_psfStep : ∀ (xs : List RulePair) (its : List Item) (acc : PsfAcc),
    xs.mapM parseItem = .ok its → xs.foldlM psfStep acc = its.foldlM applyItem acc
  | [], its, acc, h => by
    cases h
    rfl
  | x :: xs, its, acc, h => by
    simp only [List.mapM_cons, Except.bind_eq_ok, Except.pure_eq_ok] at h
    obtain ⟨i, hi, is, his, rfl⟩ := h
    simp only [List.foldlM_cons, psfStep_eq, hi]
    show applyItem acc i >>= _ = applyItem acc i >>= _
    congr 1
    funext acc₁
    exact foldlM_psfStep xs is acc₁ his

/-! ## 2. The loop seen from one format name -/

/-- What item `i` does to the entry of format `n`: a declaration of `n`
replaces it with a fresh one, a binding to `n` binds a field of it, and
everything else leaves it alone. -/
def Item.entryStep (n : Identifier) (e : Option AbstractFormatAndSemantics) :
    Item → Option AbstractFormatAndSemantics
  | .format f => if n = f.name then some (.ofAbstractFormat ⟨f⟩) else e
  | .binding b =>
    if n = b.format then e.map fun en => { en with semantics := en.semantics.insert b.field b.semantic }
    else e
  | _ => e

/-- The specifiers among the items, in order. -/
def sequenceOf (its : List Item) : List SequenceSpecifier :=
  its.filterMap fun
    | .sequence s => some s
    | _ => none

/-- The last crypto segment among the items. -/
def cryptoOf : List Item → Option CryptoSpec
  | [] => none
  | .crypto c :: its => (cryptoOf its).or (some c)
  | _ :: its => cryptoOf its

/-- The semantic the last binding of field `k` of format `n` among the
items gives it. -/
def lastBinding (n k : Identifier) : List Item → Option FieldSemantic
  | [] => none
  | .binding b :: its =>
    (lastBinding n k its).or (if b.format = n ∧ b.field = k then some b.semantic else none)
  | _ :: its => lastBinding n k its

/-- Every semantic binding comes after a declaration of its format. -/
def BindingsDeclared (its : List Item) : Prop :=
  ∀ pre b post, its = pre ++ .binding b :: post → ∃ f, .format f ∈ pre ∧ f.name = b.format

theorem sequenceOf_cons (i : Item) (its : List Item) :
    sequenceOf (i :: its) = sequenceOf [i] ++ sequenceOf its := by
  cases i <;> rfl

/-- A failed update is a binding to a format with no entry. -/
theorem applyItem_error {acc : PsfAcc} {i : Item} {e : ParseError} (h : applyItem acc i = .error e) :
    e = .panic "called Option::unwrap() on a None value" ∧
      ∃ b, i = .binding b ∧ acc.formats.get b.format = none := by
  cases i with
  | binding b =>
    cases hb : acc.formats.get b.format with
    | none =>
      simp only [applyItem, hb, unwrapOption_none] at h
      exact ⟨(Except.error.inj h).symm, b, rfl, hb⟩
    | some en => simp [applyItem, hb, unwrapOption_some] at h
  | _ => cases h

/-- **One update**: the sequence grows by the item's specifier, the crypto
segment is the item's if it has one, and each entry moves by `entryStep`. -/
theorem applyItem_ok {acc acc' : PsfAcc} {i : Item} (h : applyItem acc i = .ok acc') :
    acc'.sequence = acc.sequence ++ sequenceOf [i] ∧ acc'.cryptoSpec = (cryptoOf [i]).or acc.cryptoSpec ∧
      ∀ n, acc'.formats.get n = i.entryStep n (acc.formats.get n) := by
  cases i with
  | format f =>
    cases h
    exact ⟨by simp [sequenceOf], rfl, fun n => rfl⟩
  | binding b =>
    cases hb : acc.formats.get b.format with
    | none => simp [applyItem, hb] at h
    | some en =>
      simp only [applyItem, hb, unwrapOption_some] at h
      cases h
      refine ⟨by simp [sequenceOf], rfl, fun n => ?_⟩
      by_cases hn : n = b.format
      · subst hn
        simp [Item.entryStep, hb]
      · simp [Item.entryStep, hn]
  | sequence s =>
    cases h
    exact ⟨rfl, rfl, fun n => rfl⟩
  | crypto c =>
    cases h
    exact ⟨by simp [sequenceOf], by simp [cryptoOf], fun n => rfl⟩
  | skip =>
    cases h
    exact ⟨by simp [sequenceOf], rfl, fun n => rfl⟩

/-- **A whole successful loop**, read from its items: the specifiers in
order, the last crypto segment, and each entry as the fold of `entryStep`. -/
theorem foldlM_applyItem_ok : ∀ (its : List Item) (acc acc' : PsfAcc),
    its.foldlM applyItem acc = .ok acc' →
      acc'.sequence = acc.sequence ++ sequenceOf its ∧
      acc'.cryptoSpec = (cryptoOf its).or acc.cryptoSpec ∧
      ∀ n, acc'.formats.get n = its.foldl (Item.entryStep n) (acc.formats.get n)
  | [], acc, acc', h => by
    cases h
    exact ⟨by simp [sequenceOf], by simp [cryptoOf], fun n => rfl⟩
  | i :: its, acc, acc', h => by
    simp only [List.foldlM_cons, Except.bind_eq_ok] at h
    obtain ⟨acc₁, h₁, h₂⟩ := h
    obtain ⟨hs₁, hc₁, hf₁⟩ := applyItem_ok h₁
    obtain ⟨hs₂, hc₂, hf₂⟩ := foldlM_applyItem_ok its acc₁ acc' h₂
    refine ⟨by rw [hs₂, hs₁, List.append_assoc, ← sequenceOf_cons], ?_, fun n => by simp [hf₂, hf₁]⟩
    rw [hc₂, hc₁]
    cases i <;> simp [cryptoOf, Option.or_assoc]

/-- Every failure of the loop is the `unwrap` panic of a binding to a
format that has no entry at that point. -/
theorem foldlM_applyItem_error : ∀ (its : List Item) (acc : PsfAcc) (e : ParseError),
    its.foldlM applyItem acc = .error e →
      e = .panic "called Option::unwrap() on a None value" ∧
      ∃ pre b post, its = pre ++ .binding b :: post ∧
        pre.foldl (Item.entryStep b.format) (acc.formats.get b.format) = none
  | [], _, _, h => by cases h
  | i :: its, acc, e, h => by
    simp only [List.foldlM_cons, Except.bind_eq_error] at h
    rcases h with h | ⟨acc₁, h₁, h₂⟩
    · obtain ⟨he, b, rfl, hb⟩ := applyItem_error h
      exact ⟨he, [], b, its, rfl, hb⟩
    · obtain ⟨he, pre, b, post, rfl, hpre⟩ := foldlM_applyItem_error its acc₁ e h₂
      refine ⟨he, i :: pre, b, post, rfl, ?_⟩
      rw [← hpre, (applyItem_ok h₁).2.2 b.format]
      rfl

/-- An entry is absent after the items exactly when it was absent before
and no item declares the name. -/
theorem foldl_entryStep_eq_none (n : Identifier) : ∀ (its : List Item) (e : Option AbstractFormatAndSemantics),
    its.foldl (Item.entryStep n) e = none ↔ e = none ∧ ∀ f, .format f ∈ its → f.name ≠ n
  | [], e => by simp
  | i :: its, e => by
    rw [List.foldl_cons, foldl_entryStep_eq_none n its]
    cases i with
    | format f =>
      by_cases hn : n = f.name
      · simp [Item.entryStep, hn]
      · simp [Item.entryStep, hn, Ne.symm hn, or_imp, forall_and]
    | binding b => by_cases hn : n = b.format <;> simp [Item.entryStep, hn]
    | _ => simp [Item.entryStep]

/-- After the last declaration of `n`, each field's semantic is that of its
last binding, if any, and what it was otherwise. -/
theorem foldl_entryStep_bindings (n : Identifier) : ∀ (post : List Item) (af : AbstractFormat)
    (sem : Heap FieldSemantic), (∀ g, .format g ∈ post → g.name ≠ n) →
    ∃ sem', post.foldl (Item.entryStep n) (some ⟨af, sem⟩) = some ⟨af, sem'⟩ ∧
      ∀ k, sem'.get k = (lastBinding n k post).or (sem.get k)
  | [], af, sem, _ => ⟨sem, rfl, fun k => by simp [lastBinding]⟩
  | i :: post, af, sem, hpost => by
    have hrest : ∀ g, .format g ∈ post → g.name ≠ n := fun g hg => hpost g (List.mem_cons_of_mem _ hg)
    cases i with
    | format f =>
      have hf : n ≠ f.name := Ne.symm (hpost f (List.mem_cons_self _ _))
      simpa [Item.entryStep, hf, lastBinding] using foldl_entryStep_bindings n post af sem hrest
    | binding b =>
      by_cases hn : n = b.format
      · obtain ⟨sem', h, hsem⟩ := foldl_entryStep_bindings n post af (sem.insert b.field b.semantic) hrest
        refine ⟨sem', by simpa [Item.entryStep, hn] using h, fun k => ?_⟩
        rw [hsem k, lastBinding, Option.or_assoc]
        by_cases hk : b.field = k
        · simp [hk, hn]
        · simp [hk, Ne.symm hk, hn]
      · simpa [Item.entryStep, hn, lastBinding, Ne.symm hn] using
          foldl_entryStep_bindings n post af sem hrest
    | _ => simpa [Item.entryStep, lastBinding] using foldl_entryStep_bindings n post af sem hrest

/-! ## 3. `parse_psf_impl` -/

/-- The empty state `parse_psf_impl`'s loop starts from. -/
theorem parsePsfImpl_eq {p : RulePair} {its : List Item} (hp : p.rule = .psf)
    (hits : p.inner.mapM parseItem = .ok its) :
    parsePsfImpl p =
      (fun acc => ⟨acc.formats, acc.sequence, acc.cryptoSpec⟩) <$> its.foldlM applyItem ⟨Heap.new, [], none⟩ := by
  simp only [parsePsfImpl, expectRule, hp, if_true, foldlM_psfStep _ _ _ hits]
  rfl

/-- **What a `.psf` file declares.** When every top-level pair parses and
every semantic binding follows a declaration of its format, the file
parses to: its sequence specifiers in order; its last crypto segment; an
entry for exactly the names some format declares; and for a name, the
format of its LAST declaration, whose field `k` carries the semantic of
the last binding of `k` made after that declaration. -/
theorem parsePsfImpl_ok {p : RulePair} {its : List Item} (hp : p.rule = .psf)
    (hits : p.inner.mapM parseItem = .ok its) (hb : BindingsDeclared its) :
    ∃ psf, parsePsfImpl p = .ok psf ∧ psf.sequence = sequenceOf its ∧ psf.cryptoSpec = cryptoOf its ∧
      (∀ n, psf.formats.get n = none ↔ ∀ f, .format f ∈ its → f.name ≠ n) ∧
      ∀ pre f post, its = pre ++ .format f :: post → (∀ g, .format g ∈ post → g.name ≠ f.name) →
        ∃ sem, psf.formats.get f.name = some ⟨⟨f⟩, sem⟩ ∧ ∀ k, sem.get k = lastBinding f.name k post := by
  rw [parsePsfImpl_eq hp hits]
  cases hrun : its.foldlM applyItem ⟨Heap.new, [], none⟩ with
  | error e =>
    obtain ⟨-, pre, b, post, hsplit, hnone⟩ := foldlM_applyItem_error its _ e hrun
    obtain ⟨f, hf, hname⟩ := hb pre b post hsplit
    exact absurd hname (((foldl_entryStep_eq_none b.format pre _).mp hnone).2 f hf)
  | ok acc =>
    obtain ⟨hs, hc, hf⟩ := foldlM_applyItem_ok its _ acc hrun
    refine ⟨_, rfl, by simpa using hs, by simpa using hc, fun n => ?_, fun pre f post hsplit hpost => ?_⟩
    · simp only [hf n, foldl_entryStep_eq_none]
      simp
    · subst hsplit
      obtain ⟨sem, hsem, hk⟩ := foldl_entryStep_bindings f.name post ⟨f⟩ Heap.new hpost
      refine ⟨sem, ?_, fun k => by simpa using hk k⟩
      simp only [hf, List.foldl_append, List.foldl_cons, Item.entryStep, if_true]
      exact hsem

/-- **A binding before its format panics.** When every top-level pair
parses, a semantic binding with no declaration of its format before it
makes `parse_psf_impl` panic in `get_mut(..).unwrap()`, whatever follows. -/
theorem parsePsfImpl_unbound {p : RulePair} {its : List Item} (hp : p.rule = .psf)
    (hits : p.inner.mapM parseItem = .ok its) {pre : List Item} {b : SemanticBinding} {post : List Item}
    (hsplit : its = pre ++ .binding b :: post) (hfree : ∀ f, .format f ∈ pre → f.name ≠ b.format) :
    parsePsfImpl p = .error (.panic "called Option::unwrap() on a None value") := by
  rw [parsePsfImpl_eq hp hits, hsplit, List.foldlM_append]
  cases hpre : pre.foldlM applyItem ⟨Heap.new, [], none⟩ with
  | error e =>
    rw [(foldlM_applyItem_error pre _ e hpre).1]
    rfl
  | ok acc =>
    have hnone : acc.formats.get b.format = none := by
      rw [(foldlM_applyItem_ok pre _ acc hpre).2.2 b.format, foldl_entryStep_eq_none]
      exact ⟨rfl, hfree⟩
    simp only [bind, Except.bind, List.foldlM_cons, applyItem, hnone, unwrapOption_none]
    rfl

/-- `DEFINE Hello {NAME: greeting; TYPE: u8};` -/
def helloFormat : RulePair :=
  .mk .format "" [.mk .identifier "Hello" [],
    .mk .field "" [.mk .nameValue "" [.mk .identifier "greeting" []],
      .mk .typeValue "" [.mk .primitiveType "u8" []]]]

/-- `{ FORMAT: Hello; FIELD: greeting; SEMANTIC: PAYLOAD };` -/
def helloBinding : RulePair :=
  .mk .semanticBinding "" [.mk .identifier "Hello" [], .mk .identifier "greeting" [],
    .mk .fieldSemantic "PAYLOAD" []]

/-- The format `helloFormat` declares. -/
def helloFmt : Format := ⟨"Hello", [⟨"greeting", .primitive ⟨.numeric .u8, 1⟩⟩]⟩

/-- The items of a file that declares `Hello`, binds its field, and
declares it again. -/
def helloItems : List Item :=
  [.format helloFmt, .binding ⟨"Hello", "greeting", .payload⟩, .format helloFmt]

/-- That file parses, and the second declaration drops the binding. -/
theorem hello_redeclared :
    (RulePair.mk .psf "" [helloFormat, helloBinding, helloFormat]).rule = .psf ∧
    (RulePair.mk .psf "" [helloFormat, helloBinding, helloFormat]).inner.mapM parseItem = .ok helloItems ∧
    BindingsDeclared helloItems ∧
    ∃ psf, parsePsfImpl (.mk .psf "" [helloFormat, helloBinding, helloFormat]) = .ok psf ∧
      psf.sequence = sequenceOf helloItems ∧ psf.cryptoSpec = cryptoOf helloItems ∧
      (∀ n, psf.formats.get n = none ↔ ∀ f, Item.format f ∈ helloItems → f.name ≠ n) ∧
      ∀ pre f post, helloItems = pre ++ .format f :: post → (∀ g, Item.format g ∈ post → g.name ≠ f.name) →
        ∃ sem, psf.formats.get f.name = some ⟨⟨f⟩, sem⟩ ∧ ∀ k, sem.get k = lastBinding f.name k post := by
  have hd : BindingsDeclared helloItems := by
    intro pre b post h
    rcases pre with _ | ⟨x, _ | ⟨y, pre⟩⟩
    · cases h
    · simp only [helloItems, List.singleton_append, List.cons.injEq, Item.binding.injEq] at h
      obtain ⟨rfl, rfl, -⟩ := h
      exact ⟨helloFmt, List.mem_singleton_self _, rfl⟩
    · rcases pre with _ | ⟨z, pre⟩ <;> simp [helloItems] at h
  exact ⟨rfl, rfl, hd,
    @parsePsfImpl_ok (.mk .psf "" [helloFormat, helloBinding, helloFormat]) helloItems rfl rfl hd⟩

/-- A binding placed before its format's declaration. -/
theorem hello_unbound :
    (RulePair.mk .psf "" [helloBinding, helloFormat]).rule = .psf ∧
    (RulePair.mk .psf "" [helloBinding, helloFormat]).inner.mapM parseItem =
      .ok [.binding ⟨"Hello", "greeting", .payload⟩, .format helloFmt] ∧
    [Item.binding ⟨"Hello", "greeting", .payload⟩, .format helloFmt] =
      [] ++ .binding ⟨"Hello", "greeting", .payload⟩ :: [.format helloFmt] ∧
    (∀ f : Format, .format f ∈ ([] : List Item) → f.name ≠ "Hello") ∧
    parsePsfImpl (.mk .psf "" [helloBinding, helloFormat]) =
      .error (.panic "called Option::unwrap() on a None value") :=
  ⟨rfl, rfl, rfl, by simp, @parsePsfImpl_unbound (.mk .psf "" [helloBinding, helloFormat])
    [.binding ⟨"Hello", "greeting", .payload⟩, .format helloFmt] rfl rfl []
    ⟨"Hello", "greeting", .payload⟩ [.format helloFmt] rfl (by simp)⟩

/-! ## 4. `parse_crypto_segment` -/

/-- What one entry of a crypto segment sets, once parsed. -/
inductive CryptoItem
  | password (pw : Password)
  | cipher (c : Cipher)
  | directives (d : EncryptionDirectives)

/-- The parse half of `parse_crypto_segment`'s loop body. -/
def parseCryptoItem (e : RulePair) : Except ParseError CryptoItem :=
  match e.rule with
  | .passwordAssignment => CryptoItem.password <$> parsePasswordAssignment e
  | .cipherAssignment => CryptoItem.cipher <$> parseCipherAssignment e
  | .encryptionDirectives => CryptoItem.directives <$> parseEncryptionDirectives e
  | _ => .error (.panic "not implemented")

/-- The update half, which cannot fail. -/
def setCryptoItem (acc : CryptoAcc) : CryptoItem → CryptoAcc
  | .password pw => { acc with password := some pw }
  | .cipher c => { acc with cipher := some c }
  | .directives d => { acc with encryptionDirectives := acc.encryptionDirectives ++ [d] }

/-- The last password among the entries. -/
def lastPassword : List CryptoItem → Option Password
  | [] => none
  | .password pw :: its => (lastPassword its).or (some pw)
  | _ :: its => lastPassword its

/-- The last cipher among the entries. -/
def lastCipher : List CryptoItem → Option Cipher
  | [] => none
  | .cipher c :: its => (lastCipher its).or (some c)
  | _ :: its => lastCipher its

/-- The directives among the entries, in order. -/
def directivesOf (its : List CryptoItem) : List EncryptionDirectives :=
  its.filterMap fun
    | .directives d => some d
    | _ => none

theorem cryptoSegmentStep_eq (acc : CryptoAcc) (e : RulePair) :
    cryptoSegmentStep acc e = setCryptoItem acc <$> parseCryptoItem e := by
  cases hr : e.rule <;> simp only [cryptoSegmentStep, parseCryptoItem, hr, Functor.map_map] <;> rfl

/-- The loop is the parse of every entry, then the updates in order. -/
theorem foldlM_cryptoSegmentStep : ∀ (xs : List RulePair) (acc : CryptoAcc),
    xs.foldlM cryptoSegmentStep acc = (fun its => its.foldl setCryptoItem acc) <$> xs.mapM parseCryptoItem
  | [], acc => rfl
  | x :: xs, acc => by
    simp only [List.foldlM_cons, List.mapM_cons, cryptoSegmentStep_eq, foldlM_cryptoSegmentStep xs,
      map_bind, bind_map_left]
    cases parseCryptoItem x <;> rfl

/-- The updates in order: the last password and cipher win, and the
directives accumulate. -/
theorem foldl_setCryptoItem : ∀ (its : List CryptoItem) (acc : CryptoAcc),
    its.foldl setCryptoItem acc =
      ⟨(lastPassword its).or acc.password, (lastCipher its).or acc.cipher,
        acc.encryptionDirectives ++ directivesOf its⟩
  | [], acc => by simp [lastPassword, lastCipher, directivesOf]
  | i :: its, acc => by
    rw [List.foldl_cons, foldl_setCryptoItem its]
    cases i <;> simp [setCryptoItem, lastPassword, lastCipher, directivesOf, Option.or_assoc]

/-- **The crypto segment.** A crypto segment is its last cipher assignment,
its last password assignment (if any) and all its encryption directives in
order; with no cipher assignment it panics in `cipher.unwrap()`. An entry
that does not parse, or is of another rule, fails first. -/
theorem parseCryptoSegment_eq {p : RulePair} (hp : p.rule = .cryptoSegment) :
    parseCryptoSegment p = p.inner.mapM parseCryptoItem >>= fun its =>
      match lastCipher its with
      | some c => .ok (CryptoSpec.new (lastPassword its) c (directivesOf its))
      | none => .error (.panic "called Option::unwrap() on a None value") := by
  simp only [parseCryptoSegment, expectRule, hp, if_true, foldlM_cryptoSegmentStep, bind_map_left]
  show (p.inner.mapM parseCryptoItem >>= _) = _
  congr 1
  funext its
  rw [foldl_setCryptoItem]
  simp only [Option.or_none, List.nil_append]
  cases lastCipher its <;> rfl

/-- `@SEGMENT.CRYPTO PASSWORD = "a"; CIPHER = CHACHA20-POLY1305; PASSWORD = "b";` -/
def twoPasswordsSegment : RulePair :=
  .mk .cryptoSegment "" [
    .mk .passwordAssignment "" [.mk (.other "string") "" [.mk (.other "inner") "a" []]],
    .mk .cipherAssignment "" [.mk .cipher "CHACHA20-POLY1305" []],
    .mk .passwordAssignment "" [.mk (.other "string") "" [.mk (.other "inner") "b" []]]]

/-- The second password wins. -/
theorem twoPasswords_cryptoSegment :
    twoPasswordsSegment.rule = .cryptoSegment ∧
    parseCryptoSegment twoPasswordsSegment = .ok ⟨some ⟨"b"⟩, .chaCha20Poly1305, []⟩ :=
  ⟨rfl, (@parseCryptoSegment_eq twoPasswordsSegment rfl).trans rfl⟩

/-! ## 5. Numeric literals -/

/-- The number a digit string denotes, read from the left onto `acc`. -/
def digitsValue (acc : Nat) (cs : List Char) : Nat :=
  cs.foldl (fun a c => a * 10 + (c.toNat - '0'.toNat)) acc

theorem le_digitsValue : ∀ (cs : List Char) (acc : Nat), acc ≤ digitsValue acc cs
  | [], _ => le_rfl
  | c :: cs, acc => le_trans (by omega) (le_digitsValue cs (acc * 10 + (c.toNat - '0'.toNat)))

/-- Over digits, the checked fold is the plain one, unless the value
reaches `2 ^ 64`: a prefix that overflows makes the whole value overflow. -/
theorem foldlM_usizeFromStrStep : ∀ (cs : List Char) (acc : Nat), (∀ c ∈ cs, c.isDigit) →
    acc < usizeModulus →
    cs.foldlM usizeFromStrStep acc =
      if digitsValue acc cs < usizeModulus then .ok (digitsValue acc cs) else .error .posOverflow
  | [], acc, _, h => by simp [digitsValue, h]
  | c :: cs, acc, hd, h => by
    have hc : c.isDigit := hd c (List.mem_cons_self _ _)
    have hrest : ∀ c ∈ cs, c.isDigit := fun c' h' => hd c' (List.mem_cons_of_mem _ h')
    simp only [List.foldlM_cons, usizeFromStrStep, hc, if_true]
    by_cases hv : acc * 10 + (c.toNat - '0'.toNat) < usizeModulus
    · simp only [hv, if_true]
      exact foldlM_usizeFromStrStep cs _ hrest hv
    · have : ¬ digitsValue acc (c :: cs) < usizeModulus := fun h' =>
        hv (lt_of_le_of_lt (le_digitsValue cs _) h')
      simp only [hv, if_false, this]
      rfl

theorem digitChar_digit : ∀ d, d < 10 → (Nat.digitChar d).isDigit ∧ (Nat.digitChar d).toNat - '0'.toNat = d := by
  decide

/-- `Nat.toDigitsCore` puts the decimal digits of `n` in front of `ds`. -/
theorem toDigitsCore_digits : ∀ (fuel n : Nat) (ds : List Char), n < fuel →
    ∃ cs, Nat.toDigitsCore 10 fuel n ds = cs ++ ds ∧ cs ≠ [] ∧ (∀ c ∈ cs, c.isDigit) ∧ digitsValue 0 cs = n
  | 0, _, _, h => absurd h (Nat.not_lt_zero _)
  | fuel + 1, n, ds, h => by
    obtain ⟨hdig, hval⟩ := digitChar_digit (n % 10) (Nat.mod_lt _ (by omega))
    rw [show Nat.toDigitsCore 10 (fuel + 1) n ds = if n / 10 = 0 then Nat.digitChar (n % 10) :: ds
      else Nat.toDigitsCore 10 fuel (n / 10) (Nat.digitChar (n % 10) :: ds) from rfl]
    by_cases hn : n / 10 = 0
    · refine ⟨[Nat.digitChar (n % 10)], by simp [hn], by simp, by simpa using hdig, ?_⟩
      simp only [digitsValue, List.foldl_cons, List.foldl_nil, hval]
      omega
    · obtain ⟨cs, heq, -, hcs, hv⟩ := toDigitsCore_digits fuel (n / 10) (Nat.digitChar (n % 10) :: ds) (by omega)
      refine ⟨cs ++ [Nat.digitChar (n % 10)], by simp [hn, heq], by simp, ?_, ?_⟩
      · simpa [or_imp, forall_and, hdig] using hcs
      · simp only [digitsValue, List.foldl_append, List.foldl_cons, List.foldl_nil] at hv ⊢
        rw [hv, hval]
        omega

theorem digitsValue_zeros (k : Nat) (cs : List Char) :
    digitsValue 0 (List.replicate k '0' ++ cs) = digitsValue 0 cs := by
  have : ∀ k, digitsValue 0 (List.replicate k '0') = 0 := fun k => by
    induction k with
    | zero => rfl
    | succ k ih => simpa [digitsValue, List.replicate_succ] using ih
  simp only [digitsValue, List.foldl_append] at this ⊢
  rw [this]

/-- `usize::from_str` on digits alone is the checked fold. -/
theorem usizeFromStr_digits {s : String} {cs : List Char} (hs : s.toList = cs) (hne : cs ≠ [])
    (hd : ∀ c ∈ cs, c.isDigit) : usizeFromStr s = cs.foldlM usizeFromStrStep 0 := by
  have hplus : ¬ ('+' ∈ cs) := fun h => absurd (hd _ h) (by decide)
  have hminus : ¬ ('-' ∈ cs) := fun h => absurd (hd _ h) (by decide)
  unfold usizeFromStr
  rw [hs]
  split
  · exact absurd rfl hne
  · simp at hplus
  · simp at hminus
  · simp at hplus
  · rfl

/-- **Numeric literals round-trip.** The decimal text of `n`, after any
number of leading zeros, parses back to `n` when `n` fits a `usize`, and
to the `Err` `PosOverflow` (passed up by `?`, not a panic) when it does not. -/
theorem parsePositiveNumericLiteral_repr (k n : Nat) (inner : List RulePair) :
    parsePositiveNumericLiteral (.mk .positiveNumericLiteral (⟨List.replicate k '0'⟩ ++ Nat.repr n) inner) =
      if n < usizeModulus then .ok n else .error (.parseInt .posOverflow) := by
  obtain ⟨cs, hcs, hne, hdig, hval⟩ := toDigitsCore_digits (n + 1) n [] (Nat.lt_succ_self n)
  rw [List.append_nil] at hcs
  have hd : ∀ c ∈ List.replicate k '0' ++ cs, c.isDigit := by
    intro c hc
    rcases List.mem_append.mp hc with h | h
    · rw [List.eq_of_mem_replicate h]
      decide
    · exact hdig c h
  have hfrom := usizeFromStr_digits (s := ⟨List.replicate k '0'⟩ ++ Nat.repr n)
    (show _ = List.replicate k '0' ++ cs by rw [← hcs]; rfl) (by simp [hne]) hd
  rw [foldlM_usizeFromStrStep _ 0 hd (by decide), digitsValue_zeros, hval] at hfrom
  simp only [parsePositiveNumericLiteral, expectRule, RulePair.rule_mk, if_true, RulePair.str_mk, hfrom]
  by_cases hn : n < usizeModulus <;> simp only [hn, if_true, if_false] <;> rfl

end Parse

end Proteus
