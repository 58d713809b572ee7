/-
This file says what diagnostic texts tell. They can be read in one way only, so two
of them are the same exactly when they show the same. What is shown of signing keys,
entities and contexts is public: no symmetric key and no private half makes a
difference. A context lists its recipients in any order, so it may show one of
several texts, and these are the same for two contexts when what is public is.

Keying shows everything but its secret, and so its salt. The keying that a pair keeps
has the secret that its members agreed on in this place. Its text tells that secret,
whatever is done with the pair.
-/

import Mathlib.Data.Multiset.Defs
import Oscore.Proofs.DiagnosticReading
import Oscore.Proofs.Pairs

namespace Oscore

/-! ### What a display tells -/

/-- A display of values that can be read, and from which exactly what is shown of them can be
read. -/
structure Tells {Value Shown : Type} (display : Value → Diagnostic) (shown : Value → Shown) :
    Prop where
  legible : ∀ value, (display value).Legible
  eq_iff : ∀ first second, display first = display second ↔ shown first = shown second

namespace Tells

variable {Value Shown : Type} {display : Value → Diagnostic} {shown : Value → Shown}

theorem render_eq_iff (tells : Tells display shown) (first second : Value) :
    (display first).render = (display second).render ↔ shown first = shown second :=
  ((tells.legible first).render_inj (tells.legible second)).trans (tells.eq_iff first second)

theorem list (tells : Tells display shown) :
    Tells (fun values => .list (values.map display)) (List.map shown) where
  legible values := .list (List.forall_mem_map.mpr fun value _ => tells.legible value)
  eq_iff first second := by
    rw [Diagnostic.list.injEq]
    induction first generalizing second with
    | nil => cases second <;> simp
    | cons value values inductionHypothesis =>
      cases second with
      | nil => simp
      | cons other others =>
        rw [List.map_cons, List.map_cons, List.map_cons, List.map_cons, List.cons.injEq,
          List.cons.injEq, tells.eq_iff, inductionHypothesis]

theorem option (tells : Tells display shown) :
    Tells (Diagnostic.ofOption display) (Option.map shown) where
  legible value := by
    cases value with
    | none => exact .word (by decide) rfl
    | some value => exact .present (tells.legible value)
  eq_iff first second := by
    cases first <;> cases second <;>
      simp [Diagnostic.ofOption, tells.eq_iff]

theorem list_id {display : Value → Diagnostic} (tells : Tells display id) :
    Tells (fun values : List Value => .list (values.map display)) id := by
  have each := tells.list
  rw [List.map_id_fun] at each
  exact each

theorem option_id {display : Value → Diagnostic} (tells : Tells display id) :
    Tells (Diagnostic.ofOption display) id := by
  have each := tells.option
  rw [Option.map_id] at each
  exact each

/-- A display of a part of an object. -/
theorem of {Object : Type} (tells : Tells display shown) (part : Object → Value) :
    Tells (fun object => display (part object)) fun object => shown (part object) where
  legible object := tells.legible (part object)
  eq_iff first second := tells.eq_iff (part first) (part second)

section Fields

variable {Others : Type} {name label : String} {fields : Value → List (String × Diagnostic)}
  {complete : Bool} {others : Value → Others}

/-- An object of which one field is shown. -/
theorem last_field (plain : Diagnostic.isName name) (labelPlain : Diagnostic.isName label)
    (tells : Tells display shown) :
    Tells (fun value => .fields name [(label, display value)] complete) shown where
  legible value := by
    refine .fields plain ?_ (List.forall_mem_singleton.mpr (tells.legible value))
    rw [List.all_cons, labelPlain]
    rfl
  eq_iff first second := by
    simp only [Diagnostic.fields.injEq, List.cons.injEq, Prod.mk.injEq, tells.eq_iff, true_and,
      and_true]

/-- An object of which a further field is shown, in front of others. -/
theorem field (labelPlain : Diagnostic.isName label) (tells : Tells display shown)
    (rest : Tells (fun value => .fields name (fields value) complete) others) :
    Tells (fun value => .fields name ((label, display value) :: fields value) complete)
      fun value => (shown value, others value) where
  legible value := by
    cases rest.legible value with
    | fields plain names values =>
      refine .fields plain ?_ (List.forall_mem_cons.mpr ⟨tells.legible value, values⟩)
      rw [List.all_cons, labelPlain, names]
      rfl
  eq_iff first second := by
    have behind := rest.eq_iff first second
    simp only [Diagnostic.fields.injEq, true_and, and_true] at behind
    simp only [Diagnostic.fields.injEq, List.cons.injEq, Prod.mk.injEq, tells.eq_iff, behind,
      true_and, and_true]

/-- An object of which a further field is not shown tells no more. -/
theorem redacted_field (labelPlain : Diagnostic.isName label)
    (rest : Tells (fun value => .fields name (fields value) complete) others) :
    Tells (fun value => .fields name ((label, .redacted) :: fields value) complete) others where
  legible value := by
    have hides : Tells (fun _ : Value => .redacted) fun _ => () :=
      ⟨fun _ => .quoted rfl, fun _ _ => ⟨fun _ => rfl, fun _ => rfl⟩⟩
    exact (field labelPlain hides rest).legible value
  eq_iff first second := by
    rw [← rest.eq_iff]
    simp only [Diagnostic.fields.injEq, List.cons.injEq, true_and, and_true]

end Fields

end Tells

/-! ### Texts of numbers -/

theorem isName_repr (number : Nat) : Diagnostic.isName number.repr := by
  rw [Diagnostic.isName, Nat.toList_repr, List.all_eq_true]
  intro char member
  have digit := Nat.isDigit_of_mem_toDigits (by decide) (by decide) member
  rw [Diagnostic.isPlain, Char.isAlphanum, digit, Bool.or_true]
  rfl

/-- A number is read back from its digits. -/
theorem repr_injective : Function.Injective Nat.repr := by
  refine Function.HasLeftInverse.injective ⟨fun text => Nat.ofDigitChars 10 text.toList 0, ?_⟩
  intro number
  dsimp only
  rw [Nat.toList_repr, Nat.ofDigitChars_ten_toDigits]

/-- No digit is a sign. -/
theorem repr_ne_minus (number : Nat) (text : String) : number.repr ≠ "-" ++ text := by
  intro same
  have member : '-' ∈ number.repr.toList := by
    rw [same, String.toList_append]
    exact List.mem_append_left _ List.mem_cons_self
  rw [Nat.toList_repr] at member
  exact absurd (Nat.isDigit_of_mem_toDigits (by decide) (by decide) member) (by decide)

theorem toString_int (number : Int) : toString number =
    if 0 ≤ number then number.toNat.repr else "-" ++ (-number).toNat.repr :=
  Int.repr_eq_if

theorem toString_int_injective : Function.Injective (toString : Int → String) := by
  intro first second same
  rw [toString_int, toString_int] at same
  split at same
  · split at same
    · have numbers := repr_injective same
      omega
    · exact absurd same (repr_ne_minus _ _)
  · split at same
    · exact absurd same.symm (repr_ne_minus _ _)
    · have numbers := repr_injective ((String.append_right_inj _).mp same)
      omega

theorem tells_ofNat : Tells Diagnostic.ofNat id where
  legible number := .word Nat.repr_ne_empty (isName_repr number)
  eq_iff first second := by
    rw [Diagnostic.ofNat, Diagnostic.ofNat, Diagnostic.word.injEq]
    exact repr_injective.eq_iff

theorem tells_ofInt : Tells Diagnostic.ofInt id where
  legible number := by
    rw [Diagnostic.ofInt, toString_int]
    split
    · exact .word Nat.repr_ne_empty (isName_repr _)
    · refine .word (by simp) ?_
      rw [Diagnostic.isName, String.toList_append, List.all_append, Bool.and_eq_true]
      exact ⟨rfl, isName_repr _⟩
  eq_iff first second := by
    rw [Diagnostic.ofInt, Diagnostic.ofInt, Diagnostic.word.injEq]
    exact toString_int_injective.eq_iff

theorem tells_ofBool : Tells Diagnostic.ofBool id where
  legible value := by cases value <;> exact .word (by decide) rfl
  eq_iff := by rintro (_ | _) (_ | _) <;> simp [Diagnostic.ofBool]

theorem tells_ofByte : Tells (fun byte : UInt8 => .ofNat byte.toNat) id where
  legible byte := tells_ofNat.legible byte.toNat
  eq_iff _ _ := (tells_ofNat.eq_iff _ _).trans UInt8.toNat_inj

theorem tells_ofBytes : Tells Diagnostic.ofBytes id := tells_ofByte.list_id

/-! ### What objects tell -/

theorem AeadAlgorithm.tells : Tells AeadAlgorithm.diagnostic id where
  legible algorithm := by cases algorithm <;> exact .word (by decide) rfl
  eq_iff := by rintro (_ | _) (_ | _) <;> simp [AeadAlgorithm.diagnostic]

theorem SignatureAlgorithm.tells : Tells SignatureAlgorithm.diagnostic id where
  legible algorithm := by cases algorithm <;> exact .word (by decide) rfl
  eq_iff := by rintro (_ | _) (_ | _) <;> simp [SignatureAlgorithm.diagnostic]

theorem Limits.tells : Tells Limits.diagnostic id := by
  have fields : Tells Limits.diagnostic fun limits =>
      (limits.maximum, limits.interval, limits.window) :=
    .field rfl (tells_ofNat.of Limits.maximum) <|
    .field rfl (tells_ofNat.of Limits.interval) <|
    .last_field rfl rfl (tells_ofNat.of Limits.window)
  refine ⟨fields.legible, fun first second => (fields.eq_iff first second).trans ?_⟩
  obtain ⟨maximum, interval, window⟩ := first
  obtain ⟨otherMaximum, otherInterval, otherWindow⟩ := second
  rw [Prod.mk.injEq, Prod.mk.injEq, id, id, Limits.mk.injEq]

/-- What is shown of a signing key. -/
def SigningKey.shown (key : SigningKey) : SignatureAlgorithm × Option SignatureAlgorithm × Bool :=
  (key.algorithm, key.declared, key.isPrivate)

theorem SigningKey.tells : Tells SigningKey.diagnostic SigningKey.shown :=
  .field rfl (SignatureAlgorithm.tells.of SigningKey.algorithm) <|
  .field rfl (SignatureAlgorithm.tells.option_id.of SigningKey.declared) <|
  .last_field rfl rfl (tells_ofBool.of SigningKey.isPrivate)

/-- What is shown of an entity. -/
def Entity.shown (entity : Entity) :=
  (entity.id, entity.baseIv, entity.sequence, entity.maximum,
    entity.window.map ReplayWindow.base, entity.signingKey.map SigningKey.shown)

theorem Entity.tells : Tells Entity.diagnostic Entity.shown :=
  .field rfl (tells_ofBytes.of Entity.id) <|
  .redacted_field rfl <|
  .field rfl (tells_ofBytes.of Entity.baseIv) <|
  .field rfl (tells_ofNat.of Entity.sequence) <|
  .field rfl (tells_ofNat.of Entity.maximum) <|
  .field rfl (tells_ofNat.option_id.of
    fun entity : Entity => entity.window.map ReplayWindow.base) <|
  .last_field rfl rfl (SigningKey.tells.option.of Entity.signingKey)

namespace SecurityContext

variable {context other : SecurityContext} {listed otherListed : List Bytes}
  {display : SecurityContext → List Bytes → Diagnostic}

/-- What is shown of a context; of its recipients the identifiers, in no order. -/
def shown (context : SecurityContext) :=
  (context.number, context.groupId, context.algorithm, context.signatureAlgorithm,
    context.sender.id, (context.recipients.map Entity.id : Multiset Bytes))

/-- An order in which the recipients of a context may be listed. -/
def Lists (context : SecurityContext) (listed : List Bytes) : Prop :=
  listed.Perm (context.recipients.map Entity.id)

/-- A text that a context may show, with its recipients in any order. -/
def Shows (display : SecurityContext → List Bytes → Diagnostic) (context : SecurityContext)
    (text : String) : Prop :=
  ∃ listed, context.Lists listed ∧ text = (display context listed).render

/-- What is shown of a context with its recipients in some order. -/
def listing (context : SecurityContext × List Bytes) :=
  (context.1.number, context.1.groupId, context.1.algorithm, context.1.signatureAlgorithm,
    context.1.sender.id, context.2)

theorem listing_eq_iff (lists : context.Lists listed) (otherLists : other.Lists otherListed) :
    listing (context, listed) = listing (other, otherListed) ↔
      context.shown = other.shown ∧ listed = otherListed := by
  have recipients (same : listed = otherListed) :
      (context.recipients.map Entity.id).Perm (other.recipients.map Entity.id) := by
    subst same
    exact lists.symm.trans otherLists
  simp only [listing, shown, Prod.mk.injEq, Multiset.coe_eq_coe]
  tauto

theorem tells_shared :
    Tells (fun context : SecurityContext × List Bytes => context.1.sharedDiagnostic context.2)
      listing :=
  .field rfl (tells_ofNat.of fun context : SecurityContext × List Bytes => context.1.number) <|
  .field rfl (tells_ofBytes.option_id.of
    fun context : SecurityContext × List Bytes => context.1.groupId) <|
  .field rfl (AeadAlgorithm.tells.of
    fun context : SecurityContext × List Bytes => context.1.algorithm) <|
  .field rfl (SignatureAlgorithm.tells.option_id.of
    fun context : SecurityContext × List Bytes => context.1.signatureAlgorithm) <|
  .field rfl (tells_ofBytes.of
    fun context : SecurityContext × List Bytes => context.1.sender.id) <|
  .last_field rfl rfl (tells_ofBytes.list_id.of Prod.snd)

/-- The context of a group shows the same, and its signature algorithm once more. -/
theorem tells_grouped : Tells (fun context : (SecurityContext × List Bytes) × Countersigning =>
    .fields "GroupSecurityContext" [("context", context.1.1.sharedDiagnostic context.1.2),
      ("signature_algorithm", context.2.algorithm.diagnostic)] false)
    fun context => (listing context.1, context.2.algorithm) :=
  .field rfl (tells_shared.of Prod.fst) <|
  .last_field rfl rfl (SignatureAlgorithm.tells.of
    fun context : (SecurityContext × List Bytes) × Countersigning => context.2.algorithm)

theorem tells :
    Tells (fun context : SecurityContext × List Bytes => context.1.diagnostic context.2)
      listing where
  legible context := by
    rw [SecurityContext.diagnostic]
    split
    · exact tells_shared.legible context
    · rename_i countersigning _
      exact tells_grouped.legible (context, countersigning)
  eq_iff first second := by
    -- what is shown tells the context of a group from any other by the signature algorithm
    have algorithms (same : listing first = listing second) :
        first.1.countersigning.map Countersigning.algorithm =
          second.1.countersigning.map Countersigning.algorithm :=
      congrArg (fun shown => shown.2.2.2.1) same
    rw [SecurityContext.diagnostic, SecurityContext.diagnostic]
    cases alone : first.1.countersigning with
    | none =>
      cases otherAlone : second.1.countersigning with
      | none => exact tells_shared.eq_iff first second
      | some other =>
        refine iff_of_false (by simp [sharedDiagnostic]) fun same => ?_
        simpa [alone, otherAlone] using algorithms same
    | some countersigning =>
      cases otherAlone : second.1.countersigning with
      | none =>
        refine iff_of_false (by simp [sharedDiagnostic]) fun same => ?_
        simpa [alone, otherAlone] using algorithms same
      | some other =>
        refine (tells_grouped.eq_iff (first, countersigning) (second, other)).trans ?_
        rw [Prod.mk.injEq]
        refine and_iff_left_of_imp fun same => ?_
        simpa [alone, otherAlone] using algorithms same

section Orders

variable (tells : Tells (fun context : SecurityContext × List Bytes => display context.1 context.2)
  listing)

include tells

/-- Two texts of contexts are the same when what is public is, and the orders of the recipients. -/
theorem render_eq_iff (lists : context.Lists listed) (otherLists : other.Lists otherListed) :
    (display context listed).render = (display other otherListed).render ↔
      context.shown = other.shown ∧ listed = otherListed :=
  (tells.render_eq_iff (context, listed) (other, otherListed)).trans
    (listing_eq_iff lists otherLists)

theorem shows_of_shown_eq (same : context.shown = other.shown) {text : String}
    (shows : Shows display context text) : Shows display other text := by
  obtain ⟨listed, lists, rfl⟩ := shows
  have recipients : (context.recipients.map Entity.id).Perm (other.recipients.map Entity.id) :=
    Multiset.coe_eq_coe.mp (congrArg (fun shown => shown.2.2.2.2.2) same)
  have otherLists : other.Lists listed := lists.trans recipients
  exact ⟨listed, otherLists, (render_eq_iff tells lists otherLists).mpr ⟨same, rfl⟩⟩

/-- Two contexts may show the same texts exactly when what is public of them is the same. -/
theorem shows_iff : (∀ text, Shows display context text ↔ Shows display other text) ↔
    context.shown = other.shown := by
  constructor
  · intro same
    have lists : context.Lists (context.recipients.map Entity.id) := List.Perm.refl _
    obtain ⟨listed, otherLists, equal⟩ := (same _).mp ⟨_, lists, rfl⟩
    exact ((render_eq_iff tells lists otherLists).mp equal).1
  · intro same text
    exact ⟨shows_of_shown_eq tells same, shows_of_shown_eq tells same.symm⟩

end Orders

end SecurityContext

/-- What is shown of keying. -/
def Keying.shown (keying : Keying) :=
  (keying.salt, keying.idContext, keying.aead, keying.kdf, keying.limits)

theorem Keying.tells : Tells Keying.diagnostic Keying.shown :=
  .redacted_field rfl <|
  .field rfl (tells_ofBytes.of Keying.salt) <|
  .field rfl (tells_ofBytes.option_id.of Keying.idContext) <|
  .field rfl (tells_ofInt.of Keying.aead) <|
  .field rfl (tells_ofInt.option_id.of Keying.kdf) <|
  .last_field rfl rfl (Limits.tells.of Keying.limits)

/-! ### Pairs -/

namespace SecurityContext

variable {context group pair : SecurityContext} {shared : Bytes}

/-- The contexts of pairs whose members agreed on a secret: those that are derived, copied and
operated on. -/
inductive Paired (shared : Bytes) : SecurityContext → Prop
  | derivePair {group pair : SecurityContext} {own peer : Bytes} {key peerKey : SigningKey}
      {number : Nat} (reachable : group.Reachable) (knows : group.Knows own key peer peerKey)
      (agreed : key.agree peerKey pairwiseSecretLength = .ok shared)
      (derived : group.derivePair peer number = .ok pair) : Paired shared pair
  | duplicate {context : SecurityContext} (paired : Paired shared context) :
      Paired shared context.duplicate
  | operation {context : SecurityContext} (paired : Paired shared context)
      (operation : Operation) : Paired shared (operation.next context)

/-- The members of every pair agreed on a secret. -/
theorem exists_paired (reachable : group.Reachable) {id : Bytes} {number : Nat}
    (derived : group.derivePair id number = .ok pair) : ∃ shared, pair.Paired shared := by
  obtain ⟨member, found, key, memberKey, held, memberHeld, shared, agreed, -⟩ :=
    (derivePair_eq_ok reachable.window_pos).mp derived
  have knows : group.Knows group.sender.id key id memberKey :=
    ⟨rfl, held, member, found, memberKey, memberHeld, rfl⟩
  exact ⟨shared, .derivePair reachable knows agreed derived⟩

/-- A pair keeps the secret of its members as the salt of its keying, beside one key derivation. -/
theorem Paired.keying_eq (paired : context.Paired shared) :
    context.keying.salt = shared ∧
      context.keying.kdf = some KdfAlgorithm.sha256.identifier := by
  induction paired with
  | derivePair reachable knows agreed derived =>
    obtain ⟨member, found, memberKey, memberHeld, same⟩ := knows.member
    obtain ⟨_, again, _, _, held, memberHeldAgain, _, secret, -, -, rfl⟩ :=
      (derivePair_eq_ok reachable.window_pos).mp derived
    -- the derivation found the same two keys, so they agreed on the same secret
    cases found.symm.trans again
    cases knows.sender_key.symm.trans held
    cases memberHeld.symm.trans memberHeldAgain
    rw [SigningKey.agree_congr same, agreed] at secret
    cases secret
    exact ⟨rfl, rfl⟩
  | duplicate _ inductionHypothesis => exact inductionHypothesis
  | operation _ operation inductionHypothesis =>
    rw [(operation.changes_next _).identity_eq.2]
    exact inductionHypothesis

theorem Paired.after (paired : context.Paired shared) (operations : List Operation) :
    (context.after operations).Paired shared := by
  induction operations generalizing context with
  | nil => exact paired
  | cons operation rest inductionHypothesis =>
    exact inductionHypothesis (paired.operation operation)

/-- A group whose sender agrees with a listed member on a secret has their pair. -/
theorem derivePair_of_deriveGroup {parameters : GroupParameters}
    {members : List (Bytes × SigningKey)} {keying : ResolvedKeying} {peer : Bytes}
    {peerKey : SigningKey} {number : Nat} (given : parameters.members = .ok members)
    (listed : (peer, peerKey) ∈ members) (known : parameters.keying.resolve = .ok keying)
    (agreed : parameters.key.agree peerKey pairwiseSecretLength = .ok shared)
    (derived : deriveGroup parameters number = .ok group) (pairNumber : Nat) :
    group.derivePair peer pairNumber =
        .ok (pairOf keying shared parameters.sender peer pairNumber) ∧
      (pairOf keying shared parameters.sender peer pairNumber).Paired shared := by
  obtain ⟨_, again, uniform⟩ := (OfGroup.derive rfl derived).uniform
  cases known.symm.trans again
  have knows := knows_of_deriveGroup given listed rfl derived
  have pair := uniform.derivePair_eq knows agreed pairNumber
  exact ⟨pair, .derivePair (.deriveGroup derived) knows agreed pair⟩

end SecurityContext

/-! ### Two pairs -/

/-- One key of P-256 agrees with two others on different secrets. -/
theorem SigningKey.exists_agreeing_apart : ∃ key peer other : SigningKey,
    ofScalar (Bytes.bigEndian 32 1) = .ok key ∧ ofScalar (Bytes.bigEndian 32 2) = .ok peer ∧
    ofScalar (Bytes.bigEndian 32 3) = .ok other ∧ key.fits .es256 ∧ peer.fits .es256 ∧
    other.fits .es256 ∧ ∃ shared otherShared,
      key.agree peer pairwiseSecretLength = .ok shared ∧
      key.agree other pairwiseSecretLength = .ok otherShared ∧ shared ≠ otherShared := by
  obtain ⟨point, otherPoint, made, otherMade, short, otherShort, apart⟩ : ∃ point otherPoint,
      P256.publicPoint? 2 = some point ∧ P256.publicPoint? 3 = some otherPoint ∧
        (P256.agree 1 point).length ≤ pairwiseSecretLength ∧
        (P256.agree 1 otherPoint).length ≤ pairwiseSecretLength ∧
        Bytes.padLeft pairwiseSecretLength (P256.agree 1 point) ≠
          Bytes.padLeft pairwiseSecretLength (P256.agree 1 otherPoint) :=
    ⟨(P256.publicPoint? 2).getD P256.generator, (P256.publicPoint? 3).getD P256.generator,
      by decide +kernel, by decide +kernel, by decide +kernel, by decide +kernel,
      by decide +kernel⟩
  have one : P256.publicPoint? 1 = some P256.generator := by decide +kernel
  have padded {secret : Bytes} (fits : secret.length ≤ pairwiseSecretLength) :
      padSecret pairwiseSecretLength secret = .ok (Bytes.padLeft pairwiseSecretLength secret) :=
    if_pos fits
  exact ⟨_, _, _, ofScalar_eq_ok (by decide) one, ofScalar_eq_ok (by decide) made,
    ofScalar_eq_ok (by decide) otherMade, rfl, rfl, rfl, _, _, padded short, padded otherShort,
    apart⟩

namespace SecurityContext

variable {shared : Bytes}

/-- A group of a member with a key and a member that is known by its public half, derived from one
byte. -/
def groupOfTwo (key peerKey : SigningKey) : GroupParameters where
  keying := { secret := [1] }
  sender := [0x0a]
  algorithm := -7
  key
  identifiers := some [[0x0b]]
  keys := some [peerKey.publicHalf]

theorem derivePair_groupOfTwo {key member : SigningKey} (fits : key.fits .es256)
    (memberFits : member.fits .es256)
    (agreed : key.agree member pairwiseSecretLength = .ok shared) (number pairNumber : Nat) :
    let pair := pairOf ⟨[1], [], none, .aesCcm8, .sha256, {}⟩ shared [0x0a] [0x0b] pairNumber
    ∃ group, deriveGroup (groupOfTwo key member) number = .ok group ∧
      group.derivePair [0x0b] pairNumber = .ok pair ∧ pair.Paired shared := by
  let resolved : ResolvedKeying := ⟨[1], [], none, .aesCcm8, .sha256, {}⟩
  have short (byte : UInt8) : [byte].length ≤ resolved.aead.identifierCapacity :=
    (by decide : 1 ≤ AeadAlgorithm.aesCcm8.identifierCapacity)
  have publicFits : member.publicHalf.fits .es256 := by
    rw [SigningKey.fits_publicHalf]
    exact memberFits
  obtain ⟨recipients, mapped⟩ : ∃ recipients,
      ([([0x0b], member.publicHalf)].mapM fun member : Bytes × SigningKey =>
        resolved.member .es256 member.1 member.2) = .ok recipients := by
    rw [List.mapM_cons, (member_eq_ok (by decide)).mpr ⟨publicFits, short _, rfl⟩]
    exact ⟨_, rfl⟩
  have derived := (@deriveGroup_eq_ok _ (groupOfTwo key member) number).mpr
    ⟨_, rfl, rfl, .es256, rfl, fits, resolved, rfl, short _, recipients, mapped, rfl⟩
  rw [← SigningKey.agree_congr member.samePublic_publicHalf] at agreed
  exact ⟨_, derived,
    derivePair_of_deriveGroup rfl List.mem_cons_self rfl agreed derived pairNumber⟩

/-- The members of two groups derive keying that differs in the agreed secret alone. -/
theorem exists_paired_apart : ∃ key peerKey otherKey,
    SigningKey.ofScalar (Bytes.bigEndian 32 1) = .ok key ∧
    SigningKey.ofScalar (Bytes.bigEndian 32 2) = .ok peerKey ∧
    SigningKey.ofScalar (Bytes.bigEndian 32 3) = .ok otherKey ∧
    ∃ group other pair otherPair, deriveGroup (groupOfTwo key peerKey) 1 = .ok group ∧
      deriveGroup (groupOfTwo key otherKey) 2 = .ok other ∧
      group.derivePair [0x0b] 3 = .ok pair ∧ other.derivePair [0x0b] 4 = .ok otherPair ∧
      ∃ shared otherShared, key.agree peerKey pairwiseSecretLength = .ok shared ∧
        key.agree otherKey pairwiseSecretLength = .ok otherShared ∧ shared ≠ otherShared ∧
        pair.Paired shared ∧ otherPair.Paired otherShared ∧
        otherPair.keying = { pair.keying with salt := otherShared } := by
  obtain ⟨key, peerKey, otherKey, made, peerMade, otherMade, fits, peerFits, otherFits, shared,
    otherShared, agreed, otherAgreed, apart⟩ := SigningKey.exists_agreeing_apart
  obtain ⟨group, derived, pair, paired⟩ := derivePair_groupOfTwo fits peerFits agreed 1 3
  obtain ⟨other, otherDerived, otherPair, otherPaired⟩ :=
    derivePair_groupOfTwo fits otherFits otherAgreed 2 4
  exact ⟨key, peerKey, otherKey, made, peerMade, otherMade, group, other, _, _, derived,
    otherDerived, pair, otherPair, shared, otherShared, agreed, otherAgreed, apart, paired,
    otherPaired, rfl⟩

end SecurityContext

/-! ### Texts and secrets -/

namespace Diagnostic

/-- Two texts of signing keys or of entities are the same exactly when what is public and shown is.
Two contexts have the same possible texts exactly then, one for each order in which the recipients
may be listed, and two of these texts are the same exactly when the orders are as well: no symmetric
key, no master secret and no private half makes a difference. Two texts of keying are the same
exactly when everything but the secrets is. Two pairs, whatever was done with them, keep keying
whose texts differ when the secrets do that their members agreed on. -/
theorem texts_tell_agreed_secrets (key otherKey : SigningKey) (entity otherEntity : Entity)
    (keying otherKeying : Keying) (context otherContext : SecurityContext) :
    (key.diagnostic.render = otherKey.diagnostic.render ↔ key.shown = otherKey.shown) ∧
    (entity.diagnostic.render = otherEntity.diagnostic.render ↔
      entity.shown = otherEntity.shown) ∧
    (∀ display ∈ [SecurityContext.diagnostic, SecurityContext.sharedDiagnostic],
      ((∀ text, context.Shows display text ↔ otherContext.Shows display text) ↔
        context.shown = otherContext.shown) ∧
      ∀ listed otherListed, context.Lists listed → otherContext.Lists otherListed →
        ((display context listed).render = (display otherContext otherListed).render ↔
          context.shown = otherContext.shown ∧ listed = otherListed)) ∧
    (keying.diagnostic.render = otherKeying.diagnostic.render ↔
      keying.shown = otherKeying.shown) ∧
    ∀ {shared otherShared : Bytes}, context.Paired shared → otherContext.Paired otherShared →
      (context.keying.diagnostic.render = otherContext.keying.diagnostic.render ↔
        shared = otherShared ∧ context.keying.idContext = otherContext.keying.idContext ∧
          context.keying.aead = otherContext.keying.aead ∧
          context.keying.limits = otherContext.keying.limits) := by
  refine ⟨SigningKey.tells.render_eq_iff key otherKey,
    Entity.tells.render_eq_iff entity otherEntity, ?_,
    Keying.tells.render_eq_iff keying otherKeying, ?_⟩
  · have each : ∀ display ∈ [SecurityContext.diagnostic, SecurityContext.sharedDiagnostic],
        Tells (fun context : SecurityContext × List Bytes => display context.1 context.2)
          SecurityContext.listing :=
      List.forall_mem_cons.mpr
        ⟨SecurityContext.tells, List.forall_mem_singleton.mpr SecurityContext.tells_shared⟩
    intro display member
    refine ⟨SecurityContext.shows_iff (each display member), ?_⟩
    intro listed otherListed lists otherLists
    exact SecurityContext.render_eq_iff (each display member) lists otherLists
  · intro shared otherShared paired otherPaired
    obtain ⟨salt, kdf⟩ := paired.keying_eq
    obtain ⟨otherSalt, otherKdf⟩ := otherPaired.keying_eq
    rw [Keying.tells.render_eq_iff, Keying.shown, Keying.shown, salt, otherSalt, kdf, otherKdf]
    simp only [Prod.mk.injEq, true_and]

/-- Two pairs with other agreed secrets have keying with other texts, whatever is done with them,
while another master secret or another symmetric key makes no difference. -/
theorem texts_tell_agreed_secrets_apart : ∃ pair otherPair : SecurityContext,
    (∃ shared, pair.Paired shared) ∧ (∃ shared, otherPair.Paired shared) ∧
    (∀ operations otherOperations, (pair.after operations).keying.diagnostic.render ≠
      (otherPair.after otherOperations).keying.diagnostic.render) ∧
    (∀ secret, { pair.keying with secret }.diagnostic.render = pair.keying.diagnostic.render) ∧
    ∀ key, { pair.sender with key }.diagnostic.render = pair.sender.diagnostic.render := by
  obtain ⟨key, otherKey, -, -, -, -, -, -, pair, otherPair, -, -, -, -, shared, otherShared, -, -,
    apart, paired, otherPaired, -⟩ := SecurityContext.exists_paired_apart
  refine ⟨pair, otherPair, ⟨_, paired⟩, ⟨_, otherPaired⟩, ?_, ?_, ?_⟩
  · intro operations otherOperations same
    obtain ⟨-, -, -, -, pairs⟩ := texts_tell_agreed_secrets key otherKey pair.sender
      otherPair.sender pair.keying otherPair.keying (pair.after operations)
      (otherPair.after otherOperations)
    exact apart ((pairs (paired.after operations) (otherPaired.after otherOperations)).mp same).1
  · intro secret
    exact (texts_tell_agreed_secrets key key pair.sender pair.sender { pair.keying with secret }
      pair.keying pair pair).2.2.2.1.mpr rfl
  · intro secret
    exact (texts_tell_agreed_secrets key key { pair.sender with key := secret } pair.sender
      pair.keying pair.keying pair pair).2.1.mpr rfl

/-- A member of two groups has a pair in each whose keying differs from that of the other in the
agreed secret alone, and both texts tell it. -/
theorem agreed_secret_told : ∃ key peerKey otherKey,
    SigningKey.ofScalar (Bytes.bigEndian 32 1) = .ok key ∧
    SigningKey.ofScalar (Bytes.bigEndian 32 2) = .ok peerKey ∧
    SigningKey.ofScalar (Bytes.bigEndian 32 3) = .ok otherKey ∧
    ∃ group other pair otherPair,
      SecurityContext.deriveGroup (SecurityContext.groupOfTwo key peerKey) 1 = .ok group ∧
      SecurityContext.deriveGroup (SecurityContext.groupOfTwo key otherKey) 2 = .ok other ∧
      group.derivePair [0x0b] 3 = .ok pair ∧ other.derivePair [0x0b] 4 = .ok otherPair ∧
      ∃ shared otherShared, key.agree peerKey pairwiseSecretLength = .ok shared ∧
        key.agree otherKey pairwiseSecretLength = .ok otherShared ∧
        pair.keying.salt = shared ∧
        otherPair.keying = { pair.keying with salt := otherShared } ∧
        pair.keying.diagnostic.render ≠ otherPair.keying.diagnostic.render := by
  obtain ⟨key, peerKey, otherKey, made, peerMade, otherMade, group, other, pair, otherPair,
    derived, otherDerived, pairDerived, otherPairDerived, shared, otherShared, agreed, otherAgreed,
    apart, paired, -, same⟩ := SecurityContext.exists_paired_apart
  refine ⟨key, peerKey, otherKey, made, peerMade, otherMade, group, other, pair, otherPair,
    derived, otherDerived, pairDerived, otherPairDerived, shared, otherShared, agreed, otherAgreed,
    paired.keying_eq.1, same, ?_⟩
  rw [Ne, Keying.tells.render_eq_iff, same, Keying.shown, Keying.shown, paired.keying_eq.1]
  exact fun shown => apart (congrArg Prod.fst shown)

end Diagnostic

end Oscore
