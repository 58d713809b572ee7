/-
This file says what derivation gives. The outputs that a context asks for are
short, so no derivation of bytes fails; what is left that can be refused is the
limits, the algorithms and the length of the identifier. An entity that was
derived is determined by its keying, its identifier and its window.
-/

import Oscore.Derivation

namespace Oscore

/-! ### Steps that may be refused -/

section Steps

variable {Cause Value Result : Type}

theorem bind_eq_ok {step : Except Cause Value} {next : Value → Except Cause Result}
    {result : Result} :
    (step >>= next) = .ok result ↔ ∃ value, step = .ok value ∧ next value = .ok result := by
  cases step with
  | error cause =>
    constructor
    · intro equal
      cases equal
    · rintro ⟨_, equal, _⟩
      cases equal
  | ok value =>
    constructor
    · intro equal
      exact ⟨value, rfl, equal⟩
    · rintro ⟨_, same, equal⟩
      cases same
      exact equal

theorem mapError_eq_ok {Other : Type} {step : Except Cause Value} {explain : Cause → Other}
    {value : Value} : step.mapError explain = .ok value ↔ step = .ok value := by
  cases step with
  | error cause =>
    constructor
    · intro equal
      cases equal
    · intro equal
      cases equal
  | ok other =>
    constructor
    · intro equal
      cases equal
      rfl
    · intro equal
      cases equal
      rfl

theorem map_eq_ok {step : Except Cause Value} {change : Value → Result} {result : Result} :
    step.map change = .ok result ↔ ∃ value, step = .ok value ∧ change value = result := by
  cases step <;> simp [Except.map]

theorem map_eq_error {step : Except Cause Value} {change : Value → Result} {cause : Cause} :
    step.map change = .error cause ↔ step = .error cause := by
  cases step <;> simp [Except.map]

theorem toOption_eq_some {step : Except Cause Value} {value : Value} :
    step.toOption = some value ↔ step = .ok value := by
  cases step <;> simp [Except.toOption]

theorem pure_eq_ok {value result : Value} :
    (pure value : Except Cause Value) = .ok result ↔ value = result :=
  ⟨Except.ok.inj, congrArg Except.ok⟩

theorem throw_bind {cause : Cause} {next : Value → Except Cause Result} :
    ((throw cause : Except Cause Value) >>= next) = .error cause := rfl

/-- A step that is refused on a condition succeeds only against it. -/
theorem refuse_eq_ok {condition : Prop} [Decidable condition] {cause : Cause}
    {step : Except Cause Value} {value : Value} :
    (if condition then .error cause else step) = .ok value ↔ ¬condition ∧ step = .ok value := by
  by_cases holds : condition <;> simp [holds]

end Steps

/-! ### Derived bytes -/

namespace Hash

theorem length_expandBlocks (hash : Hash) (key info : Bytes) (count index : Nat)
    (previous : Bytes) :
    (hash.expandBlocks key info count index previous).length = count * hash.digestLength := by
  induction count generalizing index previous with
  | zero => rw [Nat.zero_mul]; rfl
  | succ count inductionHypothesis =>
    rw [expandBlocks, List.length_append, inductionHypothesis, length_hmac, Nat.succ_mul,
      Nat.add_comm]

/-- A derivation of at most 255 digests succeeds and gives the length asked for. -/
theorem derive_isOk (hash : Hash) (secret salt info : Bytes) {length : Nat}
    (digests : 0 < hash.digestLength) (short : length ≤ 255 * hash.digestLength) :
    ∃ output, hash.derive secret salt info length = .ok output ∧ output.length = length := by
  refine ⟨_, if_neg (Nat.not_lt.mpr short), ?_⟩
  have split := Nat.div_add_mod (length + hash.digestLength - 1) hash.digestLength
  have small := Nat.mod_lt (length + hash.digestLength - 1) digests
  rw [Nat.mul_comm] at split
  rw [List.length_take, length_expandBlocks]
  omega

end Hash

theorem KdfAlgorithm.digestLength_hash (algorithm : KdfAlgorithm) :
    32 ≤ algorithm.hash.digestLength := by
  cases algorithm <;> decide

namespace AeadAlgorithm

theorem keyLength_le (algorithm : AeadAlgorithm) : algorithm.keyLength ≤ 32 := by
  cases algorithm <;> decide

theorem nonceLength_le (algorithm : AeadAlgorithm) : algorithm.nonceLength ≤ 13 := by
  cases algorithm <;> decide

theorem le_nonceLength (algorithm : AeadAlgorithm) : 12 ≤ algorithm.nonceLength := by
  cases algorithm <;> decide

theorem ofIdentifier_identifier (algorithm : AeadAlgorithm) :
    ofIdentifier algorithm.identifier = .ok algorithm := by
  cases algorithm <;> rfl

end AeadAlgorithm

namespace ResolvedKeying

/-- The bytes that are derived for an identifier and a purpose. -/
def output (keying : ResolvedKeying) (id : Bytes) (purpose : Purpose) (length : Nat) : Bytes :=
  (keying.derive id purpose length).toOption.getD []

theorem derive_eq (keying : ResolvedKeying) (id : Bytes) (purpose : Purpose) {length : Nat}
    (short : length ≤ 32) :
    keying.derive id purpose length = .ok (keying.output id purpose length) ∧
      (keying.output id purpose length).length = length := by
  have digests := keying.kdf.digestLength_hash
  obtain ⟨output, derived, full⟩ := keying.kdf.hash.derive_isOk keying.secret keying.salt
    (derivationInfo id keying.idContext keying.aead purpose length)
    (by omega : 0 < keying.kdf.hash.digestLength)
    (by omega : length ≤ 255 * keying.kdf.hash.digestLength)
  have answer : keying.derive id purpose length = .ok output :=
    mapError_eq_ok.mpr derived
  have same : keying.output id purpose length = output := by rw [ResolvedKeying.output, answer]; rfl
  rw [same]
  exact ⟨answer, full⟩

/-- The key of an identifier. -/
def keyOf (keying : ResolvedKeying) (id : Bytes) : Bytes :=
  keying.output id .key keying.aead.keyLength

/-- The IV that all entities share before their identifiers are folded in. -/
def commonIv (keying : ResolvedKeying) : Bytes :=
  keying.output [] .iv keying.aead.nonceLength

theorem derive_key (keying : ResolvedKeying) (id : Bytes) :
    keying.derive id .key keying.aead.keyLength = .ok (keying.keyOf id) :=
  (keying.derive_eq id .key keying.aead.keyLength_le).1

theorem derive_iv (keying : ResolvedKeying) :
    keying.derive [] .iv keying.aead.nonceLength = .ok keying.commonIv :=
  (keying.derive_eq [] .iv (Nat.le_trans keying.aead.nonceLength_le (by decide))).1

@[simp] theorem length_keyOf (keying : ResolvedKeying) (id : Bytes) :
    (keying.keyOf id).length = keying.aead.keyLength :=
  (keying.derive_eq id .key keying.aead.keyLength_le).2

@[simp] theorem length_commonIv (keying : ResolvedKeying) :
    keying.commonIv.length = keying.aead.nonceLength :=
  (keying.derive_eq [] .iv (Nat.le_trans keying.aead.nonceLength_le (by decide))).2

/-! ### Derived entities -/

theorem window_sender (keying : ResolvedKeying) : keying.window .sender = .ok none := rfl

theorem window_recipient {keying : ResolvedKeying} (positive : 0 < keying.limits.window) :
    keying.window .recipient = .ok (some (.empty 0 keying.limits.window)) := by
  rw [window, ReplayWindow.create, if_neg (Nat.ne_of_gt positive)]
  rfl

/-- The entity of an identifier before it was used. -/
def fresh (keying : ResolvedKeying) (id : Bytes) (window : Option ReplayWindow) : Entity where
  id
  key := keying.keyOf id
  baseIv := foldIdentifier keying.commonIv id
  sequence := 0
  maximum := keying.limits.maximum
  interval := keying.limits.interval
  window
  signingKey := none

/-- Deriving an entity: only its identifier and its window can be refused. -/
theorem entity_eq (keying : ResolvedKeying) (id : Bytes) (role : Role) :
    keying.entity id role =
      if keying.aead.identifierCapacity < id.length then
        .error (.identifierTooLong id.length keying.aead.identifierCapacity)
      else (keying.window role).map (keying.fresh id) := by
  rw [ResolvedKeying.entity, derive_key, derive_iv]
  split
  · rfl
  · cases keying.window role <;> rfl

/-- An entity is derived exactly when its identifier fits and its window can be made. -/
theorem entity_eq_ok {keying : ResolvedKeying} {id : Bytes} {role : Role} {entity : Entity} :
    keying.entity id role = .ok entity ↔
      id.length ≤ keying.aead.identifierCapacity ∧
        ∃ window, keying.window role = .ok window ∧ entity = keying.fresh id window := by
  rw [entity_eq, refuse_eq_ok, Nat.not_lt, map_eq_ok]
  simp only [eq_comm]

end ResolvedKeying

/-- An entity that keying gives for the identifier that it carries. -/
structure Entity.DerivedBy (entity : Entity) (keying : ResolvedKeying) : Prop where
  id_fits : entity.id.length ≤ keying.aead.identifierCapacity
  key_eq : entity.key = keying.keyOf entity.id
  baseIv_eq : entity.baseIv = foldIdentifier keying.commonIv entity.id

/-! ### Resolved keying -/

/-- Limits are permitted when the maximum fits a partial IV and nothing is empty. -/
theorem Limits.check_eq_ok {limits : Limits} :
    limits.check = .ok () ↔
      limits.maximum ≤ sequenceCeiling ∧ 0 < limits.interval ∧ 0 < limits.window := by
  rw [check, refuse_eq_ok, refuse_eq_ok, refuse_eq_ok, Nat.not_lt]
  simp only [Nat.pos_iff_ne_zero, ne_eq, and_true]

/-- What resolved keying keeps of the keying, and what it knows of it. -/
theorem Keying.resolve_eq_ok {keying : Keying} {resolved : ResolvedKeying} :
    keying.resolve = .ok resolved ↔
      keying.limits.check = .ok () ∧
      AeadAlgorithm.ofIdentifier keying.aead = .ok resolved.aead ∧
      KdfAlgorithm.ofIdentifier keying.kdf = .ok resolved.kdf ∧
      resolved.secret = keying.secret ∧ resolved.salt = keying.salt ∧
      resolved.idContext = keying.idContext ∧ resolved.limits = keying.limits := by
  simp only [resolve, bind_eq_ok, mapError_eq_ok, pure_eq_ok]
  constructor
  · rintro ⟨_, checked, aead, known, kdf, derivation, rfl⟩
    exact ⟨checked, known, derivation, rfl, rfl, rfl, rfl⟩
  · obtain ⟨secret, salt, idContext, aead, kdf, limits⟩ := resolved
    rintro ⟨checked, known, derivation, rfl, rfl, rfl, rfl⟩
    exact ⟨(), checked, aead, known, kdf, derivation, rfl⟩

theorem Keying.entity_sender {keying : Keying} {resolved : ResolvedKeying}
    (known : keying.resolve = .ok resolved) {id : Bytes}
    (fits : id.length ≤ resolved.aead.identifierCapacity) :
    keying.entity id .sender = .ok (resolved.fresh id none) := by
  rw [Keying.entity, known]
  exact ResolvedKeying.entity_eq_ok.mpr ⟨fits, none, rfl, rfl⟩

/-- The limits of resolved keying are permitted. -/
theorem Keying.limits_of_resolve {keying : Keying} {resolved : ResolvedKeying}
    (known : keying.resolve = .ok resolved) :
    resolved.limits.maximum ≤ sequenceCeiling ∧ 0 < resolved.limits.interval ∧
      0 < resolved.limits.window := by
  obtain ⟨checked, -, -, -, -, -, limits⟩ := resolve_eq_ok.mp known
  rw [limits]
  exact Limits.check_eq_ok.mp checked

end Oscore
