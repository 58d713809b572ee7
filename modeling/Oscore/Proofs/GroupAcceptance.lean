/-
This file says which parameters a group is derived from, and what it is refused for
otherwise. The parameters must meet a list of requirements, in the numbers and
identifiers that the protocol assigns; the first that they do not meet is what the
derivation is refused for. The shape of the lists comes first and the members come
last, each with its key before its identifier. Nothing else can go wrong: what is
derived is short enough for every algorithm.
-/

import Oscore.Proofs.GroupConstruction
import Oscore.Proofs.Requirements

namespace Oscore

/-! ### Keying -/

/-- What is required of limits. -/
def Limits.requirements (limits : Limits) : List Requirement :=
  [⟨limits.maximum ≤ 2 ^ 40 - 1, .bound limits.maximum (2 ^ 40 - 1)⟩,
    ⟨limits.interval ≠ 0, .bound 0 (2 ^ 40 - 1)⟩,
    ⟨limits.window ≠ 0, .bound 0 (2 ^ 64 - 1)⟩]

namespace Keying

/-- The identifiers of AES-CCM with a tag of eight and of sixteen bytes, of AES-GCM with a key of
128 and of 256 bits, and of ChaCha20 with Poly1305. -/
def knownAeads : List Int := [10, 30, 1, 3, 24]

/-- The identifiers of a derivation with SHA-256 and with SHA-512, each by itself and as a step
of key agreement. -/
def knownKdfs : List Int := [-10, -27, -11, -28]

/-- What is required of keying: first of its limits, then of its algorithms. -/
def requirements (keying : Keying) : List Requirement :=
  keying.limits.requirements ++
    ([⟨keying.aead ∈ knownAeads, .failure (.unknownAlgorithm keying.aead)⟩] ++
      [⟨∀ kdf ∈ keying.kdf, kdf ∈ knownKdfs,
        .failure (.unknownAlgorithm (keying.kdf.getD 0))⟩])

/-- How long an identifier may be: all but six bytes of the nonce, which has thirteen with AES-CCM
and twelve otherwise. -/
def identifierRoom (keying : Keying) : Nat :=
  (if keying.aead = 10 ∨ keying.aead = 30 then 13 else 12) - 6

/-- An identifier must leave six bytes of the nonce free. -/
def admits (keying : Keying) (id : Bytes) : Requirement :=
  ⟨id.length ≤ keying.identifierRoom, .identifierTooLong id.length keying.identifierRoom⟩

end Keying

theorem Limits.check_checks (limits : Limits) : Checks limits.check limits.requirements :=
  checks_refuse Nat.not_le.symm fun _ => checks_refuse not_not.symm fun _ =>
    checks_refuse not_not.symm fun _ => checks_ok ()

theorem AeadAlgorithm.identifier_of_ofIdentifier {identifier : Int} {algorithm : AeadAlgorithm}
    (known : ofIdentifier identifier = .ok algorithm) : algorithm.identifier = identifier := by
  rw [ofIdentifier] at known
  repeat' split at known
  all_goals cases known
  all_goals exact Eq.symm ‹_›

theorem AeadAlgorithm.ofIdentifier_checks (identifier : Int) :
    Checks ((ofIdentifier identifier).mapError .failure)
      [⟨identifier ∈ Keying.knownAeads, .failure (.unknownAlgorithm identifier)⟩] := by
  refine checks_single ?_ ?_
  · intro known
    simp only [Keying.knownAeads, List.mem_cons, List.not_mem_nil, or_false] at known
    rcases known with rfl | rfl | rfl | rfl | rfl <;> exact ⟨_, rfl⟩
  · intro unknown
    simp only [Keying.knownAeads, List.mem_cons, List.not_mem_nil, or_false, not_or] at unknown
    simp only [ofIdentifier, unknown, if_false]
    rfl

theorem KdfAlgorithm.ofIdentifier_checks (identifier : Option Int) :
    Checks ((ofIdentifier identifier).mapError .failure)
      [⟨∀ kdf ∈ identifier, kdf ∈ Keying.knownKdfs,
        .failure (.unknownAlgorithm (identifier.getD 0))⟩] := by
  cases identifier with
  | none => exact checks_single (fun _ => ⟨_, rfl⟩) fun unknown => absurd (by simp) unknown
  | some identifier =>
    simp only [Option.mem_def, Option.some.injEq, forall_eq', Keying.knownKdfs, List.mem_cons,
      List.not_mem_nil, or_false]
    refine checks_single ?_ ?_
    · intro known
      rcases known with rfl | rfl | rfl | rfl <;> exact ⟨_, rfl⟩
    · intro unknown
      simp only [not_or] at unknown
      simp only [ofIdentifier, unknown, or_false, if_false]
      rfl

theorem Keying.resolve_checks (keying : Keying) : Checks keying.resolve keying.requirements := by
  rw [Keying.resolve, requirements]
  refine checks_bind keying.limits.check_checks fun _ _ => ?_
  refine checks_bind (AeadAlgorithm.ofIdentifier_checks _) fun _ _ => ?_
  exact (KdfAlgorithm.ofIdentifier_checks _).map_ok

/-! ### Members -/

/-- The algorithm that keying names leaves exactly this room. -/
theorem Keying.identifierRoom_of_resolve {keying : Keying} {resolved : ResolvedKeying}
    (resolves : keying.resolve = .ok resolved) :
    keying.identifierRoom = resolved.aead.identifierCapacity := by
  obtain ⟨-, known, -⟩ := Keying.resolve_eq_ok.mp resolves
  rw [identifierRoom, ← AeadAlgorithm.identifier_of_ofIdentifier known]
  cases resolved.aead <;> rfl

/-- Whether a key is of the curve of a signature algorithm and declares no other algorithm, by
the algorithms' identifiers. -/
def SigningKey.Serves (key : SigningKey) (identifier : Int) : Prop :=
  key.algorithm.identifier = identifier ∧
    ∀ declared ∈ key.declared, declared.identifier = identifier

/-- A signing key must be of the algorithm of its group. -/
def SigningKey.serving (key : SigningKey) (identifier : Int) : Requirement :=
  ⟨key.Serves identifier, .wrongAlgorithm⟩

namespace SignatureAlgorithm

/-- The identifiers of ECDSA with SHA-256 and of EdDSA. -/
def known : List Int := [-7, -8]

theorem identifier_inj {first second : SignatureAlgorithm} :
    first.identifier = second.identifier ↔ first = second := by
  cases first <;> cases second <;> decide

theorem identifier_of_ofIdentifier {identifier : Int} {algorithm : SignatureAlgorithm}
    (known : ofIdentifier identifier = .ok algorithm) : algorithm.identifier = identifier := by
  rw [ofIdentifier] at known
  repeat' split at known
  all_goals cases known
  all_goals exact Eq.symm ‹_›

theorem ofIdentifier_checks (identifier : Int) :
    Checks ((ofIdentifier identifier).mapError .failure)
      [⟨identifier ∈ known, .failure (.unsupportedSignature identifier)⟩] := by
  refine checks_single ?_ ?_
  · intro supported
    simp only [known, List.mem_cons, List.not_mem_nil, or_false] at supported
    rcases supported with rfl | rfl <;> exact ⟨_, rfl⟩
  · intro unsupported
    simp only [known, List.mem_cons, List.not_mem_nil, or_false, not_or] at unsupported
    simp only [ofIdentifier, unsupported, if_false]
    rfl

end SignatureAlgorithm

theorem SigningKey.fits_iff_serves (key : SigningKey) (algorithm : SignatureAlgorithm) :
    key.fits algorithm ↔ key.Serves algorithm.identifier := by
  rw [fits, Serves, Bool.and_eq_true, decide_eq_true_iff, Option.all_eq_true]
  simp only [SignatureAlgorithm.identifier_inj, decide_eq_true_eq, Option.mem_def]

namespace ResolvedKeying

variable {keying : Keying} {resolved : ResolvedKeying}

theorem entity_checks (resolves : keying.resolve = .ok resolved) (id : Bytes) (role : Role) :
    Checks (resolved.entity id role) [keying.admits id] := by
  have window : ∃ window, resolved.window role = .ok window := by
    cases role with
    | sender => exact ⟨_, resolved.window_sender⟩
    | recipient => exact ⟨_, window_recipient (Keying.limits_of_resolve resolves).2.2⟩
  obtain ⟨window, made⟩ := window
  rw [entity_eq, made, Keying.admits, Keying.identifierRoom_of_resolve resolves]
  exact checks_refuse Nat.not_le.symm fun _ => checks_ok _

theorem member_checks (resolves : keying.resolve = .ok resolved) (algorithm : SignatureAlgorithm)
    (id : Bytes) (key : SigningKey) :
    Checks (resolved.member algorithm id key)
      [key.serving algorithm.identifier, keying.admits id] := by
  rw [member]
  refine checks_refuse ?_ fun _ => (entity_checks resolves id .recipient).map_ok
  rw [← key.fits_iff_serves, Bool.not_eq_true', Bool.not_eq_true]

end ResolvedKeying

/-! ### Lists of members -/

/-- No identifier may stand in a list twice. The one that is named stands further up already. -/
def distinctRequirements (ids : List Bytes) : List Requirement :=
  ids.zipIdx.map fun placed =>
    ⟨placed.1 ∉ ids.take placed.2, .duplicateRecipient placed.1⟩

/-- By induction on what is left of the list, where those seen are the ones in front of it. -/
theorem firstUnmet_distinct_from {front seen ids : List Bytes} {refusal : Refusal}
    (same : ∀ id, id ∈ seen ↔ id ∈ front) :
    FirstUnmet ((ids.zipIdx front.length).map fun placed =>
        ⟨placed.1 ∉ (front ++ ids).take placed.2, .duplicateRecipient placed.1⟩) refusal ↔
      ∃ id, firstRepeated seen ids = some id ∧ .duplicateRecipient id = refusal := by
  induction ids generalizing front seen with
  | nil => simp [firstRepeated, not_firstUnmet_nil]
  | cons id rest inductionHypothesis =>
    have grown : ∀ other, other ∈ id :: seen ↔ other ∈ front ++ [id] := by
      intro other
      rw [List.mem_cons, List.mem_append, List.mem_singleton, same, or_comm]
    have later := inductionHypothesis grown
    rw [List.length_append, List.length_singleton, List.append_assoc,
      List.singleton_append] at later
    rw [List.zipIdx_cons, List.map_cons, firstUnmet_cons, List.take_left, not_not, later,
      firstRepeated, ← same]
    by_cases repeated : id ∈ seen <;> simp [repeated]

theorem firstUnmet_distinct {ids : List Bytes} {refusal : Refusal} :
    FirstUnmet (distinctRequirements ids) refusal ↔
      ∃ id, firstRepeated [] ids = some id ∧ .duplicateRecipient id = refusal :=
  @firstUnmet_distinct_from [] [] ids refusal fun _ => Iff.rfl

theorem forall_distinct_met_iff {ids : List Bytes} :
    (∀ requirement ∈ distinctRequirements ids, requirement.met) ↔ ids.Nodup := by
  rw [forall_met_iff, ← SecurityContext.firstRepeated_nil_eq_none]
  simp only [firstUnmet_distinct]
  cases firstRepeated [] ids <;> simp

/-- A step that is refused for a repeated identifier before it checks anything else. -/
theorem checks_distinct {Value : Type} {step : Except Refusal Value} {rest : List Requirement}
    {ids : List Bytes}
    (refused : ∀ id, firstRepeated [] ids = some id → step = .error (.duplicateRecipient id))
    (next : firstRepeated [] ids = none → Checks step rest) :
    Checks step (distinctRequirements ids ++ rest) := by
  intro refusal
  rw [firstUnmet_append, forall_met_iff]
  simp only [firstUnmet_distinct]
  cases found : firstRepeated [] ids with
  | none => simp [next found refusal]
  | some id => simp [refused id found]

namespace GroupParameters

/-- Whether both lists of members are missing, or there are as many keys as identifiers. -/
def Paired (parameters : GroupParameters) : Prop :=
  match parameters.identifiers, parameters.keys with
  | none, none => True
  | some identifiers, some keys => identifiers.length = keys.length
  | _, _ => False

/-- The identifiers of the other members. -/
def ids (parameters : GroupParameters) : List Bytes := parameters.identifiers.getD []

/-- The keys of the other members. -/
def memberKeys (parameters : GroupParameters) : List SigningKey := parameters.keys.getD []

/-- The other members, each with its own key. -/
def listed (parameters : GroupParameters) : List (Bytes × SigningKey) :=
  parameters.ids.zip parameters.memberKeys

variable {parameters : GroupParameters}

/-- The lists give the members, or are refused with their lengths. -/
theorem members_cases (parameters : GroupParameters) :
    parameters.Paired ∧ parameters.members = .ok parameters.listed ∨
      ¬parameters.Paired ∧ parameters.members =
        .error (.memberLists parameters.ids.length parameters.memberKeys.length) := by
  obtain ⟨keying, sender, algorithm, key, _, _, identifiers, keys⟩ := parameters
  cases identifiers with
  | none =>
    cases keys with
    | none => exact Or.inl ⟨trivial, rfl⟩
    | some keys => exact Or.inr ⟨not_false, rfl⟩
  | some identifiers =>
    cases keys with
    | none => exact Or.inr ⟨not_false, rfl⟩
    | some keys =>
      by_cases paired : identifiers.length = keys.length
      · exact Or.inl ⟨paired, if_pos paired⟩
      · exact Or.inr ⟨paired, if_neg paired⟩

theorem Paired.length_eq (paired : parameters.Paired) :
    parameters.ids.length = parameters.memberKeys.length := by
  obtain ⟨keying, sender, algorithm, key, _, _, identifiers, keys⟩ := parameters
  cases identifiers <;> cases keys
  all_goals first | exact paired.elim | rfl | exact paired

theorem Paired.map_fst_listed (paired : parameters.Paired) :
    parameters.listed.map Prod.fst = parameters.ids :=
  List.map_fst_zip (Nat.le_of_eq paired.length_eq)

theorem Paired.map_snd_listed (paired : parameters.Paired) :
    parameters.listed.map Prod.snd = parameters.memberKeys :=
  List.map_snd_zip (Nat.le_of_eq paired.length_eq.symm)

theorem members_checks (parameters : GroupParameters) :
    Checks parameters.members [⟨parameters.Paired,
      .memberLists parameters.ids.length parameters.memberKeys.length⟩] := by
  rcases parameters.members_cases with ⟨paired, accepted⟩ | ⟨unpaired, refused⟩
  · exact checks_single (fun _ => ⟨_, accepted⟩) fun unpaired => absurd paired unpaired
  · exact checks_single (fun paired => absurd paired unpaired) fun _ => refused

theorem members_eq_ok {members : List (Bytes × SigningKey)} :
    parameters.members = .ok members ↔ parameters.Paired ∧ members = parameters.listed := by
  rcases parameters.members_cases with ⟨paired, accepted⟩ | ⟨unpaired, refused⟩
  · rw [accepted, Except.ok.injEq, and_iff_right paired, eq_comm]
  · simp only [refused, reduceCtorEq, unpaired, false_and]

/-! ### Groups -/

/-- What is required of one member: first of its key, then of its identifier. -/
def memberRequirements (parameters : GroupParameters) (member : Bytes × SigningKey) :
    List Requirement :=
  [member.2.serving parameters.algorithm, parameters.keying.admits member.1]

/-- What is required of the parameters of a group, in the order in which it is checked. -/
def requirements (parameters : GroupParameters) : List Requirement :=
  [⟨parameters.Paired, .memberLists parameters.ids.length parameters.memberKeys.length⟩] ++
    (distinctRequirements parameters.ids ++
      ([⟨parameters.algorithm ∈ SignatureAlgorithm.known,
          .failure (.unsupportedSignature parameters.algorithm)⟩] ++
        parameters.key.serving parameters.algorithm ::
          (parameters.keying.requirements ++
            ([parameters.keying.admits parameters.sender] ++
              parameters.listed.flatMap parameters.memberRequirements))))

/-- Parameters that a group can be derived from. -/
structure Acceptable (parameters : GroupParameters) : Prop where
  paired : parameters.Paired
  ids_distinct : parameters.ids.Nodup
  algorithm_known : parameters.algorithm ∈ SignatureAlgorithm.known
  key_serves : parameters.key.Serves parameters.algorithm
  memberKeys_serve : ∀ key ∈ parameters.memberKeys, key.Serves parameters.algorithm
  maximum_le : parameters.keying.limits.maximum ≤ 2 ^ 40 - 1
  interval_ne_zero : parameters.keying.limits.interval ≠ 0
  window_ne_zero : parameters.keying.limits.window ≠ 0
  aead_known : parameters.keying.aead ∈ Keying.knownAeads
  kdf_known : ∀ kdf ∈ parameters.keying.kdf, kdf ∈ Keying.knownKdfs
  sender_fits : parameters.sender.length ≤ parameters.keying.identifierRoom
  ids_fit : ∀ id ∈ parameters.ids, id.length ≤ parameters.keying.identifierRoom

theorem forall_memberRequirements_met_iff (paired : parameters.Paired) :
    (∀ requirement ∈ parameters.listed.flatMap parameters.memberRequirements, requirement.met) ↔
      (∀ key ∈ parameters.memberKeys, key.Serves parameters.algorithm) ∧
        ∀ id ∈ parameters.ids, id.length ≤ parameters.keying.identifierRoom := by
  rw [← paired.map_fst_listed, ← paired.map_snd_listed]
  simp only [List.forall_mem_flatMap, memberRequirements, List.forall_mem_cons, List.not_mem_nil,
    false_imp_iff, implies_true, and_true, List.forall_mem_map, forall_and]
  rfl

/-- The requirements say, one after the other, what makes parameters acceptable. -/
theorem forall_met_iff_acceptable :
    (∀ requirement ∈ parameters.requirements, requirement.met) ↔ parameters.Acceptable := by
  simp only [requirements, Keying.requirements, Limits.requirements, List.forall_mem_append,
    List.forall_mem_cons, List.not_mem_nil, false_imp_iff, implies_true, and_true,
    forall_distinct_met_iff]
  constructor
  · rintro ⟨paired, distinct, algorithm, key, ⟨⟨maximum, interval, window⟩, aead, kdf⟩, sender,
      members⟩
    obtain ⟨keys, ids⟩ := (forall_memberRequirements_met_iff paired).mp members
    exact ⟨paired, distinct, algorithm, key, keys, maximum, interval, window, aead, kdf, sender,
      ids⟩
  · rintro ⟨paired, distinct, algorithm, key, keys, maximum, interval, window, aead, kdf, sender,
      ids⟩
    exact ⟨paired, distinct, algorithm, key, ⟨⟨maximum, interval, window⟩, aead, kdf⟩, sender,
      (forall_memberRequirements_met_iff paired).mpr ⟨keys, ids⟩⟩

/-- The only failures of primitives among the refusals are identifiers that are not known. -/
theorem failure_of_mem_requirements :
    ∀ requirement ∈ parameters.requirements, ∀ cause, requirement.refusal = .failure cause →
      (∃ identifier, cause = .unknownAlgorithm identifier) ∨
        ∃ identifier, cause = .unsupportedSignature identifier := by
  simp only [requirements, Keying.requirements, Limits.requirements, List.forall_mem_append,
    List.forall_mem_cons, List.not_mem_nil, false_imp_iff, implies_true, and_true,
    distinctRequirements, List.forall_mem_map, List.forall_mem_flatMap, memberRequirements,
    SigningKey.serving, Keying.admits, reduceCtorEq, Refusal.failure.injEq, forall_eq',
    Failure.unknownAlgorithm.injEq, Failure.unsupportedSignature.injEq, exists_eq', true_or,
    or_true, implies_true]

end GroupParameters

namespace SecurityContext

variable {parameters : GroupParameters} {number : Nat}

theorem prepareGroup_checks (parameters : GroupParameters) :
    Checks (prepareGroup parameters) parameters.requirements := by
  rw [prepareGroup, GroupParameters.requirements]
  refine checks_bind parameters.members_checks ?_
  intro members given
  obtain ⟨paired, rfl⟩ := GroupParameters.members_eq_ok.mp given
  rw [paired.map_fst_listed]
  refine checks_distinct ?_ ?_
  · intro id repeated
    rw [repeated]
    rfl
  intro unrepeated
  rw [unrepeated]
  refine checks_bind (SignatureAlgorithm.ofIdentifier_checks _) ?_
  intro algorithm known
  have identifier := SignatureAlgorithm.identifier_of_ofIdentifier (mapError_eq_ok.mp known)
  refine checks_refuse ?_ fun _ => ?_
  · rw [← identifier, ← parameters.key.fits_iff_serves, Bool.not_eq_true', Bool.not_eq_true]
  refine checks_bind parameters.keying.resolve_checks ?_
  intro resolved resolves
  refine checks_bind (ResolvedKeying.entity_checks resolves _ _) fun _ _ => ?_
  refine Checks.map_ok (checks_mapM ?_)
  intro member
  rw [GroupParameters.memberRequirements, ← identifier]
  exact ResolvedKeying.member_checks resolves algorithm member.1 member.2

theorem deriveGroup_checks (parameters : GroupParameters) (number : Nat) :
    Checks (deriveGroup parameters number) parameters.requirements :=
  (prepareGroup_checks parameters).map_ok

/-- A group is derived exactly from acceptable parameters. Its recipients are then the listed
members, each with its own key and with a window in which nothing was accepted. It is refused for
the first requirement that the parameters do not meet, and no primitive fails but for an identifier
that is not known. -/
theorem deriveGroup_acceptance (parameters : GroupParameters) (number : Nat) :
    ((∃ context, deriveGroup parameters number = .ok context) ↔ parameters.Acceptable) ∧
    (∀ context, deriveGroup parameters number = .ok context →
      context.recipients.map Entity.id = parameters.ids ∧
        ∀ member ∈ parameters.listed, ∃ entity, context.recipient? member.1 = some entity ∧
          entity.signingKey = some member.2 ∧
          entity.window = some (.empty 0 parameters.keying.limits.window)) ∧
    (∀ refusal, deriveGroup parameters number = .error refusal ↔
      FirstUnmet parameters.requirements refusal) ∧
    ∀ cause, deriveGroup parameters number = .error (.failure cause) →
      (∃ identifier, cause = .unknownAlgorithm identifier) ∨
        ∃ identifier, cause = .unsupportedSignature identifier := by
  have checks := deriveGroup_checks parameters number
  refine ⟨checks.isOk_iff.trans GroupParameters.forall_met_iff_acceptable, ?_, checks, ?_⟩
  · intro context derived
    obtain ⟨algorithm, resolved, _, gives, rfl⟩ := deriveGroup_eq_ok_context.mp derived
    obtain ⟨paired, rfl⟩ := GroupParameters.members_eq_ok.mp gives.members_eq
    obtain ⟨-, -, -, -, -, -, limits⟩ := Keying.resolve_eq_ok.mp gives.resolves
    refine ⟨?_, ?_⟩
    · rw [GroupParameters.ids_context, paired.map_fst_listed]
    · intro member listed
      refine ⟨_, recipient?_context gives number listed, rfl, ?_⟩
      rw [← limits]
      rfl
  · intro cause refused
    obtain ⟨requirement, required, same⟩ := List.mem_map.mp ((checks _).mp refused).mem
    exact GroupParameters.failure_of_mem_requirements requirement required cause same

/-- Of several requirements that are not met the first is named: the identifier that comes twice
before the algorithm, and one member's long identifier before the next one's key. A group of one
member with a short identifier is derived. -/
theorem deriveGroup_acceptance_several :
    ∃ key, SigningKey.ofSeed (List.replicate 32 0x11) = .ok key ∧
      deriveGroup { keying := { secret := [1] }, sender := [0x0a], key, algorithm := 0
                    identifiers := some [[1], [2], [2], [1]]
                    keys := some [key, key, key, key] } 1 = .error (.duplicateRecipient [2]) ∧
      deriveGroup { keying := { secret := [1] }, sender := [0x0a], key, algorithm := -8
                    identifiers := some [List.replicate 8 1, [2]]
                    keys := some [key, key.declare .es256] } 1 = .error (.identifierTooLong 8 7) ∧
      ∃ context, deriveGroup { keying := { secret := [1] }, sender := [0x0a], key, algorithm := -8
                               identifiers := some [[1]], keys := some [key] } 1 = .ok context ∧
        context.recipients.map Entity.id = [[1]] := by
  obtain ⟨key, made, fits⟩ := @exists_ofSeed (List.replicate 32 0x11) rfl
  have serves : key.Serves (-8) := (key.fits_iff_serves .edDsa).mp fits
  have known : AeadAlgorithm.standard.identifier ∈ Keying.knownAeads := by decide
  have room : Keying.identifierRoom { secret := [1] } = 7 := rfl
  have maximum : 0xFFFFF ≤ 2 ^ 40 - 1 := by decide
  refine ⟨key, made, ?_, ?_, ?_⟩
  · obtain ⟨-, -, refused, -⟩ := deriveGroup_acceptance
      { keying := { secret := [1] }, sender := [0x0a], key, algorithm := 0
        identifiers := some [[1], [2], [2], [1]], keys := some [key, key, key, key] } 1
    refine (refused _).mpr ⟨[_, _, _], _, _, rfl, ?_, ?_, rfl⟩
    · simp [GroupParameters.Paired, GroupParameters.ids]
    · simp [GroupParameters.ids]
  · obtain ⟨-, -, refused, -⟩ := deriveGroup_acceptance
      { keying := { secret := [1] }, sender := [0x0a], key, algorithm := -8
        identifiers := some [List.replicate 8 1, [2]], keys := some [key, key.declare .es256] } 1
    -- everything is met up to the key of the first member, which is the twelfth requirement
    refine (refused _).mpr ⟨[_, _, _, _, _, _, _, _, _, _, _, _], _, _, rfl, ?_, ?_, rfl⟩
    · simp [GroupParameters.Paired, GroupParameters.ids, SignatureAlgorithm.known, serves, known,
        SigningKey.serving, Keying.admits, room]
    · simp [Keying.admits, room]
  · obtain ⟨accepted, members, -⟩ := deriveGroup_acceptance
      { keying := { secret := [1] }, sender := [0x0a], key, algorithm := -8
        identifiers := some [[1]], keys := some [key] } 1
    obtain ⟨context, derived⟩ := accepted.mpr {
      paired := rfl
      ids_distinct := List.nodup_singleton _
      algorithm_known := List.mem_cons_of_mem _ List.mem_cons_self
      key_serves := serves
      memberKeys_serve := List.forall_mem_singleton.mpr serves
      maximum_le := maximum
      interval_ne_zero := Nat.succ_ne_zero 99
      window_ne_zero := Nat.succ_ne_zero 63
      aead_known := known
      kdf_known := fun _ absent => nomatch absent
      sender_fits := Nat.le_of_ble_eq_true rfl
      ids_fit := List.forall_mem_singleton.mpr (Nat.le_of_ble_eq_true rfl) }
    exact ⟨context, derived, (members context derived).1⟩

end SecurityContext

end Oscore
