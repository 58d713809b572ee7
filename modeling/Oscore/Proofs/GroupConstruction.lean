/-
This file says that a group is the same whether it is derived with all its members
or derived with none and extended by one after the other, in any order. The two ways
check at different places: the list is searched for repeated identifiers before
anything is derived, while a member that is added is looked up in the context as it
is by then. Both come down to the same: identifiers that are distinct, and members
whose keys and identifiers fit.
-/

import Oscore.Proofs.GroupKeys

namespace Oscore

/-! ### All members at once -/

namespace GroupParameters

variable {parameters : GroupParameters} {algorithm : SignatureAlgorithm} {keying : ResolvedKeying}
  {members : List (Bytes × SigningKey)}

/-- The parameters with these members. -/
def including (parameters : GroupParameters) (members : List (Bytes × SigningKey)) :
    GroupParameters :=
  { parameters with
    identifiers := some (members.map Prod.fst)
    keys := some (members.map Prod.snd) }

theorem members_including (parameters : GroupParameters) (members : List (Bytes × SigningKey)) :
    (parameters.including members).members = .ok members := by
  show (if (members.map Prod.fst).length = (members.map Prod.snd).length then
      Except.ok ((members.map Prod.fst).zip (members.map Prod.snd)) else _) = _
  rw [List.length_map, List.length_map, if_pos rfl, ← List.unzip_fst, ← List.unzip_snd,
    List.zip_unzip]

/-- Members can be listed exactly when a group can be derived without them, and they are admitted
and distinct. -/
theorem gives_including_iff (nobody : parameters.members = .ok []) :
    (parameters.including members).Gives algorithm keying members ↔
      parameters.Gives algorithm keying [] ∧ (∀ member ∈ members, keying.Admits algorithm member) ∧
        (members.map Prod.fst).Nodup := by
  constructor
  · rintro ⟨-, known, resolves, sender, admitted, distinct⟩
    exact ⟨⟨nobody, known, resolves, sender, List.forall_mem_nil _, List.nodup_nil⟩, admitted,
      distinct⟩
  · rintro ⟨⟨-, known, resolves, sender, -, -⟩, admitted, distinct⟩
    exact ⟨parameters.members_including members, known, resolves, sender, admitted, distinct⟩

end GroupParameters

namespace SecurityContext

variable {context larger : SecurityContext} {algorithm : SignatureAlgorithm}
  {keying : ResolvedKeying} {members : List (Bytes × SigningKey)} {parameters : GroupParameters}
  {number : Nat}

theorem deriveGroup_including_eq_ok (nobody : parameters.members = .ok []) :
    deriveGroup (parameters.including members) number = .ok context ↔
      ∃ algorithm keying, parameters.Gives algorithm keying [] ∧
        (∀ member ∈ members, keying.Admits algorithm member) ∧ (members.map Prod.fst).Nodup ∧
        context = parameters.context number algorithm keying members := by
  rw [deriveGroup_eq_ok_context]
  constructor
  · rintro ⟨algorithm, keying, _, gives, rfl⟩
    cases (parameters.members_including members).symm.trans gives.members_eq
    obtain ⟨alone, admitted, distinct⟩ := (GroupParameters.gives_including_iff nobody).mp gives
    exact ⟨algorithm, keying, alone, admitted, distinct, rfl⟩
  · rintro ⟨algorithm, keying, alone, admitted, distinct, rfl⟩
    exact ⟨algorithm, keying, members,
      (GroupParameters.gives_including_iff nobody).mpr ⟨alone, admitted, distinct⟩, rfl⟩

/-! ### One member after the other -/

/-- Adds members in the order of a list, until one is refused. -/
def addRecipients (context : SecurityContext) (members : List (Bytes × SigningKey)) :
    Except Refusal SecurityContext :=
  members.foldlM (fun grown member => grown.addRecipient member.1 member.2) context

/-- The context with more members. -/
def withMembers (context : SecurityContext) (keying : ResolvedKeying)
    (members : List (Bytes × SigningKey)) : SecurityContext :=
  { context with recipients := context.recipients ++ members.map keying.newMember }

theorem ids_withMembers (context : SecurityContext) (keying : ResolvedKeying)
    (members : List (Bytes × SigningKey)) :
    (context.withMembers keying members).recipients.map Entity.id =
      context.recipients.map Entity.id ++ members.map Prod.fst := by
  rw [withMembers, List.map_append, ResolvedKeying.map_id_newMember]

theorem withMembers_nil (context : SecurityContext) (keying : ResolvedKeying) :
    context.withMembers keying [] = context := by
  rw [withMembers, List.map_nil, List.append_nil]

theorem withMembers_cons (context : SecurityContext) (keying : ResolvedKeying)
    (member : Bytes × SigningKey) (rest : List (Bytes × SigningKey)) :
    context.withMembers keying (member :: rest) =
      (context.withMembers keying [member]).withMembers keying rest := by
  simp only [withMembers, List.map_cons, List.map_nil, List.append_assoc, List.singleton_append]

theorem addRecipient_eq_ok_withMembers {member : Bytes × SigningKey}
    (known : context.signatureAlgorithm = some algorithm)
    (resolves : context.keying.resolve = .ok keying) :
    context.addRecipient member.1 member.2 = .ok larger ↔
      keying.Admits algorithm member ∧ member.1 ∉ context.recipients.map Entity.id ∧
        larger = context.withMembers keying [member] := by
  rw [addRecipient_eq_ok, known, resolves, recipient?_eq_none]
  simp only [Option.some.injEq, Except.ok.injEq, exists_eq_left']
  constructor
  · rintro ⟨fits, free, short, rfl⟩
    exact ⟨⟨fits, short⟩, free, rfl⟩
  · rintro ⟨⟨fits, short⟩, free, rfl⟩
    exact ⟨fits, free, short, rfl⟩

/-- Members can all be added exactly when each is admitted and no identifier comes twice, be it in
the list or in the context. By induction on the list: the context that the first of them leaves
knows its identifier. -/
theorem addRecipients_eq_ok (known : context.signatureAlgorithm = some algorithm)
    (resolves : context.keying.resolve = .ok keying)
    (distinct : (context.recipients.map Entity.id).Nodup) :
    context.addRecipients members = .ok larger ↔
      (∀ member ∈ members, keying.Admits algorithm member) ∧
        (context.recipients.map Entity.id ++ members.map Prod.fst).Nodup ∧
        larger = context.withMembers keying members := by
  induction members generalizing context with
  | nil =>
    rw [addRecipients, List.foldlM_nil, pure_eq_ok, withMembers_nil]
    rw [List.map_nil, List.append_nil]
    exact ⟨fun same => ⟨List.forall_mem_nil _, distinct, same.symm⟩, fun given => given.2.2.symm⟩
  | cons member rest inductionHypothesis =>
    have next := ids_withMembers context keying [member]
    have first : (context.recipients.map Entity.id ++ [member.1]).Nodup ↔
        member.1 ∉ context.recipients.map Entity.id := by
      rw [List.nodup_middle, List.append_nil, List.nodup_cons, and_iff_left distinct]
    have others (free : member.1 ∉ context.recipients.map Entity.id) :=
      @inductionHypothesis (context.withMembers keying [member]) known resolves
        (next ▸ first.mpr free)
    have regroup : context.recipients.map Entity.id ++ (member :: rest).map Prod.fst =
        context.recipients.map Entity.id ++ [member.1] ++ rest.map Prod.fst := by
      rw [List.append_assoc]
      rfl
    rw [addRecipients, List.foldlM_cons, bind_eq_ok, regroup, List.forall_mem_cons,
      withMembers_cons]
    constructor
    · rintro ⟨_, added, later⟩
      obtain ⟨admitted, free, rfl⟩ := (addRecipient_eq_ok_withMembers known resolves).mp added
      obtain ⟨rest, nodup, rfl⟩ := (others free).mp later
      rw [next] at nodup
      exact ⟨⟨admitted, rest⟩, nodup, rfl⟩
    · rintro ⟨⟨admitted, rest⟩, nodup, rfl⟩
      have free := first.mp nodup.of_append_left
      refine ⟨_, (addRecipient_eq_ok_withMembers known resolves).mpr ⟨admitted, free, rfl⟩, ?_⟩
      refine (others free).mpr ⟨rest, ?_, rfl⟩
      rwa [next]

/-- Members can be added to a group that lists nobody exactly when they could have been listed, and
then leave the same context. -/
theorem deriveGroup_addRecipients_eq_ok (nobody : parameters.members = .ok []) :
    (∃ alone, deriveGroup parameters number = .ok alone ∧
        alone.addRecipients members = .ok larger) ↔
      ∃ algorithm keying, parameters.Gives algorithm keying [] ∧
        (∀ member ∈ members, keying.Admits algorithm member) ∧ (members.map Prod.fst).Nodup ∧
        larger = parameters.context number algorithm keying members := by
  have added {algorithm : SignatureAlgorithm} {keying : ResolvedKeying}
      (gives : parameters.Gives algorithm keying []) :
      (parameters.context number algorithm keying []).addRecipients members = .ok larger ↔
        (∀ member ∈ members, keying.Admits algorithm member) ∧ (members.map Prod.fst).Nodup ∧
          larger = parameters.context number algorithm keying members :=
    addRecipients_eq_ok rfl gives.resolves gives.distinct
  simp only [deriveGroup_eq_ok_context]
  constructor
  · rintro ⟨_, ⟨algorithm, keying, _, gives, rfl⟩, grows⟩
    cases nobody.symm.trans gives.members_eq
    exact ⟨algorithm, keying, gives, (added gives).mp grows⟩
  · rintro ⟨algorithm, keying, gives, admitted⟩
    exact ⟨_, ⟨algorithm, keying, [], gives, rfl⟩, (added gives).mpr admitted⟩

/-! ### Both ways -/

/-- Contexts that differ in their numbers and in the order of their recipients only. -/
structure SameGroup (first second : SecurityContext) : Prop where
  keying_eq : first.keying = second.keying
  algorithm_eq : first.algorithm = second.algorithm
  countersigning_eq : first.countersigning = second.countersigning
  sender_eq : first.sender = second.sender
  formerSenders_eq : first.formerSenders = second.formerSenders
  recipients_perm : first.recipients.Perm second.recipients
  recipient?_eq : ∀ id, first.recipient? id = second.recipient? id

/-- With distinct identifiers the order of the recipients does not show. -/
theorem recipient?_congr {first second : SecurityContext}
    (perm : first.recipients.Perm second.recipients)
    (distinct : (second.recipients.map Entity.id).Nodup) (id : Bytes) :
    first.recipient? id = second.recipient? id := by
  have others := (perm.map Entity.id).nodup_iff.mpr distinct
  cases found : second.recipient? id with
  | none =>
    have absent := recipient?_eq_none.mp found
    rw [← (perm.map Entity.id).mem_iff] at absent
    exact recipient?_eq_none.mpr absent
  | some entity =>
    have member := perm.mem_iff.mpr (mem_of_recipient? found)
    rw [← id_of_recipient? found]
    exact recipient?_of_mem others member

/-- The order of the members of a group does not show. -/
theorem sameGroup_context (parameters : GroupParameters) (algorithm : SignatureAlgorithm)
    (keying : ResolvedKeying) {listed added : List (Bytes × SigningKey)}
    (permuted : added.Perm listed) (distinct : (listed.map Prod.fst).Nodup)
    (number otherNumber : Nat) :
    SameGroup (parameters.context otherNumber algorithm keying added)
      (parameters.context number algorithm keying listed) := by
  have perm := permuted.map keying.newMember
  refine ⟨rfl, rfl, rfl, rfl, rfl, perm, recipient?_congr perm ?_⟩
  rwa [GroupParameters.ids_context]

/-- Deriving a group at once and building it member by member agree, whatever its keying, its
sender, its algorithms and its capabilities are. The one succeeds exactly when the other does,
in whatever order the members are added, and then the contexts are the same but for their
numbers: each listed member is there, with its own key and a window in which nothing was accepted.
-/
theorem deriveGroup_incremental {listed added : List (Bytes × SigningKey)}
    (nobody : parameters.members = .ok []) (permuted : added.Perm listed)
    (number otherNumber : Nat) :
    ((∃ whole, deriveGroup (parameters.including listed) number = .ok whole) ↔
      ∃ grown alone, deriveGroup parameters otherNumber = .ok alone ∧
        alone.addRecipients added = .ok grown) ∧
    ∀ whole alone grown, deriveGroup (parameters.including listed) number = .ok whole →
      deriveGroup parameters otherNumber = .ok alone → alone.addRecipients added = .ok grown →
      SameGroup grown whole ∧
        ∃ keying, parameters.keying.resolve = .ok keying ∧
          grown.recipients = added.map keying.newMember ∧
          ∀ member ∈ listed, grown.recipient? member.1 = some (keying.newMember member) := by
  have distinct_iff := (permuted.map Prod.fst).nodup_iff
  constructor
  · simp only [deriveGroup_including_eq_ok nobody, deriveGroup_addRecipients_eq_ok nobody]
    constructor
    · rintro ⟨_, algorithm, keying, gives, admitted, distinct, -⟩
      exact ⟨_, algorithm, keying, gives,
        fun member there => admitted member (permuted.mem_iff.mp there),
        distinct_iff.mpr distinct, rfl⟩
    · rintro ⟨_, algorithm, keying, gives, admitted, distinct, -⟩
      exact ⟨_, algorithm, keying, gives,
        fun member there => admitted member (permuted.mem_iff.mpr there),
        distinct_iff.mp distinct, rfl⟩
  · intro whole alone grown derived derivedAlone grows
    obtain ⟨algorithm, keying, gives, admitted, distinct, rfl⟩ :=
      (deriveGroup_including_eq_ok nobody).mp derived
    obtain ⟨_, _, givesAlone, -, -, rfl⟩ :=
      (deriveGroup_addRecipients_eq_ok nobody).mp ⟨alone, derivedAlone, grows⟩
    cases gives.algorithm_known.symm.trans givesAlone.algorithm_known
    cases gives.resolves.symm.trans givesAlone.resolves
    have same := sameGroup_context parameters algorithm keying permuted distinct number otherNumber
    have all := (GroupParameters.gives_including_iff nobody).mpr ⟨gives, admitted, distinct⟩
    refine ⟨same, keying, gives.resolves, rfl, ?_⟩
    intro member there
    rw [same.recipient?_eq]
    exact recipient?_context all number there

/-- Two members of a group, one of them with the empty identifier, are listed in one order and
added in the other. -/
theorem deriveGroup_incremental_swapped :
    ∃ first second, SigningKey.ofSeed (List.replicate 32 0x11) = .ok first ∧
      SigningKey.ofSeed (List.replicate 32 0x22) = .ok second ∧
      ∃ whole alone grown,
        deriveGroup { keying := { secret := [1] }, sender := [0x0a], key := first, algorithm := -8
                      identifiers := some [[], [0x0b, 0x0b]], keys := some [first, second] } 0 =
          .ok whole ∧
        deriveGroup { keying := { secret := [1] }, sender := [0x0a], key := first
                      algorithm := -8 } 1 = .ok alone ∧
        alone.addRecipients [([0x0b, 0x0b], second), ([], first)] = .ok grown ∧
        SameGroup grown whole ∧ grown.recipients ≠ whole.recipients := by
  obtain ⟨first, madeFirst, firstFits⟩ := @exists_ofSeed (List.replicate 32 0x11) rfl
  obtain ⟨second, madeSecond, secondFits⟩ := @exists_ofSeed (List.replicate 32 0x22) rfl
  let parameters : GroupParameters :=
    { keying := { secret := [1] }, sender := [0x0a], key := first, algorithm := -8 }
  let resolved : ResolvedKeying := ⟨[1], [], none, .aesCcm8, .sha256, {}⟩
  let listed : List (Bytes × SigningKey) := [([], first), ([0x0b, 0x0b], second)]
  have swapped : List.Perm [([0x0b, 0x0b], second), ([], first)] listed := .swap _ _ _
  have gives : parameters.Gives .edDsa resolved [] :=
    ⟨rfl, rfl, rfl, ⟨firstFits, Nat.le_of_ble_eq_true rfl⟩, List.forall_mem_nil _, List.nodup_nil⟩
  have admitted : ∀ member ∈ listed, resolved.Admits .edDsa member :=
    List.forall_mem_cons.mpr ⟨⟨firstFits, Nat.le_of_ble_eq_true rfl⟩,
      List.forall_mem_singleton.mpr ⟨secondFits, Nat.le_of_ble_eq_true rfl⟩⟩
  have distinct : ([[], [0x0b, 0x0b]] : List Bytes).Nodup := by decide
  have derived : deriveGroup (parameters.including listed) 0 =
      .ok (parameters.context 0 .edDsa resolved listed) :=
    (deriveGroup_including_eq_ok rfl).mpr ⟨.edDsa, resolved, gives, admitted, distinct, rfl⟩
  obtain ⟨succeeds, agrees⟩ := @deriveGroup_incremental parameters _ _ rfl swapped 0 1
  obtain ⟨grown, alone, derivedAlone, grows⟩ := succeeds.mp ⟨_, derived⟩
  obtain ⟨same, _, -, recipients, -⟩ := agrees _ _ _ derived derivedAlone grows
  refine ⟨first, second, madeFirst, madeSecond, _, alone, grown, derived, derivedAlone, grows, same,
    ?_⟩
  intro equal
  have ids : ([[0x0b, 0x0b], []] : List Bytes) = [[], [0x0b, 0x0b]] := by
    rw [recipients] at equal
    exact congrArg (List.map Entity.id) equal
  exact absurd ids (by decide)

end SecurityContext

end Oscore
