/-
This file says what a refused operation leaves. What checks its arguments checks
all of them before it changes anything, so a refusal leaves the whole endpoint as
it was and tells no handler. Two refusals do more. A sender that is exhausted
tells its handlers so. And a message that cannot be encrypted has taken its number
by then; the number is spent, and the sender goes on behind it.

A spent number does not come back to the sender that spent it, nor does its nonce
under its key. But a sender whose identifier returns starts at zero again, and
hands out the numbers of the first one with it.
-/

import Oscore.Proofs.GroupKeys
import Oscore.Proofs.NonceUniqueness
import Oscore.Proofs.Observers
import Oscore.Proofs.ProtectedMessages
import Oscore.Proofs.Registration

namespace Oscore

variable {Handler Application Answer : Type}

/-! ### Outcomes that change nothing -/

namespace SecurityContext

variable {context : SecurityContext} {keying : ResolvedKeying} {refusal : Refusal}

theorem acceptFrom_of_error {entity : Entity} {sequence : Nat}
    (refused : (context.acceptFrom entity sequence).answer = .error refusal) :
    context.acceptFrom entity sequence = ⟨.error refusal, context, []⟩ := by
  rw [acceptFrom] at refused ⊢
  split at refused
  · cases refused
    rfl
  · cases refused

theorem record_of_error {id : Bytes} {sequence : Nat}
    (refused : (context.record id sequence).answer = .error refusal) :
    context.record id sequence = ⟨.error refusal, context, []⟩ := by
  rcases context.record_cases id sequence with ⟨_, same⟩ | ⟨entity, -, same⟩
  · rw [same] at refused ⊢
    cases refused
    rfl
  · rw [same] at refused ⊢
    exact acceptFrom_of_error refused

theorem unprotect_of_error {id partialIv associated ciphertext : Bytes}
    (refused : (context.unprotect id partialIv associated ciphertext).answer = .error refusal) :
    context.unprotect id partialIv associated ciphertext = ⟨.error refusal, context, []⟩ := by
  rcases context.unprotect_cases id partialIv associated ciphertext with
    ⟨_, same⟩ | ⟨entity, sequence, plaintext, -, same⟩
  · rw [same] at refused ⊢
    cases refused
    rfl
  · rw [same] at refused ⊢
    -- the message was genuine, and its number was not accepted
    cases answer : (context.acceptFrom entity sequence).answer with
    | error other =>
      rw [answer] at refused
      cases refused
      rw [acceptFrom_of_error answer]
      rfl
    | ok _ =>
      rw [answer] at refused
      cases refused

/-- Putting an entity where it stands already changes nothing. -/
theorem setEntity_self (distinct : (context.recipients.map Entity.id).Nodup) {place : Place}
    {entity : Entity} (found : context.entity? place = some entity) :
    context.setEntity place entity = context := by
  cases place with
  | sender generation =>
    rw [setEntity]
    split
    · rename_i current
      rw [current] at found
      cases context.entity?_senderPlace.symm.trans found
      rfl
    · rename_i former
      obtain ⟨inside, same⟩ := List.getElem?_eq_some_iff.mp found
      have shorter : generation < context.formerSenders.length := by
        rw [List.length_append, List.length_singleton] at inside
        omega
      rw [List.getElem_append_left shorter] at same
      rw [← same, List.set_getElem_self]
  | recipient id =>
    have kept : (context.recipients.map fun other =>
        if other.id = entity.id then entity else other) = context.recipients := by
      refine (List.map_congr_left fun other member => ?_).trans (List.map_id _)
      split
      · rename_i named
        have own := recipient?_of_mem distinct member
        rw [named, id_of_recipient? found] at own
        exact Option.some.inj (found.symm.trans own)
      · rfl
    show { context with recipients := _ } = context
    rw [kept]

end SecurityContext

/-! ### Messages that are not encrypted -/

/-- Under a key and a nonce of the right lengths, only a text that is too long is not encrypted. -/
theorem AeadAlgorithm.encrypt_eq_error {algorithm : AeadAlgorithm}
    {key nonce associated plaintext : Bytes} {cause : Failure}
    (keyLength : key.length = algorithm.keyLength)
    (nonceLength : nonce.length = algorithm.nonceLength) :
    algorithm.encrypt key nonce associated plaintext = .error cause ↔
      algorithm.scheme.admits plaintext.length = false ∧ cause = .encryption := by
  have lengths := checkLengths_eq_ok.mpr ⟨keyLength, nonceLength⟩
  have admitted : algorithm.scheme.encrypt key nonce associated plaintext = none ↔
      algorithm.scheme.admits plaintext.length = false := by
    rw [AeadScheme.encrypt, ite_eq_right_iff, ← Bool.not_eq_true]
    exact forall_congr' fun _ => iff_of_false (Option.some_ne_none _) id
  rw [encrypt, lengths, ← admitted]
  cases algorithm.scheme.encrypt key nonce associated plaintext with
  | some sealed =>
    show Except.ok sealed = .error cause ↔ some sealed = none ∧ _
    simp only [reduceCtorEq, false_and]
  | none =>
    show Except.error Failure.encryption = .error cause ↔ none = none ∧ _
    rw [Except.error.injEq, eq_comm]
    exact (and_iff_right rfl).symm

namespace SecurityContext

variable {context : SecurityContext} {keying : ResolvedKeying} {refusal : Refusal}

theorem encryptReserved_eq_error {reserved : ReservedNonce} {associated plaintext : Bytes} :
    context.encryptReserved reserved associated plaintext = .error refusal ↔
      ∃ cause, context.algorithm.encrypt context.sender.key reserved.nonce associated plaintext =
        .error cause ∧ refusal = .failure cause := by
  rw [encryptReserved]
  cases context.algorithm.encrypt context.sender.key reserved.nonce associated plaintext with
  | ok ciphertext =>
    constructor
    · intro refused
      cases refused
    · rintro ⟨_, refused, -⟩
      cases refused
  | error cause =>
    constructor
    · intro refused
      exact ⟨cause, rfl, (Except.error.inj refused).symm⟩
    · rintro ⟨_, refused, rfl⟩
      cases refused
      rfl

/-- A message is refused by an exhausted sender, or because it is too long. -/
theorem Sound.protect_eq_error (sound : context.Sound keying) {associated plaintext : Bytes} :
    (context.protect associated plaintext).answer = .error refusal ↔
      context.sender.exhausted ∧ refusal = .sequenceExhausted context.sender.maximum ∨
      context.sender.exhausted = false ∧
        context.algorithm.scheme.admits plaintext.length = false ∧
        refusal = .failure .encryption := by
  have keyLength : context.sender.key.length = context.algorithm.keyLength := by
    rw [sound.derived.key_eq, sound.algorithm_eq, ResolvedKeying.length_keyOf]
  have nonceLength : (context.upcoming keying).nonce.length = context.algorithm.nonceLength := by
    rw [sound.algorithm_eq]
    exact sound.length_nonce_upcoming
  rw [protect, sound.reserve_eq]
  cases exhausted : context.sender.exhausted with
  | true =>
    simp only [if_true, true_and, Bool.true_eq_false, false_and, or_false]
    exact ⟨fun same => (Except.error.inj same).symm, congrArg Except.error ∘ Eq.symm⟩
  | false =>
    simp only [Bool.false_eq_true, if_false, false_and, false_or, true_and]
    show encryptReserved _ _ associated plaintext = _ ↔ _
    rw [encryptReserved_eq_error]
    show (∃ cause, context.algorithm.encrypt context.sender.key (context.upcoming keying).nonce
      associated plaintext = .error cause ∧ _) ↔ _
    simp only [AeadAlgorithm.encrypt_eq_error keyLength nonceLength, and_assoc,
      exists_and_left, exists_eq_left]

/-- The two bytes in which AES-CCM writes the length of a text are too few for some texts. -/
theorem Sound.protect_of_long (sound : context.Sound keying) (ccm : keying.aead = .aesCcm8)
    (left : context.sender.exhausted = false) {plaintext : Bytes}
    (long : 65535 < plaintext.length) (associated : Bytes) :
    (context.protect associated plaintext).answer = .error (.failure .encryption) := by
  refine sound.protect_eq_error.mpr (Or.inr ⟨left, ?_, rfl⟩)
  rw [sound.algorithm_eq, ccm]
  exact decide_eq_false (Nat.not_le.mpr long)

/-! ### Spent numbers -/

/-- A nonce that the runs of a context do not take again, unless the identifier that it was taken
under returns: the sender goes on behind its number, and under its key it comes only from another
sender of its identifier. -/
def Spends (context : SecurityContext) (taken : Reservation) : Prop :=
  ∀ operations, ∀ later ∈ context.reservations operations,
    (later.generation = taken.generation → taken.sequence < later.sequence) ∧
    ((later.key, later.nonce) = (taken.key, taken.nonce) ↔
      later.sender = taken.sender ∧ later.sequence = taken.sequence) ∧
    ((context.after operations).senderIds.Nodup →
      (later.key, later.nonce) ≠ (taken.key, taken.nonce))

/-- What is left of a context when a number of its sender was used up: the sender goes on behind
the number, which is spent, and all else is as it was. -/
structure UsesUp (context : SecurityContext) (taken : Reservation) (later : SecurityContext) :
    Prop where
  sequence_eq : taken.sequence = context.sender.sequence
  later_eq : later = { context with
    sender := { context.sender with sequence := context.sender.sequence + 1 } }
  spent : later.Spends taken

/-- A nonce that was taken is spent, whatever became of its message. -/
theorem Sound.spends (sound : context.Sound keying) {operation : Operation} {taken : Reservation}
    (reserved : operation.reservation context = some taken) :
    (operation.next context).Spends taken := by
  intro operations later member
  have run : context.reservations (operation :: operations) =
      taken :: (operation.next context).reservations operations := by
    rw [reservations, reserved]
    rfl
  have now : taken ∈ context.reservations (operation :: operations) := by
    rw [run]
    exact List.mem_cons_self
  have afterwards : later ∈ context.reservations (operation :: operations) := by
    rw [run]
    exact List.mem_cons_of_mem _ member
  have order : taken.turn.Before later.turn := by
    have ordered := sound.reservations_pairwise (operation :: operations)
    rw [run] at ordered
    exact List.rel_of_pairwise_cons ordered member
  have alike := (sound.reservations_derivedBy afterwards).key_nonce_inj
    (sound.reservations_derivedBy now)
  have behind (same : later.generation = taken.generation) : taken.sequence < later.sequence := by
    rcases order with earlier | ⟨-, -, smaller⟩
    · exact absurd same.symm (Nat.ne_of_lt earlier)
    · exact smaller
  refine ⟨behind, alike, ?_⟩
  intro unrepeated repeated
  obtain ⟨sameSender, sameSequence⟩ := alike.mp repeated
  have distinct : (context.after (operation :: operations)).senderIds.Nodup := unrepeated
  have sameGeneration := sound.generation_eq_of_sender_eq distinct afterwards now sameSender
  exact Nat.ne_of_gt (behind sameGeneration) sameSequence

theorem Sound.usesUp (sound : context.Sound keying) {operation : Operation} {taken : Reservation}
    (reserved : operation.reservation context = some taken) :
    context.UsesUp taken (operation.next context) := by
  obtain ⟨-, -, equal⟩ := sound.reservation_eq_some.mp reserved
  exact ⟨congrArg (fun taken : Reservation => taken.sequence) equal,
    sound.next_of_reservation reserved, sound.spends reserved⟩

end SecurityContext

/-! ### Operations that answer -/

/-- Does an operation to a context of an endpoint, and answers whether it was refused. -/
def Operation.attempt (behaviour : Behaviour Handler Application) (ref : ContextRef) :
    Operation → Action Handler Application (Except Refusal Unit)
  | reserve => do
    return (← Endpoint.reserve behaviour ref).map fun _ => ()
  | protect associated plaintext => do
    return (← Endpoint.protect behaviour ref associated plaintext).map fun _ => ()
  | unprotect id partialIv associated ciphertext => do
    return (← Endpoint.unprotect behaviour ref id partialIv associated ciphertext).map fun _ => ()
  | record id sequence => Endpoint.record behaviour ref id sequence
  | isReplay id sequence => do
    return (((← get).context ref).isReplay id sequence).map fun _ => ()
  | addRecipient id key => Endpoint.addRecipient ref id key
  | replaceSender id key => Endpoint.replaceSender ref id key
  | adjust place adjustment => do
    let found := (← get).entity? ⟨ref, place⟩
    Endpoint.adjust ⟨ref, place⟩ adjustment
    return match found with
      | some entity => (adjustment.apply entity).map fun _ => ()
      | none => .ok ()

/-- The answer comes with the endpoint that the operation leaves. -/
theorem Operation.attempt_state (behaviour : Behaviour Handler Application) (ref : ContextRef)
    (operation : Operation) (endpoint : Endpoint Handler Application) :
    (operation.attempt behaviour ref endpoint).2 = (operation.act behaviour ref endpoint).2 := by
  cases operation <;> rfl

namespace Endpoint

variable {behaviour : Behaviour Handler Application} {endpoint : Endpoint Handler Application}
  {ref : ContextRef} {context : SecurityContext} {keying : ResolvedKeying} {refusal : Refusal}

theorem setContext_context (endpoint : Endpoint Handler Application) (ref : ContextRef) :
    endpoint.setContext ref (endpoint.context ref) = endpoint := by
  have kept : endpoint.contexts.set ref.index (endpoint.hosted ref) = endpoint.contexts := by
    by_cases inside : ref.index < endpoint.contexts.length
    · rw [hosted, List.getD_eq_getElem?_getD, List.getElem?_eq_getElem inside, Option.getD_some,
        List.set_getElem_self]
    · exact List.set_eq_of_length_le (Nat.le_of_not_lt inside)
  show { endpoint with contexts := endpoint.contexts.set ref.index (endpoint.hosted ref) } =
    endpoint
  rw [kept]

/-- An operation that leaves its context as it was leaves the rest to the handlers. -/
theorem perform_of_same {run : SecurityContext → Outcome Answer} {outcome : Outcome Answer}
    (gives : run (endpoint.context ref) = outcome)
    (same : outcome.context = endpoint.context ref) :
    perform behaviour ref run endpoint =
      (outcome.answer, (announce behaviour ref outcome.notices endpoint).2) := by
  rw [perform_eq, gives, same, setContext_context]

/-- A reserved nonce is refused to an exhausted sender, whose handlers are told so, and that is
all. -/
structure ToldExhausted (behaviour : Behaviour Handler Application) (ref : ContextRef)
    (before after : Endpoint Handler Application) : Prop where
  exhausted : (before.context ref).sender.exhausted
  raised : after = (raise behaviour (before.hosted ref).channel
    { code := .exhaustion, groupId := (before.context ref).groupId
      keyId := some (before.context ref).sender.id
      sequence := some (before.context ref).sender.sequence } before).2
  keeps : before.Keeps after

theorem reserve_of_error (observes : behaviour.Observes)
    (sound : (endpoint.context ref).Sound keying)
    (refused : (reserve behaviour ref endpoint).1 = .error refusal) :
    refusal = .sequenceExhausted (endpoint.context ref).sender.maximum ∧
      ToldExhausted behaviour ref endpoint (reserve behaviour ref endpoint).2 := by
  have law := sound.reserve_eq
  by_cases exhausted : (endpoint.context ref).sender.exhausted
  · rw [if_pos exhausted] at law
    have performed := @perform_of_same _ _ _ behaviour _ _ _ _ law rfl
    rw [reserve, performed] at refused ⊢
    exact ⟨(Except.error.inj refused).symm, exhausted, rfl, announce_keeps observes ref _ endpoint⟩
  · rw [if_neg exhausted] at law
    rw [reserve, perform_eq, law] at refused
    cases refused

theorem derivePair_of_error {id : Bytes} {counter : CounterRef}
    (refused : (derivePair ref id counter endpoint).1 = .error refusal) :
    (derivePair ref id counter endpoint).2 = endpoint := by
  rw [derivePair_eq] at refused ⊢
  rcases hostNumbered_cases counter ((endpoint.context ref).derivePair id) endpoint with
    ⟨_, same⟩ | ⟨_, _, -, made, -⟩
  · rw [same]
  · rw [made] at refused
    cases refused

theorem change_of_error {make : SecurityContext → Except Refusal SecurityContext}
    (refused : (change ref make endpoint).1 = .error refusal) :
    (change ref make endpoint).2 = endpoint := by
  rw [change, Action.bind_apply, Action.get_apply] at refused ⊢
  dsimp only at refused ⊢
  cases made : make (endpoint.context ref) with
  | error _ => rfl
  | ok _ =>
    rw [made] at refused
    cases refused

theorem adjust_of_error (distinct : ((endpoint.context ref).recipients.map Entity.id).Nodup)
    {place : Place} {entity : Entity} {adjustment : Adjustment}
    (found : endpoint.entity? ⟨ref, place⟩ = some entity)
    (refused : adjustment.apply entity = .error refusal) :
    (adjust ⟨ref, place⟩ adjustment endpoint).2 = endpoint := by
  have kept : adjustment.result entity = entity := by
    rw [Adjustment.result, refused]
    rfl
  show (match endpoint.entity? ⟨ref, place⟩ with
    | some entity => endpoint.setEntity ⟨ref, place⟩ (adjustment.result entity)
    | none => endpoint) = endpoint
  rw [found]
  show endpoint.setContext ref ((endpoint.context ref).setEntity place (adjustment.result entity)) =
    endpoint
  rw [kept, SecurityContext.setEntity_self distinct found, setContext_context]

end Endpoint

/-! ### Refused operations -/

variable {behaviour : Behaviour Handler Application} {endpoint : Endpoint Handler Application}
  {ref : ContextRef} {context : SecurityContext} {refusal : Refusal}

/-- What takes no nonce leaves everything as it was when it is refused, and raises no event,
whatever the handlers would do. -/
theorem Operation.attempt_of_error
    (distinct : ((endpoint.context ref).recipients.map Entity.id).Nodup) {operation : Operation}
    (takes : operation.reserves = false)
    (refused : (operation.attempt behaviour ref endpoint).1 = .error refusal) :
    (operation.attempt behaviour ref endpoint).2 = endpoint := by
  cases operation with
  | reserve => cases takes
  | protect associated plaintext => cases takes
  | unprotect id partialIv associated ciphertext =>
    have outcome := SecurityContext.unprotect_of_error (map_eq_error.mp refused)
    show (Endpoint.perform behaviour ref
      (fun context => context.unprotect id partialIv associated ciphertext) endpoint).2 = endpoint
    rw [Endpoint.perform_of_same outcome rfl]
    rfl
  | record id sequence =>
    have outcome := SecurityContext.record_of_error refused
    show (Endpoint.perform behaviour ref
      (fun context => context.record id sequence) endpoint).2 = endpoint
    rw [Endpoint.perform_of_same outcome rfl]
    rfl
  | isReplay id sequence => rfl
  | addRecipient id key => exact Endpoint.change_of_error refused
  | replaceSender id key => exact Endpoint.change_of_error refused
  | adjust place adjustment =>
    rw [attempt, Action.bind_apply, Action.get_apply] at refused
    rw [attempt_state]
    cases found : endpoint.entity? ⟨ref, place⟩ with
    | none =>
      rw [found] at refused
      cases refused
    | some entity =>
      rw [found] at refused
      exact Endpoint.adjust_of_error distinct found (map_eq_error.mp refused)

/-- A message is refused like its nonce, or it cannot be encrypted and uses up its nonce. -/
theorem Operation.protect_of_error {keying : ResolvedKeying} (observes : behaviour.Observes)
    (hosts : endpoint.Hosts ref context) (sound : context.Sound keying)
    {associated plaintext : Bytes}
    (refused : (Endpoint.protect behaviour ref associated plaintext endpoint).1 =
      .error refusal) :
    refusal = .sequenceExhausted context.sender.maximum ∧
        Endpoint.ToldExhausted behaviour ref endpoint
          (Endpoint.protect behaviour ref associated plaintext endpoint).2 ∨
      refusal = .failure .encryption ∧ ∃ taken later,
        (protect associated plaintext).reservation context = some taken ∧
        (Endpoint.protect behaviour ref associated plaintext endpoint).2.Hosts ref later ∧
        context.UsesUp taken later := by
  rw [Endpoint.protect_answer observes hosts, sound.protect_eq_error] at refused
  rcases refused with ⟨exhausted, rfl⟩ | ⟨left, -, rfl⟩
  · -- the nonce was refused, and nothing was done after that
    have same := hosts.2
    subst same
    have reserved : (Endpoint.reserve behaviour ref endpoint).1 =
        .error (.sequenceExhausted (endpoint.context ref).sender.maximum) := by
      rw [Endpoint.reserve, Endpoint.perform_eq, sound.reserve_eq, if_pos exhausted]
    rw [Endpoint.protect_state]
    exact Or.inl (Endpoint.reserve_of_error observes sound reserved)
  · rw [Entity.exhausted, decide_eq_false_iff_not, Nat.not_le] at left
    have taken := sound.reservation_eq_some.mpr
      ⟨(rfl : (protect associated plaintext).reserves = true), left, rfl⟩
    exact Or.inr ⟨rfl, _, _, taken, act_hosts observes hosts (protect associated plaintext),
      sound.usesUp taken⟩

/-- Whatever is refused to a context of an endpoint: nothing changes, whatever handlers would do to
an event, so nothing is raised, unless a nonce was asked for. Where handlers only observe, a nonce
is refused to an exhausted sender alone, whose handlers are told so once. A message is refused to
such a sender likewise, and otherwise it uses up one number, which is spent. -/
theorem Operation.attempt_refused (observes : behaviour.Observes)
    (hosts : endpoint.Hosts ref context) (reachable : context.Reachable) :
    (∀ (handling : Behaviour Handler Application) (operation : Operation) refusal,
      operation.reserves = false →
      (operation.attempt handling ref endpoint).1 = .error refusal →
      (operation.attempt handling ref endpoint).2 = endpoint) ∧
    (∀ id counter refusal, (Endpoint.derivePair ref id counter endpoint).1 = .error refusal →
      (Endpoint.derivePair ref id counter endpoint).2 = endpoint) ∧
    (∀ refusal, (reserve.attempt behaviour ref endpoint).1 = .error refusal →
      refusal = .sequenceExhausted context.sender.maximum ∧
        Endpoint.ToldExhausted behaviour ref endpoint
          (reserve.attempt behaviour ref endpoint).2) ∧
    ∀ associated plaintext refusal,
      ((protect associated plaintext).attempt behaviour ref endpoint).1 = .error refusal →
      let after := ((protect associated plaintext).attempt behaviour ref endpoint).2
      refusal = .sequenceExhausted context.sender.maximum ∧
          Endpoint.ToldExhausted behaviour ref endpoint after ∨
        refusal = .failure .encryption ∧ ∃ taken later,
          (protect associated plaintext).reservation context = some taken ∧
          after.Hosts ref later ∧ context.UsesUp taken later := by
  obtain ⟨keying, sound⟩ := reachable.sound
  refine ⟨?_, fun _ _ _ refused => Endpoint.derivePair_of_error refused, ?_, ?_⟩
  · intro handling operation refusal takes refused
    have distinct := reachable.distinct
    rw [← hosts.2] at distinct
    exact attempt_of_error distinct takes refused
  · intro refusal refused
    have same := hosts.2
    subst same
    exact Endpoint.reserve_of_error observes sound (map_eq_error.mp refused)
  · intro associated plaintext refusal refused
    exact protect_of_error observes hosts sound (map_eq_error.mp refused)

/-- Recording a number of nobody changes nothing. A message of 65536 bytes, one more than the
length field of CCM can say, uses up a number. -/
theorem Operation.attempt_refused_long :
    ∃ context, SecurityContext.derive { secret := [1] } [] [1] 1 = .ok context ∧
      let keeper : Behaviour Unit (List Event) := fun _ event endpoint =>
        (event, { endpoint with application := endpoint.application ++ [event] })
      let endpoint : Endpoint Unit (List Event) := {
        channels := [{ handlers := [(0, ())], issued := 1 }]
        contexts := [{ context, channel := ⟨0⟩ }]
        application := [] }
      let stray := record [9] 5
      let long := protect [] (List.replicate 65536 0)
      (stray.attempt keeper ⟨0⟩ endpoint).1 = .error (.unknownRecipient [9]) ∧
        (stray.attempt keeper ⟨0⟩ endpoint).2 = endpoint ∧
      (long.attempt keeper ⟨0⟩ endpoint).1 = .error (.failure .encryption) ∧
        ∃ taken later, long.reservation context = some taken ∧ taken.sequence = 0 ∧
          (long.attempt keeper ⟨0⟩ endpoint).2.Hosts ⟨0⟩ later ∧ context.UsesUp taken later := by
  have known : Keying.resolve { secret := [1] } =
      .ok ⟨[1], [], none, .aesCcm8, .sha256, {}⟩ := rfl
  obtain ⟨context, derived, keyed, unused, left, stranger⟩ : ∃ context,
      SecurityContext.derive { secret := [1] } [] [1] 1 = .ok context ∧
        context.keying = { secret := [1] } ∧ context.sender.sequence = 0 ∧
        context.sender.exhausted = false ∧ context.recipient? [9] = none :=
    ⟨_, SecurityContext.derive_eq_ok.mpr ⟨_, known, by decide, by decide, rfl⟩, rfl, rfl, rfl,
      rfl⟩
  obtain ⟨_, sound⟩ := SecurityContext.sound_of_derive derived
  have same := sound.resolved
  rw [keyed] at same
  cases known.symm.trans same
  refine ⟨context, derived, ?_⟩
  intro keeper endpoint stray long
  have hosts : endpoint.Hosts ⟨0⟩ context := ⟨Nat.zero_lt_one, rfl⟩
  have observes : keeper.Observes := fun _ _ _ _ _ hosts => hosts
  obtain ⟨unchanged, -, -, usedUp⟩ := attempt_refused observes hosts (.derive derived)
  have strayRefused : (stray.attempt keeper ⟨0⟩ endpoint).1 = .error (.unknownRecipient [9]) := by
    show (context.record [9] 5).answer = _
    rw [SecurityContext.record, SecurityContext.recipient, stranger]
  have longRefused : (long.attempt keeper ⟨0⟩ endpoint).1 = .error (.failure .encryption) := by
    refine map_eq_error.mpr ((Endpoint.protect_answer observes hosts _ _).trans ?_)
    exact sound.protect_of_long rfl left (by rw [List.length_replicate]; decide) []
  refine ⟨strayRefused, unchanged keeper stray _ rfl strayRefused, longRefused, ?_⟩
  rcases usedUp _ _ _ longRefused with ⟨other, -⟩ | ⟨-, taken, later, reserved, hosted, used⟩
  · cases other
  · exact ⟨taken, later, reserved, used.sequence_eq.trans unused, hosted, used⟩

/-- A member that could not encrypt its first message repeats the nonce of that message when its
first identifier returns. -/
theorem Operation.protect_number_returns :
    ∃ key context, SigningKey.ofSeed (List.replicate 32 0x11) = .ok key ∧
      SecurityContext.deriveGroup
        { keying := { secret := [1] }, sender := [0x0a], key, algorithm := -8 } 1 = .ok context ∧
      (context.protect [] (List.replicate 65536 0)).answer = .error (.failure .encryption) ∧
      ∃ first last, context.reservations [.protect [] (List.replicate 65536 0),
          .replaceSender [0x0c] key, .replaceSender [0x0a] key, .reserve] = [first, last] ∧
        first.key = last.key ∧ first.nonce = last.nonce ∧ first.sender = last.sender ∧
        first.sequence = last.sequence := by
  obtain ⟨key, made, fits⟩ := @SecurityContext.exists_ofSeed (List.replicate 32 0x11) rfl
  have known : Keying.resolve { secret := [1] } =
      .ok ⟨[1], [], none, .aesCcm8, .sha256, {}⟩ := rfl
  obtain ⟨context, derived, sound, sender, -, alone, leaves⟩ :=
    @SecurityContext.deriveGroup_alone _ _ [0x0a] key known (by decide) fits 1
  obtain ⟨_, away⟩ := (leaves [0x0c] (by decide)).1 (by decide)
  have single : context.recipient? [0x0a] = none := by
    rw [SecurityContext.recipient?, alone]
    rfl
  have left : context.sender.exhausted = false := by
    rw [sender]
    rfl
  have tooLong := sound.protect_of_long rfl left
    (by rw [List.length_replicate]; decide : 65535 < (List.replicate 65536 (0 : UInt8)).length) []
  exact ⟨key, context, made, derived, tooLong,
    SecurityContext.reservations_of_return derived (Nat.succ_pos _) away single⟩

end Oscore
