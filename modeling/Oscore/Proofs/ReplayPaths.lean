/-
This file compares the three ways in which a context meets a sequence number of a
recipient: it is asked whether it must be refused, it is recorded, or a message
carries it. A number that is not refused is recorded, and a message is decrypted
when its number is not refused and it is genuine. The message then leaves what
recording its number leaves, and the handlers are told the same: that the window
moved, when its base did, and nothing otherwise. So one path cannot let a number
pass that another would refuse, or accept another number than it asked about.
-/

import Oscore.Proofs.Acceptances
import Oscore.Proofs.EntityLimits
import Oscore.Proofs.Observers
import Oscore.Proofs.ProtectedMessages
import Oscore.Proofs.WindowHistory

namespace Oscore

/-- A window says that it moved exactly when its base is another one. -/
theorem ReplayWindow.moved_iff {window : ReplayWindow} (positive : 0 < window.size)
    (sequence : Nat) :
    (window.accept sequence).1 ↔ (window.accept sequence).2.base ≠ window.base := by
  rw [moved_accept positive, decide_eq_true_eq, base_accept]
  split
  · omega
  · split <;> omega

namespace SecurityContext

variable {context : SecurityContext} {id partialIv associated ciphertext plaintext : Bytes}
  {sequence : Nat} {entity : Entity} {window : ReplayWindow}

/-! ### What a message must be -/

/-- A partial IV of a length that messages may carry makes a nonce of every recipient. -/
theorem Reachable.recipientNonce_isOk_iff (reachable : context.Reachable) :
    (∃ nonce, context.recipientNonce id partialIv = .ok nonce) ↔
      PartialIv.allowed partialIv ∧ ∃ entity, context.recipient? id = some entity := by
  simp only [recipientNonce, bind_eq_ok, recipient_eq_ok]
  constructor
  · rintro ⟨nonce, entity, found, made⟩
    by_cases permitted : PartialIv.allowed partialIv
    · exact ⟨permitted, entity, found⟩
    · rw [Entity.nonce_of_not_allowed permitted] at made
      cases made
  · rintro ⟨permitted, entity, found⟩
    have room := (reachable.usable entity (List.mem_append_right _
      (List.mem_cons_of_mem _ (mem_of_recipient? found)))).room
    obtain ⟨positive, short⟩ := PartialIv.allowed_iff.mp permitted
    exact ⟨_, entity, found, if_neg (by omega)⟩

theorem unprotect_eq_ok_iff :
    (context.unprotect id partialIv associated ciphertext).answer = .ok plaintext ↔
      ∃ sequence entity nonce, PartialIv.decode partialIv = .ok sequence ∧
        context.recipient? id = some entity ∧ entity.isReplay sequence = false ∧
        entity.nonce partialIv = .ok nonce ∧
        context.algorithm.decrypt entity.key nonce associated ciphertext = .ok plaintext := by
  cases decoded : PartialIv.decode partialIv with
  | error refusal =>
    rw [unprotect, decoded]
    constructor
    · intro answered
      cases answered
    · rintro ⟨_, _, _, same, -⟩
      cases same
  | ok sequence =>
    cases found : context.recipient? id with
    | none =>
      rw [unprotect, decoded, recipient, found]
      constructor
      · intro answered
        cases answered
      · rintro ⟨_, _, _, -, same, -⟩
        cases same
    | some entity =>
      rw [unprotect, decoded, recipient_eq_ok.mpr found]
      show (context.unprotectFrom entity sequence partialIv associated ciphertext).answer = _ ↔ _
      simp only [unprotectFrom_eq_ok, AeadAlgorithm.decrypt_eq_ok_iff_encrypt, Except.ok.injEq,
        Option.some.injEq]
      constructor
      · rintro ⟨fresh, nonce, made, encrypted⟩
        exact ⟨sequence, entity, nonce, rfl, rfl, fresh, made, encrypted⟩
      · rintro ⟨_, _, nonce, rfl, rfl, fresh, made, encrypted⟩
        exact ⟨fresh, nonce, made, encrypted⟩

/-- A message that is decrypted does to the context what recording its number does. -/
theorem unprotect_eq_record (decoded : PartialIv.decode partialIv = .ok sequence)
    (answered : (context.unprotect id partialIv associated ciphertext).answer = .ok plaintext) :
    context.unprotect id partialIv associated ciphertext =
      ⟨.ok plaintext, (context.record id sequence).context,
        (context.record id sequence).notices⟩ := by
  rw [unprotect, decoded] at answered ⊢
  rw [record]
  cases there : context.recipient id with
  | error refusal =>
    rw [there] at answered
    cases answered
  | ok entity =>
    rw [there] at answered
    change (context.unprotectFrom entity sequence partialIv associated ciphertext).answer = _
      at answered
    show context.unprotectFrom entity sequence partialIv associated ciphertext = _
    rw [unprotectFrom] at answered ⊢
    split at answered
    · cases answered
    · exact congrArg (fun answer => Outcome.mk answer (context.acceptFrom entity sequence).context
        (context.acceptFrom entity sequence).notices) answered

/-! ### What is left -/

/-- What it makes of a context to take in a number of a recipient: its window accepts the number,
and nothing else changes, neither in another recipient nor in a sender. -/
structure TakesIn (before : SecurityContext) (id : Bytes) (sequence : Nat) (entity : Entity)
    (window : ReplayWindow) (after : SecurityContext) : Prop where
  taken : after.recipient? id = some { entity with window := some (window.accept sequence).2 }
  others : ∀ place, place ≠ .recipient id → after.entity? place = before.entity? place
  rest : after = { before with recipients := after.recipients }

theorem takesIn_setRecipient (found : context.recipient? id = some entity) :
    context.TakesIn id sequence entity window
      (context.setRecipient { entity with window := some (window.accept sequence).2 }) where
  taken := by
    rw [recipient?_setRecipient, if_pos (id_of_recipient? found), found, Option.map_some]
  others place other := by
    cases place with
    | sender generation => rfl
    | recipient source =>
      have different : entity.id ≠ source := by
        rintro rfl
        exact other (congrArg Place.recipient (id_of_recipient? found))
      exact (recipient?_setRecipient context _ source).trans (if_neg different)
  rest := rfl

/-- A number that is not refused goes into the window of its recipient, and the handlers are told
when the base of the window moves. -/
theorem record_of_fresh (found : context.recipient? id = some entity)
    (there : entity.window = some window) (positive : 0 < window.size)
    (fresh : entity.isReplay sequence = false) :
    context.record id sequence =
      ⟨.ok (), context.setRecipient { entity with window := some (window.accept sequence).2 },
        if (window.accept sequence).2.base ≠ window.base then [.windowMoved id sequence]
        else []⟩ := by
  have accepted : entity.accept sequence = .ok ((window.accept sequence).1,
      { entity with window := some (window.accept sequence).2 }) :=
    Entity.accept_eq_ok.mpr ⟨fresh, Or.inr ⟨window, there, rfl, rfl⟩⟩
  rw [record, recipient_eq_ok.mpr found]
  show context.acceptFrom entity sequence = _
  rw [acceptFrom, accepted]
  refine congrArg (Outcome.mk _ _) ?_
  rw [id_of_recipient? found]
  exact if_congr (ReplayWindow.moved_iff positive sequence) rfl rfl

end SecurityContext

/-! ### The three paths at an endpoint -/

namespace Endpoint

variable {Handler Application Answer : Type} {behaviour : Behaviour Handler Application}
  {endpoint : Endpoint Handler Application} {ref : ContextRef} {context : SecurityContext}
  {id partialIv associated ciphertext : Bytes}

/-- An operation that tells at most that a window moved raises at most that event, on the channel of
the context, when it has left its context. -/
theorem perform_moved (hosts : endpoint.Hosts ref context) {run : SecurityContext → Outcome Answer}
    {answer : Except Refusal Answer} {next : SecurityContext} {moved : Prop} [Decidable moved]
    {sequence : Nat} (ran : run context =
      ⟨answer, next, if moved then [.windowMoved id sequence] else []⟩) :
    perform behaviour ref run endpoint = (answer,
      if moved then
        (raise behaviour (endpoint.hosted ref).channel
          ((Notice.windowMoved id sequence).event next.groupId ref)
          (endpoint.setContext ref next)).2
      else endpoint.setContext ref next) := by
  have left := (hosts.setContext next).2
  rw [perform_eq, hosts.2, ran]
  by_cases moves : moved
  · simp only [moves, if_true]
    show (answer, (raise behaviour ((endpoint.setContext ref next).hosted ref).channel
      ((Notice.windowMoved id sequence).event
        ((endpoint.setContext ref next).context ref).groupId ref) _).2) = _
    rw [left, channel_setContext]
  · simp only [moves, if_false]
    rfl

/-- Asking about a number, recording it and decrypting a message that carries it agree, whatever the
handlers do. A number is recorded exactly when it is not refused. A message is decrypted exactly
when its partial IV has one to five bytes, it is from a recipient, its number is not refused and its
ciphertext decrypts under the key and the nonce of the recipient. It then leaves the endpoint that
recording its number leaves: with the number in the window of the recipient, all else unchanged, and
the handlers told of the number and the recipient exactly when the base of the window moved. -/
theorem replay_paths_agree (hosts : endpoint.Hosts ref context) (reachable : context.Reachable)
    (behaviour : Behaviour Handler Application) (id partialIv associated ciphertext : Bytes) :
    (∀ sequence, (record behaviour ref id sequence endpoint).1 = .ok () ↔
      context.isReplay id sequence = .ok false) ∧
    (∀ plaintext,
      (unprotect behaviour ref id partialIv associated ciphertext endpoint).1 = .ok plaintext ↔
        (1 ≤ partialIv.length ∧ partialIv.length ≤ 5) ∧ ∃ sequence entity nonce,
          PartialIv.decode partialIv = .ok sequence ∧ context.recipient? id = some entity ∧
          context.isReplay id sequence = .ok false ∧
          context.recipientNonce id partialIv = .ok nonce ∧
          context.algorithm.decrypt entity.key nonce associated ciphertext = .ok plaintext) ∧
    ((∃ nonce, context.recipientNonce id partialIv = .ok nonce) ↔
      (1 ≤ partialIv.length ∧ partialIv.length ≤ 5) ∧
        ∃ entity, context.recipient? id = some entity) ∧
    ∀ plaintext,
      (unprotect behaviour ref id partialIv associated ciphertext endpoint).1 = .ok plaintext →
      ∃ sequence entity window next, PartialIv.decode partialIv = .ok sequence ∧
        context.recipient? id = some entity ∧ entity.window = some window ∧
        context.TakesIn id sequence entity window next ∧
        record behaviour ref id sequence endpoint =
          (.ok (), (unprotect behaviour ref id partialIv associated ciphertext endpoint).2) ∧
        (unprotect behaviour ref id partialIv associated ciphertext endpoint).2 =
          if (window.accept sequence).2.base ≠ window.base then
            (raise behaviour (endpoint.hosted ref).channel
              { code := .windowMoved, groupId := context.groupId, keyId := some id
                sequence := some sequence, recipient := some ⟨ref, .recipient id⟩ }
              (endpoint.setContext ref next)).2
          else endpoint.setContext ref next := by
  have recordAnswer (sequence : Nat) :
      (record behaviour ref id sequence endpoint).1 = (context.record id sequence).answer := by
    rw [record, perform_eq, hosts.2]
  have unprotectAnswer :
      (unprotect behaviour ref id partialIv associated ciphertext endpoint).1 =
        (context.unprotect id partialIv associated ciphertext).answer := by
    rw [unprotect, perform_eq, hosts.2]
  have nonceExists := @SecurityContext.Reachable.recipientNonce_isOk_iff context id partialIv
    reachable
  rw [PartialIv.allowed_iff] at nonceExists
  refine ⟨?_, ?_, nonceExists, ?_⟩
  · intro sequence
    rw [recordAnswer]
    exact SecurityContext.record_eq_ok
  · intro plaintext
    rw [unprotectAnswer, SecurityContext.unprotect_eq_ok_iff]
    constructor
    · rintro ⟨sequence, entity, nonce, decoded, found, fresh, made, decrypted⟩
      exact ⟨PartialIv.allowed_iff.mp (PartialIv.decode_eq_ok.mp decoded).1, sequence, entity,
        nonce, decoded, found, SecurityContext.isReplay_eq_ok.mpr ⟨entity, found, fresh⟩,
        bind_eq_ok.mpr ⟨entity, SecurityContext.recipient_eq_ok.mpr found, made⟩, decrypted⟩
    · rintro ⟨-, sequence, entity, nonce, decoded, found, fresh, made, decrypted⟩
      obtain ⟨_, again, freshThere⟩ := SecurityContext.isReplay_eq_ok.mp fresh
      cases found.symm.trans again
      obtain ⟨_, named, madeThere⟩ := bind_eq_ok.mp made
      cases found.symm.trans (SecurityContext.recipient_eq_ok.mp named)
      exact ⟨sequence, entity, nonce, decoded, found, freshThere, madeThere, decrypted⟩
  · intro plaintext answered
    rw [unprotectAnswer] at answered
    obtain ⟨sequence, entity, _, decoded, found, fresh, -, -⟩ :=
      SecurityContext.unprotect_eq_ok_iff.mp answered
    obtain ⟨_, sound⟩ := reachable.sound
    obtain ⟨window, there, positive⟩ :=
      sound.windows entity (SecurityContext.mem_of_recipient? found)
    have recorded := SecurityContext.record_of_fresh found there positive fresh
    have opened := SecurityContext.unprotect_eq_record decoded answered
    rw [recorded] at opened
    have recording := @perform_moved _ _ _ behaviour _ _ _ id hosts
      (fun context => context.record id sequence) _ _ _ _ _ recorded
    have opening := @perform_moved _ _ _ behaviour _ _ _ id hosts
      (fun context => context.unprotect id partialIv associated ciphertext) _ _ _ _ _ opened
    exact ⟨sequence, entity, window, _, decoded, found, there,
      SecurityContext.takesIn_setRecipient found,
      recording.trans (congrArg (Prod.mk _) (congrArg Prod.snd opening).symm),
      congrArg Prod.snd opening⟩

/-- A message whose partial IV has a leading zero takes its number far beyond the window: it leaves
what recording the number leaves, and the one handler is told of the number and the recipient. -/
theorem replay_paths_agree_beyond :
    let keeper : Behaviour Unit (List Event) := fun _ event endpoint =>
      (event, { endpoint with application := endpoint.application ++ [event] })
    let told : Event := { code := .windowMoved, keyId := some [1], sequence := some 300,
                          recipient := some ⟨⟨0⟩, .recipient [1]⟩ }
    ∃ (context : SecurityContext) (endpoint : Endpoint Unit (List Event)) (ciphertext : Bytes),
      context.Reachable ∧ endpoint.Hosts ⟨0⟩ context ∧
      (unprotect keeper ⟨0⟩ [1] [0, 1, 44] [] ciphertext endpoint).1 = .ok [0x68] ∧
      record keeper ⟨0⟩ [1] 300 endpoint =
        (.ok (), (unprotect keeper ⟨0⟩ [1] [0, 1, 44] [] ciphertext endpoint).2) ∧
      (unprotect keeper ⟨0⟩ [1] [0, 1, 44] [] ciphertext endpoint).2.application = [told] := by
  intro keeper told
  let keying : ResolvedKeying := ⟨[1], [], none, .aesCcm8, .sha256, {}⟩
  have known : Keying.resolve { secret := [1] } = .ok keying := rfl
  have short : [1].length ≤ keying.aead.identifierCapacity := by decide
  let recipient := keying.fresh [1] (some (.empty 0 64))
  let context : SecurityContext :=
    { number := 1, keying := { secret := [1] }, algorithm := .aesCcm8, countersigning := none
      sender := keying.fresh [] none, formerSenders := [], recipients := [recipient] }
  have derived : SecurityContext.derive { secret := [1] } [] [1] 1 = .ok context :=
    SecurityContext.derive_eq_ok.mpr ⟨keying, known, by decide, short, rfl⟩
  have nonceLength : (keying.nonceOf [1] [0, 1, 44]).length = context.algorithm.nonceLength :=
    ResolvedKeying.length_nonceOf short (by decide)
  obtain ⟨ciphertext, encrypted⟩ := @AeadAlgorithm.exists_encrypt context.algorithm
    (keying.keyOf [1]) (keying.nonceOf [1] [0, 1, 44]) [] [0x68] (keying.length_keyOf [1])
    nonceLength (by decide)
  let endpoint : Endpoint Unit (List Event) :=
    { channels := [{ handlers := [(0, ())], issued := 1 }]
      contexts := [{ context, channel := ⟨0⟩ }]
      application := [] }
  have hosts : endpoint.Hosts ⟨0⟩ context := ⟨by decide, rfl⟩
  have nonce : recipient.nonce [0, 1, 44] = .ok (keying.nonceOf [1] [0, 1, 44]) :=
    Entity.DerivedBy.nonce_eq ⟨short, rfl, rfl⟩ (by decide) (by decide)
  obtain ⟨-, opens, -, leaves⟩ :=
    replay_paths_agree hosts (.derive derived) keeper [1] [0, 1, 44] [] ciphertext
  have opened := (opens [0x68]).mpr ⟨by decide, 300, recipient, _, rfl, rfl, rfl, nonce,
    AeadAlgorithm.decrypt_eq_ok_iff_encrypt.mpr encrypted⟩
  obtain ⟨sequence, entity, window, next, decoded, found, there, -, same, left⟩ :=
    leaves [0x68] opened
  cases decoded
  cases found
  cases there
  refine ⟨context, endpoint, ciphertext, .derive derived, hosts, opened, same, ?_⟩
  rw [left]
  rfl

end Endpoint

end Oscore
