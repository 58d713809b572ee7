/-
This file follows messages from a client to a server over a channel that may
lose them, repeat them and change their order. Both ends derived their contexts
from one keying, with the identifiers exchanged, and from then on share nothing
but the messages. What the client gives to the channel is encrypted under the
key and the nonce that the server finds again from the partial IV, so that a
message opens to its own plaintext whenever the server's window lets its number
pass. The numbers grow in the order of sending, and the window stands for the
numbers that were accepted, so no message passes twice, and a message that was
sent after all that arrived before it passes for certain.
-/

import Oscore.Proofs.Acceptances
import Oscore.Proofs.ProtectedMessages
import Oscore.Proofs.WindowHistory

namespace Oscore

/-! ### The channel -/

/-- A message that a client gave to the channel, with what it protects. -/
structure Sent where
  message : SecurityContext.ProtectedMessage
  associated : Bytes
  plaintext : Bytes
  deriving DecidableEq, Repr

/-- A message that a server took from the channel, with what the server made of it. -/
structure Delivery where
  /-- How many messages were sent before this one. -/
  index : Nat
  sent : Sent
  answer : Except Refusal Bytes

/-- Whether the server accepted the message. -/
def Delivery.accepted (delivery : Delivery) : Bool := delivery.answer.isOk

theorem Delivery.accepted_iff {delivery : Delivery} :
    delivery.accepted ↔ ∃ text, delivery.answer = .ok text := by
  rw [accepted]
  cases delivery.answer with
  | error refusal => exact ⟨(fun accepted => nomatch accepted), fun ⟨_, equal⟩ => nomatch equal⟩
  | ok text => exact ⟨fun _ => ⟨text, rfl⟩, fun _ => rfl⟩

/-- Whether the server accepted the message if it was sent after all that arrived before. -/
def Delivery.PassesAhead (before : List Delivery) (delivery : Delivery) : Prop :=
  (∀ earlier ∈ before, earlier.index < delivery.index) → delivery.accepted

/-- A client, a server, and what passed between them. -/
structure Link where
  client : SecurityContext
  server : SecurityContext
  /-- The messages that the client sent, in their order. -/
  sent : List Sent := []
  /-- What arrived at the server, in the order of arrival. -/
  deliveries : List Delivery := []

/-- What happens on a link. -/
inductive Transmission
  /-- The client protects a message and, unless that is refused, sends it. -/
  | send (associated plaintext : Bytes)
  /-- The message of an index arrives, for the first time or again, if it was sent. -/
  | deliver (index : Nat)
  deriving DecidableEq, Repr

namespace Link

/-- The link that a transmission leaves. -/
def step (link : Link) : Transmission → Link
  | .send associated plaintext =>
    let outcome := link.client.protect associated plaintext
    match outcome.answer with
    | .ok message => { link with
        client := outcome.context, sent := link.sent ++ [⟨message, associated, plaintext⟩] }
    | .error _ => { link with client := outcome.context }
  | .deliver index =>
    match link.sent[index]? with
    | some sent =>
      let outcome := link.server.unprotect sent.message.sender sent.message.partialIv
        sent.associated sent.message.ciphertext
      { link with
        server := outcome.context
        deliveries := link.deliveries ++ [⟨index, sent, outcome.answer⟩] }
    | none => link

/-- The link that some transmissions leave, one after another. -/
def after (link : Link) (schedule : List Transmission) : Link := schedule.foldl step link

end Link

/-! ### Opening what was encrypted -/

/-- What a message that was encrypted for a recipient does: unless its number must be refused, it
opens to what was encrypted, and its number is accepted. -/
theorem SecurityContext.unprotect_encrypted {context : SecurityContext} {entity : Entity}
    {window : ReplayWindow} {sequence : Nat}
    {id partialIv nonce associated plaintext ciphertext : Bytes}
    (found : context.recipient? id = some entity) (guarded : entity.window = some window)
    (decoded : PartialIv.decode partialIv = .ok sequence)
    (made : entity.nonce partialIv = .ok nonce)
    (encrypted : context.algorithm.encrypt entity.key nonce associated plaintext =
      .ok ciphertext) :
    context.unprotect id partialIv associated ciphertext =
      if window.contains sequence then ⟨.error (.replay sequence), context, []⟩
      else {
        answer := .ok plaintext
        context := context.setRecipient
          { entity with window := some (window.accept sequence).2 }
        notices :=
          if (window.accept sequence).1 then [.windowMoved entity.id sequence] else [] } := by
  have decrypted := AeadAlgorithm.decrypt_eq_ok_iff_encrypt.mpr encrypted
  have asked : entity.isReplay sequence = window.contains sequence := by
    rw [Entity.isReplay, guarded]
  rw [unprotect, decoded, recipient_eq_ok.mpr found]
  show context.unprotectFrom entity sequence partialIv associated ciphertext = _
  rw [unprotectFrom, asked]
  by_cases contained : window.contains sequence
  · simp only [contained, if_true]
    rfl
  · rw [Bool.not_eq_true] at contained
    have opened : (Except.ok nonce >>= fun nonce => (context.algorithm.decrypt entity.key nonce
        associated ciphertext).mapError Refusal.failure) = .ok plaintext :=
      bind_eq_ok.mpr ⟨nonce, rfl, mapError_eq_ok.mpr decrypted⟩
    have accepted := Entity.accept_eq_ok.mpr
      ⟨asked.trans contained, Or.inr ⟨window, guarded, rfl, rfl⟩⟩
    simp only [contained, Bool.false_eq_true, if_false, made, opened, acceptFrom, accepted]
    rfl

/-! ### What the client sends -/

/-- The sequence number that a message carries. -/
def Sent.number (sent : Sent) : Nat := sent.message.partialIv.toNat

/-- A message that is encrypted for the sender and the number that it names. -/
structure Sent.SealedBy (sent : Sent) (keying : ResolvedKeying) (sender : Bytes) : Prop where
  sender_eq : sent.message.sender = sender
  partialIv_eq : sent.message.partialIv = PartialIv.encode sent.number
  number_le : sent.number ≤ sequenceCeiling
  encrypted : keying.aead.encrypt (keying.keyOf sender)
    (keying.nonceOf sender sent.message.partialIv) sent.associated sent.plaintext =
      .ok sent.message.ciphertext

/-- A protected message takes the number of the sender, which then has passed it. -/
theorem SecurityContext.Sound.protect_seals {context : SecurityContext}
    {keying : ResolvedKeying} (sound : context.Sound keying) (associated plaintext : Bytes) :
    (context.protect associated plaintext).context.sender.id = context.sender.id ∧
      context.sender.sequence ≤ (context.protect associated plaintext).context.sender.sequence ∧
      ∀ message, (context.protect associated plaintext).answer = .ok message →
        Sent.SealedBy ⟨message, associated, plaintext⟩ keying context.sender.id ∧
          Sent.number ⟨message, associated, plaintext⟩ = context.sender.sequence ∧
          context.sender.sequence <
            (context.protect associated plaintext).context.sender.sequence := by
  rw [protect, sound.reserve_eq]
  by_cases exhausted : context.sender.exhausted
  · simp only [exhausted, if_true]
    refine ⟨trivial, Nat.le_refl _, ?_⟩
    intro message answered
    cases answered
  · simp only [exhausted, Bool.false_eq_true, if_false]
    refine ⟨trivial, Nat.le_succ _, ?_⟩
    intro message answered
    obtain ⟨encrypted, sender, partialIv⟩ := encryptReserved_eq_ok.mp answered
    rw [upcoming] at encrypted sender partialIv
    have number : Sent.number ⟨message, associated, plaintext⟩ = context.sender.sequence := by
      rw [Sent.number, partialIv, PartialIv.toNat_encode]
    refine ⟨⟨sender, ?_, ?_, ?_⟩, number, Nat.lt_succ_self _⟩
    · rw [number, partialIv]
    · rw [number]
      exact sound.bounded.sequence_le_ceiling
    · rw [← sound.algorithm_eq, ← sound.derived.key_eq, partialIv]
      exact encrypted

/-- Nothing but its length keeps a message from being protected while there are numbers left. -/
theorem SecurityContext.Sound.exists_protect {context : SecurityContext}
    {keying : ResolvedKeying} {plaintext : Bytes} (sound : context.Sound keying)
    (left : context.sender.sequence < context.sender.maximum)
    (admitted : keying.aead.scheme.admits plaintext.length) (associated : Bytes) :
    ∃ message, (context.protect associated plaintext).answer = .ok message := by
  obtain ⟨ciphertext, encrypted⟩ := sound.exists_encrypt sound associated plaintext admitted
  rw [protect, sound.reserve_eq_of_left left]
  exact ⟨⟨_, _, ciphertext⟩, encryptReserved_eq_ok.mpr ⟨encrypted, rfl, rfl⟩⟩

namespace Link

variable {link : Link} {keying : ResolvedKeying} {sender : Bytes}

/-- A client whose messages carry growing numbers, all below the next one. -/
structure Sends (link : Link) (keying : ResolvedKeying) (sender : Bytes) : Prop where
  sound : link.client.Sound keying
  sender_id : link.client.sender.id = sender
  all_sealed : ∀ sent ∈ link.sent, sent.SealedBy keying sender
  passed : ∀ sent ∈ link.sent, sent.number < link.client.sender.sequence
  increasing : link.sent.Pairwise fun earlier later => earlier.number < later.number

theorem Sends.send (sends : link.Sends keying sender) (associated plaintext : Bytes) :
    (link.step (.send associated plaintext)).Sends keying sender := by
  obtain ⟨sameId, grows, seals⟩ := sends.sound.protect_seals associated plaintext
  have sound := sends.sound.next (.protect associated plaintext)
  have senderId := sameId.trans sends.sender_id
  rw [step]
  split
  · rename_i message answered
    obtain ⟨sealedBy, number, passes⟩ := seals message answered
    rw [sends.sender_id] at sealedBy
    refine ⟨sound, senderId, ?_, ?_, ?_⟩
    · intro sent member
      rcases List.mem_append.mp member with old | new
      · exact sends.all_sealed sent old
      · rw [List.mem_singleton.mp new]
        exact sealedBy
    · intro sent member
      rcases List.mem_append.mp member with old | new
      · exact Nat.lt_of_lt_of_le (sends.passed sent old) grows
      · rw [List.mem_singleton.mp new, number]
        exact passes
    · refine List.pairwise_append.mpr ⟨sends.increasing, List.pairwise_singleton _ _, ?_⟩
      intro earlier member later last
      rw [List.mem_singleton.mp last, number]
      exact sends.passed earlier member
  · exact ⟨sound, senderId, sends.all_sealed,
      fun sent member => Nat.lt_of_lt_of_le (sends.passed sent member) grows, sends.increasing⟩

theorem Sends.deliver (sends : link.Sends keying sender) (index : Nat) :
    (link.step (.deliver index)).Sends keying sender := by
  rw [step]
  split
  · exact ⟨sends.sound, sends.sender_id, sends.all_sealed, sends.passed, sends.increasing⟩
  · exact sends

/-- Messages carry numbers in the order in which they were sent. -/
theorem Sends.number_lt (sends : link.Sends keying sender) {first second : Nat}
    {earlier later : Sent} (found : link.sent[first]? = some earlier)
    (otherFound : link.sent[second]? = some later) (order : first < second) :
    earlier.number < later.number := by
  obtain ⟨inside, rfl⟩ := List.getElem?_eq_some_iff.mp found
  obtain ⟨otherInside, rfl⟩ := List.getElem?_eq_some_iff.mp otherFound
  exact List.pairwise_iff_getElem.mp sends.increasing _ _ inside otherInside order

/-! ### What the server accepts -/

/-- The numbers of the messages that the server accepted, the last one first. -/
def acceptedNumbers (link : Link) : List Nat :=
  ((link.deliveries.filter Delivery.accepted).map fun delivery => delivery.sent.number).reverse

/-- What a server made of all that arrived. -/
structure Receives (link : Link) (keying : ResolvedKeying) (sender : Bytes) : Prop where
  algorithm_eq : link.server.algorithm = keying.aead
  listens : ∃ entity window, link.server.recipient? sender = some entity ∧
    entity.DerivedBy keying ∧ entity.window = some window ∧
    window.Records 0 link.acceptedNumbers
  /-- What arrived was sent. -/
  logged : ∀ delivery ∈ link.deliveries, link.sent[delivery.index]? = some delivery.sent
  /-- What was accepted opened to what was encrypted. -/
  genuine : ∀ delivery ∈ link.deliveries, ∀ text, delivery.answer = .ok text →
    text = delivery.sent.plaintext
  /-- No number was accepted twice. -/
  once : link.acceptedNumbers.Nodup
  /-- A message that was sent after all that arrived before it was accepted. -/
  ahead : ∀ position delivery, link.deliveries[position]? = some delivery →
    Delivery.PassesAhead (link.deliveries.take position) delivery

theorem Receives.send (receives : link.Receives keying sender) (associated plaintext : Bytes) :
    (link.step (.send associated plaintext)).Receives keying sender := by
  rw [step]
  split
  · refine ⟨receives.algorithm_eq, receives.listens, ?_, receives.genuine, receives.once,
      receives.ahead⟩
    intro delivery member
    have there := receives.logged delivery member
    obtain ⟨inside, -⟩ := List.getElem?_eq_some_iff.mp there
    exact (List.getElem?_append_left inside).trans there
  · exact ⟨receives.algorithm_eq, receives.listens, receives.logged, receives.genuine,
      receives.once, receives.ahead⟩

/-- What holds of each element and those before it still does after one more, if it does of the
last. -/
theorem forall_take_append_singleton {Element : Type} {law : List Element → Element → Prop}
    {elements : List Element} {last : Element}
    (before : ∀ position element, elements[position]? = some element →
      law (elements.take position) element) (now : law elements last) (position : Nat)
    (element : Element) (found : (elements ++ [last])[position]? = some element) :
    law ((elements ++ [last]).take position) element := by
  by_cases inside : position < elements.length
  · rw [List.getElem?_append_left inside] at found
    rw [List.take_append_of_le_length (Nat.le_of_lt inside)]
    exact before position element found
  · obtain ⟨bound, equal⟩ := List.getElem?_eq_some_iff.mp found
    rw [List.length_append, List.length_singleton] at bound
    obtain rfl : position = elements.length := by omega
    rw [List.getElem_concat_length rfl] at equal
    rw [List.take_left, ← equal]
    exact now

theorem mem_acceptedNumbers {number : Nat} :
    number ∈ link.acceptedNumbers ↔
      ∃ delivery ∈ link.deliveries, delivery.accepted ∧ delivery.sent.number = number := by
  simp only [acceptedNumbers, List.mem_reverse, List.mem_map, List.mem_filter, and_assoc]

theorem acceptedNumbers_append (link : Link) (server : SecurityContext) (delivery : Delivery) :
    acceptedNumbers { link with server, deliveries := link.deliveries ++ [delivery] } =
      if delivery.accepted then delivery.sent.number :: link.acceptedNumbers
      else link.acceptedNumbers := by
  rw [acceptedNumbers, List.filter_append, List.map_append, List.reverse_append]
  by_cases accepted : delivery.accepted
  · rw [List.filter_cons_of_pos accepted, if_pos accepted]
    rfl
  · rw [List.filter_cons_of_neg accepted, if_neg accepted]
    rfl

/-- The number of a message that was sent after all that arrived is free. -/
theorem Receives.free_of_ahead (receives : link.Receives keying sender)
    (sends : link.Sends keying sender) {window : ReplayWindow}
    (records : window.Records 0 link.acceptedNumbers) {index : Nat} {sent : Sent}
    (found : link.sent[index]? = some sent)
    (newest : ∀ earlier ∈ link.deliveries, earlier.index < index) :
    window.contains sent.number = false := by
  refine records.fresh ?_ (Nat.zero_le _)
  intro number member
  obtain ⟨delivery, there, -, rfl⟩ := mem_acceptedNumbers.mp member
  exact sends.number_lt (receives.logged delivery there) found (newest delivery there)

/-- One more arrival that the server makes something of. -/
theorem Receives.append (receives : link.Receives keying sender) {server : SecurityContext}
    {delivery : Delivery} (algorithm : server.algorithm = keying.aead)
    (listens : ∃ entity window, server.recipient? sender = some entity ∧
      entity.DerivedBy keying ∧ entity.window = some window ∧
      window.Records 0 (acceptedNumbers
        { link with server, deliveries := link.deliveries ++ [delivery] }))
    (found : link.sent[delivery.index]? = some delivery.sent)
    (opens : ∀ text, delivery.answer = .ok text → text = delivery.sent.plaintext)
    (new : delivery.accepted → delivery.sent.number ∉ link.acceptedNumbers)
    (newest : Delivery.PassesAhead link.deliveries delivery) :
    Receives { link with server, deliveries := link.deliveries ++ [delivery] } keying sender := by
  refine ⟨algorithm, listens, ?_, ?_, ?_, ?_⟩
  · intro other member
    rcases List.mem_append.mp member with old | last
    · exact receives.logged other old
    · rw [List.mem_singleton.mp last]
      exact found
  · intro other member
    rcases List.mem_append.mp member with old | last
    · exact receives.genuine other old
    · rw [List.mem_singleton.mp last]
      exact opens
  · rw [acceptedNumbers_append]
    split
    · rename_i accepted
      exact List.nodup_cons.mpr ⟨new accepted, receives.once⟩
    · exact receives.once
  · exact @forall_take_append_singleton _ Delivery.PassesAhead _ _ receives.ahead newest

theorem Receives.deliver (receives : link.Receives keying sender)
    (sends : link.Sends keying sender) (index : Nat) :
    (link.step (.deliver index)).Receives keying sender := by
  rw [step]
  split
  · rename_i sent found
    have sealedBy := sends.all_sealed sent (List.mem_of_getElem? found)
    obtain ⟨entity, window, there, derived, guarded, records⟩ := receives.listens
    have sameId := SecurityContext.id_of_recipient? there
    have decoded : PartialIv.decode sent.message.partialIv = .ok sent.number := by
      rw [sealedBy.partialIv_eq, PartialIv.decode_encode sealedBy.number_le]
    have made : entity.nonce sent.message.partialIv =
        .ok (keying.nonceOf sender sent.message.partialIv) := by
      rw [← sameId]
      refine derived.nonce_eq ?_ ?_ <;> rw [sealedBy.partialIv_eq]
      · exact PartialIv.length_encode_pos _
      · exact PartialIv.length_encode_le sealedBy.number_le
    have encrypted := sealedBy.encrypted
    rw [← receives.algorithm_eq, ← sameId, ← derived.key_eq, sameId] at encrypted
    have law := SecurityContext.unprotect_encrypted there guarded decoded made encrypted
    rw [← sealedBy.sender_eq] at law
    rw [law]
    by_cases contained : window.contains sent.number
    · -- the window refuses the number, so some message of it arrived before
      simp only [contained, if_true]
      refine receives.append receives.algorithm_eq ?_ found ?_ ?_ ?_
      · rw [acceptedNumbers_append]
        exact ⟨entity, window, there, derived, guarded, records⟩
      · intro text answered
        cases answered
      · intro accepted
        cases accepted
      · intro newest
        rw [receives.free_of_ahead sends records found newest] at contained
        cases contained
    · -- the window lets the number pass and takes it in
      simp only [contained, Bool.false_eq_true, if_false]
      refine receives.append receives.algorithm_eq ?_ found ?_ ?_ ?_
      · rw [acceptedNumbers_append]
        refine ⟨{ entity with window := some (window.accept sent.number).2 }, _, ?_,
          ⟨derived.id_fits, derived.key_eq, derived.baseIv_eq⟩, rfl,
          records.accept sent.number⟩
        rw [SecurityContext.recipient?_setRecipient, if_pos sameId, there, Option.map_some]
      · intro text answered
        cases answered
        rfl
      · intro _ member
        exact contained ((records.contains_iff _).mpr (Or.inr member))
      · intro _
        rfl
  · exact receives

/-! ### Schedules -/

theorem starts {keying : Keying} {sender recipient : Bytes} {number : Nat}
    {client : SecurityContext}
    (derived : SecurityContext.derive keying sender recipient number = .ok client)
    (otherNumber : Nat) :
    ∃ server resolved, SecurityContext.derive keying recipient sender otherNumber = .ok server ∧
      Sends { client, server } resolved sender ∧ Receives { client, server } resolved sender := by
  obtain ⟨resolved, sound⟩ := SecurityContext.sound_of_derive derived
  obtain ⟨_, known, senderFits, recipientFits, rfl⟩ := SecurityContext.derive_eq_ok.mp derived
  cases sound.resolved.symm.trans known
  have positive := (Keying.limits_of_resolve known).2.2
  refine ⟨_, resolved, SecurityContext.derive_eq_ok.mpr
    ⟨resolved, known, recipientFits, senderFits, rfl⟩, ⟨sound, rfl, ?_, ?_, .nil⟩,
    ⟨rfl, ⟨_, _, List.find?_cons_of_pos (decide_eq_true rfl), ⟨senderFits, rfl, rfl⟩, rfl,
      ReplayWindow.records_empty positive 0⟩, ?_, ?_, .nil, ?_⟩⟩
  · intro sent member
    cases member
  · intro sent member
    cases member
  · intro delivery member
    cases member
  · intro delivery member
    cases member
  · intro position delivery found
    cases found

theorem keeps_after (sends : link.Sends keying sender) (receives : link.Receives keying sender)
    (schedule : List Transmission) :
    (link.after schedule).Sends keying sender ∧ (link.after schedule).Receives keying sender := by
  induction schedule generalizing link with
  | nil => exact ⟨sends, receives⟩
  | cons transmission rest inductionHypothesis =>
    cases transmission with
    | send associated plaintext =>
      exact inductionHypothesis (sends.send associated plaintext)
        (receives.send associated plaintext)
    | deliver index =>
      exact inductionHypothesis (sends.deliver index) (receives.deliver sends index)

/-- A number that comes for the first time, in a list whose numbers first come in order, is
larger than all before it. -/
theorem lt_of_pairwise_eraseDups {numbers : List Nat}
    (increasing : numbers.eraseDups.Pairwise (· < ·)) {position number : Nat}
    (found : numbers[position]? = some number) (first : number ∉ numbers.take position) :
    ∀ earlier ∈ numbers.take position, earlier < number := by
  obtain ⟨inside, rfl⟩ := List.getElem?_eq_some_iff.mp found
  rw [← List.take_append_drop position numbers, List.eraseDups_append, List.pairwise_append]
    at increasing
  obtain ⟨-, -, across⟩ := increasing
  intro earlier member
  refine across earlier (List.mem_eraseDups.mpr member) _ (List.mem_eraseDups.mpr ?_)
  rw [List.removeAll, List.mem_filter]
  constructor
  · rw [List.drop_eq_getElem_cons inside]
    exact List.mem_cons_self
  · simpa using first

/-- Two messages of one index are one message, so no message is accepted twice. -/
theorem Receives.nodup_accepted (receives : link.Receives keying sender) :
    ((link.deliveries.filter Delivery.accepted).map Delivery.index).Nodup := by
  have numbers := List.pairwise_map.mp (List.pairwise_reverse.mp receives.once)
  refine List.pairwise_map.mpr (numbers.imp_of_mem ?_)
  intro first second firstMember secondMember different same
  have firstLogged := receives.logged first (List.mem_filter.mp firstMember).1
  rw [same, receives.logged second (List.mem_filter.mp secondMember).1] at firstLogged
  exact different (congrArg Sent.number (Option.some.inj firstLogged))

/-- Whatever a client sends to a server that derived the exchanged context, and however the
channel loses, repeats and mixes the messages: what the server accepts is what the client
protected, it accepts no message twice, and if the messages first arrive in the order of sending,
it accepts every message that arrives. The client can send every text of a permitted length as
long as there are numbers left. -/
theorem deliveries_faithful {keying : Keying} {sender recipient : Bytes} {number : Nat}
    {client : SecurityContext}
    (derived : SecurityContext.derive keying sender recipient number = .ok client)
    (otherNumber : Nat) :
    ∃ server, SecurityContext.derive keying recipient sender otherNumber = .ok server ∧
      ∀ schedule, let link := Link.after { client, server } schedule
        (∀ delivery ∈ link.deliveries, link.sent[delivery.index]? = some delivery.sent ∧
          ∀ text, delivery.answer = .ok text → text = delivery.sent.plaintext) ∧
        ((link.deliveries.filter Delivery.accepted).map Delivery.index).Nodup ∧
        ((link.deliveries.map Delivery.index).eraseDups.Pairwise (· < ·) →
          ∀ position delivery, link.deliveries[position]? = some delivery →
            delivery.index ∉ (link.deliveries.map Delivery.index).take position →
            delivery.answer = .ok delivery.sent.plaintext) ∧
        (link.client.sender.sequence < link.client.sender.maximum →
          ∀ associated plaintext : Bytes,
            link.client.algorithm.scheme.admits plaintext.length →
            ∃ message, (link.client.protect associated plaintext).answer = .ok message) := by
  obtain ⟨server, resolved, otherDerived, sends, receives⟩ := starts derived otherNumber
  refine ⟨server, otherDerived, ?_⟩
  intro schedule link
  obtain ⟨sends, receives⟩ := keeps_after sends receives schedule
  refine ⟨?_, receives.nodup_accepted, ?_, ?_⟩
  · intro delivery member
    exact ⟨receives.logged delivery member, receives.genuine delivery member⟩
  · intro increasing position delivery found first
    have indexFound : (link.deliveries.map Delivery.index)[position]? = some delivery.index := by
      rw [List.getElem?_map, found, Option.map_some]
    have newest := lt_of_pairwise_eraseDups increasing indexFound first
    rw [← List.map_take] at newest
    obtain ⟨text, answered⟩ := Delivery.accepted_iff.mp
      (receives.ahead position delivery found fun earlier member =>
        newest _ (List.mem_map_of_mem member))
    rw [answered, receives.genuine delivery (List.mem_of_getElem? found) text answered]
  · intro left associated plaintext admitted
    rw [sends.sound.algorithm_eq] at admitted
    exact sends.sound.exists_protect left admitted associated

/-- A message that arrives twice is accepted once. -/
theorem deliveries_faithful_repeated :
    ∃ client server first second,
      SecurityContext.derive { secret := [1] } [] [1] 1 = .ok client ∧
      SecurityContext.derive { secret := [1] } [1] [] 2 = .ok server ∧
      (Link.after { client, server } [.send [0xa1] [0x68], .deliver 0, .deliver 0]).deliveries =
        [first, second] ∧
      first.answer = .ok [0x68] ∧ ¬second.accepted := by
  have known : Keying.resolve { secret := [1] } =
      .ok ⟨[1], [], none, .aesCcm8, .sha256, {}⟩ := rfl
  obtain ⟨client, derived, unused⟩ : ∃ client : SecurityContext,
      SecurityContext.derive { secret := [1] } [] [1] 1 = .ok client ∧
      client.sender.sequence = 0 ∧ client.sender.maximum = 0xFFFFF ∧
      client.algorithm = .aesCcm8 :=
    ⟨_, SecurityContext.derive_eq_ok.mpr ⟨_, known, by decide, by decide, rfl⟩, rfl, rfl, rfl⟩
  obtain ⟨sequence, maximum, algorithm⟩ := unused
  obtain ⟨server, otherDerived, faithful⟩ := deliveries_faithful derived 2
  obtain ⟨-, -, -, progress⟩ := faithful []
  obtain ⟨message, answered⟩ : ∃ message,
      (client.protect [0xa1] [0x68]).answer = .ok message := by
    refine progress ?_ [0xa1] [0x68] ?_
    · show client.sender.sequence < client.sender.maximum
      rw [sequence, maximum]
      decide
    · show client.algorithm.scheme.admits [0x68].length
      rw [algorithm]
      decide
  obtain ⟨-, once, inOrder, -⟩ := faithful [.send [0xa1] [0x68], .deliver 0, .deliver 0]
  obtain ⟨first, second, arrived, firstIndex, secondIndex, text⟩ : ∃ first second,
      (Link.after { client, server } [.send [0xa1] [0x68], .deliver 0, .deliver 0]).deliveries =
        [first, second] ∧
      first.index = 0 ∧ second.index = 0 ∧ first.sent.plaintext = [0x68] := by
    have sent : Link.step { client, server } (.send [0xa1] [0x68]) =
        { client := (client.protect [0xa1] [0x68]).context, server
          sent := [⟨message, [0xa1], [0x68]⟩] } := by
      rw [step, answered]
      rfl
    rw [after, List.foldl_cons, sent]
    exact ⟨_, _, rfl, rfl, rfl, rfl⟩
  rw [arrived] at once inOrder
  have opened : first.answer = .ok first.sent.plaintext := by
    refine inOrder ?_ 0 first rfl List.not_mem_nil
    rw [List.map_cons, List.map_cons, firstIndex, secondIndex]
    decide
  rw [text] at opened
  refine ⟨client, server, first, second, derived, otherDerived, arrived, opened, ?_⟩
  intro accepted
  have both : first.accepted := Delivery.accepted_iff.mpr ⟨_, opened⟩
  rw [List.filter_cons_of_pos both, List.filter_cons_of_pos accepted, List.map_cons,
    List.map_cons, firstIndex, secondIndex] at once
  exact absurd once (by decide)

end Link

end Oscore
