/-
This file follows the sequence numbers that a context accepts from a recipient
over a run. Messages and records accept the number that they ask the window
about, so a number is accepted only when the recipient does not refuse it, and
is refused from then on. As long as nobody takes numbers out of the window, no
number is therefore accepted twice, whatever partial IV it came in.
-/

import Oscore.Proofs.Reachable

namespace Oscore

/-! ### One acceptance -/

namespace Operation

/-- The sequence number that an operation accepts from a recipient, if it accepts one. -/
def acceptance (context : SecurityContext) (id : Bytes) : Operation → Option Nat
  | unprotect source partialIv associated ciphertext =>
    if source = id ∧ (context.unprotect source partialIv associated ciphertext).answer.isOk then
      (PartialIv.decode partialIv).toOption
    else none
  | record source sequence =>
    if source = id ∧ (context.record source sequence).answer.isOk then some sequence else none
  | _ => none

end Operation

namespace SecurityContext

variable {context before later : SecurityContext} {keying : ResolvedKeying}

/-- The sequence numbers that a run of operations accepts from a recipient, in their order. -/
def acceptances (context : SecurityContext) (id : Bytes) : List Operation → List Nat
  | [] => []
  | operation :: rest =>
    (operation.acceptance context id).toList ++ (operation.next context).acceptances id rest

/-! ### Refused numbers stay refused -/

theorem isReplay_eq_ok {id : Bytes} {number : Nat} {refused : Bool} :
    context.isReplay id number = .ok refused ↔
      ∃ entity, context.recipient? id = some entity ∧ entity.isReplay number = refused := by
  rw [isReplay, bind_eq_ok]
  refine exists_congr fun entity => ?_
  rw [recipient_eq_ok, pure_eq_ok]

theorem recipient?_setRecipient (context : SecurityContext) (next : Entity) (id : Bytes) :
    (context.setRecipient next).recipient? id =
      if next.id = id then (context.recipient? id).map fun _ => next
      else context.recipient? id := by
  have asked : ((fun entity => decide (entity.id = id)) ∘ fun other : Entity =>
      if other.id = next.id then next else other) = fun entity => decide (entity.id = id) := by
    funext other
    by_cases same : other.id = next.id
    · simp only [Function.comp_apply, same, if_true]
    · simp only [Function.comp_apply, same, if_false]
  rw [setRecipient, recipient?, List.find?_map, asked, ← recipient?]
  cases found : context.recipient? id with
  | none => simp only [Option.map_none, ite_self]
  | some entity =>
    rw [Option.map_some, id_of_recipient? found]
    by_cases same : next.id = id
    · rw [if_pos same.symm, if_pos same, Option.map_some]
    · rw [if_neg (Ne.symm same), if_neg same]

theorem isReplay_setRecipient {entity next : Entity} {source id : Bytes} {number : Nat}
    (found : context.recipient? source = some entity) (sameId : next.id = entity.id)
    (remembers : source = id → entity.isReplay number → next.isReplay number)
    (refused : context.isReplay id number = .ok true) :
    (context.setRecipient next).isReplay id number = .ok true := by
  obtain ⟨other, there, refuses⟩ := isReplay_eq_ok.mp refused
  rw [id_of_recipient? found] at sameId
  rw [isReplay_eq_ok, recipient?_setRecipient, sameId]
  by_cases same : source = id
  · rw [if_pos same, there]
    subst same
    cases found.symm.trans there
    exact ⟨next, rfl, remembers rfl refuses⟩
  · rw [if_neg same]
    exact ⟨other, there, refuses⟩

/-- What a recipient refuses, it refuses after every operation that leaves its window in
place. -/
theorem Changes.isReplay {forgets : Place → Prop} (changes : before.Changes forgets later)
    {id : Bytes} {number : Nat} (kept : ¬forgets (.recipient id))
    (refused : before.isReplay id number = .ok true) : later.isReplay id number = .ok true := by
  cases changes with
  | nothing => exact refused
  | @entity place entity next found evolves remembers =>
    cases place with
    | sender generation =>
      rw [setEntity]
      split
      · exact refused
      · exact refused
    | recipient source =>
      refine isReplay_setRecipient found evolves.id_eq ?_ refused
      intro same
      subst same
      exact remembers kept number
  | member added =>
    obtain ⟨entity, found, refuses⟩ := isReplay_eq_ok.mp refused
    obtain ⟨-, -, _, -, -, rfl⟩ := addRecipient_eq_ok.mp added
    refine isReplay_eq_ok.mpr ⟨entity, ?_, refuses⟩
    rw [recipient?] at found ⊢
    rw [List.find?_append, found, Option.some_or]
  | sender replaced =>
    obtain ⟨-, -, -, _, -, -, rfl⟩ := replaceSender_eq_ok.mp replaced
    exact refused

theorem isReplay_after {id : Bytes} {number : Nat} {operations : List Operation}
    (kept : ∀ operation ∈ operations, ¬operation.forgets (.recipient id))
    (refused : context.isReplay id number = .ok true) :
    (context.after operations).isReplay id number = .ok true := by
  induction operations generalizing context with
  | nil => exact refused
  | cons operation rest inductionHypothesis =>
    refine inductionHypothesis (fun other member => kept other (List.mem_cons_of_mem _ member)) ?_
    exact (operation.changes_next context).isReplay (kept operation List.mem_cons_self) refused

/-! ### Accepted numbers were not refused before and are refused after -/

theorem acceptFrom_accepts {id : Bytes} {entity : Entity} {number : Nat}
    (found : context.recipient? id = some entity) (guarded : entity.Guarded)
    (accepted : (context.acceptFrom entity number).answer.isOk) :
    context.isReplay id number = .ok false ∧
      (context.acceptFrom entity number).context.isReplay id number = .ok true := by
  obtain ⟨window, there, positive⟩ := guarded
  rw [acceptFrom] at accepted ⊢
  split at accepted
  · cases accepted
  · rename_i moved next took
    obtain ⟨free, ⟨missing, -⟩ | ⟨other, otherThere, -, rfl⟩⟩ := Entity.accept_eq_ok.mp took
    · rw [there] at missing
      cases missing
    · cases there.symm.trans otherThere
      refine ⟨isReplay_eq_ok.mpr ⟨entity, found, free⟩, ?_⟩
      rw [isReplay_eq_ok, recipient?_setRecipient, if_pos (id_of_recipient? found), found]
      exact ⟨_, rfl, ReplayWindow.contains_accept positive number⟩

theorem unprotectFrom_isOk {entity : Entity} {number : Nat}
    {partialIv associated ciphertext : Bytes}
    (accepted : (context.unprotectFrom entity number partialIv associated
      ciphertext).answer.isOk) :
    (context.acceptFrom entity number).answer.isOk ∧
      (context.unprotectFrom entity number partialIv associated ciphertext).context =
        (context.acceptFrom entity number).context := by
  rw [unprotectFrom] at accepted ⊢
  split at accepted
  · cases accepted
  · rename_i plaintext _
    refine ⟨?_, rfl⟩
    change ((context.acceptFrom entity number).answer.map fun _ => plaintext).isOk at accepted
    cases answer : (context.acceptFrom entity number).answer with
    | error refusal =>
      rw [answer] at accepted
      cases accepted
    | ok _ => rfl

/-- Whatever accepts a number accepts one that was not refused, and it is refused afterwards. -/
theorem Sound.acceptance_accepts (sound : context.Sound keying) {operation : Operation}
    {id : Bytes} {number : Nat} (accepted : operation.acceptance context id = some number) :
    context.isReplay id number = .ok false ∧
      (operation.next context).isReplay id number = .ok true := by
  cases operation with
  | unprotect source partialIv associated ciphertext =>
    rw [Operation.acceptance] at accepted
    split at accepted
    · rename_i succeeded
      obtain ⟨rfl, opened⟩ := succeeded
      rw [Operation.next]
      rw [unprotect] at opened ⊢
      split at opened
      · cases opened
      · rename_i sequence entity known
        obtain ⟨_, decoded, rest⟩ := bind_eq_ok.mp known
        obtain ⟨_, there, equal⟩ := bind_eq_ok.mp rest
        cases equal
        rw [decoded] at accepted
        cases accepted
        have found := recipient_eq_ok.mp there
        obtain ⟨took, same⟩ := unprotectFrom_isOk opened
        rw [same]
        exact acceptFrom_accepts found (sound.windows entity (mem_of_recipient? found)) took
    · cases accepted
  | record source sequence =>
    rw [Operation.acceptance] at accepted
    split at accepted
    · rename_i succeeded
      obtain ⟨rfl, took⟩ := succeeded
      cases accepted
      rw [Operation.next]
      rw [record] at took ⊢
      split at took
      · cases took
      · rename_i entity there
        have found := recipient_eq_ok.mp there
        exact acceptFrom_accepts found (sound.windows entity (mem_of_recipient? found)) took
    · cases accepted
  | _ => cases accepted

/-- A record is accepted exactly when it is not refused. -/
theorem record_eq_ok {id : Bytes} {number : Nat} :
    (context.record id number).answer = .ok () ↔ context.isReplay id number = .ok false := by
  rw [isReplay_eq_ok, record]
  cases found : context.recipient? id with
  | none =>
    rw [recipient, found]
    simp only [reduceCtorEq, false_and, exists_false]
  | some entity =>
    rw [recipient, found]
    simp only [Option.some.injEq, exists_eq_left', acceptFrom_eq_ok]

/-! ### Runs -/

theorem Sound.not_refused_of_mem_acceptances (sound : context.Sound keying) {id : Bytes}
    {number : Nat} {operations : List Operation}
    (kept : ∀ operation ∈ operations, ¬operation.forgets (.recipient id))
    (member : number ∈ context.acceptances id operations) :
    context.isReplay id number ≠ .ok true := by
  induction operations generalizing context with
  | nil => cases member
  | cons operation rest inductionHypothesis =>
    obtain ⟨keptNow, keptRest⟩ := List.forall_mem_cons.mp kept
    -- a number that is refused now is refused at every later operation too
    intro refused
    rcases List.mem_append.mp member with now | afterwards
    · rw [Option.mem_toList] at now
      cases refused.symm.trans (sound.acceptance_accepts now).1
    · exact inductionHypothesis (sound.next operation) keptRest afterwards
        ((operation.changes_next context).isReplay keptNow refused)

theorem Sound.refused_of_mem_acceptances (sound : context.Sound keying) {id : Bytes}
    {number : Nat} {operations : List Operation}
    (kept : ∀ operation ∈ operations, ¬operation.forgets (.recipient id))
    (member : number ∈ context.acceptances id operations) :
    (context.after operations).isReplay id number = .ok true := by
  induction operations generalizing context with
  | nil => cases member
  | cons operation rest inductionHypothesis =>
    obtain ⟨-, keptRest⟩ := List.forall_mem_cons.mp kept
    show ((operation.next context).after rest).isReplay id number = .ok true
    rcases List.mem_append.mp member with now | afterwards
    · rw [Option.mem_toList] at now
      exact isReplay_after keptRest (sound.acceptance_accepts now).2
    · exact inductionHypothesis (sound.next operation) keptRest afterwards

theorem Sound.nodup_acceptances (sound : context.Sound keying) {id : Bytes}
    {operations : List Operation}
    (kept : ∀ operation ∈ operations, ¬operation.forgets (.recipient id)) :
    (context.acceptances id operations).Nodup := by
  induction operations generalizing context with
  | nil => exact List.nodup_nil
  | cons operation rest inductionHypothesis =>
    obtain ⟨-, keptRest⟩ := List.forall_mem_cons.mp kept
    rw [acceptances, List.nodup_append]
    refine ⟨?_, inductionHypothesis (sound.next operation) keptRest, ?_⟩
    · cases operation.acceptance context id <;> simp
    · intro first now second afterwards same
      subst same
      rw [Option.mem_toList] at now
      exact (sound.next operation).not_refused_of_mem_acceptances keptRest afterwards
        (sound.acceptance_accepts now).2

/-- No sequence number of a recipient is accepted twice, by messages or otherwise, as long as
nobody takes numbers out of its window. What was accepted is refused at the end, and what is not
refused can still be recorded. -/
theorem acceptances_at_most_once (reachable : context.Reachable) {id : Bytes}
    {operations : List Operation}
    (kept : ∀ operation ∈ operations, ¬operation.forgets (.recipient id)) :
    (context.acceptances id operations).Nodup ∧
      (∀ number ∈ context.acceptances id operations,
        (context.after operations).isReplay id number = .ok true) ∧
      ∀ number, ((context.after operations).record id number).answer = .ok () ↔
        (context.after operations).isReplay id number = .ok false := by
  obtain ⟨keying, sound⟩ := reachable.sound
  refine ⟨sound.nodup_acceptances kept, ?_, fun _ => record_eq_ok⟩
  intro number member
  exact sound.refused_of_mem_acceptances kept member

/-- A number comes again in two partial IVs and by record, the window jumps ahead, and a number
that it has left behind comes too. -/
theorem acceptances_after_jump :
    ∃ context, derive { secret := [1] } [] [1] 1 = .ok context ∧ context.Reachable ∧
      context.acceptances [1] [.record [1] 5, .unprotect [1] [5] [] [],
        .unprotect [1] [0, 5] [] [], .record [1] 5, .record [1] 300, .record [1] 10,
        .record [1] 301] = [5, 300, 301] ∧
      (context.acceptances [1] [.record [1] 5, .unprotect [1] [5] [] [],
        .unprotect [1] [0, 5] [] [], .record [1] 5, .record [1] 300, .record [1] 10,
        .record [1] 301]).Nodup := by
  have known : Keying.resolve { secret := [1] } =
      .ok ⟨[1], [], none, .aesCcm8, .sha256, {}⟩ := rfl
  have derived := (@derive_eq_ok _ { secret := [1] } [] [1] 1).mpr
    ⟨_, known, by decide, by decide, rfl⟩
  refine ⟨_, derived, .derive derived, by rfl, ?_⟩
  refine (acceptances_at_most_once (.derive derived) ?_).1
  intro operation member
  rintro ⟨adjustment, rfl, forgets⟩
  simp at member

end SecurityContext

end Oscore
