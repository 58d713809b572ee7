/-
This file gives the complete law of taking nonces one after another. As many
calls succeed as numbers are left, and they come first; they take the numbers in
order, from the one that the sender is at. All other calls fail. The events say
which of the new numbers are multiples of the interval and which calls failed, in
the order of the calls. The handlers may do anything but change contexts.
-/

import Oscore.Proofs.EntityLimits
import Oscore.Proofs.Observers

namespace Oscore

variable {Handler Application Answer : Type}

/-! ### Numbers that are left -/

namespace Entity

variable {sender : Entity}

/-- How many of so many calls find a number left. -/
def served (sender : Entity) (count : Nat) : Nat := min count (sender.maximum - sender.sequence)

theorem served_succ_of_left (left : sender.sequence < sender.maximum) (count : Nat) :
    sender.served (count + 1) =
      { sender with sequence := sender.sequence + 1 }.served count + 1 := by
  simp only [served]
  omega

theorem served_of_used (used : sender.maximum ≤ sender.sequence) (count : Nat) :
    sender.served count = 0 := by
  rw [served, Nat.sub_eq_zero_of_le used, Nat.min_zero]

/-- The event that asks to persist a number of a sender. -/
def persistEvent (sender : Entity) (groupId : Option Bytes) (sequence : Nat) : Event :=
  { code := .persist, groupId, keyId := sender.id, sequence }

/-- The event that says that a sender is exhausted, with the maximum that it reached. -/
def exhaustionEvent (sender : Entity) (groupId : Option Bytes) : Event :=
  { code := .exhaustion, groupId, keyId := sender.id, sequence := sender.maximum }

/-- The events of so many calls: of the new numbers, the multiples of the interval are to be
persisted, and every call that finds no number left says so. -/
def announcements (sender : Entity) (groupId : Option Bytes) (count : Nat) : List Event :=
  ((List.range' (sender.sequence + 1) (sender.served count)).filter
    fun number => number % sender.interval = 0).map (sender.persistEvent groupId) ++
  List.replicate (count - sender.served count) (sender.exhaustionEvent groupId)

theorem announcements_succ_of_left (left : sender.sequence < sender.maximum)
    (groupId : Option Bytes) (count : Nat) :
    sender.announcements groupId (count + 1) =
      (if (sender.sequence + 1) % sender.interval = 0 then
        [sender.persistEvent groupId (sender.sequence + 1)] else []) ++
      { sender with sequence := sender.sequence + 1 }.announcements groupId count := by
  rw [announcements, served_succ_of_left left, List.range'_succ, List.filter_cons,
    Nat.add_sub_add_right]
  by_cases multiple : (sender.sequence + 1) % sender.interval = 0
  · rw [if_pos (decide_eq_true multiple), if_pos multiple]
    rfl
  · rw [if_neg (by rw [decide_eq_true_eq]; exact multiple), if_neg multiple]
    rfl

theorem announcements_succ_of_used (used : sender.maximum ≤ sender.sequence)
    (groupId : Option Bytes) (count : Nat) :
    sender.announcements groupId (count + 1) =
      sender.exhaustionEvent groupId :: sender.announcements groupId count := by
  rw [announcements, announcements, served_of_used used, served_of_used used, Nat.sub_zero,
    Nat.sub_zero, List.replicate_succ]
  rfl

end Entity

/-! ### One call -/

namespace SecurityContext

variable {context : SecurityContext} {keying : ResolvedKeying}

/-- A nonce that a sender makes from a number, with the shortest partial IV of the number. -/
structure ReservedNonce.MadeBy (reserved : ReservedNonce) (sender : Entity) : Prop where
  sender_eq : reserved.sender = sender.id
  decode_eq : PartialIv.decode reserved.partialIv = .ok reserved.sequence
  length_le : ∀ partialIv, PartialIv.decode partialIv = .ok reserved.sequence →
    reserved.partialIv.length ≤ partialIv.length
  nonce_eq : sender.nonce reserved.partialIv = .ok reserved.nonce

theorem ReservedNonce.MadeBy.of_evolves {reserved : ReservedNonce} {before after : Entity}
    (made : reserved.MadeBy after) (evolves : before.Evolves after) : reserved.MadeBy before where
  sender_eq := made.sender_eq.trans evolves.id_eq
  decode_eq := made.decode_eq
  length_le := made.length_le
  nonce_eq := by
    rw [Entity.nonce_congr evolves.baseIv_eq.symm]
    exact made.nonce_eq

theorem Sound.madeBy_upcoming (sound : context.Sound keying) :
    (context.upcoming keying).toReservedNonce.MadeBy context.sender where
  sender_eq := rfl
  decode_eq := PartialIv.decode_encode sound.bounded.sequence_le_ceiling
  length_le _ decoded := PartialIv.length_encode_le_of_decode decoded
  nonce_eq := sound.nonce_upcoming

end SecurityContext

namespace Endpoint

variable {behaviour : Behaviour Handler Application} {ref : ContextRef}
  {endpoint : Endpoint Handler Application} {context : SecurityContext} {keying : ResolvedKeying}

/-- A call that finds a number left takes it, and asks to persist the next one if that is a multiple
of the interval. -/
theorem reserve_of_left (observes : behaviour.Observes) (sound : context.Sound keying)
    (hosts : endpoint.Hosts ref context)
    (left : context.sender.sequence < context.sender.maximum) :
    let next := { context with
      sender := { context.sender with sequence := context.sender.sequence + 1 } }
    (reserve behaviour ref endpoint).1 = .ok (context.upcoming keying).toReservedNonce ∧
      Raises behaviour ref endpoint
        (if (context.sender.sequence + 1) % context.sender.interval = 0 then
          [context.sender.persistEvent context.groupId (context.sender.sequence + 1)] else [])
        (reserve behaviour ref endpoint).2 ∧
      (reserve behaviour ref endpoint).2.Hosts ref next ∧ next.Sound keying := by
  have outcome := sound.reserve_eq_of_left left
  have raises := perform_raises observes SecurityContext.reserve hosts
  have hosted := perform_hosts observes SecurityContext.reserve hosts
  have stays := sound.next .reserve
  rw [Operation.next] at stays
  rw [outcome] at raises hosted stays
  refine ⟨?_, ?_, hosted, stays⟩
  · rw [reserve, perform_eq, hosts.2, outcome]
  · by_cases multiple : (context.sender.sequence + 1) % context.sender.interval = 0
    · rw [if_pos multiple] at raises ⊢
      exact raises
    · rw [if_neg multiple] at raises ⊢
      exact raises

/-- A call that finds no number left says so. -/
theorem reserve_of_used (observes : behaviour.Observes) (sound : context.Sound keying)
    (hosts : endpoint.Hosts ref context)
    (used : context.sender.maximum ≤ context.sender.sequence) :
    (reserve behaviour ref endpoint).1 = .error (.sequenceExhausted context.sender.maximum) ∧
      Raises behaviour ref endpoint [context.sender.exhaustionEvent context.groupId]
        (reserve behaviour ref endpoint).2 ∧
      (reserve behaviour ref endpoint).2.Hosts ref context := by
  have last : context.sender.sequence = context.sender.maximum :=
    Nat.le_antisymm sound.bounded.sequence_le used
  have exhausted : context.sender.exhausted := decide_eq_true used
  have outcome := sound.reserve_eq
  rw [if_pos exhausted, last] at outcome
  have raises := perform_raises observes SecurityContext.reserve hosts
  have hosted := perform_hosts observes SecurityContext.reserve hosts
  rw [outcome] at raises hosted
  refine ⟨?_, raises, hosted⟩
  rw [reserve, perform_eq, hosts.2, outcome]

/-! ### Many calls -/

/-- Takes so many nonces, one after another. -/
def reserveMany (behaviour : Behaviour Handler Application) (ref : ContextRef) : Nat →
    Action Handler Application (List (Except Refusal SecurityContext.ReservedNonce))
  | 0 => return []
  | count + 1 => do
    let answer ← reserve behaviour ref
    return answer :: (← reserveMany behaviour ref count)

/-- What so many calls answer, raise and leave. -/
theorem reserveMany_cases (observes : behaviour.Observes) (sound : context.Sound keying)
    (hosts : endpoint.Hosts ref context) (count : Nat) :
    let sender := context.sender
    let run := reserveMany behaviour ref count endpoint
    (∃ taken : List SecurityContext.ReservedNonce,
      run.1 = taken.map .ok ++ List.replicate (count - sender.served count)
        (.error (.sequenceExhausted sender.maximum)) ∧
      taken.map SecurityContext.ReservedNonce.sequence =
        List.range' sender.sequence (sender.served count) ∧
      ∀ reserved ∈ taken, reserved.MadeBy sender) ∧
    Raises behaviour ref endpoint (sender.announcements context.groupId count) run.2 ∧
    run.2.Hosts ref { context with
      sender := { sender with sequence := min (sender.sequence + count) sender.maximum } } := by
  induction count generalizing endpoint context with
  | zero =>
    intro sender run
    have none : sender.served 0 = 0 := Nat.zero_min _
    have still : min (sender.sequence + 0) sender.maximum = sender.sequence :=
      Nat.min_eq_left sound.bounded.sequence_le
    rw [still, Entity.announcements, none]
    exact ⟨⟨[], rfl, rfl, fun _ member => nomatch member⟩, .nothing, hosts⟩
  | succ count inductionHypothesis =>
    intro sender run
    by_cases left : sender.sequence < sender.maximum
    · obtain ⟨answer, raises, hosted, stays⟩ := reserve_of_left observes sound hosts left
      obtain ⟨⟨taken, answers, numbers, made⟩, raisesOn, hostedOn⟩ :=
        inductionHypothesis stays hosted
      have evolves : sender.Evolves { sender with sequence := sender.sequence + 1 } :=
        (Entity.advance_evolves (Entity.advance_eq_ok.mpr ⟨left, rfl, rfl⟩)).1
      have reached : min (sender.sequence + (count + 1)) sender.maximum =
          min (sender.sequence + 1 + count) sender.maximum := by
        rw [Nat.add_assoc, Nat.add_comm 1]
      rw [Entity.announcements_succ_of_left left, Entity.served_succ_of_left left,
        Nat.add_sub_add_right, reached]
      refine ⟨⟨(context.upcoming keying).toReservedNonce :: taken, ?_, ?_, ?_⟩,
        raises.trans raisesOn, hostedOn⟩
      · exact congrArg₂ List.cons answer answers
      · rw [List.map_cons, numbers]
        rfl
      · intro reserved member
        rcases List.mem_cons.mp member with rfl | later
        · exact sound.madeBy_upcoming
        · exact (made reserved later).of_evolves evolves
    · have used := Nat.le_of_not_lt left
      obtain ⟨answer, raises, hosted⟩ := reserve_of_used observes sound hosts used
      obtain ⟨⟨taken, answers, numbers, -⟩, raisesOn, hostedOn⟩ :=
        inductionHypothesis sound hosted
      rw [Entity.served_of_used used] at numbers answers
      have none : taken = [] := List.map_eq_nil_iff.mp numbers
      subst none
      have reached : min (sender.sequence + (count + 1)) sender.maximum =
          min (sender.sequence + count) sender.maximum := by omega
      rw [Entity.announcements_succ_of_used used, Entity.served_of_used used, reached]
      refine ⟨⟨[], ?_, rfl, fun _ member => nomatch member⟩, raises.trans raisesOn, hostedOn⟩
      exact congrArg₂ List.cons answer answers

/-- Where handlers only observe, of so many calls the first succeed, as many as numbers are left.
They take the numbers from the sender's on, one after another, with their shortest partial IVs and
the nonces of these. All further calls say that the maximum is reached. Of the new numbers, the
multiples of the interval are raised in their order, then one event for every call that failed, all
for the sender and its group. The sender then stands as many numbers further, and at its maximum at
most. -/
theorem reserveMany_complete (observes : behaviour.Observes) (hosts : endpoint.Hosts ref context)
    (reachable : context.Reachable) (count : Nat) :
    let sender := context.sender
    let successes := min count (sender.maximum - sender.sequence)
    let run := reserveMany behaviour ref count endpoint
    (∃ taken : List SecurityContext.ReservedNonce,
      run.1 = taken.map .ok ++
        List.replicate (count - successes) (.error (.sequenceExhausted sender.maximum)) ∧
      taken.map SecurityContext.ReservedNonce.sequence =
        List.range' sender.sequence successes ∧
      ∀ reserved ∈ taken, reserved.MadeBy sender) ∧
    Raises behaviour ref endpoint
      (((List.range' (sender.sequence + 1) successes).filter
          fun number => number % sender.interval = 0).map
        (fun number => {
          code := .persist, groupId := context.groupId, keyId := sender.id, sequence := number }) ++
      List.replicate (count - successes) {
        code := .exhaustion, groupId := context.groupId, keyId := sender.id
        sequence := sender.maximum })
      run.2 ∧
    run.2.Hosts ref { context with
      sender := { sender with sequence := min (sender.sequence + count) sender.maximum } } := by
  obtain ⟨keying, sound⟩ := reachable.sound
  exact reserveMany_cases observes sound hosts count

/-- Seven calls to a sender that has five numbers. A handler that keeps what it is told, alone on
the channel of the context, has been told of both multiples of two, and twice of the maximum. -/
theorem reserveMany_complete_kept :
    ∃ context, SecurityContext.derive
        { secret := [1], idContext := some [9], limits := { maximum := 5, interval := 2 } }
        [] [1] 1 = .ok context ∧
      let keeper : Behaviour Unit (List Event) := fun _ event endpoint =>
        (event, { endpoint with application := endpoint.application ++ [event] })
      let endpoint : Endpoint Unit (List Event) := {
        channels := [{ handlers := [(0, ())], issued := 1 }]
        contexts := [{ context, channel := ⟨0⟩ }]
        application := [] }
      ∃ run, run = reserveMany keeper ⟨0⟩ 7 endpoint ∧
        (∃ taken : List SecurityContext.ReservedNonce,
          run.1 = taken.map .ok ++ List.replicate 2 (.error (.sequenceExhausted 5)) ∧
          taken.map SecurityContext.ReservedNonce.sequence = [0, 1, 2, 3, 4]) ∧
        run.2.application = [
          { code := .persist, groupId := some [9], keyId := some [], sequence := some 2 },
          { code := .persist, groupId := some [9], keyId := some [], sequence := some 4 },
          { code := .exhaustion, groupId := some [9], keyId := some [], sequence := some 5 },
          { code := .exhaustion, groupId := some [9], keyId := some [], sequence := some 5 }] ∧
        (run.2.context ⟨0⟩).sender.sequence = 5 := by
  let limits : Limits := { maximum := 5, interval := 2 }
  have known : Keying.resolve { secret := [1], idContext := some [9], limits } =
      .ok ⟨[1], [], some [9], .aesCcm8, .sha256, limits⟩ := rfl
  obtain ⟨context, derived, id, start, maximum, interval, group⟩ : ∃ context,
      SecurityContext.derive { secret := [1], idContext := some [9], limits } [] [1] 1 =
        .ok context ∧ context.sender.id = [] ∧ context.sender.sequence = 0 ∧
        context.sender.maximum = 5 ∧ context.sender.interval = 2 ∧ context.groupId = some [9] :=
    ⟨_, SecurityContext.derive_eq_ok.mpr ⟨_, known, by decide, by decide, rfl⟩, rfl, rfl, rfl, rfl,
      rfl⟩
  refine ⟨context, derived, ?_⟩
  intro keeper endpoint
  have hosts : endpoint.Hosts ⟨0⟩ context := ⟨Nat.zero_lt_one, rfl⟩
  have observes : keeper.Observes := fun _ _ _ _ _ hosts => hosts
  obtain ⟨⟨taken, answers, numbers, -⟩, raises, hosted⟩ :=
    reserveMany_complete observes hosts (.derive derived) 7
  rw [id, start, maximum, interval, group] at raises
  rw [start, maximum] at answers numbers hosted
  have notes : keeper.Notes (fun events => events) () := fun _ _ => ⟨_, rfl, rfl⟩
  obtain ⟨kept, -⟩ := raises.noted notes rfl
  refine ⟨_, rfl, ⟨taken, answers, numbers⟩, kept, ?_⟩
  rw [hosted.2]
  rfl

end Endpoint

end Oscore
