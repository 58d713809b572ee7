/-
This file says that a duplicate of a context behaves like its original, and apart
from it. What no call looks at are the senders that a context had before and a
window of its sender; a duplicate differs from its original in these, and in that
its windows are empty. So it answers as the original would if its windows were
emptied through their handles. Afterwards neither notices what is called at the
other.

A context holds its entities by value, so that two contexts cannot share one. Nothing
would make them do so: a duplicate gets copies of the entities, every other context
is made with entities of its own, and no operation takes an entity from one context
to another.
-/

import Oscore.Proofs.ContextCalls

namespace Oscore

variable {Handler Application Answer : Type}

/-! ### What no call looks at -/

/-- A context without the senders that it had before, and without a window of its sender. -/
def SecurityContext.stripped (context : SecurityContext) : SecurityContext :=
  { context with sender := { context.sender with window := none }, formerSenders := [] }

/-- An outcome that leaves its context stripped. -/
def Outcome.stripped (outcome : Outcome Answer) : Outcome Answer :=
  { outcome with context := outcome.context.stripped }

namespace SecurityContext

theorem reserve_stripped (context : SecurityContext) :
    context.stripped.reserve = context.reserve.stripped := by
  have made : context.stripped.sender.nonce context.stripped.sender.partialIv =
    context.sender.nonce context.sender.partialIv := rfl
  have advanced : context.stripped.sender.advance =
      context.sender.advance.map fun step => (step.1, { step.2 with window := none }) := by
    show (if context.sender.exhausted then _ else _) = _
    rw [Entity.advance]
    split <;> rfl
  rw [reserve, reserve, made]
  cases context.sender.nonce context.sender.partialIv with
  | error refusal => rfl
  | ok nonce =>
    dsimp only
    rw [advanced]
    cases context.sender.advance <;> rfl

theorem acceptFrom_stripped (context : SecurityContext) (entity : Entity) (sequence : Nat) :
    context.stripped.acceptFrom entity sequence =
      (context.acceptFrom entity sequence).stripped := by
  rw [acceptFrom, acceptFrom]
  cases entity.accept sequence <;> rfl

theorem record_stripped (context : SecurityContext) (id : Bytes) (sequence : Nat) :
    context.stripped.record id sequence = (context.record id sequence).stripped := by
  have found : context.stripped.recipient id = context.recipient id := rfl
  rw [record, record, found]
  cases context.recipient id with
  | error refusal => rfl
  | ok entity => exact acceptFrom_stripped context entity sequence

theorem unprotectFrom_stripped (context : SecurityContext) (entity : Entity) (sequence : Nat)
    (partialIv associated ciphertext : Bytes) :
    context.stripped.unprotectFrom entity sequence partialIv associated ciphertext =
      (context.unprotectFrom entity sequence partialIv associated ciphertext).stripped := by
  have decrypts : context.stripped.algorithm = context.algorithm := rfl
  rw [unprotectFrom, unprotectFrom, decrypts, acceptFrom_stripped]
  split <;> rfl

theorem unprotect_stripped (context : SecurityContext)
    (id partialIv associated ciphertext : Bytes) :
    context.stripped.unprotect id partialIv associated ciphertext =
      (context.unprotect id partialIv associated ciphertext).stripped := by
  have found : context.stripped.recipient id = context.recipient id := rfl
  rw [unprotect, unprotect, found]
  split
  · rfl
  · exact unprotectFrom_stripped context ..

theorem protect_stripped (context : SecurityContext) (associated plaintext : Bytes) :
    context.stripped.protect associated plaintext =
      (context.protect associated plaintext).stripped := by
  rw [protect, reserve_stripped]
  rfl

theorem addRecipient_stripped (context : SecurityContext) (id : Bytes) (key : SigningKey) :
    context.stripped.addRecipient id key = (context.addRecipient id key).map stripped := by
  have algorithm : context.stripped.signatureAlgorithm = context.signatureAlgorithm := rfl
  have found : context.stripped.recipient? id = context.recipient? id := rfl
  have keying : context.stripped.keying = context.keying := rfl
  show _ = stripped <$> context.addRecipient id key
  rw [addRecipient, addRecipient, algorithm, found, keying]
  cases context.signatureAlgorithm with
  | none => rfl
  | some algorithm =>
    simp only [throw_bind]
    split
    · rfl
    · split
      · rfl
      · simp only [map_bind]
        rfl

theorem replaceSender_stripped (context : SecurityContext) (id : Bytes) (key : SigningKey) :
    (context.stripped.replaceSender id key).map stripped =
      (context.replaceSender id key).map stripped := by
  have algorithm : context.stripped.signatureAlgorithm = context.signatureAlgorithm := rfl
  have found : context.stripped.recipient? id = context.recipient? id := rfl
  have keying : context.stripped.keying = context.keying := rfl
  have sender : context.stripped.sender.id = context.sender.id := rfl
  show stripped <$> context.stripped.replaceSender id key =
    stripped <$> context.replaceSender id key
  rw [replaceSender, replaceSender, algorithm, found, keying, sender]
  cases context.signatureAlgorithm with
  | none => rfl
  | some algorithm =>
    simp only [throw_bind]
    split
    · rfl
    · split
      · rfl
      · simp only [map_bind]
        rfl

end SecurityContext

namespace Method

theorem reply_stripped (method : Method) (context : SecurityContext) (counters : List Nat) :
    method.reply context.stripped counters = method.reply context counters := by
  have unmade (made : Except Refusal SecurityContext) :
      (made.map SecurityContext.stripped).map (fun _ => ()) = made.map fun _ => () := by
    cases made <;> rfl
  cases method with
  | reserve =>
    rw [reply, reply, context.reserve_stripped]
    rfl
  | protect associated plaintext =>
    rw [reply, reply, context.protect_stripped]
    rfl
  | record id sequence =>
    rw [reply, reply, context.record_stripped]
    rfl
  | isReplay id sequence => rfl
  | unprotect id partialIv associated ciphertext =>
    rw [reply, reply, context.unprotect_stripped]
    rfl
  | addRecipient id key =>
    rw [reply, reply, context.addRecipient_stripped]
    cases context.addRecipient id key <;> rfl
  | replaceSender id key =>
    rw [reply, reply, ← unmade, context.replaceSender_stripped, unmade]
  | derivePair id counter => rfl

theorem next_stripped (method : Method) (context : SecurityContext) :
    (method.next context.stripped).stripped = (method.next context).stripped := by
  have left (made : Except Refusal SecurityContext) (context : SecurityContext) :
      (made.toOption.getD context).stripped =
        (made.map SecurityContext.stripped).toOption.getD context.stripped := by
    cases made <;> rfl
  cases method with
  | reserve =>
    rw [next, next, context.reserve_stripped]
    rfl
  | protect associated plaintext =>
    rw [next, next, context.protect_stripped]
    rfl
  | record id sequence =>
    rw [next, next, context.record_stripped]
    rfl
  | isReplay id sequence => rfl
  | unprotect id partialIv associated ciphertext =>
    rw [next, next, context.unprotect_stripped]
    rfl
  | addRecipient id key =>
    rw [next, next, context.addRecipient_stripped]
    cases context.addRecipient id key <;> rfl
  | replaceSender id key =>
    rw [next, next, left, left, context.replaceSender_stripped]
    rfl
  | derivePair id counter => rfl

theorem numbers_stripped (method : Method) (context : SecurityContext) (counters : List Nat) :
    method.numbers context.stripped counters = method.numbers context counters := by
  cases method <;> rfl

/-- Contexts that differ in what no call looks at answer alike, whatever is called. -/
theorem replies_stripped (context : SecurityContext) (counters : List Nat) (methods : List Method) :
    replies context.stripped counters methods = replies context counters methods := by
  induction methods generalizing context counters with
  | nil => rfl
  | cons method rest inductionHypothesis =>
    rw [replies, replies, method.reply_stripped, method.numbers_stripped]
    -- neither of the contexts that are left is stripped, but both differ only in what is stripped
    rw [← inductionHypothesis (method.next context.stripped), method.next_stripped,
      inductionHypothesis]

end Method

/-! ### Emptied windows -/

namespace SecurityContext

variable {context : SecurityContext}

/-- The context whose windows are emptied and set to zero. -/
def emptied (context : SecurityContext) : SecurityContext :=
  { context with recipients := context.recipients.map Entity.duplicate }

/-- A duplicate differs from its original with emptied windows in what no call looks at. -/
theorem stripped_duplicate (context : SecurityContext) :
    context.duplicate.stripped = context.emptied.stripped := rfl

/-- Resetting the window of a recipient through its handle puts the duplicate in its place. -/
theorem next_reset (distinct : (context.recipients.map Entity.id).Nodup) {front back : List Entity}
    {entity : Entity} (recipients : context.recipients = front ++ entity :: back) :
    (Operation.adjust (.recipient entity.id) (.reset 0)).next context =
      { context with recipients := front ++ entity.duplicate :: back } := by
  have found : context.entity? (.recipient entity.id) = some entity := by
    refine recipient?_of_mem distinct ?_
    rw [recipients]
    exact List.mem_append_right _ List.mem_cons_self
  have others : ∀ other ∈ front ++ back, other.id ≠ entity.id := by
    rw [recipients, List.map_append, List.map_cons, List.nodup_middle, List.nodup_cons,
      ← List.map_append] at distinct
    intro other member same
    exact distinct.1 (List.mem_map.mpr ⟨other, member, same⟩)
  have kept (part : List Entity) (inside : ∀ other ∈ part, other ∈ front ++ back) :
      (part.map fun other => if other.id = entity.id then entity.duplicate else other) = part :=
    (List.map_congr_left fun other member => if_neg (others other (inside other member))).trans
      (List.map_id' part)
  rw [Operation.next, found]
  show { context with recipients := context.recipients.map fun other : Entity =>
    if other.id = entity.id then entity.duplicate else other } = _
  rw [recipients, List.map_append, List.map_cons, if_pos rfl,
    kept front fun other => List.mem_append_left _, kept back fun other => List.mem_append_right _]

/-- Resets the windows of the last recipients of a context, one after another. -/
theorem after_resets {front back : List Entity} (distinct : ((front ++ back).map Entity.id).Nodup)
    (recipients : context.recipients = front.map Entity.duplicate ++ back) :
    context.after (back.map fun entity => .adjust (.recipient entity.id) (.reset 0)) =
      { context with recipients := (front ++ back).map Entity.duplicate } := by
  induction back generalizing front context with
  | nil =>
    rw [List.append_nil] at recipients ⊢
    rw [← recipients]
    rfl
  | cons entity back inductionHypothesis =>
    have ids : context.recipients.map Entity.id = (front ++ entity :: back).map Entity.id := by
      rw [recipients, List.map_append, List.map_map, List.map_append]
      rfl
    have reset := next_reset (by rw [ids]; exact distinct) recipients
    show ((Operation.adjust (.recipient entity.id) (.reset 0)).next context).after _ = _
    rw [← List.singleton_append, ← List.append_assoc] at distinct ⊢
    rw [reset, inductionHypothesis distinct]
    rw [List.map_append, List.append_assoc]
    rfl

/-- Resetting all windows of a context leaves it with emptied windows. -/
theorem after_all_resets (distinct : (context.recipients.map Entity.id).Nodup) :
    context.after (context.recipients.map fun entity => .adjust (.recipient entity.id) (.reset 0)) =
      context.emptied :=
  @after_resets context [] context.recipients distinct rfl

end SecurityContext

namespace Endpoint

variable {endpoint : Endpoint Handler Application} {ref : ContextRef} {context : SecurityContext}

/-- Empties the windows of all recipients of a context and sets them to zero, each through its
handle. -/
def emptyWindows (ref : ContextRef) : Action Handler Application Unit := do
  let recipients := ((← get).context ref).recipients
  recipients.forM fun entity => adjust ⟨ref, .recipient entity.id⟩ (.reset 0)

/-- Using a handle changes nothing but the context of the entity. -/
theorem adjust_confined (ref : ContextRef) (place : Place) (adjustment : Adjustment)
    (endpoint : Endpoint Handler Application) :
    Confined ref endpoint (adjust ⟨ref, place⟩ adjustment endpoint).2 ∧
      (adjust ⟨ref, place⟩ adjustment endpoint).2.counters = endpoint.counters := by
  dsimp only [adjust, modify, modifyGet, MonadStateOf.modifyGet, StateT.modifyGet, pure]
  split
  · exact ⟨confined_setContext endpoint ref _, rfl⟩
  · exact ⟨.refl ref endpoint, rfl⟩

theorem resets_quiet (entities : List Entity) (quiet : endpoint.Quiet ref context) :
    let left := (entities.forM fun entity =>
      (adjust ⟨ref, .recipient entity.id⟩ (.reset 0) : Action Handler Application Unit)) endpoint
    left.2.Quiet ref
        (context.after (entities.map fun entity => .adjust (.recipient entity.id) (.reset 0))) ∧
      left.2.counters = endpoint.counters := by
  induction entities generalizing endpoint context with
  | nil => exact ⟨quiet, rfl⟩
  | cons entity rest inductionHypothesis =>
    obtain ⟨confined, counters⟩ := adjust_confined ref (.recipient entity.id) (.reset 0) endpoint
    have hosts := adjust_hosts quiet.hosts (.recipient entity.id) (.reset 0)
    have left := quiet.confined confined hosts.2
    obtain ⟨after, same⟩ := inductionHypothesis left
    exact ⟨after, same.trans counters⟩

theorem emptyWindows_quiet (quiet : endpoint.Quiet ref context)
    (distinct : (context.recipients.map Entity.id).Nodup) :
    (emptyWindows ref endpoint).2.Quiet ref context.emptied ∧
      (emptyWindows ref endpoint).2.counters = endpoint.counters := by
  rw [emptyWindows, Action.bind_apply, Action.get_apply]
  dsimp only
  rw [quiet.hosts.2, ← SecurityContext.after_all_resets distinct]
  exact resets_quiet context.recipients quiet

/-! ### Duplicates -/

/-- A copy of a context is quiet, and so are all contexts that were. -/
theorem duplicate_quiet (quiet : endpoint.Quiet ref context) :
    let copied := duplicate ref endpoint
    copied.2.Quiet copied.1 context.duplicate ∧ copied.2.Quiet ref context ∧
      copied.2.counters = endpoint.counters := by
  have made : duplicate ref endpoint = host context.duplicate endpoint := by
    rw [duplicate, Action.bind_apply, Action.get_apply, quiet.hosts.2]
  rw [made]
  have confined := confined_host endpoint ref endpoint.counters
    { context := context.duplicate, channel := ⟨endpoint.channels.length⟩ }
  refine ⟨quiet_host endpoint endpoint.counters context.duplicate, ?_, rfl⟩
  exact quiet.confined confined ((context_host _ quiet.hosts.1).trans quiet.hosts.2)

/-- A duplicate of a context that no handler listens to answers every run of calls as the context
would have answered it with emptied windows. Whatever is called at one of them, the other answers as
if it had not been, the original as if there were no duplicate: all the same when their calls draw
from different sources of numbers, and up to the numbers of derived pairs in any case. -/
theorem duplicate_apart (behaviour : Behaviour Handler Application)
    {endpoint : Endpoint Handler Application} {ref : ContextRef} {context : SecurityContext}
    (hosts : endpoint.Hosts ref context) (reachable : context.Reachable)
    (silent : (endpoint.channel (endpoint.hosted ref).channel).handlers = []) :
    let copied := duplicate ref endpoint
    let copy := copied.1
    (∀ methods, (callEach behaviour copy methods copied.2).1 =
      (callEach behaviour ref methods (emptyWindows ref endpoint).2).1) ∧
    ∀ calls : List (ContextRef × Method), (∀ call ∈ calls, call.1 = ref ∨ call.1 = copy) →
      (Apart calls →
        own ref (callMixed behaviour calls copied.2).1 =
            (callEach behaviour ref (own ref calls) endpoint).1 ∧
          own copy (callMixed behaviour calls copied.2).1 =
            (callEach behaviour copy (own copy calls) copied.2).1) ∧
      (own ref (callMixed behaviour calls copied.2).1).map Reply.unnumbered =
          (callEach behaviour ref (own ref calls) endpoint).1.map Reply.unnumbered ∧
        (own copy (callMixed behaviour calls copied.2).1).map Reply.unnumbered =
          (callEach behaviour copy (own copy calls) copied.2).1.map Reply.unnumbered := by
  intro copied copy
  have quiet : endpoint.Quiet ref context := ⟨hosts, silent⟩
  obtain ⟨copyQuiet, originalQuiet, counters⟩ := duplicate_quiet quiet
  obtain ⟨emptiedQuiet, same⟩ := emptyWindows_quiet quiet reachable.distinct
  have original (methods : List Method) : (callEach behaviour ref methods endpoint).1 =
      Method.replies context copied.2.counters methods := by
    rw [quiet.callEach, counters]
  refine ⟨fun methods => ?_, fun calls sides => ?_⟩
  · rw [copyQuiet.callEach, emptiedQuiet.callEach, counters, same, ← Method.replies_stripped,
      context.stripped_duplicate, Method.replies_stripped]
  · have allQuiet : copied.2.AllQuiet calls := by
      intro call member
      rcases sides call member with isOriginal | isCopy
      · exact ⟨context, isOriginal ▸ originalQuiet⟩
      · exact ⟨context.duplicate, isCopy ▸ copyQuiet⟩
    rw [original, copyQuiet.callEach]
    refine ⟨fun apart => ⟨?_, ?_⟩, ?_, ?_⟩
    · exact own_callMixed originalQuiet allQuiet apart fun _ _ _ _ => rfl
    · exact own_callMixed copyQuiet allQuiet apart fun _ _ _ _ => rfl
    · exact unnumbered_own_callMixed _ originalQuiet allQuiet
    · exact unnumbered_own_callMixed _ copyQuiet allQuiet

/-- A context that accepted a number, and its duplicate, which did not, like the context itself when
its window is emptied. When the duplicate accepts another number, the original still takes it. -/
theorem duplicate_apart_accepted :
    ∃ context, SecurityContext.derive { secret := [1] } [] [1] 1 = .ok context ∧
      let unheard : Behaviour Unit Unit := fun _ event => pure event
      let endpoint : Endpoint Unit Unit := {
        channels := [{}]
        contexts := [{ context := (context.record [1] 5).context, channel := ⟨0⟩ }]
        application := () }
      let copied := duplicate ⟨0⟩ endpoint
      let mixed : List (ContextRef × Method) :=
        [(⟨1⟩, .record [1] 6), (⟨0⟩, .isReplay [1] 6), (⟨0⟩, .isReplay [1] 5)]
      copied.1 = ⟨1⟩ ∧
      (callEach unheard ⟨1⟩ [.isReplay [1] 5] copied.2).1 = [.replay (.ok false)] ∧
      (callEach unheard ⟨0⟩ [.isReplay [1] 5] (emptyWindows ⟨0⟩ endpoint).2).1 =
        [.replay (.ok false)] ∧
      own ⟨0⟩ (callMixed unheard mixed copied.2).1 = [.replay (.ok false), .replay (.ok true)] := by
  have known : Keying.resolve { secret := [1] } =
      .ok ⟨[1], [], none, .aesCcm8, .sha256, {}⟩ := rfl
  obtain ⟨context, member, derived, alone, named, window⟩ : ∃ context member,
      SecurityContext.derive { secret := [1] } [] [1] 1 = .ok context ∧
        context.recipients = [member] ∧ member.id = [1] ∧ member.window = some (.empty 0 64) :=
    ⟨_, _, SecurityContext.derive_eq_ok.mpr ⟨_, known, by decide, by decide, rfl⟩, rfl, rfl, rfl⟩
  refine ⟨context, derived, ?_⟩
  obtain ⟨_, _, _, _, _, _, recipients⟩ := context
  cases alone
  obtain ⟨_, _, _, _, _, _, _, _⟩ := member
  cases named
  cases window
  intro unheard endpoint copied mixed
  have reachable : (endpoint.context ⟨0⟩).Reachable :=
    .operation (.derive derived) (.record [1] 5)
  have hosts : endpoint.Hosts ⟨0⟩ (endpoint.context ⟨0⟩) := ⟨Nat.zero_lt_one, rfl⟩
  obtain ⟨alike, apart⟩ := duplicate_apart unheard hosts reachable rfl
  have free : (callEach unheard ⟨1⟩ [.isReplay [1] 5] copied.2).1 = [.replay (.ok false)] := rfl
  refine ⟨rfl, free, (alike _).symm.trans free, ?_⟩
  have sides : ∀ call ∈ mixed, call.1 = ⟨0⟩ ∨ call.1 = ⟨1⟩ := by decide
  have drawless : ∀ call ∈ mixed, call.2.source? = none := by decide
  have separate : Apart mixed := by
    intro first member _ _ _ counter draws
    rw [drawless first member] at draws
    cases draws
  exact ((apart mixed sides).1 separate).1

end Endpoint

end Oscore
