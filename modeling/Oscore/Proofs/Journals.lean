/-
This file follows what is persisted of a sender over a run at an endpoint. A journal
of the run holds the events that went through the handlers, the numbers that the
sender was restored to, and the numbers that were handed out, in their order. What
is persisted is what the journal announces or restores last. The numbers that were
handed out are less than an interval ahead of it.
-/

import Oscore.Proofs.Persistence
import Oscore.Proofs.ProtectedMessages

namespace Oscore

variable {Handler Application : Type}

/-! ### Journals -/

namespace Operation

variable {behaviour : Behaviour Handler Application} {ref : ContextRef}
  {endpoint : Endpoint Handler Application} {context : SecurityContext} {keying : ResolvedKeying}

/-- The number that an operation hands out, with a nonce or with a message. -/
def handed? (behaviour : Behaviour Handler Application) (ref : ContextRef)
    (endpoint : Endpoint Handler Application) : Operation → Option Nat
  | reserve =>
    (Endpoint.reserve behaviour ref endpoint).1.toOption.map fun reserved => reserved.sequence
  | protect associated plaintext =>
    (Endpoint.protect behaviour ref associated plaintext endpoint).1.toOption.bind fun message =>
      (PartialIv.decode message.partialIv).toOption
  | _ => none

/-- A number that is handed out was taken for it. -/
theorem exists_reservation_of_handed? (observes : behaviour.Observes)
    (hosts : endpoint.Hosts ref context) (sound : context.Sound keying) {operation : Operation}
    {number : Nat} (handed : operation.handed? behaviour ref endpoint = some number) :
    ∃ taken ∈ operation.reservation context, taken.sequence = number := by
  have taken {reserved : SecurityContext.ReservedNonce} (reserves : operation.reserves)
      (answered : context.reserve.answer = .ok reserved) :
      ∃ taken ∈ operation.reservation context, taken.sequence = reserved.sequence := by
    rw [reservation, if_pos reserves, answered]
    exact ⟨_, rfl, rfl⟩
  cases operation with
  | reserve =>
    rw [handed?, Endpoint.reserve, Endpoint.perform_eq, hosts.2] at handed
    obtain ⟨reserved, answered, rfl⟩ := Option.map_eq_some_iff.mp handed
    exact taken rfl (toOption_eq_some.mp answered)
  | protect associated plaintext =>
    rw [handed?, Endpoint.protect_answer observes hosts] at handed
    obtain ⟨message, encrypted, decoded⟩ := Option.bind_eq_some_iff.mp handed
    obtain ⟨reserved, answered, encryption⟩ := bind_eq_ok.mp (toOption_eq_some.mp encrypted)
    obtain ⟨-, -, partialIv⟩ := SecurityContext.encryptReserved_eq_ok.mp encryption
    -- the message carries the partial IV of the number that was taken for it
    have number : PartialIv.decode reserved.partialIv = .ok reserved.sequence := by
      rw [(sound.reserved_eq answered).1]
      exact sound.madeBy_upcoming.decode_eq
    rw [partialIv, number] at decoded
    cases decoded
    exact taken rfl answered
  | _ => cases handed

end Operation

namespace Journal

/-- What a journal holds about the numbers of a sender. -/
inductive Entry
  /-- An event was raised. -/
  | raised (event : Event)
  /-- The sender was restored to a number. -/
  | restored (number : Nat)
  /-- A number was handed out. -/
  | handed (number : Nat)

namespace Entry

/-- The event that was raised. -/
def event? : Entry → Option Event
  | raised event => some event
  | _ => none

/-- The number that a persistent store takes over. -/
def saves? : Entry → Option Nat
  | raised event => event.persisted?
  | restored number => some number
  | handed _ => none

end Entry

/-- The number that a persistent store holds: the one that was announced or restored last, and
zero before there is any. -/
def saved (journal : List Entry) : Nat := (journal.filterMap Entry.saves?).getLast?.getD 0

variable {behaviour : Behaviour Handler Application} {ref : ContextRef}
  {endpoint : Endpoint Handler Application} {context : SecurityContext} {keying : ResolvedKeying}
  {interval : Nat} {operations : List Operation} {journal earlier : List Entry}

/-- The entries of an operation: the events, the number that it restores and the number that it
hands out. -/
def entries (behaviour : Behaviour Handler Application) (ref : ContextRef)
    (endpoint : Endpoint Handler Application) (operation : Operation) (events : List Event) :
    List Entry :=
  events.map .raised ++ (operation.restored? (endpoint.context ref)).toList.map .restored ++
    (operation.handed? behaviour ref endpoint).toList.map .handed

/-- A journal of a run of operations on a context of an endpoint, with the events that each of them
raises. -/
inductive Records (behaviour : Behaviour Handler Application) (ref : ContextRef) :
    Endpoint Handler Application → List Operation → List Entry → Prop
  | nothing {endpoint : Endpoint Handler Application} : Records behaviour ref endpoint [] []
  | operation {endpoint : Endpoint Handler Application} {operation : Operation}
      {rest : List Operation} {events : List Event} {journal : List Entry}
      (raises : endpoint.Raises behaviour ref events (operation.act behaviour ref endpoint).2)
      (records : Records behaviour ref (operation.act behaviour ref endpoint).2 rest journal) :
      Records behaviour ref endpoint (operation :: rest)
        (entries behaviour ref endpoint operation events ++ journal)

theorem saved_append (front back : List Entry) :
    saved (front ++ back) = (back.filterMap Entry.saves?).getLast?.getD (saved front) := by
  rw [saved, saved, List.filterMap_append, List.getLast?_append]
  cases (back.filterMap Entry.saves?).getLast? <;> rfl

theorem filterMap_entries {Value : Type} (read : Entry → Option Value) (operation : Operation)
    (events : List Event) :
    (entries behaviour ref endpoint operation events).filterMap read =
      events.filterMap (fun event => read (.raised event)) ++
        (operation.restored? (endpoint.context ref)).toList.filterMap
          (fun number => read (.restored number)) ++
        (operation.handed? behaviour ref endpoint).toList.filterMap
          (fun number => read (.handed number)) := by
  simp only [entries, List.filterMap_append, List.filterMap_map, Function.comp_def]

theorem saves?_entries (hosts : endpoint.Hosts ref context) (operation : Operation) :
    ((entries behaviour ref endpoint operation
      (operation.events ref context)).filterMap Entry.saves?).getLast? =
        operation.saves? ref context := by
  simp only [filterMap_entries, Entry.saves?, List.filterMap_some, List.filterMap_none,
    List.append_nil]
  rw [hosts.2, List.getLast?_append, Operation.saves?, Operation.announced?]
  cases operation.restored? context <;> rfl

theorem event?_entries (operation : Operation) (events : List Event) :
    (entries behaviour ref endpoint operation events).filterMap Entry.event? = events := by
  simp only [filterMap_entries, Entry.event?, List.filterMap_some, List.filterMap_none,
    List.append_nil]

theorem handed_of_mem_entries {operation : Operation} {events : List Event} {number : Nat}
    (member : .handed number ∈ entries behaviour ref endpoint operation events) :
    operation.handed? behaviour ref endpoint = some number := by
  rw [entries, List.mem_append, List.mem_append] at member
  simpa using member

/-- A journal of a run has the events that a handler notes, in their order. -/
theorem Records.noted {log : Application → List Event} {entry : Nat × Handler}
    (notes : behaviour.Notes log entry.2)
    (alone : (endpoint.channel (endpoint.hosted ref).channel).handlers = [entry])
    (records : Records behaviour ref endpoint operations journal) :
    log (endpoint.after behaviour ref operations).application =
      log endpoint.application ++ journal.filterMap Entry.event? := by
  induction records with
  | nothing => exact (List.append_nil _).symm
  | @operation endpoint operation rest events journal raises _ inductionHypothesis =>
    obtain ⟨noted, still⟩ := raises.noted notes alone
    rw [List.filterMap_append, event?_entries, ← List.append_assoc, ← noted]
    exact inductionHypothesis still

/-- A handler that notes what it is told leaves one journal only. -/
theorem Records.unique {log : Application → List Event} {entry : Nat × Handler}
    (notes : behaviour.Notes log entry.2)
    (alone : (endpoint.channel (endpoint.hosted ref).channel).handlers = [entry])
    (records : Records behaviour ref endpoint operations journal) {other : List Entry}
    (others : Records behaviour ref endpoint operations other) : other = journal := by
  induction records generalizing other with
  | nothing =>
    cases others
    rfl
  | operation raises _ inductionHypothesis =>
    cases others with
    | operation otherRaises otherRecords =>
      obtain ⟨noted, still⟩ := raises.noted notes alone
      obtain ⟨otherNoted, -⟩ := otherRaises.noted notes alone
      have same := List.append_cancel_left (otherNoted.symm.trans noted)
      rw [same, inductionHypothesis still otherRecords]

/-- Where handlers only observe, a run has a journal that keeps covering the sender, and that hands
out only numbers that were taken. -/
theorem exists_records (observes : behaviour.Observes) (hosts : endpoint.Hosts ref context)
    (sound : context.Sound keying) (steady : ∀ operation ∈ operations, operation.steady)
    {taken : List Reservation} (covers : context.Covers (saved earlier) interval taken) :
    ∃ journal, Records behaviour ref endpoint operations journal ∧
      (context.after operations).Covers (saved (earlier ++ journal)) interval
        (taken ++ context.reservations operations) ∧
      ∀ number, .handed number ∈ journal →
        ∃ taken ∈ context.reservations operations, taken.sequence = number := by
  induction operations generalizing endpoint context earlier taken with
  | nil =>
    refine ⟨[], .nothing, ?_, fun _ member => nomatch member⟩
    rw [List.append_nil, SecurityContext.reservations, List.append_nil]
    exact covers
  | cons operation rest inductionHypothesis =>
    obtain ⟨steadyNow, steadyRest⟩ := List.forall_mem_cons.mp steady
    have step := covers.counts (sound.counts steadyNow ref)
    rw [← saves?_entries hosts, ← saved_append] at step
    obtain ⟨journal, records, later, handed⟩ := inductionHypothesis
      (operation.act_hosts observes hosts) (sound.next operation) steadyRest step
    refine ⟨_, .operation (operation.act_raises observes hosts) records, ?_, ?_⟩
    · rw [SecurityContext.reservations, ← List.append_assoc, ← List.append_assoc]
      exact later
    · intro number member
      rw [SecurityContext.reservations]
      rcases List.mem_append.mp member with now | afterwards
      · obtain ⟨taken, reserved, same⟩ :=
          operation.exists_reservation_of_handed? observes hosts sound (handed_of_mem_entries now)
        exact ⟨taken, List.mem_append_left _ (Option.mem_toList.mpr reserved), same⟩
      · obtain ⟨taken, reserved, same⟩ := handed number afterwards
        exact ⟨taken, List.mem_append_right _ reserved, same⟩

/-! ### What persisted numbers bound -/

/-- Where handlers only observe, a run of a sender that starts at zero has a journal. A handler that
notes what it is told, alone on the channel, has its events, and then there is no other journal. At
the end the sender is less than an interval ahead of the number that was announced or restored last,
with no multiple of the interval between them, and so is every number that was handed out, or taken
for a message that could not be encrypted. A sender that starts again and is restored to the number
an interval ahead, which succeeds within its maximum, takes none of these numbers again, whatever is
then done with its context. -/
theorem taken_lt_saved_add_interval (observes : behaviour.Observes)
    (hosts : endpoint.Hosts ref context) (reachable : context.Reachable)
    (fresh : context.sender.sequence = 0) {operations : List Operation}
    (steady : ∀ operation ∈ operations, operation.steady) :
    let last := endpoint.after behaviour ref operations
    let sequence := (last.context ref).sender.sequence
    let interval := context.sender.interval
    ∃ journal, Records behaviour ref endpoint operations journal ∧
      (∀ log entry, behaviour.Notes log entry.2 →
        (endpoint.channel (endpoint.hosted ref).channel).handlers = [entry] →
        log last.application = log endpoint.application ++ journal.filterMap Entry.event? ∧
          ∀ other, Records behaviour ref endpoint operations other → other = journal) ∧
      saved journal ≤ sequence ∧ sequence < saved journal + interval ∧
      (∀ multiple, multiple % interval = 0 → multiple ≤ sequence → multiple ≤ saved journal) ∧
      (∀ number, .handed number ∈ journal →
        ∃ taken ∈ context.reservations operations, taken.sequence = number) ∧
      (∀ taken ∈ context.reservations operations, taken.sequence < saved journal + interval) ∧
      ∀ restarted : SecurityContext, restarted.Reachable → restarted.sender.sequence = 0 →
        saved journal + interval ≤ restarted.sender.maximum →
        (∃ entity, restarted.sender.restore (saved journal + interval) = .ok entity) ∧
        ∀ more, ∀ later ∈ restarted.reservations
            (.adjust restarted.senderPlace (.restore (saved journal + interval)) :: more),
          later.generation = restarted.formerSenders.length →
          ∀ taken ∈ context.reservations operations, taken.sequence < later.sequence := by
  intro last sequence interval
  obtain ⟨keying, sound⟩ := reachable.sound
  have start : context.Covers (saved []) interval [] := SecurityContext.covers_of_fresh fresh
  obtain ⟨journal, records, covers, handed⟩ := exists_records observes hosts sound steady start
  have same : sequence = (context.after operations).sender.sequence :=
    congrArg (fun context => context.sender.sequence)
      (Endpoint.after_hosts observes hosts operations).2
  rw [List.nil_append, List.nil_append] at covers
  have within := covers.lt sound.bounded.interval_pos
  have takenWithin : ∀ taken ∈ context.reservations operations,
      taken.sequence < saved journal + interval :=
    fun taken member => Nat.lt_trans (covers.taken_lt taken member) within
  rw [same]
  refine ⟨journal, records, ?_, covers.saved_le, within, covers.le_saved, handed, takenWithin, ?_⟩
  · intro log entry notes alone
    exact ⟨records.noted notes alone, fun other others => records.unique notes alone others⟩
  · intro restarted restartable start left
    obtain ⟨_, restartedSound⟩ := restartable.sound
    refine ⟨⟨_, if_neg (by omega)⟩, ?_⟩
    intro more later member generation taken before
    exact Nat.lt_of_lt_of_le (takenWithin taken before)
      (restartedSound.le_of_restored (by omega) left member generation)

/-- A handler that keeps every event. -/
def keeper : Behaviour Unit (List Event) := fun _ event endpoint =>
  (event, { endpoint with application := endpoint.application ++ [event] })

theorem keeper_observes : keeper.Observes := fun _ _ _ _ _ hosts => hosts

theorem keeper_notes : keeper.Notes (fun events => events) () := fun _ _ => ⟨_, rfl, rfl⟩

/-- An endpoint with one context, and the keeper alone on its channel. -/
def keeping (context : SecurityContext) : Endpoint Unit (List Event) where
  channels := [{ handlers := [(0, ())], issued := 1 }]
  contexts := [{ context, channel := ⟨0⟩ }]
  application := []

theorem keeping_hosts (context : SecurityContext) : (keeping context).Hosts ⟨0⟩ context :=
  ⟨Nat.zero_lt_one, rfl⟩

/-- A sender that goes on from a number takes that number for a message and the next one for a
nonce, and asks to persist what comes after them where its interval divides it. -/
theorem run_of_restored (sound : context.Sound keying) (ref : ContextRef) {value : Nat}
    (ahead : context.sender.sequence ≤ value) (left : value + 1 < context.sender.maximum)
    {associated plaintext : Bytes} {operations : List Operation}
    (given : operations = [.adjust context.senderPlace (.restore value),
      .protect associated plaintext, .reserve]) :
    let announced := fun number => if number % context.sender.interval = 0 then
      [context.sender.persistEvent context.groupId number] else []
    context.events ref operations = announced (value + 1) ++ announced (value + 2) ∧
      (context.after operations).sender.sequence = value + 2 ∧
      ∃ taken ∈ context.reservations operations, taken.sequence = value := by
  intro announced
  have restored := SecurityContext.next_restore ahead (by omega)
  have first := sound.next (.adjust context.senderPlace (.restore value))
  rw [restored] at first
  have firstReserves : (Operation.protect associated plaintext).reserves := rfl
  have firstLeft : value < context.sender.maximum := by omega
  obtain ⟨firstNext, firstEvents⟩ := first.events_of_reserves firstReserves ref rfl firstLeft
  have second := first.next (.protect associated plaintext)
  rw [firstNext] at second
  have secondReserves : Operation.reserve.reserves := rfl
  obtain ⟨secondNext, secondEvents⟩ := second.events_of_reserves secondReserves ref rfl left
  subst given
  refine ⟨?_, ?_, ?_⟩
  · rw [SecurityContext.events, restored, SecurityContext.events, firstNext,
      SecurityContext.events, firstEvents, secondEvents]
    exact congrArg (announced (value + 1) ++ ·) (List.append_nil _)
  · rw [SecurityContext.after, List.foldl_cons, List.foldl_cons, List.foldl_cons, restored,
      firstNext, secondNext]
    rfl
  · have taken := Option.mem_toList.mpr
      (first.reservation_eq_some.mpr ⟨firstReserves, firstLeft, rfl⟩)
    rw [SecurityContext.reservations, restored, SecurityContext.reservations]
    exact ⟨_, List.mem_append_right _ (List.mem_append_left _ taken), rfl⟩

/-- A sender with an interval of four that goes on from six. The keeper is told to persist eight,
and this is the number that the journal holds last. -/
theorem taken_lt_saved_add_interval_restored : ∃ context,
    SecurityContext.derive { secret := [1], limits := { maximum := 900, interval := 4 } } [] [1] 1 =
      .ok context ∧
    ∃ operations last journal, operations =
        [Operation.adjust (.sender 0) (.restore 6), .protect [] [2], .reserve] ∧
      last = (keeping context).after keeper ⟨0⟩ operations ∧
      last.application = [{ code := .persist, keyId := some [], sequence := some 8 }] ∧
      (last.context ⟨0⟩).sender.sequence = 8 ∧
      Records keeper ⟨0⟩ (keeping context) operations journal ∧
      last.application = journal.filterMap Entry.event? ∧ saved journal = 8 ∧
      (∃ taken ∈ context.reservations operations, taken.sequence = 6) ∧
      (∀ number, .handed number ∈ journal → number < 8 + 4) ∧
      ∃ entity, context.sender.restore (8 + 4) = .ok entity := by
  let limits : Limits := { maximum := 900, interval := 4 }
  have known : Keying.resolve { secret := [1], limits } =
      .ok ⟨[1], [], none, .aesCcm8, .sha256, limits⟩ := rfl
  obtain ⟨context, derived, id, start, maximum, interval, place, group⟩ : ∃ context,
      SecurityContext.derive { secret := [1], limits } [] [1] 1 = .ok context ∧
        context.sender.id = [] ∧ context.sender.sequence = 0 ∧ context.sender.maximum = 900 ∧
        context.sender.interval = 4 ∧ context.senderPlace = .sender 0 ∧ context.groupId = none :=
    ⟨_, SecurityContext.derive_eq_ok.mpr ⟨_, known, by decide, by decide, rfl⟩, rfl, rfl, rfl, rfl,
      rfl, rfl⟩
  obtain ⟨operations, given⟩ : ∃ operations,
      operations = [Operation.adjust (.sender 0) (.restore 6), .protect [] [2], .reserve] :=
    ⟨_, rfl⟩
  have hosts := keeping_hosts context
  obtain ⟨keying, sound⟩ := SecurityContext.sound_of_derive derived
  -- six is taken first, and after seven is taken the sender asks to persist eight
  have listed := given
  rw [← place] at listed
  obtain ⟨announced, counted, taken⟩ := run_of_restored sound ⟨0⟩ (by omega) (by omega) listed
  have events : context.events ⟨0⟩ operations =
      [{ code := .persist, keyId := some [], sequence := some 8 }] := by
    rw [announced, interval]
    show [context.sender.persistEvent context.groupId 8] = _
    rw [Entity.persistEvent, id, group]
  have raises := Endpoint.after_raises keeper_observes hosts operations
  obtain ⟨kept, -⟩ := raises.noted keeper_notes rfl
  rw [events] at kept
  rw [← (Endpoint.after_hosts keeper_observes hosts operations).2] at counted
  have steady : ∀ operation ∈ operations, operation.steady := by
    rw [given]
    decide
  obtain ⟨journal, records, noted, below, -, multiples, handed, within, restart⟩ :=
    taken_lt_saved_add_interval keeper_observes hosts (.derive derived) start steady
  rw [counted] at below multiples
  have eight : saved journal = 8 :=
    Nat.le_antisymm below (multiples 8 (by rw [interval]) (Nat.le_refl 8))
  rw [eight, interval] at within restart
  obtain ⟨goesOn, -⟩ := restart context (.derive derived) start (by omega)
  refine ⟨context, derived, operations, _, journal, given, rfl, kept, counted, records,
    (noted _ _ keeper_notes rfl).1, eight, taken, ?_, goesOn⟩
  intro number member
  obtain ⟨taken, reserved, rfl⟩ := handed number member
  exact within taken reserved

end Journal

end Oscore
