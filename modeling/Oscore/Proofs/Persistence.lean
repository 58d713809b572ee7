/-
This file says what the persisted sequence number of a sender is good for. A
context tells its handlers a number to persist whenever the next number is a
multiple of the interval, and before it answers. So no multiple lies between the
number that was persisted last and the number that is next, and the two are less
than an interval apart, also when the sender was restored to a number that is no
multiple. A sender that goes on an interval after the persisted number therefore
takes none of the numbers again that were taken before.
-/

import Oscore.Proofs.ReservationRuns

namespace Oscore

/-! ### Numbers to persist -/

/-- The sequence number that an event asks to persist. -/
def Event.persisted? (event : Event) : Option Nat :=
  if event.code = .persist then event.sequence else none

namespace Operation

/-- The number that the events of an operation ask to persist, the last one if there are more. -/
def announced? (ref : ContextRef) (context : SecurityContext) (operation : Operation) :
    Option Nat :=
  ((operation.events ref context).filterMap Event.persisted?).getLast?

/-- The number that the sender goes on from, if an operation restores it. -/
def restored? (context : SecurityContext) : Operation → Option Nat
  | adjust place (.restore value) =>
    if place = context.senderPlace then
      (context.sender.restore value).toOption.map fun entity => entity.sequence
    else none
  | _ => none

/-- The number that an operation brings a persistent store, if it brings a new one. -/
def saves? (ref : ContextRef) (context : SecurityContext) (operation : Operation) : Option Nat :=
  (operation.restored? context).or (operation.announced? ref context)

/-- Whether an operation leaves the sender and its interval in place and takes no number without
telling. -/
def steady : Operation → Bool
  | replaceSender _ _ => false
  | adjust (.sender _) .advance => false
  | adjust (.sender _) (.setInterval _) => false
  | _ => true

end Operation

/-! ### What one operation does to the sequence number -/

namespace SecurityContext

variable {context later : SecurityContext} {keying : ResolvedKeying}

/-- What a steady operation does to the sender's number: it takes it, and asks to persist the
next one if that is a multiple of the interval; or it restores a later one; or nothing. -/
inductive Counts (context later : SecurityContext) : (saved : Option Nat) →
    (taken : Option Reservation) → Prop
  | takes {taken : Reservation} (number : taken.sequence = context.sender.sequence)
      (sequence_eq : later.sender.sequence = context.sender.sequence + 1)
      (interval_eq : later.sender.interval = context.sender.interval) :
      Counts context later
        (if (context.sender.sequence + 1) % context.sender.interval = 0 then
          some (context.sender.sequence + 1) else none) (some taken)
  | restores (forward : context.sender.sequence ≤ later.sender.sequence)
      (interval_eq : later.sender.interval = context.sender.interval) :
      Counts context later (some later.sender.sequence) none
  | still (sequence_eq : later.sender.sequence = context.sender.sequence)
      (interval_eq : later.sender.interval = context.sender.interval) :
      Counts context later none none

theorem Counts.of_sender (same : later.sender = context.sender) :
    Counts context later none none :=
  .still (congrArg Entity.sequence same) (congrArg Entity.interval same)

/-- An operation that takes a number asks to persist the next one if that is a multiple of the
interval. -/
theorem Sound.events_of_reserves (sound : context.Sound keying) {operation : Operation}
    (reserves : operation.reserves) (ref : ContextRef)
    (notices : operation.notices context = context.reserve.notices)
    (left : context.sender.sequence < context.sender.maximum) :
    operation.next context = { context with
        sender := { context.sender with sequence := context.sender.sequence + 1 } } ∧
      operation.events ref context =
        if (context.sender.sequence + 1) % context.sender.interval = 0 then
          [context.sender.persistEvent context.groupId (context.sender.sequence + 1)] else [] := by
  rw [Operation.events, notices, Operation.next_of_reserves reserves,
    sound.reserve_eq_of_left left]
  refine ⟨rfl, ?_⟩
  split <;> rfl

theorem Sound.counts_of_reserves (sound : context.Sound keying) {operation : Operation}
    (reserves : operation.reserves) (ref : ContextRef)
    (notices : operation.notices context = context.reserve.notices)
    (restores : operation.restored? context = none) :
    Counts context (operation.next context) (operation.saves? ref context)
      (operation.reservation context) := by
  rw [Operation.saves?, restores, Option.none_or, Operation.announced?]
  by_cases left : context.sender.sequence < context.sender.maximum
  · obtain ⟨next, events⟩ := sound.events_of_reserves reserves ref notices left
    have announced : ((operation.events ref context).filterMap Event.persisted?).getLast? =
        if (context.sender.sequence + 1) % context.sender.interval = 0 then
          some (context.sender.sequence + 1) else none := by
      rw [events]
      split <;> rfl
    rw [announced, next, sound.reservation_eq_some.mpr ⟨reserves, left, rfl⟩]
    exact .takes rfl rfl rfl
  · have exhausted : context.sender.exhausted := by
      rw [Entity.exhausted, decide_eq_true_eq]
      exact Nat.not_lt.mp left
    have untaken : operation.reservation context = none := by
      rw [Option.eq_none_iff_forall_not_mem]
      exact fun taken member => left (sound.reservation_eq_some.mp member).2.1
    rw [untaken, Operation.events, notices, Operation.next_of_reserves reserves, sound.reserve_eq,
      if_pos exhausted]
    exact .of_sender rfl

/-! ### Accepting leaves the sender alone -/

/-- An outcome with another recipient at most, which asks to persist nothing. -/
def Accepts {Answer : Type} (context : SecurityContext) (outcome : Outcome Answer) : Prop :=
  outcome.context.sender = context.sender ∧
    ∀ notice ∈ outcome.notices, ∃ id sequence, notice = .windowMoved id sequence

theorem accepts_silent {Answer : Type} {answer : Except Refusal Answer} {later : SecurityContext}
    (same : later.sender = context.sender) : context.Accepts ⟨answer, later, []⟩ := by
  refine ⟨same, ?_⟩
  intro notice member
  cases member

theorem accepts_acceptFrom (context : SecurityContext) (entity : Entity) (sequence : Nat) :
    context.Accepts (context.acceptFrom entity sequence) := by
  rw [acceptFrom]
  split
  · exact accepts_silent rfl
  · rename_i moved _ _
    refine ⟨rfl, ?_⟩
    intro notice member
    cases moved with
    | false => cases member
    | true => exact ⟨_, _, List.mem_singleton.mp member⟩

theorem accepts_record (context : SecurityContext) (id : Bytes) (sequence : Nat) :
    context.Accepts (context.record id sequence) := by
  rcases context.record_cases id sequence with ⟨_, refused⟩ | ⟨entity, -, accepts⟩
  · rw [refused]
    exact accepts_silent rfl
  · rw [accepts]
    exact context.accepts_acceptFrom entity sequence

theorem accepts_unprotect (context : SecurityContext)
    (id partialIv associated ciphertext : Bytes) :
    context.Accepts (context.unprotect id partialIv associated ciphertext) := by
  rcases context.unprotect_cases id partialIv associated ciphertext with
    ⟨_, refused⟩ | ⟨entity, sequence, _, -, accepts⟩
  · rw [refused]
    exact accepts_silent rfl
  · rw [accepts]
    exact context.accepts_acceptFrom entity sequence

theorem Accepts.announced?_eq {Answer : Type} {outcome : Outcome Answer}
    (accepts : context.Accepts outcome) {operation : Operation} (ref : ContextRef)
    (notices : operation.notices context = outcome.notices) :
    operation.announced? ref context = none := by
  have silent : (operation.events ref context).filterMap Event.persisted? = [] := by
    rw [Operation.events, notices]
    refine List.filterMap_eq_nil_iff.mpr (List.forall_mem_map.mpr ?_)
    intro notice member
    obtain ⟨_, _, rfl⟩ := accepts.2 notice member
    rfl
  rw [Operation.announced?, silent]
  rfl

/-! ### Using handles -/

theorem sender_adjust_of_ne {place : Place} (elsewhere : place ≠ context.senderPlace)
    (adjustment : Adjustment) :
    ((Operation.adjust place adjustment).next context).sender = context.sender := by
  rw [Operation.next]
  split
  · cases place with
    | sender generation =>
      have former : generation ≠ context.formerSenders.length :=
        fun same => elsewhere (congrArg Place.sender same)
      rw [setEntity, if_neg former]
    | recipient id => rfl
  · rfl

theorem next_adjust_sender (context : SecurityContext) (adjustment : Adjustment) :
    (Operation.adjust context.senderPlace adjustment).next context =
      { context with sender := adjustment.result context.sender } := by
  rw [Operation.next, entity?_senderPlace]
  dsimp only
  rw [setEntity_senderPlace]

theorem next_restore {value : Nat} (ahead : context.sender.sequence ≤ value)
    (left : value ≤ context.sender.maximum) :
    (Operation.adjust context.senderPlace (.restore value)).next context =
      { context with sender := { context.sender with sequence := value } } := by
  have restored : context.sender.restore value = .ok { context.sender with sequence := value } :=
    if_neg (by omega)
  rw [next_adjust_sender, Adjustment.result, Adjustment.apply, restored]
  rfl

/-- Restoring a sender's number moves it forward, to the number that was stored, or is refused. -/
theorem counts_restore (ref : ContextRef) (value : Nat) :
    Counts context ((Operation.adjust context.senderPlace (.restore value)).next context)
      ((Operation.adjust context.senderPlace (.restore value)).saves? ref context) none := by
  have restores : (Operation.adjust context.senderPlace (.restore value)).restored? context =
      (context.sender.restore value).toOption.map fun entity => entity.sequence :=
    if_pos rfl
  have saved : (Operation.adjust context.senderPlace (.restore value)).saves? ref context =
      (context.sender.restore value).toOption.map fun entity => entity.sequence := by
    rw [Operation.saves?, restores]
    exact Option.or_none
  have sender := congrArg sender (context.next_adjust_sender (.restore value))
  rw [Adjustment.result, Adjustment.apply] at sender
  rw [saved]
  cases restored : context.sender.restore value with
  | error refusal =>
    rw [restored] at sender
    exact .of_sender sender
  | ok entity =>
    rw [restored] at sender
    obtain ⟨inside, equal⟩ := refuse_eq_ok.mp restored
    cases equal
    rw [not_or, Nat.not_lt, Nat.not_lt] at inside
    have counts := @Counts.restores context
      ((Operation.adjust context.senderPlace (.restore value)).next context)
    rw [sender] at counts
    exact counts inside.1 rfl

theorem counts_adjust {place : Place} {adjustment : Adjustment}
    (steady : (Operation.adjust place adjustment).steady) (ref : ContextRef) :
    Counts context ((Operation.adjust place adjustment).next context)
      ((Operation.adjust place adjustment).saves? ref context) none := by
  by_cases current : place = context.senderPlace
  · subst current
    have sender := congrArg sender (context.next_adjust_sender adjustment)
    -- the sequence number stays as it is, unless it is restored
    have still (sequence : (adjustment.result context.sender).sequence = context.sender.sequence)
        (interval : (adjustment.result context.sender).interval = context.sender.interval) :
        Counts context ((Operation.adjust context.senderPlace adjustment).next context) none
          none :=
      .still (by rw [sender]; exact sequence) (by rw [sender]; exact interval)
    cases adjustment with
    | advance => cases steady
    | restore value => exact counts_restore ref value
    | setMaximum maximum =>
      rw [Adjustment.result, Adjustment.apply, Entity.setMaximum] at still
      split at still
      · exact still rfl rfl
      · exact still rfl rfl
    | setInterval interval => cases steady
    | setSigningKey key => exact still rfl rfl
    | mark sequence => exact still rfl rfl
    | reset base => exact still rfl rfl
    | replaceWindow window =>
      rw [Adjustment.result, Adjustment.apply] at still
      split at still
      · exact still rfl rfl
      · exact still rfl rfl
    | renew => exact still rfl rfl
  · have unsaved : (Operation.adjust place adjustment).saves? ref context = none := by
      cases adjustment with
      | restore value =>
        rw [Operation.saves?, Operation.restored?, if_neg current]
        rfl
      | _ => rfl
    rw [unsaved]
    exact .of_sender (sender_adjust_of_ne current adjustment)

/-! ### One operation -/

/-- What a steady operation does to the sender's number. -/
theorem Sound.counts (sound : context.Sound keying) {operation : Operation}
    (steady : operation.steady) (ref : ContextRef) :
    Counts context (operation.next context) (operation.saves? ref context)
      (operation.reservation context) := by
  cases operation with
  | reserve => exact sound.counts_of_reserves rfl ref rfl rfl
  | protect associated plaintext => exact sound.counts_of_reserves rfl ref rfl rfl
  | unprotect id partialIv associated ciphertext =>
    have accepts := context.accepts_unprotect id partialIv associated ciphertext
    rw [Operation.saves?, accepts.announced?_eq ref rfl]
    exact .of_sender accepts.1
  | record id sequence =>
    have accepts := context.accepts_record id sequence
    rw [Operation.saves?, accepts.announced?_eq ref rfl]
    exact .of_sender accepts.1
  | isReplay id sequence => exact .of_sender rfl
  | addRecipient id key =>
    refine .of_sender ?_
    rw [Operation.next]
    cases added : context.addRecipient id key with
    | error refusal => rfl
    | ok larger =>
      obtain ⟨-, -, _, -, -, rfl⟩ := addRecipient_eq_ok.mp added
      rfl
  | replaceSender id key => cases steady
  | adjust place adjustment => exact counts_adjust steady ref

/-! ### What is known of the persisted number -/

/-- The persisted number is not ahead, no multiple of the interval lies between it and the next
number, and no number that was taken comes again. -/
structure Covers (context : SecurityContext) (saved interval : Nat) (taken : List Reservation) :
    Prop where
  interval_eq : context.sender.interval = interval
  saved_le : saved ≤ context.sender.sequence
  le_saved : ∀ multiple, multiple % interval = 0 → multiple ≤ context.sender.sequence →
    multiple ≤ saved
  taken_lt : ∀ reservation ∈ taken, reservation.sequence < context.sender.sequence

variable {saved interval : Nat} {taken : List Reservation}

theorem covers_of_fresh (fresh : context.sender.sequence = 0) :
    context.Covers 0 context.sender.interval [] where
  interval_eq := rfl
  saved_le := Nat.zero_le _
  le_saved _ _ reached := by rwa [fresh] at reached
  taken_lt _ member := nomatch member

/-- The next number is less than an interval ahead of the persisted one. -/
theorem Covers.lt (covers : context.Covers saved interval taken) (positive : 0 < interval) :
    context.sender.sequence < saved + interval := by
  have split := Nat.div_add_mod context.sender.sequence interval
  have rest := Nat.mod_lt context.sender.sequence positive
  have reached : interval * (context.sender.sequence / interval) ≤ saved :=
    covers.le_saved _ (Nat.mul_mod_right _ _) (by omega)
  omega

theorem Covers.counts (covers : context.Covers saved interval taken) {next : Option Nat}
    {now : Option Reservation} (counts : Counts context later next now) :
    later.Covers (next.getD saved) interval (taken ++ now.toList) := by
  have rate := covers.interval_eq
  have below := covers.saved_le
  cases counts with
  | @takes reservation number sequence_eq interval_eq =>
    refine ⟨interval_eq.trans rate, ?_, ?_, ?_⟩
    · rw [sequence_eq]
      split
      · exact Nat.le_refl _
      · exact Nat.le_succ_of_le below
    · intro multiple divides reached
      rw [sequence_eq] at reached
      split
      · exact reached
      · rename_i between
        rw [rate] at between
        -- the number taken is no multiple itself, so nothing new is reached
        rcases Nat.le_succ_iff.mp reached with before | rfl
        · exact covers.le_saved multiple divides before
        · exact absurd divides between
    · intro other member
      rw [sequence_eq]
      rcases List.mem_append.mp member with old | new
      · exact Nat.lt_succ_of_lt (covers.taken_lt other old)
      · cases List.mem_singleton.mp new
        rw [number]
        exact Nat.lt_succ_self _
  | restores forward interval_eq =>
    refine ⟨interval_eq.trans rate, Nat.le_refl _, fun _ _ reached => reached, ?_⟩
    intro other member
    rw [Option.toList_none, List.append_nil] at member
    exact Nat.lt_of_lt_of_le (covers.taken_lt other member) forward
  | still sequence_eq interval_eq =>
    refine ⟨interval_eq.trans rate, ?_, ?_, ?_⟩ <;> rw [sequence_eq]
    · exact below
    · exact covers.le_saved
    · rw [Option.toList_none, List.append_nil]
      exact covers.taken_lt

/-- A sender that is restored takes no number below the one that it goes on from. -/
theorem Sound.le_of_restored (sound : context.Sound keying) {value : Nat}
    (ahead : context.sender.sequence ≤ value) (left : value ≤ context.sender.maximum)
    {operations : List Operation} {later : Reservation}
    (member : later ∈ context.reservations
      (.adjust context.senderPlace (.restore value) :: operations))
    (same : later.generation = context.formerSenders.length) : value ≤ later.sequence := by
  have next := next_restore ahead left
  have goesOn := sound.next (.adjust context.senderPlace (.restore value))
  rw [reservations] at member
  rw [next] at goesOn member
  rcases goesOn.upto_of_mem_reservations member with earlier | ⟨-, -, notBelow⟩
  · exact absurd same (Nat.ne_of_gt earlier)
  · exact notBelow

end SecurityContext

end Oscore
