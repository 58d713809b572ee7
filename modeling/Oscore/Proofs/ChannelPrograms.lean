/-
This file shows what channels do when handlers use them meanwhile. A program may
register and remove handlers and raise events, and so may the handlers that it
runs, on the same channel and as deep as they like. What happens on the channel is
noted as it happens, by the program and by the handlers themselves, which changes
nothing of what they do. The history that they leave obeys the law of histories.
-/

import Oscore.Proofs.ChannelHistory
import Oscore.Proofs.LawfulActions

namespace Oscore

variable {Handler Application Answer : Type}

/-! ### Noting what happens -/

/-- The state of an application, and what was noted of a channel. -/
structure Kept (Handler Application : Type) where
  application : Application
  history : List (Occurrence Handler)

namespace Endpoint

/-- The endpoint without what was noted. -/
def forget (endpoint : Endpoint Handler (Kept Handler Application)) :
    Endpoint Handler Application :=
  { endpoint with application := endpoint.application.application }

/-- The endpoint with a history. -/
def keeping (history : List (Occurrence Handler)) (endpoint : Endpoint Handler Application) :
    Endpoint Handler (Kept Handler Application) :=
  { endpoint with application := { application := endpoint.application, history } }

/-- What was noted. -/
def history (endpoint : Endpoint Handler (Kept Handler Application)) :
    List (Occurrence Handler) :=
  endpoint.application.history

/-- Notes what happens. -/
def note (occurrence : Occurrence Handler) : Action Handler (Kept Handler Application) Unit :=
  modify fun endpoint => endpoint.forget.keeping (endpoint.history ++ [occurrence])

/-- Registers a handler and notes it. -/
def subscribeNoted (ref : ChannelRef) (handler : Handler) :
    Action Handler (Kept Handler Application) Nat := do
  let number ← subscribe ref handler
  note (.subscribed number handler)
  return number

/-- Removes the handler of a number and notes it. -/
def unsubscribeNoted (ref : ChannelRef) (number : Nat) :
    Action Handler (Kept Handler Application) Bool := do
  let answer ← unsubscribe ref number
  note (.unsubscribed number answer)
  return answer

/-- Handlers that note what a raise hands them and what they give back. -/
def attend (place : Nat) (behaviour : Behaviour Handler (Kept Handler Application)) :
    Behaviour Handler (Kept Handler Application) := fun handler event => do
  note (.handed place handler event)
  let answer ← behaviour handler event
  note (.returned place answer)
  return answer

/-- Raises an event and notes it, with all that its handlers get and give back. -/
def raiseNoted (behaviour : Behaviour Handler (Kept Handler Application)) (ref : ChannelRef)
    (event : Event) : Action Handler (Kept Handler Application) Event := do
  let place := (← get).history.length
  note (.started event)
  let answer ← raise (attend place behaviour) ref event
  note (.finished place answer)
  return answer

/-- Acts on the endpoint and notes nothing. -/
def beside (action : Action Handler Application Answer) :
    Action Handler (Kept Handler Application) Answer := fun endpoint =>
  let (answer, after) := action endpoint.forget
  (answer, after.keeping endpoint.history)

/-- The programs that use a channel, each with the one that notes what it does. Whoever has the
reference of a channel uses the same channel. A raise takes the behaviour of its handlers, which use
the channel in turn. -/
inductive Noted (ref : ChannelRef) : {Answer : Type} → Action Handler Application Answer →
    Action Handler (Kept Handler Application) Answer → Prop
  /-- It does nothing. -/
  | pure {Answer : Type} (answer : Answer) : Noted ref (pure answer) (pure answer)
  /-- It does one thing after another. -/
  | bind {Answer Other : Type} {first : Action Handler Application Answer}
      {firstNoted : Action Handler (Kept Handler Application) Answer}
      {next : Answer → Action Handler Application Other}
      {nextNoted : Answer → Action Handler (Kept Handler Application) Other}
      (now : Noted ref first firstNoted)
      (rest : ∀ answer, Noted ref (next answer) (nextNoted answer)) :
      Noted ref (first >>= next) (firstNoted >>= nextNoted)
  /-- It registers a handler. -/
  | subscribe (handler : Handler) : Noted ref (subscribe ref handler) (subscribeNoted ref handler)
  /-- It removes a handler. -/
  | unsubscribe (number : Nat) : Noted ref (unsubscribe ref number) (unsubscribeNoted ref number)
  /-- It raises an event. -/
  | raise {behaviour : Behaviour Handler Application}
      {noted : Behaviour Handler (Kept Handler Application)}
      (each : ∀ handler event, Noted ref (behaviour handler event) (noted handler event))
      (event : Event) : Noted ref (raise behaviour ref event) (raiseNoted noted ref event)
  /-- It does anything else that leaves the channel alone. -/
  | beside {Answer : Type} {action : Action Handler Application Answer}
      (leaves : ∀ endpoint, (action endpoint).2.channels[ref.index]? =
        endpoint.channels[ref.index]?) :
      Noted ref action (beside action)

variable {ref : ChannelRef} {behaviour : Behaviour Handler Application}
  {noted : Behaviour Handler (Kept Handler Application)}
  {before after later endpoint : Endpoint Handler (Kept Handler Application)}
  {first second : List (Occurrence Handler)} {outer : Option Nat}

theorem foldlM_forget {place : Nat}
    (each : ∀ handler event endpoint,
      ((noted handler event endpoint).1, (noted handler event endpoint).2.forget) =
        behaviour handler event endpoint.forget)
    (entries : List (Nat × Handler)) (event : Event)
    (endpoint : Endpoint Handler (Kept Handler Application)) :
    let passed := entries.foldlM (fun event entry => attend place noted entry.2 event) event
      endpoint
    (passed.1, passed.2.forget) =
      entries.foldlM (fun event entry => behaviour entry.2 event) event endpoint.forget := by
  induction entries generalizing event endpoint with
  | nil => rfl
  | cons entry rest inductionHypothesis =>
    rw [List.foldlM_cons, List.foldlM_cons, Action.bind_apply, Action.bind_apply]
    have handled := each entry.2 event (note (.handed place entry.2 event) endpoint).2
    have same : ((note (.handed place entry.2 event) endpoint).2).forget = endpoint.forget := rfl
    rw [same] at handled
    rw [← handled]
    exact inductionHypothesis _ _

/-- Noting changes nothing of what a program does. -/
theorem Noted.forget {plain : Action Handler Application Answer}
    {program : Action Handler (Kept Handler Application) Answer} (pair : Noted ref plain program)
    (endpoint : Endpoint Handler (Kept Handler Application)) :
    ((program endpoint).1, (program endpoint).2.forget) = plain endpoint.forget := by
  induction pair generalizing endpoint with
  | pure answer => rfl
  | bind _ _ now next =>
    rw [Action.bind_apply, Action.bind_apply, ← now, next]
  | subscribe handler => rfl
  | unsubscribe number => rfl
  | raise _ event each => exact foldlM_forget each _ event _
  | beside _ => rfl

/-! ### What programs add to a history -/

/-- An endpoint on which a channel is as its history says. -/
structure Agrees (ref : ChannelRef) (endpoint : Endpoint Handler (Kept Handler Application)) :
    Prop where
  there : ref.index < endpoint.channels.length
  handlers_eq : (endpoint.channel ref).handlers = Channel.standing endpoint.history
  numbers_eq : Channel.numbers endpoint.history = List.range (endpoint.channel ref).issued

/-- What a program adds to a history, while a raise may be going on. -/
structure Extends (ref : ChannelRef) (outer : Option Nat)
    (before after : Endpoint Handler (Kept Handler Application))
    (more : List (Occurrence Handler)) : Prop where
  history_eq : after.history = before.history ++ more
  agrees : after.Agrees ref
  coherent : Channel.Coherent before.history more
  /-- It adds steps of the raise that is going on, and of raises that it started. -/
  places : ∀ step ∈ more, ∀ place, step.place? = some place →
    place ∈ outer ∨ before.history.length ≤ place

theorem Extends.trans (now : Extends ref outer before after first)
    (next : Extends ref outer after later second)
    (earlier : ∀ place ∈ outer, place < before.history.length) :
    Extends ref outer before later (first ++ second) where
  history_eq := by rw [next.history_eq, now.history_eq, List.append_assoc]
  agrees := next.agrees
  coherent := by
    have goesOn := next.coherent
    rw [now.history_eq] at goesOn
    refine now.coherent.append goesOn fun step member place same => ?_
    rw [← now.history_eq]
    exact (next.places step member place same).imp_left (earlier place)
  places step member place same := by
    rcases List.mem_append.mp member with early | late
    · exact now.places step early place same
    · refine (next.places step late place same).imp_right fun after => ?_
      rw [now.history_eq, List.length_append] at after
      exact Nat.le_of_add_right_le after

theorem Extends.begun (stands : Extends ref outer before after more) {place : Nat}
    (begun : Channel.Begun before.history place) : Channel.Begun after.history place := by
  rw [stands.history_eq]
  exact begun.append more

theorem Extends.within (stands : Extends ref none before after more) :
    Extends ref outer before after more :=
  { stands with
    places := fun step member place same =>
      .inr ((stands.places step member place same).resolve_left (Option.not_mem_none place)) }

theorem Agrees.next {occurrence : Occurrence Handler} (agrees : before.Agrees ref)
    (noted : after.history = before.history ++ [occurrence])
    (there : ref.index < after.channels.length)
    (handlers : (after.channel ref).handlers = occurrence.amend (before.channel ref).handlers)
    (issued : List.range (after.channel ref).issued =
      List.range (before.channel ref).issued ++ occurrence.number?.toList) : after.Agrees ref where
  there := there
  handlers_eq := by rw [handlers, noted, Channel.standing_concat, agrees.handlers_eq]
  numbers_eq := by rw [noted, Channel.numbers_concat, agrees.numbers_eq, issued]

theorem Agrees.note (agrees : endpoint.Agrees ref) {occurrence : Occurrence Handler}
    (quiet : ∀ entries, occurrence.amend entries = entries)
    (unnumbered : occurrence.number? = none) : (note occurrence endpoint).2.Agrees ref := by
  refine agrees.next rfl agrees.there (quiet _).symm ?_
  rw [unnumbered]
  exact (List.append_nil _).symm

/-- One step of the raise that is going on. -/
theorem note_extends (agrees : endpoint.Agrees ref) {step : Occurrence Handler} {place : Nat}
    (begun : Channel.Begun endpoint.history place) (ofRaise : step.place? = some place) :
    Extends ref (some place) endpoint (note step endpoint).2 [step] where
  history_eq := rfl
  agrees := by
    cases step <;> cases ofRaise <;> exact agrees.note (fun _ => rfl) rfl
  coherent := by
    refine ⟨?_, trivial⟩
    cases step <;> cases ofRaise <;> exact begun
  places other member otherPlace same := by
    rw [List.mem_singleton.mp member] at same
    exact .inl (ofRaise.symm.trans same)

theorem channel_setChannel (there : ref.index < endpoint.channels.length)
    (channel : Channel Handler) : (endpoint.setChannel ref channel).channel ref = channel := by
  rw [Endpoint.channel, setChannel, List.getD_eq_getElem?_getD, List.getElem?_set_self there,
    Option.getD_some]

theorem subscribe_extends (agrees : endpoint.Agrees ref) (handler : Handler) :
    Extends ref none endpoint (subscribeNoted ref handler endpoint).2
      [.subscribed (endpoint.channel ref).issued handler] where
  history_eq := rfl
  agrees := by
    have changed : (subscribeNoted ref handler endpoint).2.channel ref =
        ((endpoint.channel ref).subscribe handler).2 := channel_setChannel agrees.there _
    refine agrees.next rfl (Nat.lt_of_lt_of_eq agrees.there List.length_set.symm) ?_ ?_
    · rw [changed]
      rfl
    · rw [changed]
      exact List.range_succ
  coherent := ⟨trivial, trivial⟩
  places _ member _ same := by
    rw [List.mem_singleton.mp member] at same
    cases same

theorem unsubscribe_answer_iff (agrees : endpoint.Agrees ref) (number : Nat) :
    (unsubscribe ref number endpoint).1 = true ↔
      ∃ handler, (number, handler) ∈ Channel.standing endpoint.history := by
  rw [← agrees.handlers_eq]
  show decide (((endpoint.channel ref).handlers.filter _).length ≠ _) = true ↔ _
  rw [decide_eq_true_iff, ne_eq, List.length_filter_eq_length_iff]
  constructor
  · refine fun removed => Classical.byContradiction fun absent => removed fun entry member => ?_
    refine decide_eq_true fun same => absent ⟨entry.2, ?_⟩
    rw [← same]
    exact member
  · rintro ⟨handler, member⟩ kept
    exact of_decide_eq_true (kept _ member) rfl

theorem unsubscribe_extends (agrees : endpoint.Agrees ref) (number : Nat) :
    Extends ref none endpoint (unsubscribeNoted ref number endpoint).2
      [.unsubscribed number (unsubscribe ref number endpoint).1] where
  history_eq := rfl
  agrees := by
    have changed : (unsubscribeNoted ref number endpoint).2.channel ref =
        ((endpoint.channel ref).unsubscribe number).2 := channel_setChannel agrees.there _
    refine agrees.next rfl (Nat.lt_of_lt_of_eq agrees.there List.length_set.symm) ?_ ?_
    · rw [changed]
      rfl
    · rw [changed]
      exact (List.append_nil _).symm
  coherent := ⟨unsubscribe_answer_iff agrees number, trivial⟩
  places _ member _ same := by
    rw [List.mem_singleton.mp member] at same
    cases same

theorem beside_extends (agrees : endpoint.Agrees ref) {action : Action Handler Application Answer}
    (leaves : ∀ endpoint, (action endpoint).2.channels[ref.index]? =
      endpoint.channels[ref.index]?) :
    Extends ref none endpoint (beside action endpoint).2 [] where
  history_eq := (List.append_nil _).symm
  agrees := by
    have same : (beside action endpoint).2.channels[ref.index]? =
        endpoint.channels[ref.index]? := leaves endpoint.forget
    have sameChannel : (beside action endpoint).2.channel ref = endpoint.channel ref := by
      rw [Endpoint.channel, List.getD_eq_getElem?_getD, same, ← List.getD_eq_getElem?_getD]
      rfl
    refine ⟨?_, by rw [sameChannel]; exact agrees.handlers_eq,
      by rw [sameChannel]; exact agrees.numbers_eq⟩
    exact (List.getElem?_eq_some_iff.mp (same.trans (List.getElem?_eq_getElem agrees.there))).1
  coherent := trivial
  places _ member := nomatch member

section Raise

variable {place : Nat}
  (each : ∀ handler event (endpoint : Endpoint Handler (Kept Handler Application)),
    endpoint.Agrees ref → ∃ more, Extends ref none endpoint (noted handler event endpoint).2 more)

include each

/-- A raise hands an event to one handler. What the handler does meanwhile is no step of it. -/
theorem attend_extends (handler : Handler) (event : Event) (agrees : endpoint.Agrees ref)
    (begun : Channel.Begun endpoint.history place) :
    ∃ more, Extends ref (some place) endpoint (attend place noted handler event endpoint).2 more ∧
      Channel.steps place more = [.handed place handler event,
        .returned place (attend place noted handler event endpoint).1] := by
  have handed := note_extends agrees begun
    (rfl : (Occurrence.handed place handler event).place? = _)
  obtain ⟨inner, handles⟩ := each handler event _ handed.agrees
  have begunThen := handed.begun begun
  have returned := note_extends handles.agrees (handles.begun begunThen)
    (rfl : (Occurrence.returned place (attend place noted handler event endpoint).1).place? = _)
  refine ⟨_, handed.trans (handles.within.trans returned ?_) ?_, ?_⟩
  · rintro _ ⟨⟩
    exact begunThen.lt_length
  · rintro _ ⟨⟩
    exact begun.lt_length
  · have apart : Channel.steps place inner = [] := by
      refine Channel.steps_eq_nil fun step member same => ?_
      rcases handles.places step member place same with outside | after
      · cases outside
      · exact Nat.lt_irrefl _ (Nat.lt_of_lt_of_le begunThen.lt_length after)
    rw [Channel.steps_append, Channel.steps_append, apart, List.nil_append,
      Channel.steps_singleton rfl, Channel.steps_singleton rfl]
    rfl

/-- The handlers of a raise get the event one after another. -/
theorem foldlM_extends (entries : List (Nat × Handler)) (event : Event)
    (agrees : endpoint.Agrees ref) (begun : Channel.Begun endpoint.history place) :
    let passed := entries.foldlM (fun event entry => attend place noted entry.2 event) event
      endpoint
    ∃ more calls, Extends ref (some place) endpoint passed.2 more ∧
      calls.map Prod.fst = entries.map Prod.snd ∧
      Channel.steps place more ++ [.finished place passed.1] =
        Channel.passage place event calls := by
  -- the entries are given: what handlers register and remove meanwhile does not change them
  induction entries generalizing event endpoint with
  | nil =>
    refine ⟨[], [], ⟨(List.append_nil _).symm, agrees, trivial, ?_⟩, rfl, rfl⟩
    exact fun _ member => nomatch member
  | cons entry rest inductionHypothesis =>
    obtain ⟨now, handles, taken⟩ := attend_extends each entry.2 event agrees begun
    obtain ⟨more, calls, goesOn, handlers, passes⟩ := inductionHypothesis
      (attend place noted entry.2 event endpoint).1 handles.agrees (handles.begun begun)
    refine ⟨now ++ more, (entry.2, (attend place noted entry.2 event endpoint).1) :: calls,
      handles.trans goesOn ?_, ?_, ?_⟩
    · rintro _ ⟨⟩
      exact begun.lt_length
    · rw [List.map_cons, List.map_cons, handlers]
    · rw [Channel.steps_append, taken, Channel.passage, ← passes]
      rfl

/-- A raise goes through the handlers that its channel has when it starts. -/
theorem raise_extends (event : Event) (agrees : endpoint.Agrees ref) :
    ∃ more, Extends ref none endpoint (raiseNoted noted ref event endpoint).2 more := by
  have starts : (note (.started event) endpoint).2.Agrees ref := agrees.note (fun _ => rfl) rfl
  have begun : Channel.Begun (note (.started event) endpoint).2.history endpoint.history.length :=
    ⟨event, List.getElem?_concat_length⟩
  obtain ⟨more, calls, passes, handlers, taken⟩ :=
    foldlM_extends each (endpoint.channel ref).handlers event starts begun
  have finishes := note_extends passes.agrees (passes.begun begun)
    (rfl : (Occurrence.finished endpoint.history.length
      (raiseNoted noted ref event endpoint).1).place? = _)
  have runs := passes.trans finishes (by
    rintro _ ⟨⟩
    exact begun.lt_length)
  refine ⟨.started event :: (more ++ [_]), ?_, runs.agrees, ⟨⟨calls, ?_, ?_⟩, runs.coherent⟩, ?_⟩
  · exact runs.history_eq.trans (List.append_assoc _ [_] _)
  · rw [handlers, agrees.handlers_eq]
  · rw [← taken, Channel.steps_append, Channel.steps_singleton rfl]
    rfl
  · intro step member place same
    rcases List.mem_cons.mp member with rfl | member
    · cases same
    · refine .inr ?_
      rcases runs.places step member place same with own | after
      · cases own
        exact Nat.le_refl _
      · exact Nat.le_of_lt (Nat.lt_of_lt_of_le begun.lt_length after)

end Raise

theorem Noted.extends {plain : Action Handler Application Answer}
    {program : Action Handler (Kept Handler Application) Answer} (pair : Noted ref plain program)
    (agrees : endpoint.Agrees ref) :
    ∃ more, Extends ref none endpoint (program endpoint).2 more := by
  induction pair generalizing endpoint with
  | pure answer =>
    exact ⟨[], (List.append_nil _).symm, agrees, trivial, fun _ member => nomatch member⟩
  | bind _ _ now next =>
    obtain ⟨first, stands⟩ := now agrees
    obtain ⟨second, goesOn⟩ := next _ stands.agrees
    exact ⟨first ++ second, stands.trans goesOn fun _ member => nomatch member⟩
  | subscribe handler => exact ⟨_, subscribe_extends agrees handler⟩
  | unsubscribe number => exact ⟨_, unsubscribe_extends agrees number⟩
  | raise _ event each =>
    exact raise_extends (fun handler event _ agrees => each handler event agrees) event agrees
  | beside leaves => exact ⟨[], beside_extends agrees leaves⟩

/-- From a channel that is new, whatever programs and handlers do with it, what happens on it obeys
the law of its history, and it is left with the handlers that stand. -/
theorem history_obeys {endpoint : Endpoint Handler Application}
    (fresh : endpoint.channels[ref.index]? = some {}) {plain : Action Handler Application Answer}
    {program : Action Handler (Kept Handler Application) Answer} (pair : Noted ref plain program) :
    let run := program (endpoint.keeping [])
    (run.1, run.2.forget) = plain endpoint ∧ Channel.Obeys run.2.history ∧
      ((plain endpoint).2.channel ref).handlers = Channel.standing run.2.history := by
  intro run
  have agrees : (endpoint.keeping []).Agrees ref := by
    have empty : (endpoint.keeping []).channel ref = {} := by
      show endpoint.channels.getD ref.index {} = {}
      rw [List.getD_eq_getElem?_getD, fresh, Option.getD_some]
    refine ⟨(List.getElem?_eq_some_iff.mp fresh).choose, ?_, ?_⟩
    · rw [empty]
      rfl
    · rw [empty]
      rfl
  obtain ⟨more, stands⟩ := pair.extends agrees
  have unchanged : (run.1, run.2.forget) = plain endpoint := pair.forget (endpoint.keeping [])
  have whole : run.2.history = more := stands.history_eq
  refine ⟨unchanged, ?_, ?_⟩
  · refine Channel.Coherent.obeys (whole ▸ stands.coherent) ?_
    rw [stands.agrees.numbers_eq]
    exact List.nodup_range
  · rw [← unchanged]
    exact stands.agrees.handlers_eq

/-- A handler removes itself, registers another and raises an event while it is asked. The inner
raise goes through the handlers that stand by then, and the outer one through those from before. -/
theorem history_obeys_nested :
    let outer : Event := { code := .exhaustion }
    let inner : Event := { code := .persist }
    let quiet : Behaviour UInt8 Unit := fun status event =>
      return { event with status := some status }
    let busy : Behaviour UInt8 Unit := fun status event =>
      if status = 0 then do
        let _ ← unsubscribe ⟨0⟩ 0
        let _ ← subscribe ⟨0⟩ 0x85
        raise quiet ⟨0⟩ inner
      else quiet status event
    let plain : Action UInt8 Unit Bool := do
      let _ ← subscribe ⟨0⟩ 0
      let _ ← subscribe ⟨0⟩ 0x84
      let _ ← raise busy ⟨0⟩ outer
      unsubscribe ⟨0⟩ 0
    let endpoint : Endpoint UInt8 Unit := { channels := [{}], application := () }
    ∃ program, Noted ⟨0⟩ plain program ∧
      Channel.Obeys (program (endpoint.keeping [])).2.history ∧
      (program (endpoint.keeping [])).2.history = [
        .subscribed 0 0, .subscribed 1 0x84, .started outer, .handed 2 0 outer,
        .unsubscribed 0 true, .subscribed 2 0x85, .started inner, .handed 6 0x84 inner,
        .returned 6 { inner with status := some 0x84 },
        .handed 6 0x85 { inner with status := some 0x84 },
        .returned 6 { inner with status := some 0x85 },
        .finished 6 { inner with status := some 0x85 },
        .returned 2 { inner with status := some 0x85 },
        .handed 2 0x84 { inner with status := some 0x85 },
        .returned 2 { inner with status := some 0x84 },
        .finished 2 { inner with status := some 0x84 }, .unsubscribed 0 false] := by
  intro outer inner quiet busy plain endpoint
  let quietNoted : Behaviour UInt8 (Kept UInt8 Unit) := fun status event =>
    return { event with status := some status }
  let busyNoted : Behaviour UInt8 (Kept UInt8 Unit) := fun status event =>
    if status = 0 then do
      let _ ← unsubscribeNoted ⟨0⟩ 0
      let _ ← subscribeNoted ⟨0⟩ 0x85
      raiseNoted quietNoted ⟨0⟩ inner
    else quietNoted status event
  let program : Action UInt8 (Kept UInt8 Unit) Bool := do
    let _ ← subscribeNoted ⟨0⟩ 0
    let _ ← subscribeNoted ⟨0⟩ 0x84
    let _ ← raiseNoted busyNoted ⟨0⟩ outer
    unsubscribeNoted ⟨0⟩ 0
  have quietPair : ∀ status event, Noted ⟨0⟩ (quiet status event) (quietNoted status event) :=
    fun _ _ => .pure _
  have busyPair : ∀ status event, Noted ⟨0⟩ (busy status event) (busyNoted status event) := by
    intro status event
    by_cases asked : status = 0
    · simp only [busy, busyNoted, if_pos asked]
      exact .bind (.unsubscribe 0) fun _ => .bind (.subscribe 0x85) fun _ => .raise quietPair inner
    · simp only [busy, busyNoted, if_neg asked]
      exact quietPair status event
  have pair : Noted ⟨0⟩ plain program :=
    .bind (.subscribe 0) fun _ => .bind (.subscribe 0x84) fun _ =>
      .bind (.raise busyPair outer) fun _ => .unsubscribe 0
  have fresh : endpoint.channels[0]? = some ({} : Channel UInt8) := rfl
  exact ⟨program, pair, (history_obeys fresh pair).2.1, by decide +kernel⟩

end Endpoint

end Oscore
