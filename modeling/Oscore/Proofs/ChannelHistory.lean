/-
This file says which histories a channel may have. A history is all that happens on
a channel, in its order, with what happens while a raise goes on inside of it. In a
lawful history every number stands for one handler until it is removed, and a raise
goes through the handlers that stand when it starts, once each and in their order.
The law is local: it asks of everything that it fits what came before and after.
-/


import Oscore.Event

namespace Oscore

variable {Handler : Type}

/-! ### Histories of a channel -/

/-- Something that happens on a channel. A raise is known by the place of its start in the
history. -/
inductive Occurrence (Handler : Type)
  /-- A handler is registered and gets a number. -/
  | subscribed (number : Nat) (handler : Handler)
  /-- The handler of a number is removed. The answer says whether there was one. -/
  | unsubscribed (number : Nat) (answer : Bool)
  /-- An event is raised. -/
  | started (event : Event)
  /-- A raise hands an event to a handler. -/
  | handed (place : Nat) (handler : Handler) (event : Event)
  /-- The handler gives an event back to the raise. -/
  | returned (place : Nat) (event : Event)
  /-- A raise is done and answers with an event. -/
  | finished (place : Nat) (event : Event)
  deriving DecidableEq, Repr

namespace Occurrence

/-- The raise of which this is a step. -/
def place? : Occurrence Handler → Option Nat
  | handed place _ _ | returned place _ | finished place _ => some place
  | _ => none

/-- The number that this gives out. -/
def number? : Occurrence Handler → Option Nat
  | subscribed number _ => some number
  | _ => none

/-- Whether this removes a number. -/
def removes (number : Nat) : Occurrence Handler → Bool
  | unsubscribed other _ => other = number
  | _ => false

/-- What this makes of the handlers that stand. -/
def amend (entries : List (Nat × Handler)) : Occurrence Handler → List (Nat × Handler)
  | subscribed number handler => entries ++ [(number, handler)]
  | unsubscribed number _ => entries.filter fun entry => entry.1 ≠ number
  | _ => entries

end Occurrence

namespace Channel

variable {history more : List (Occurrence Handler)} {occurrence : Occurrence Handler}
  {number : Nat} {handler : Handler}

/-- The numbers that were given out. -/
def numbers (history : List (Occurrence Handler)) : List Nat :=
  history.filterMap Occurrence.number?

theorem numbers_concat (history : List (Occurrence Handler)) (occurrence : Occurrence Handler) :
    numbers (history ++ [occurrence]) = numbers history ++ occurrence.number?.toList := by
  rw [numbers, List.filterMap_append]
  cases occurrence <;> rfl

/-- The handlers that stand after a history: those that were registered and not removed later, in
the order of their registration. -/
def standing : List (Occurrence Handler) → List (Nat × Handler)
  | [] => []
  | .subscribed number handler :: later =>
    if later.any (Occurrence.removes number) then standing later
    else (number, handler) :: standing later
  | _ :: later => standing later

theorem standing_concat (history : List (Occurrence Handler)) (occurrence : Occurrence Handler) :
    standing (history ++ [occurrence]) = occurrence.amend (standing history) := by
  induction history with
  | nil => cases occurrence <;> rfl
  | cons first later inductionHypothesis =>
    rw [List.cons_append]
    cases first with
    | subscribed number handler =>
      rw [standing, standing, inductionHypothesis, List.any_append]
      -- the first handler is one that was removed before, or one that the last step may remove
      by_cases removed : later.any (Occurrence.removes number)
      · rw [if_pos removed, if_pos (by rw [removed, Bool.true_or])]
      · rw [if_neg removed, Bool.eq_false_iff.mpr removed]
        cases occurrence with
        | unsubscribed other answer =>
          by_cases same : number = other <;>
            simp [Occurrence.amend, Occurrence.removes, same, eq_comm]
        | _ => rfl
    | _ => exact inductionHypothesis

theorem any_removes_eq_false :
    history.any (Occurrence.removes number) = false ↔
      ∀ answer, .unsubscribed number answer ∉ history := by
  rw [List.any_eq_false]
  constructor
  · intro kept answer member
    exact kept _ member (decide_eq_true rfl)
  · intro kept occurrence member removes
    cases occurrence with
    | unsubscribed other answer =>
      cases of_decide_eq_true removes
      exact kept answer member
    | _ => cases removes

theorem exists_split_cons {Element : Type} {first chosen : Element} {later : List Element}
    {law : List Element → Prop} :
    (∃ front back, first :: later = front ++ chosen :: back ∧ law back) ↔
      first = chosen ∧ law later ∨ ∃ front back, later = front ++ chosen :: back ∧ law back := by
  constructor
  · rintro ⟨front, back, split, holds⟩
    cases front with
    | nil =>
      cases split
      exact .inl ⟨rfl, holds⟩
    | cons _ rest =>
      cases split
      exact .inr ⟨rest, back, rfl, holds⟩
  · rintro (⟨rfl, holds⟩ | ⟨front, back, rfl, holds⟩)
    · exact ⟨[], later, rfl, holds⟩
    · exact ⟨first :: front, back, rfl, holds⟩

/-- A handler stands when it was registered and its number was not removed since. -/
theorem mem_standing_iff :
    (number, handler) ∈ standing history ↔ ∃ earlier since,
      history = earlier ++ .subscribed number handler :: since ∧
        ∀ answer, .unsubscribed number answer ∉ since := by
  induction history with
  | nil => simp [standing]
  | cons first later inductionHypothesis =>
    rw [exists_split_cons, ← inductionHypothesis]
    cases first with
    | subscribed other otherHandler =>
      rw [standing, Occurrence.subscribed.injEq, ← any_removes_eq_false]
      by_cases removed : later.any (Occurrence.removes other)
      · rw [if_pos removed, iff_or_self]
        rintro ⟨⟨rfl, -⟩, kept⟩
        cases kept.symm.trans removed
      · rw [if_neg removed, List.mem_cons, Prod.mk.injEq, eq_comm, @eq_comm _ handler]
        refine or_congr_left (Iff.symm (and_iff_left_of_imp ?_))
        rintro ⟨rfl, -⟩
        exact Bool.eq_false_iff.mpr removed
    | _ => exact (or_iff_right fun both => nomatch both.1).symm

theorem standing_sublist (history : List (Occurrence Handler)) :
    ((standing history).map Prod.fst).Sublist (numbers history) := by
  induction history with
  | nil => exact .slnil
  | cons first later inductionHypothesis =>
    cases first with
    | subscribed number handler =>
      rw [standing]
      split
      · exact inductionHypothesis.cons number
      · exact inductionHypothesis.cons_cons number
    | _ => exact inductionHypothesis

/-! ### The law of a history -/

/-- The steps of a raise in a history. -/
def steps (place : Nat) (history : List (Occurrence Handler)) : List (Occurrence Handler) :=
  history.filter fun occurrence => occurrence.place? = some place

theorem steps_append (place : Nat) (first second : List (Occurrence Handler)) :
    steps place (first ++ second) = steps place first ++ steps place second :=
  List.filter_append _ _

theorem steps_singleton {place : Nat} (own : occurrence.place? = some place) :
    steps place [occurrence] = [occurrence] :=
  List.filter_cons_of_pos (decide_eq_true own)

theorem steps_eq_nil {place : Nat} (apart : ∀ step ∈ more, step.place? ≠ some place) :
    steps place more = [] := by
  rw [steps, List.filter_eq_nil_iff]
  intro step member
  rw [decide_eq_true_iff]
  exact apart step member

/-- How a raise takes its event through handlers: each handler gets what the one before gave
back, and the last gives the answer. Without handlers the event is the answer. -/
def passage (place : Nat) (event : Event) : List (Handler × Event) → List (Occurrence Handler)
  | [] => [.finished place event]
  | (handler, answer) :: rest =>
    .handed place handler event :: .returned place answer :: passage place answer rest

/-- A raise that starts after a history takes its later steps through the handlers that stand. -/
def Passes (history : List (Occurrence Handler)) (event : Event)
    (later : List (Occurrence Handler)) : Prop :=
  ∃ calls : List (Handler × Event), calls.map Prod.fst = (standing history).map Prod.snd ∧
    steps history.length later = passage history.length event calls

/-- A raise started at a place. -/
def Begun (history : List (Occurrence Handler)) (place : Nat) : Prop :=
  ∃ event, history[place]? = some (.started event)

theorem Begun.lt_length {place : Nat} (begun : Begun history place) : place < history.length :=
  (List.getElem?_eq_some_iff.mp begun.choose_spec).1

theorem Begun.append {place : Nat} (begun : Begun history place)
    (more : List (Occurrence Handler)) : Begun (history ++ more) place := by
  have inside := begun.lt_length
  obtain ⟨event, there⟩ := begun
  exact ⟨event, by rw [List.getElem?_append_left inside, there]⟩

/-- What happens on a channel fits what happened before and what happens later. -/
def Fits (history : List (Occurrence Handler)) :
    Occurrence Handler → List (Occurrence Handler) → Prop
  | .subscribed _ _, _ => True
  | .unsubscribed number answer, _ =>
    answer = true ↔ ∃ handler, (number, handler) ∈ standing history
  | .started event, later => Passes history event later
  | .handed place _ _, _ | .returned place _, _ | .finished place _, _ => Begun history place

/-- All that happens after a history fits. -/
def Coherent : List (Occurrence Handler) → List (Occurrence Handler) → Prop
  | _, [] => True
  | history, occurrence :: later =>
    Fits history occurrence later ∧ Coherent (history ++ [occurrence]) later

theorem Fits.append {later : List (Occurrence Handler)} (fits : Fits history occurrence later)
    (apart : ∀ step ∈ more, step.place? ≠ some history.length) :
    Fits history occurrence (later ++ more) := by
  cases occurrence with
  | started event =>
    obtain ⟨calls, handlers, taken⟩ := fits
    exact ⟨calls, handlers, by rw [steps_append, steps_eq_nil apart, List.append_nil, taken]⟩
  | _ => exact fits

/-- Histories go on coherently, if no raise of the first part has steps in the second. -/
theorem Coherent.append {first second : List (Occurrence Handler)}
    (coherent : Coherent history first) (goesOn : Coherent (history ++ first) second)
    (apart : ∀ step ∈ second, ∀ place, step.place? = some place →
      place < history.length ∨ (history ++ first).length ≤ place) :
    Coherent history (first ++ second) := by
  induction first generalizing history with
  | nil =>
    rw [List.append_nil] at goesOn
    exact goesOn
  | cons occurrence later inductionHypothesis =>
    obtain ⟨fits, coherent⟩ := coherent
    have regroup : history ++ occurrence :: later = history ++ [occurrence] ++ later := by
      rw [List.append_assoc, List.singleton_append]
    -- a raise is known by the length of what came before it, and no later step has that place
    refine ⟨fits.append ?_, inductionHypothesis coherent (regroup ▸ goesOn) ?_⟩
    · intro step member same
      rcases apart step member _ same with before | after
      · exact Nat.lt_irrefl _ before
      · rw [List.length_append, List.length_cons] at after
        omega
    · intro step member place same
      rw [← regroup, List.length_append, List.length_singleton]
      rcases apart step member place same with before | after
      · exact .inl (Nat.lt_succ_of_lt before)
      · exact .inr after

theorem Coherent.fits (coherent : Coherent history more)
    {front back : List (Occurrence Handler)} (split : more = front ++ occurrence :: back) :
    Fits (history ++ front) occurrence back := by
  induction front generalizing history more with
  | nil =>
    subst split
    rw [List.append_nil]
    exact coherent.1
  | cons first rest inductionHypothesis =>
    subst split
    rw [← List.singleton_append, ← List.append_assoc]
    exact inductionHypothesis coherent.2 rfl

/-- What a history says about the numbers and the raises in it. -/
structure Obeys (history : List (Occurrence Handler)) : Prop where
  /-- No number is given out twice. -/
  nodup : (numbers history).Nodup
  /-- A number is removed exactly when it was given out and not removed since. -/
  answer_iff : ∀ {front number answer back},
    history = front ++ .unsubscribed number answer :: back →
      (answer = true ↔ ∃ earlier handler since,
        front = earlier ++ .subscribed number handler :: since ∧
          ∀ other, .unsubscribed number other ∉ since)
  /-- The handler of the number goes, and no other. -/
  removes : ∀ {front number answer back},
    history = front ++ .unsubscribed number answer :: back →
      (answer = true → ∃ before handler after,
        standing front = before ++ (number, handler) :: after ∧
          standing (front ++ [.unsubscribed number answer]) = before ++ after) ∧
      (answer = false → standing (front ++ [.unsubscribed number answer]) = standing front)
  /-- A raise goes through the handlers that stand at its start, whatever happens meanwhile. -/
  passes : ∀ {front event back}, history = front ++ .started event :: back →
    Passes front event back
  /-- Whatever is handed to a handler is a step of a raise that started before. -/
  begun : ∀ {front step back place}, history = front ++ step :: back →
    step.place? = some place → Begun front place

theorem standing_unsubscribe (distinct : (numbers history).Nodup) {before after}
    (split : standing history = before ++ (number, handler) :: after) (answer : Bool) :
    standing (history ++ [.unsubscribed number answer]) = before ++ after := by
  have nodup := distinct.sublist (standing_sublist history)
  rw [split, List.map_append, List.map_cons, List.perm_middle.nodup_iff, List.nodup_cons,
    List.mem_append] at nodup
  have others : ∀ entries : List (Nat × Handler), number ∉ entries.map Prod.fst →
      (entries.filter fun entry => entry.1 ≠ number) = entries := by
    intro entries absent
    rw [List.filter_eq_self]
    intro entry member
    refine decide_eq_true fun same => absent ?_
    rw [← same]
    exact List.mem_map_of_mem member
  rw [standing_concat, split, Occurrence.amend, List.filter_append,
    others before fun member => nodup.1 (.inl member), List.filter_cons_of_neg (by simp),
    others after fun member => nodup.1 (.inr member)]

theorem Coherent.obeys (coherent : Coherent [] history)
    (distinct : (numbers history).Nodup) : Obeys history where
  nodup := distinct
  answer_iff split := by
    refine (coherent.fits split).trans ?_
    simp only [List.nil_append, mem_standing_iff]
    exact ⟨fun ⟨handler, earlier, since, found⟩ => ⟨earlier, handler, since, found⟩,
      fun ⟨earlier, handler, since, found⟩ => ⟨handler, earlier, since, found⟩⟩
  removes {front number answer back} split := by
    have fits : answer = true ↔ ∃ handler, (number, handler) ∈ standing front :=
      coherent.fits split
    constructor
    · intro removed
      obtain ⟨handler, member⟩ := fits.mp removed
      obtain ⟨before, after, standingSplit⟩ := List.append_of_mem member
      refine ⟨before, handler, after, standingSplit, standing_unsubscribe ?_ standingSplit answer⟩
      rw [split, numbers, List.filterMap_append] at distinct
      exact distinct.sublist (List.sublist_append_left _ _)
    · rintro rfl
      rw [standing_concat, Occurrence.amend, List.filter_eq_self]
      rintro ⟨other, handler⟩ member
      refine decide_eq_true fun same => ?_
      cases same
      exact Bool.false_ne_true (fits.mpr ⟨handler, member⟩)
  passes split := coherent.fits split
  begun {front step back place} split ofRaise := by
    have fits := coherent.fits split
    cases step <;> cases ofRaise <;> exact fits

end Channel

end Oscore
