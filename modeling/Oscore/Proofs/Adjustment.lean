/-
This file says what handles can do to an entity. Whatever is done through a
handle, the entity keeps its identifier, its key and its IV, never takes its
sequence number back and stays in its limits. Only three adjustments can take
numbers out of its window.
-/

import Oscore.Proofs.Derivation
import Oscore.Proofs.WindowMemory

namespace Oscore

/-! ### What handles do to entities -/

/-- What is done to an entity through its handle. -/
inductive Adjustment
  /-- Takes a sequence number without using it. -/
  | advance
  /-- Goes on from a persisted sequence number. -/
  | restore (value : Nat)
  /-- Changes the maximum. -/
  | setMaximum (maximum : Nat)
  /-- Changes the interval. -/
  | setInterval (interval : Nat)
  /-- Gives the entity another signing key. -/
  | setSigningKey (key : SigningKey)
  /-- Marks a number in the window, whether it was accepted before or not. -/
  | mark (sequence : Nat)
  /-- Empties the window and moves it. -/
  | reset (base : Nat)
  /-- Puts another window, which covers something, in the place of the window. -/
  | replaceWindow (window : ReplayWindow)
  /-- Puts the duplicate of the entity in its place. -/
  | renew
  deriving DecidableEq, Repr

namespace Adjustment

/-- The entity after an adjustment, which may be refused. -/
def apply (entity : Entity) : Adjustment → Except Refusal Entity
  | advance => entity.advance.map Prod.snd
  | restore value => entity.restore value
  | setMaximum maximum => entity.setMaximum maximum
  | setInterval interval => entity.setInterval interval
  | setSigningKey key => .ok { entity with signingKey := some key }
  | mark sequence =>
    .ok { entity with window := entity.window.map fun window => (window.accept sequence).2 }
  | reset base => .ok { entity with window := entity.window.map fun window => window.reset base }
  | replaceWindow window =>
    if window.size = 0 then .error (.bound 0 wordCeiling)
    else .ok { entity with window := entity.window.map fun _ => window }
  | renew => .ok entity.duplicate

/-- The entity that an adjustment leaves; a refused one leaves it as it was. -/
def result (entity : Entity) (adjustment : Adjustment) : Entity :=
  (adjustment.apply entity).toOption.getD entity

/-- Whether an adjustment takes numbers out of the window. -/
def forgets : Adjustment → Bool
  | reset _ | replaceWindow _ | renew => true
  | _ => false

end Adjustment

namespace Entity

/-- The limits that every entity stays in. -/
structure Bounded (entity : Entity) : Prop where
  sequence_le : entity.sequence ≤ entity.maximum
  maximum_le : entity.maximum ≤ sequenceCeiling
  interval_pos : 0 < entity.interval

theorem Bounded.sequence_le_ceiling {entity : Entity} (bounded : entity.Bounded) :
    entity.sequence ≤ sequenceCeiling :=
  Nat.le_trans bounded.sequence_le bounded.maximum_le

/-- An entity with a window that covers something. -/
def Guarded (entity : Entity) : Prop :=
  ∃ window, entity.window = some window ∧ 0 < window.size

/-- What stays the same of an entity, and what only grows. -/
structure Evolves (before after : Entity) : Prop where
  id_eq : after.id = before.id
  key_eq : after.key = before.key
  baseIv_eq : after.baseIv = before.baseIv
  sequence_le : before.sequence ≤ after.sequence
  bounded : before.Bounded → after.Bounded
  guarded : before.Guarded → after.Guarded

theorem Evolves.refl (entity : Entity) : entity.Evolves entity :=
  ⟨rfl, rfl, rfl, Nat.le_refl _, fun bounded => bounded, fun guarded => guarded⟩

theorem Evolves.trans {before after later : Entity} (first : before.Evolves after)
    (second : after.Evolves later) : before.Evolves later where
  id_eq := second.id_eq.trans first.id_eq
  key_eq := second.key_eq.trans first.key_eq
  baseIv_eq := second.baseIv_eq.trans first.baseIv_eq
  sequence_le := Nat.le_trans first.sequence_le second.sequence_le
  bounded bounded := second.bounded (first.bounded bounded)
  guarded guarded := second.guarded (first.guarded guarded)

theorem advance_eq_ok {entity next : Entity} {persist : Bool} :
    entity.advance = .ok (persist, next) ↔
      entity.sequence < entity.maximum ∧
        persist = decide ((entity.sequence + 1) % entity.interval = 0) ∧
        next = { entity with sequence := entity.sequence + 1 } := by
  rw [advance, refuse_eq_ok]
  simp only [exhausted, decide_eq_true_eq, Nat.not_le, Except.ok.injEq, Prod.mk.injEq]
  simp only [eq_comm]

theorem accept_eq_ok {entity next : Entity} {sequence : Nat} {moved : Bool} :
    entity.accept sequence = .ok (moved, next) ↔
      entity.isReplay sequence = false ∧
        (entity.window = none ∧ moved = false ∧ next = entity ∨
          ∃ window, entity.window = some window ∧ moved = (window.accept sequence).1 ∧
            next = { entity with window := some (window.accept sequence).2 }) := by
  rw [accept, isReplay]
  cases entity.window with
  | none =>
    simp only [Except.ok.injEq, Prod.mk.injEq, reduceCtorEq, false_and, exists_false, or_false,
      true_and]
    simp only [eq_comm]
  | some window =>
    simp only [refuse_eq_ok, Bool.not_eq_true, Except.ok.injEq, Prod.mk.injEq, reduceCtorEq,
      false_and, false_or, Option.some.injEq, exists_eq_left']
    simp only [eq_comm]

theorem advance_evolves {entity next : Entity} {persist : Bool}
    (advanced : entity.advance = .ok (persist, next)) :
    entity.Evolves next ∧ entity.Remembers next := by
  obtain ⟨left, -, rfl⟩ := advance_eq_ok.mp advanced
  refine ⟨⟨rfl, rfl, rfl, Nat.le_succ _, ?_, fun guarded => guarded⟩, .of_window_eq rfl⟩
  intro bounded
  exact ⟨left, bounded.maximum_le, bounded.interval_pos⟩

/-- A change of the window changes nothing else. -/
theorem evolves_of_window {entity : Entity} {change : ReplayWindow → ReplayWindow}
    (covers : ∀ window, 0 < window.size → 0 < (change window).size) :
    entity.Evolves { entity with window := entity.window.map change } where
  id_eq := rfl
  key_eq := rfl
  baseIv_eq := rfl
  sequence_le := Nat.le_refl _
  bounded bounded := ⟨bounded.sequence_le, bounded.maximum_le, bounded.interval_pos⟩
  guarded := by
    rintro ⟨window, found, positive⟩
    exact ⟨change window, by rw [found]; rfl, covers window positive⟩

theorem mark_evolves (entity : Entity) (sequence : Nat) :
    entity.Evolves
        { entity with window := entity.window.map fun window => (window.accept sequence).2 } ∧
      entity.Remembers
        { entity with window := entity.window.map fun window => (window.accept sequence).2 } := by
  constructor
  · refine evolves_of_window ?_
    intro window positive
    rw [window.size_accept]
    exact positive
  · exact .of_window rfl
      fun _ _ contained => ReplayWindow.contains_accept_of_contains contained sequence

theorem accept_evolves {entity next : Entity} {sequence : Nat} {moved : Bool}
    (accepted : entity.accept sequence = .ok (moved, next)) :
    entity.Evolves next ∧ entity.Remembers next := by
  obtain ⟨-, ⟨-, -, rfl⟩ | ⟨window, found, -, rfl⟩⟩ := accept_eq_ok.mp accepted
  · exact ⟨.refl _, .of_window_eq rfl⟩
  · have marked := entity.mark_evolves sequence
    rw [found] at marked
    exact marked

/-- Whatever a handle does, the entity stays the same identity, and unless the window goes, its
numbers stay in it. -/
theorem apply_evolves {entity next : Entity} {adjustment : Adjustment}
    (applied : adjustment.apply entity = .ok next) :
    entity.Evolves next ∧ (¬adjustment.forgets → entity.Remembers next) := by
  cases adjustment with
  | advance =>
    obtain ⟨⟨persist, next⟩, advanced, rfl⟩ := map_eq_ok.mp applied
    obtain ⟨evolves, remembers⟩ := advance_evolves advanced
    exact ⟨evolves, fun _ => remembers⟩
  | restore value =>
    obtain ⟨inside, equal⟩ := refuse_eq_ok.mp applied
    cases equal
    rw [not_or, Nat.not_lt, Nat.not_lt] at inside
    refine ⟨⟨rfl, rfl, rfl, inside.1, ?_, fun guarded => guarded⟩, fun _ => .of_window_eq rfl⟩
    intro bounded
    exact ⟨inside.2, bounded.maximum_le, bounded.interval_pos⟩
  | setMaximum maximum =>
    obtain ⟨inside, equal⟩ := refuse_eq_ok.mp applied
    cases equal
    rw [not_or, Nat.not_lt, Nat.not_lt] at inside
    refine ⟨⟨rfl, rfl, rfl, Nat.le_refl _, ?_, fun guarded => guarded⟩,
      fun _ => .of_window_eq rfl⟩
    intro bounded
    exact ⟨inside.2, inside.1, bounded.interval_pos⟩
  | setInterval interval =>
    obtain ⟨positive, equal⟩ := refuse_eq_ok.mp applied
    cases equal
    refine ⟨⟨rfl, rfl, rfl, Nat.le_refl _, ?_, fun guarded => guarded⟩,
      fun _ => .of_window_eq rfl⟩
    intro bounded
    exact ⟨bounded.sequence_le, bounded.maximum_le, Nat.pos_of_ne_zero positive⟩
  | setSigningKey key =>
    cases applied
    refine ⟨⟨rfl, rfl, rfl, Nat.le_refl _, ?_, fun guarded => guarded⟩,
      fun _ => .of_window_eq rfl⟩
    intro bounded
    exact ⟨bounded.sequence_le, bounded.maximum_le, bounded.interval_pos⟩
  | mark sequence =>
    cases applied
    obtain ⟨evolves, remembers⟩ := entity.mark_evolves sequence
    exact ⟨evolves, fun _ => remembers⟩
  | reset base =>
    cases applied
    exact ⟨evolves_of_window fun _ positive => positive, fun kept => absurd rfl kept⟩
  | replaceWindow window =>
    obtain ⟨covers, equal⟩ := refuse_eq_ok.mp applied
    cases equal
    exact ⟨evolves_of_window fun _ _ => Nat.pos_of_ne_zero covers, fun kept => absurd rfl kept⟩
  | renew =>
    cases applied
    exact ⟨evolves_of_window fun _ positive => positive, fun kept => absurd rfl kept⟩

theorem result_evolves (entity : Entity) (adjustment : Adjustment) :
    entity.Evolves (adjustment.result entity) ∧
      (¬adjustment.forgets → entity.Remembers (adjustment.result entity)) := by
  rw [Adjustment.result]
  cases applied : adjustment.apply entity with
  | error refusal => exact ⟨.refl entity, fun _ => .of_window_eq rfl⟩
  | ok next => exact apply_evolves applied

end Entity

end Oscore
