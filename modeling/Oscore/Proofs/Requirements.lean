/-
This file says what it means that an operation checks a list of requirements. They
are checked one after another, and the first that is not met is what the operation
is refused for. An operation that does this succeeds exactly when all of them are
met. Steps that do it one after another check their lists one after another, so
that the list of an operation can be read off its steps.
-/

import Mathlib.Tactic.Tauto
import Oscore.Proofs.Derivation

namespace Oscore

/-- Something that an operation checks, and what it is refused for otherwise. -/
structure Requirement where
  met : Prop
  refusal : Refusal

/-- The refusal of the first requirement of a list that is not met. -/
def FirstUnmet (requirements : List Requirement) (refusal : Refusal) : Prop :=
  ∃ front requirement rest, requirements = front ++ requirement :: rest ∧
    (∀ earlier ∈ front, earlier.met) ∧ ¬requirement.met ∧ requirement.refusal = refusal

/-! ### The first that is not met -/

section FirstUnmet

variable {requirement : Requirement} {requirements front rest : List Requirement}
  {refusal : Refusal}

theorem not_firstUnmet_nil : ¬FirstUnmet [] refusal := by
  rintro ⟨front, requirement, rest, split, -⟩
  cases front <;> cases split

theorem firstUnmet_cons :
    FirstUnmet (requirement :: rest) refusal ↔
      ¬requirement.met ∧ requirement.refusal = refusal ∨
        requirement.met ∧ FirstUnmet rest refusal := by
  constructor
  · rintro ⟨front, unmet, back, split, earlier, fails, named⟩
    cases front with
    | nil =>
      cases split
      exact Or.inl ⟨fails, named⟩
    | cons first front =>
      cases split
      have others := fun other member => earlier other (List.mem_cons_of_mem _ member)
      exact Or.inr ⟨earlier _ List.mem_cons_self, front, unmet, back, rfl, others, fails, named⟩
  · rintro (⟨fails, named⟩ | ⟨holds, front, unmet, back, rfl, earlier, fails, named⟩)
    · exact ⟨[], requirement, rest, rfl, List.forall_mem_nil _, fails, named⟩
    · exact ⟨requirement :: front, unmet, back, rfl, List.forall_mem_cons.mpr ⟨holds, earlier⟩,
        fails, named⟩

theorem firstUnmet_append :
    FirstUnmet (front ++ rest) refusal ↔
      FirstUnmet front refusal ∨
        (∀ requirement ∈ front, requirement.met) ∧ FirstUnmet rest refusal := by
  induction front with
  | nil => simp [not_firstUnmet_nil]
  | cons requirement front inductionHypothesis =>
    rw [List.cons_append, firstUnmet_cons, firstUnmet_cons, inductionHypothesis,
      List.forall_mem_cons]
    tauto

/-- All requirements are met, or some refusal is given for the first that is not. -/
theorem forall_met_iff :
    (∀ requirement ∈ requirements, requirement.met) ↔
      ∀ refusal, ¬FirstUnmet requirements refusal := by
  induction requirements with
  | nil => simp [not_firstUnmet_nil]
  | cons requirement rest inductionHypothesis =>
    simp only [List.forall_mem_cons, inductionHypothesis, firstUnmet_cons, not_or, not_and,
      forall_and]
    constructor
    · rintro ⟨holds, others⟩
      exact ⟨fun _ fails => absurd holds fails, fun _ _ => others _⟩
    · rintro ⟨first, others⟩
      have holds := not_not.mp fun fails => first requirement.refusal fails rfl
      exact ⟨holds, fun refusal => others refusal holds⟩

theorem FirstUnmet.mem (unmet : FirstUnmet requirements refusal) :
    refusal ∈ requirements.map Requirement.refusal := by
  obtain ⟨front, requirement, rest, rfl, -, -, rfl⟩ := unmet
  exact List.mem_map_of_mem (List.mem_append_right _ List.mem_cons_self)

end FirstUnmet

/-! ### Steps that check requirements -/

/-- A step that is refused exactly for the first requirement of a list that is not met. -/
def Checks {Value : Type} (step : Except Refusal Value) (requirements : List Requirement) : Prop :=
  ∀ refusal, step = .error refusal ↔ FirstUnmet requirements refusal

section Checks

variable {Value Result Element : Type} {step : Except Refusal Value}
  {requirements front rest : List Requirement}

/-- A step succeeds exactly when all that it checks is met. -/
theorem Checks.isOk_iff (checks : Checks step requirements) :
    (∃ value, step = .ok value) ↔ ∀ requirement ∈ requirements, requirement.met := by
  rw [forall_met_iff]
  simp only [← checks _]
  cases step <;> simp

theorem checks_ok (value : Value) : Checks (.ok value) [] := by
  intro refusal
  simp only [reduceCtorEq, not_firstUnmet_nil]

/-- A step that is followed by another. -/
theorem checks_bind {next : Value → Except Refusal Result} (first : Checks step front)
    (second : ∀ value, step = .ok value → Checks (next value) rest) :
    Checks (step >>= next) (front ++ rest) := by
  intro refusal
  rw [firstUnmet_append, ← first refusal]
  cases step with
  | error cause =>
    -- a refused step leaves some requirement of its own unmet
    have unmet : ¬∀ requirement ∈ front, requirement.met := by
      rw [← first.isOk_iff]
      simp
    have refused : (.error cause >>= next) = .error cause := rfl
    rw [refused, Except.error.injEq, Except.error.injEq]
    exact ⟨Or.inl, fun given => given.elim id fun later => absurd later.1 unmet⟩
  | ok value =>
    have met := first.isOk_iff.mp ⟨value, rfl⟩
    rw [← second value rfl refusal, and_iff_right met]
    simp only [reduceCtorEq, false_or]
    rfl

/-- A step after which only a value is changed. -/
theorem Checks.map_ok {change : Value → Result} (checks : Checks step requirements) :
    Checks (step >>= fun value => .ok (change value)) requirements := by
  rw [← List.append_nil requirements]
  exact checks_bind checks fun value _ => checks_ok (change value)

/-- A step that is refused on a condition. -/
theorem checks_refuse {condition met : Prop} [Decidable condition] {refusal : Refusal}
    (opposite : condition ↔ ¬met) (next : met → Checks step rest) :
    Checks (if condition then .error refusal else step) (⟨met, refusal⟩ :: rest) := by
  intro given
  rw [firstUnmet_cons, ← opposite]
  by_cases holds : condition
  · have unmet := opposite.mp holds
    simp only [holds, if_true, Except.error.injEq, true_and, unmet, false_and, or_false]
  · have holdsMet : met := not_not.mp fun unmet => holds (opposite.mpr unmet)
    simp only [holds, if_false, false_and, holdsMet, true_and, false_or, next holdsMet given]

/-- A step that checks one thing. -/
theorem checks_single {met : Prop} {refusal : Refusal} (accepted : met → ∃ value, step = .ok value)
    (refused : ¬met → step = .error refusal) : Checks step [⟨met, refusal⟩] := by
  intro given
  simp only [firstUnmet_cons, not_firstUnmet_nil, and_false, or_false]
  by_cases holds : met
  · obtain ⟨value, rfl⟩ := accepted holds
    simp only [reduceCtorEq, holds, not_true_eq_false, false_and]
  · simp only [refused holds, Except.error.injEq, holds, not_false_eq_true, true_and]

/-- A step for every element of a list. -/
theorem checks_mapM {step : Element → Except Refusal Value}
    {requires : Element → List Requirement} {elements : List Element}
    (each : ∀ element, Checks (step element) (requires element)) :
    Checks (elements.mapM step) (elements.flatMap requires) := by
  induction elements with
  | nil => exact checks_ok []
  | cons element elements inductionHypothesis =>
    rw [List.mapM_cons, List.flatMap_cons]
    exact checks_bind (each element) fun value _ => inductionHypothesis.map_ok

end Checks

end Oscore
