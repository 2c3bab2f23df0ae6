import Mathlib.Logic.Relation

namespace ManifestCV.Foundation.Machine

variable {S A : Type}

def Reaches (step : S → A → Option S) (may : S → A → Bool) : S → S → Prop :=
  Relation.ReflTransGen fun s s' => ∃ action, may s action = true ∧ step s action = some s'

/-- What holds at the start and is kept by every step that may be taken holds in every state reached. -/
theorem Reaches.invariant {step : S → A → Option S} {may : S → A → Bool} {holds : S → Prop}
    (kept : ∀ {s action s'}, holds s → may s action = true → step s action = some s' → holds s')
    {s s' : S} (run : Reaches step may s s') (start : holds s) : holds s' := by
  induction run with
  | refl => exact start
  | tail _ step ih =>
    obtain ⟨action, allowed, taken⟩ := step
    exact kept ih allowed taken

def perform (step : S → A → Option S) (may : S → A → Bool) : S → List A → Option S
  | s, [] => some s
  | s, action :: actions => if may s action then (step s action).bind (perform step may · actions) else none

theorem reaches_of_performed {step : S → A → Option S} {may : S → A → Bool} {s : S} {actions : List A}
    {check : S → Bool} (checked : (perform step may s actions).any check = true) :
    ∃ s', Reaches step may s s' ∧ check s' = true := by
  induction actions generalizing s with
  | nil => exact ⟨s, .refl, checked⟩
  | cons action actions ih =>
    rw [perform] at checked
    split at checked
    · rename_i allowed
      cases taken : step s action with
      | none =>
        rw [taken] at checked
        cases checked
      | some between =>
        rw [taken] at checked
        obtain ⟨s', run, holds⟩ := ih checked
        exact ⟨s', .head ⟨action, allowed, taken⟩ run, holds⟩
    · cases checked

/-- Two runs side by side: the steps that count are taken in both, the others in the first one only. -/
theorem perform_filter {step : S → A → Option S} {may : S → A → Bool} {view : S → S → Prop}
    {counts : A → Bool} (both : ∀ {s s' t action}, view s s' → counts action = true → may s action = true →
      step s action = some t →
      may s' action = true ∧ ∃ t', step s' action = some t' ∧ view t t')
    (first : ∀ {s s' t action}, view s s' → counts action = false → may s action = true →
      step s action = some t → view t s')
    {s s' t : S} {actions : List A} (same : view s s') (done : perform step may s actions = some t) :
    ∃ t', perform step may s' (actions.filter counts) = some t' ∧ view t t' := by
  induction actions generalizing s s' with
  | nil =>
    cases done
    exact ⟨s', rfl, same⟩
  | cons action actions ih =>
    rw [perform] at done
    split at done
    · rename_i allowed
      obtain ⟨between, taken, rest⟩ := Option.bind_eq_some_iff.mp done
      cases here : counts action with
      | true =>
        obtain ⟨allowed', between', taken', same'⟩ := both same here allowed taken
        rw [List.filter_cons_of_pos here, perform, if_pos allowed', taken']
        exact ih same' rest
      | false =>
        rw [List.filter_cons_of_neg (Bool.eq_false_iff.mp here)]
        exact ih (first same here allowed taken) rest
    · cases done

end ManifestCV.Foundation.Machine
