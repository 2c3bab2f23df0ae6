import ManifestCV.Foundation.Transactions

namespace ManifestCV.Foundation.Transactions

variable {δ κ ρ W ι σ β ο : Type}

structure Atomic (sys : System δ κ ρ W ι σ) (known : Assertion δ κ ρ W) (view : δ → β) (op? : ρ → Option ο)
    (perform : β → ο → β) :
    Prop where
  start : ∀ {outside request phase outside'}, sys.start outside request = some (phase, outside') →
    op? phase = none
  moves : ∀ {db outside phase pending label db' outside' phase' pending'}, known.common db outside →
    known.own db outside phase pending →
    sys.Moves db outside phase pending label db' outside' phase' pending' →
    (view db' = view db ∧ op? phase' = op? phase) ∨
      (op? phase = none ∧ view db' = (op? phase').toList.foldl perform (view db))

/-- The operations of the sessions that have committed, in an order that makes the database out of the first
    one. -/
structure Serial (view : δ → β) (op? : ρ → Option ο) (perform : β → ο → β) (first : β) (s : State δ κ ρ W)
    (ops : List ο) : Prop where
  once : ops.Perm (s.sessions.filterMap fun session => op? session.phase)
  made : view s.db = ops.foldl perform first

theorem filterMap_set {α : Type} {f : α → Option ο} {items : List α} {i : Nat} {a b : α}
    (found : items[i]? = some a) (nothing : f a = none) :
    ((items.set i b).filterMap f).Perm (items.filterMap f ++ (f b).toList) := by
  induction items generalizing i with
  | nil => cases found
  | cons item items ih =>
    cases i with
    | zero =>
      cases found
      rw [List.set_cons_zero, List.filterMap_cons_none nothing]
      cases new : f b with
      | none => simp [new]
      | some op =>
        rw [List.filterMap_cons_some new]
        exact (List.perm_append_singleton op _).symm
    | succ i =>
      have rest := ih found
      rw [List.set_cons_succ]
      cases kept : f item with
      | none =>
        rw [List.filterMap_cons_none kept, List.filterMap_cons_none kept]
        exact rest
      | some op =>
        rw [List.filterMap_cons_some kept, List.filterMap_cons_some kept]
        exact rest.cons op

theorem filterMap_set_same {α : Type} {f : α → Option ο} {items : List α} {i : Nat} {a b : α}
    (found : items[i]? = some a) (same : f b = f a) : (items.set i b).filterMap f = items.filterMap f := by
  induction items generalizing i with
  | nil => cases found
  | cons item items ih =>
    cases i with
    | zero =>
      cases found
      rw [List.set_cons_zero, List.filterMap_cons, List.filterMap_cons, same]
    | succ i =>
      rw [List.set_cons_succ, List.filterMap_cons, List.filterMap_cons, ih found]

section Runs

variable {sys : System δ κ ρ W ι σ} {known : Assertion δ κ ρ W} {view : δ → β} {op? : ρ → Option ο}
  {perform : β → ο → β} {first : β}

theorem serial_step (atomic : Atomic sys known view op? perform) {g : Guard δ κ ρ ι} {s s' : State δ κ ρ W}
    {ops : List ο} (knows : known.Holds s) (serial : Serial view op? perform first s ops)
    (step : Step sys g s s') :
    ∃ later, Serial view op? perform first s' (ops ++ later) := by
  obtain ⟨action, _, step⟩ := step
  cases step_moves step with
  | inl starting =>
    obtain ⟨request, phase, outside, _, started, rfl⟩ := starting
    apply Exists.intro []
    rw [List.append_nil]
    constructor
    · have nothing : [(⟨phase, []⟩ : Session ρ W)].filterMap (fun session => op? session.phase) = [] :=
        List.filterMap_cons_none (atomic.start started)
      rw [List.filterMap_append, nothing, List.append_nil]
      exact serial.once
    · exact serial.made
  | inr moving =>
    obtain ⟨i, session, label, phase, pending, found, _, moves, _, same⟩ := moving
    cases atomic.moves knows.common (knows.own i session found) moves with
    | inl still =>
      apply Exists.intro []
      rw [List.append_nil]
      constructor
      · rw [same, @filterMap_set_same _ _ (fun session : Session ρ W => op? session.phase) _ _ session
          ⟨phase, pending⟩ found still.2]
        exact serial.once
      · exact still.1.trans serial.made
    | inr commits =>
      apply Exists.intro (op? phase).toList
      constructor
      · rw [same]
        have added := @filterMap_set _ _ (fun session : Session ρ W => op? session.phase) _ _ session
          ⟨phase, pending⟩ found commits.1
        exact (serial.once.append_right _).trans added.symm
      · rw [List.foldl_append, ← serial.made]
        exact commits.2

theorem serial_runs (atomic : Atomic sys known view op? perform) {g : Guard δ κ ρ ι} {s s' : State δ κ ρ W}
    {ops : List ο} (knows : ∀ t, Runs sys g s t → known.Holds t)
    (serial : Serial view op? perform first s ops) (run : Runs sys g s s') :
    ∃ later, Serial view op? perform first s' (ops ++ later) := by
  induction run with
  | refl => exact ⟨[], (List.append_nil ops).symm ▸ serial⟩
  | tail before step ih =>
    obtain ⟨middle, earlier⟩ := ih
    obtain ⟨last, after⟩ := serial_step atomic (knows _ before) earlier step
    exact ⟨middle ++ last, List.append_assoc ops middle last ▸ after⟩

end Runs

end ManifestCV.Foundation.Transactions
