import Mathlib.Algebra.GroupWithZero.Nat
import ManifestCV.Foundation.Transactions

namespace ManifestCV.Foundation.Transactions

variable {δ κ ρ W ι σ : Type}

def Action.running : Action ι σ → Bool
  | .run _ _ => true
  | _ => false

def Action.starting : Action ι σ → Bool
  | .start _ => true
  | _ => false

structure Descent (sys : System δ κ ρ W ι σ) where
  remaining : ρ → Nat
  next : ∀ {db outside phase input effect}, sys.next db outside phase input = some effect →
    remaining effect.phase < remaining phase ∧ remaining (sys.failed phase) < remaining phase
  failed : ∀ phase, remaining (sys.failed phase) ≤ remaining phase

/-- The level of a lock a write waits for and the level of those it holds once sent: a session that waits
    holds only lower ones, so that waiting leads upwards, but for the waits that are against the order. -/
structure LockOrder (sys : System δ κ ρ W ι σ) where
  asks : W → Nat
  holds : W → Nat
  top : Nat
  bounded : ∀ w, asks w ≤ top
  against : W → W → Prop
  conflict : ∀ {w v}, sys.conflicts w v = true → asks w ≤ holds v ∨ against w v

namespace System

variable (sys : System δ κ ρ W ι σ)

def Going (s : State δ κ ρ W) (session : Session ρ W) : Prop :=
  ∃ input effect, sys.next (sys.view s.db session.pending) s.outside session.phase input = some effect

def Wants (s : State δ κ ρ W) (session : Session ρ W) (w : W) : Prop :=
  ∃ input phase outside, sys.next (sys.view s.db session.pending) s.outside session.phase input =
    some (.write w phase outside)

def Moving (s : State δ κ ρ W) : Prop := ∃ i input, (sys.step s (.run i input)).isSome = true

end System

section Descending

variable {sys : System δ κ ρ W ι σ} (descent : Descent sys)

def Descent.total (s : State δ κ ρ W) : Nat :=
  (s.sessions.map fun session => descent.remaining session.phase).sum

theorem sum_set {α : Type} (weight : α → Nat) {items : List α} {i : Nat} (inside : i < items.length)
    (moved : α) :
    ((items.set i moved).map weight).sum + weight items[i] = (items.map weight).sum + weight moved := by
  induction items generalizing i with
  | nil => cases inside
  | cons first rest ih =>
    cases i with
    | zero =>
      simp only [List.set_cons_zero, List.map_cons, List.sum_cons, List.getElem_cons_zero]
      omega
    | succ i =>
      have later := ih (Nat.lt_of_succ_lt_succ inside)
      simp only [List.set_cons_succ, List.map_cons, List.sum_cons, List.getElem_cons_succ]
      omega

theorem total_set {s s' : State δ κ ρ W} {i : Nat} {session moved : Session ρ W}
    (found : s.sessions[i]? = some session) (same : s'.sessions = s.sessions.set i moved) :
    descent.total s' + descent.remaining session.phase = descent.total s + descent.remaining moved.phase := by
  obtain ⟨inside, rfl⟩ := List.getElem?_eq_some_iff.mp found
  unfold Descent.total
  rw [same]
  exact sum_set (fun session => descent.remaining session.phase) inside moved

/-- A step of a session brings it closer to its end; losing a connection takes it no further away. -/
theorem total_step {s s' : State δ κ ρ W} {action : Action ι σ} (step : sys.step s action = some s')
    (started : action.starting = false) :
    descent.total s' + (if action.running then 1 else 0) ≤ descent.total s := by
  cases action with
  | start request => cases started
  | abort i =>
    obtain ⟨session, found, placed⟩ := Option.bind_eq_some_iff.mp step
    cases placed
    have balance := @total_set _ _ _ _ _ _ _ descent s (System.place s i (sys.failed session.phase) []) i
      session ⟨sys.failed session.phase, []⟩ found rfl
    have lower := descent.failed session.phase
    simp only [Action.running, Bool.false_eq_true, if_false] at balance ⊢
    omega
  | run i input =>
    obtain ⟨session, found, step⟩ := Option.bind_eq_some_iff.mp step
    obtain ⟨effect, next, step⟩ := Option.bind_eq_some_iff.mp step
    have closer := descent.next next
    have placed : ∃ moved, s'.sessions = s.sessions.set i moved ∧
        descent.remaining moved.phase < descent.remaining session.phase := by
      cases effect with
      | read phase outside =>
        cases step
        exact ⟨_, rfl, closer.1⟩
      | commit phase outside =>
        cases step
        exact ⟨_, rfl, closer.1⟩
      | fail phase =>
        cases step
        exact ⟨_, rfl, closer.1⟩
      | write w phase outside =>
        simp only [System.run] at step
        split at step
        · cases step
        · split at step
          · cases step
            exact ⟨_, rfl, closer.1⟩
          · cases step
            exact ⟨_, rfl, closer.2⟩
    obtain ⟨moved, same, less⟩ := placed
    have balance := total_set descent found same
    simp only [Action.running, if_true]
    omega

/-- However the steps of the sessions interleave, they are no more than what was left at first. -/
theorem runs_bounded {s s' : State δ κ ρ W} {actions : List (Action ι σ)}
    (started : ∀ action ∈ actions, action.starting = false)
    (performed : sys.perform Guard.free s actions = some s') :
    actions.countP Action.running + descent.total s' ≤ descent.total s := by
  induction actions generalizing s with
  | nil =>
    cases performed
    exact Nat.le_of_eq (Nat.zero_add _)
  | cons action actions ih =>
    rw [System.perform, if_pos (Guard.free_allows s action)] at performed
    obtain ⟨between, step, performed⟩ := Option.bind_eq_some_iff.mp performed
    have first := total_step descent step (started action List.mem_cons_self)
    have rest := ih (fun other member => started other (List.mem_cons_of_mem _ member)) performed
    rw [List.countP_cons]
    omega

end Descending

section Waiting

variable {sys : System δ κ ρ W ι σ} (order : LockOrder sys)

structure LockOrder.Keeps (s : State δ κ ρ W) : Prop where
  going : ∀ session ∈ s.sessions, session.pending ≠ [] → sys.Going s session
  upwards : ∀ session ∈ s.sessions, ∀ w, sys.Wants s session w → ∀ v ∈ session.pending,
    order.holds v < order.asks w

/-- A session waits for another one against the order of the locks. -/
def LockOrder.Crossed (s : State δ κ ρ W) : Prop :=
  ∃ (i j : Nat) (first second : Session ρ W) (w v : W), i ≠ j ∧ s.sessions[i]? = some first ∧
    s.sessions[j]? = some second ∧
    sys.Wants s first w ∧ v ∈ second.pending ∧ order.against w v

theorem going_moves {s : State δ κ ρ W} {i : Nat} {session : Session ρ W}
    (found : s.sessions[i]? = some session) (going : sys.Going s session) :
    sys.Moving s ∨ ∃ w, sys.Wants s session w ∧ sys.blocked s i w = true := by
  obtain ⟨input, effect, next⟩ := going
  have stepped : ∀ s', sys.run s i session effect = some s' → sys.Moving s := by
    intro s' ran
    refine ⟨i, input, ?_⟩
    rw [step_run found next, ran]
    rfl
  cases effect with
  | read phase outside => exact .inl (stepped _ rfl)
  | commit phase outside => exact .inl (stepped _ rfl)
  | fail phase => exact .inl (stepped _ rfl)
  | write w phase outside =>
    cases waits : sys.blocked s i w with
    | true => exact .inr ⟨w, ⟨input, phase, outside, next⟩, waits⟩
    | false =>
      left
      by_cases admitted : sys.admits (sys.view s.db session.pending) w = true
      · exact stepped _ (by rw [System.run, waits, if_neg Bool.false_ne_true, if_pos admitted])
      · exact stepped _ (by rw [System.run, waits, if_neg Bool.false_ne_true, if_neg admitted])

/-- Following who waits for whom climbs the levels, which end, as long as no wait is against their order. -/
theorem waiting_moves {s : State δ κ ρ W} (keeps : order.Keeps s) {i : Nat} {session : Session ρ W} {w : W}
    (found : s.sessions[i]? = some session) (wants : sys.Wants s session w)
    (waits : sys.blocked s i w = true) :
    sys.Moving s ∨ order.Crossed s := by
  generalize climbed : order.top - order.asks w = left
  induction left using Nat.strongRecOn generalizing i session w with
  | _ left ih =>
    obtain ⟨j, other, apart, foundOther, v, held, conflict⟩ := blocked_by waits
    have member : other ∈ s.sessions := List.mem_of_getElem? foundOther
    have going := keeps.going other member (List.ne_nil_of_mem held)
    cases order.conflict conflict with
    | inr against =>
        exact .inr ⟨i, j, session, other, w, v, apart.symm, found, foundOther, wants, held, against⟩
    | inl reached =>
      cases going_moves foundOther going with
      | inl moving => exact .inl moving
      | inr stuck =>
        obtain ⟨next, wantsNext, waitsNext⟩ := stuck
        have above := keeps.upwards other member next wantsNext v held
        have highest := order.bounded next
        exact ih (order.top - order.asks next) (by omega) foundOther wantsNext waitsNext rfl

/-- While some session's program goes on, some session takes a step, unless one waits against the order. -/
theorem no_deadlock {s : State δ κ ρ W} (keeps : order.Keeps s) {session : Session ρ W}
    (member : session ∈ s.sessions) (going : sys.Going s session) : sys.Moving s ∨ order.Crossed s := by
  obtain ⟨i, found⟩ := List.mem_iff_getElem?.mp member
  cases going_moves found going with
  | inl moving => exact .inl moving
  | inr stuck =>
    obtain ⟨w, wants, waits⟩ := stuck
    exact waiting_moves order keeps found wants waits

end Waiting

end ManifestCV.Foundation.Transactions
