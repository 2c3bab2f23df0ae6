import ManifestCV.Foundation.Transactions

namespace ManifestCV.Foundation.Transactions

variable {δ κ ρ W ι σ : Type}

def beside (others : List (Session ρ W)) (db : δ) (outside : κ) (phase : ρ) (pending : List W) :
    State δ κ ρ W :=
  ⟨db, outside, others ++ [⟨phase, pending⟩]⟩

def Unlocked (sys : System δ κ ρ W ι σ) (others : List (Session ρ W)) (w : W) : Prop :=
  ∀ other ∈ others, ∀ v ∈ other.pending, sys.conflicts w v = false

section Solo

variable {sys : System δ κ ρ W ι σ} {others : List (Session ρ W)} {db : δ} {outside outside' : κ}
  {phase phase' : ρ}
  {pending : List W} {input : ι} {actions : List (Action ι σ)} {w : W}

theorem beside_last :
    (beside others db outside phase pending).sessions[others.length]? = some ⟨phase, pending⟩ :=
  List.getElem?_concat_length

theorem place_beside (pending' : List W) :
    System.place (beside others db outside phase pending) others.length phase' pending' =
      beside others db outside phase' pending' := by
  simp [System.place, beside]

theorem unblocked_beside (free : Unlocked sys others w) :
    sys.blocked (beside others db outside phase pending) others.length w = false := by
  apply Bool.eq_false_iff.mpr
  intro waits
  obtain ⟨j, other, apart, found, v, held, conflict⟩ := blocked_by waits
  have inside : j < others.length := by
    have bound := (List.getElem?_eq_some_iff.mp found).1
    rw [beside, List.length_append, List.length_singleton] at bound
    omega
  rw [beside, List.getElem?_append_left inside] at found
  rw [free other (List.mem_of_getElem? found) v held] at conflict
  cases conflict

theorem perform_step {s between : State δ κ ρ W} {action : Action ι σ}
    (step : sys.step s action = some between) :
    sys.perform Guard.free s (action :: actions) = sys.perform Guard.free between actions := by
  rw [System.perform, if_pos (Guard.free_allows _ _), step]
  rfl

theorem perform_start {s : State δ κ ρ W} {request : σ}
    (started : sys.start s.outside request = some (phase, outside)) :
    sys.perform Guard.free s (.start request :: actions) = sys.perform Guard.free
      (beside s.sessions s.db outside phase []) actions := by
  apply perform_step
  rw [System.step, started]
  rfl

theorem perform_read
    (next : sys.next (sys.view db pending) outside phase input = some (.read phase' outside')) :
    sys.perform Guard.free (beside others db outside phase pending) (.run others.length input :: actions) =
      sys.perform Guard.free (beside others db outside' phase' pending) actions := by
  apply perform_step
  rw [step_run beside_last next, System.run, place_beside]
  rfl

theorem perform_write
    (next : sys.next (sys.view db pending) outside phase input = some (.write w phase' outside'))
    (free : Unlocked sys others w) (admitted : sys.admits (sys.view db pending) w = true) :
    sys.perform Guard.free (beside others db outside phase pending) (.run others.length input :: actions) =
      sys.perform Guard.free (beside others db outside' phase' (pending ++ [w])) actions := by
  apply perform_step
  rw [step_run beside_last next, System.run, unblocked_beside free, if_neg Bool.false_ne_true, place_beside]
  exact if_pos admitted

theorem perform_commit
    (next : sys.next (sys.view db pending) outside phase input = some (.commit phase' outside')) :
    sys.perform Guard.free (beside others db outside phase pending) (.run others.length input :: actions) =
      sys.perform Guard.free (beside others (sys.view db pending) outside' phase' []) actions := by
  apply perform_step
  rw [step_run beside_last next, System.run, place_beside]
  rfl

end Solo

end ManifestCV.Foundation.Transactions
