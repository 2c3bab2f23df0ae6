import ManifestCV.Knowledge.Retrieval

namespace ManifestCV.Knowledge.Retrieval

open Foundation Foundation.Collection

variable {V S : Type}

structure View (V S : Type) where
  points : List (PointStruct V)
  lock : Option Nat
  calls : Nat → Option (Call × Phase V S)

def State.view (s : State V S) (userId : Nat) : View V S :=
  ⟨userFilter userId s.points, s.locks userId, s.calls userId⟩

def Change.own : Change V → List (PointStruct V) → List (PointStruct V)
  | .keep, points => points
  | .clear, _ => []
  | .write new, points => put PointStruct.id new points

def Phase.inside : Phase V S → Bool
  | .clear _ | .upsert _ | .release _ => true
  | _ => false

def Named (points : List (PointStruct V)) : Prop := ∀ point ∈ points, ∃ i, point.id = pointId point.userId i

inductive Moves (lock : Option Nat) (userId number : Nat) (call : Call) :
    Phase V S → Change V → Option Nat → Phase V S → Prop
  | embedded {vectors} (sized : vectors.length = call.chunks.length) :
      Moves lock userId number call .embed .keep lock (.acquire vectors)
  | asked {vector} : Moves lock userId number call .embed .keep lock (.query vector)
  | acquired {vectors} (free : lock = none) :
      Moves lock userId number call (.acquire vectors) .keep (some number) (.clear vectors)
  | cleared {vectors} : Moves lock userId number call (.clear vectors) .clear lock (.upsert vectors)
  | emptied {vectors} : Moves lock userId number call (.clear vectors) .clear lock (.release false)
  | written {vectors} :
      Moves lock userId number call (.upsert vectors) (.write (pointStructs userId call.chunks vectors)) lock
      (.release false)
  | stopped {phase} (inside : phase.inside = true) :
      Moves lock userId number call phase .keep lock (.release true)
  | released {failed outcome} (held : lock = some number) :
      Moves lock userId number call (.release failed) .keep none (.finished outcome)
  | ended {phase outcome} : Moves lock userId number call phase .keep lock (.finished outcome)

section Steps

variable {ranking : Ranking V S} {s t : State V S} {userId number : Nat} {call : Call} {phase : Phase V S}

theorem next_moves {points : List (PointStruct V)} {lock lock' : Option Nat} {input : Input V}
    {change : Change V} {phase' : Phase V S}
    (goes : next ranking points lock userId number call phase input = some (change, lock', phase')) :
    Moves lock userId number call phase change lock' phase' := by
  cases phase with
  | embed =>
    cases input with
    | answer => cases goes
    | unavailable =>
      simp only [next] at goes
      split at goes
      · cases goes
      · cases goes
        exact .ended
    | embedded vectors =>
      simp only [next] at goes
      split at goes
      · cases goes
        exact .asked
      · cases goes
      · rename_i other _
        split at goes
        · rename_i sized
          cases goes
          cases call with
          | search query topK => exact absurd rfl (other query topK)
          | index content => exact .embedded sized
          | delete => exact .embedded sized
        · cases goes
  | acquire vectors =>
    cases input with
    | unavailable =>
      cases goes
      exact .ended
    | _ =>
      simp only [next] at goes
      split at goes
      · rename_i free
        cases goes
        exact .acquired free
      · cases goes
  | clear vectors =>
    cases input with
    | unavailable =>
      cases goes
      exact .stopped rfl
    | _ =>
      cases goes
      split
      · exact .emptied
      · exact .cleared
  | upsert vectors =>
    cases input with
    | unavailable =>
      cases goes
      exact .stopped rfl
    | _ =>
      cases goes
      exact .written
  | release failed =>
    cases input with
    | unavailable =>
      cases goes
      exact .ended
    | _ =>
      simp only [next] at goes
      split at goes
      · rename_i held
        cases goes
        exact .released held
      · cases goes
        exact .ended
  | query vector =>
    cases input with
    | unavailable =>
      cases goes
      exact .ended
    | _ =>
      simp only [next] at goes
      split at goes
      · cases goes
        exact .ended
      · cases goes
  | finished outcome => cases goes

theorem step_cases {event : Event V} (taken : step ranking s event = some t) :
    (∃ userId number call, event = .start userId number call ∧ s.calls userId number = none ∧
      t = s.set userId number s.points (s.locks userId) (call, call.first)) ∨
    (∃ userId number input call phase change lock phase', event = .advance userId number input ∧
      s.calls userId number = some (call, phase) ∧
      next ranking s.points (s.locks userId) userId number call phase input = some (change, lock, phase') ∧
      t = s.set userId number (change.apply userId s.points) lock (call, phase')) ∨
    ∃ userId, event = .expire userId ∧ t = { s with locks := Function.update s.locks userId none } := by
  cases event with
  | start userId number call =>
    simp only [step] at taken
    split at taken
    · cases taken
    · rename_i fresh
      exact .inl ⟨userId, number, call, rfl, fresh, (Option.some.inj taken).symm⟩
  | advance userId number input =>
    simp only [step] at taken
    split at taken
    · cases taken
    · rename_i call phase runs
      obtain ⟨⟨change, lock, phase'⟩, goes, same⟩ := Option.map_eq_some_iff.mp taken
      exact .inr (.inl ⟨userId, number, input, call, phase, change, lock, phase', rfl, runs, goes, same.symm⟩)
  | expire userId => exact .inr (.inr ⟨userId, rfl, (Option.some.inj taken).symm⟩)

theorem view_set (points : List (PointStruct V)) (lock : Option Nat) (running : Call × Phase V S) :
    (s.set userId number points lock running).view userId =
      ⟨userFilter userId points, lock, Function.update (s.calls userId) number (some running)⟩ := by
  simp only [State.view, State.set, Function.update_self]

theorem view_set_other {other : Nat} (apart : other ≠ userId) {points : List (PointStruct V)}
    (same : userFilter other points = userFilter other s.points) (lock : Option Nat)
    (running : Call × Phase V S) :
    (s.set userId number points lock running).view other = s.view other := by
  simp only [State.view, State.set, Function.update_of_ne apart, same]

theorem view_expire (userId : Nat) :
    ({ s with locks := Function.update s.locks userId none } : State V S).view userId =
        { s.view userId with lock := none } := by
  simp only [State.view, Function.update_self]

theorem view_expire_other {other : Nat} (apart : other ≠ userId) :
    ({ s with locks := Function.update s.locks userId none } : State V S).view other = s.view other := by
  simp only [State.view, Function.update_of_ne apart]

end Steps

section Changes

variable {lock lock' : Option Nat} {userId number : Nat} {call : Call} {phase phase' : Phase V S}
  {change : Change V}

theorem moves_writes {new : List (PointStruct V)}
    (moves : Moves lock userId number call phase change lock' phase') (writes : change = .write new) :
    ∃ vectors, new = pointStructs userId call.chunks vectors := by
  cases moves with
  | written =>
    cases writes
    exact ⟨_, rfl⟩
  | _ => cases writes

theorem apply_own (moves : Moves lock userId number call phase change lock' phase')
    (points : List (PointStruct V)) :
    userFilter userId (change.apply userId points) = change.own (userFilter userId points) := by
  cases change with
  | keep => rfl
  | clear => exact clear_own userId points
  | write new =>
    obtain ⟨vectors, rfl⟩ := moves_writes moves rfl
    exact ownedBy_put fun point member => (pointStructs_user point member).1

theorem apply_other (moves : Moves lock userId number call phase change lock' phase')
    {points : List (PointStruct V)} (named : Named points) {other : Nat} (apart : other ≠ userId) :
    userFilter other (change.apply userId points) = userFilter other points := by
  cases change with
  | keep => rfl
  | clear => exact ownedBy_without_other apart
  | write new =>
    obtain ⟨vectors, rfl⟩ := moves_writes moves rfl
    refine ownedBy_put_other apart (fun point member => (pointStructs_user point member).1) ?_
    intro point member here added inside same
    obtain ⟨_, i, id⟩ := pointStructs_user added inside
    obtain ⟨j, otherId⟩ := named point member
    rw [id, otherId] at same
    exact apart (here.symm.trans (pointId_user same).symm)

theorem apply_named (moves : Moves lock userId number call phase change lock' phase')
    {points : List (PointStruct V)} (named : Named points) : Named (change.apply userId points) := by
  cases change with
  | keep => exact named
  | clear => exact fun point member => named point (List.mem_filter.mp member).1
  | write new =>
    obtain ⟨vectors, rfl⟩ := moves_writes moves rfl
    intro point member
    rcases List.mem_append.mp member with old | added
    · exact named point (List.mem_filter.mp old).1
    · obtain ⟨same, i, id⟩ := pointStructs_user point added
      exact ⟨i, by rw [id, same]⟩

end Changes

end ManifestCV.Knowledge.Retrieval
