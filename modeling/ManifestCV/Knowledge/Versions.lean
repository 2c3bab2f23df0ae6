import ManifestCV.Knowledge.Views

namespace ManifestCV.Knowledge.Retrieval

open Foundation Foundation.Machine

variable {V S : Type}

/-- The points are none or the full chunk list of one index call. -/
def View.Whole (userId : Nat) (view : View V S) : Prop :=
  view.points = [] ∨ ∃ number content phase vectors, view.calls number = some (.index content, phase) ∧
    vectors.length = (chunkMarkdown content).length ∧ view.points = pointStructs userId
      (chunkMarkdown content) vectors

def Phase.vectors? : Phase V S → Option (List V)
  | .acquire vectors | .clear vectors | .upsert vectors => some vectors
  | _ => none

structure View.Orderly (userId : Nat) (view : View V S) : Prop where
  holds : ∀ {number call phase}, view.calls number = some (call, phase) → phase.inside = true →
    view.lock = some number
  emptied : ∀ {number call vectors}, view.calls number = some (call, .upsert vectors) → view.points = []
  sized : ∀ {number call phase vectors}, view.calls number = some (call, phase) →
    phase.vectors? = some vectors →
    vectors.length = call.chunks.length
  whole : view.Whole userId

/-- A lock does not expire while a call holds it. -/
def mayExpire (s : State V S) : Event V → Bool
  | .expire userId =>
    match s.locks userId with
    | some number =>
      match s.calls userId number with
      | some (_, phase) => !phase.inside
      | none => true
    | none => true
  | _ => true

section Keeping

variable {userId number : Nat} {call : Call} {phase phase' : Phase V S} {change : Change V}
  {lock : Option Nat} {view : View V S}

theorem update_calls {calls : Nat → Option (Call × Phase V S)} {other : Nat}
    {running running' : Call × Phase V S}
    (runs : Function.update calls number (some running) other = some running') :
    other = number ∧ running' = running ∨ other ≠ number ∧ calls other = some running' := by
  by_cases here : other = number
  · subst here
    rw [Function.update_self] at runs
    exact .inl ⟨rfl, (Option.some.inj runs).symm⟩
  · rw [Function.update_of_ne here] at runs
    exact .inr ⟨here, runs⟩

theorem View.Whole.update (whole : view.Whole userId)
    (stays : ∀ content, (∃ phase, view.calls number = some (.index content, phase)) → call = .index content) :
    View.Whole userId { view with calls := Function.update view.calls number (some (call, phase')) } := by
  rcases whole with none | ⟨other, content, phase, vectors, runs, sized, points⟩
  · exact .inl none
  · refine .inr ⟨other, content, ?_⟩
    by_cases here : other = number
    · subst here
      rw [stays content ⟨phase, runs⟩]
      exact ⟨phase', vectors, Function.update_self .., sized, points⟩
    · exact ⟨phase, vectors, (Function.update_of_ne here ..).trans runs, sized, points⟩

theorem View.Orderly.start (orderly : view.Orderly userId) (fresh : view.calls number = none) :
    View.Orderly userId { view with
      calls := Function.update view.calls number (some (call, call.first)) } where
  holds runs inside := by
    rcases update_calls runs with ⟨rfl, same⟩ | ⟨_, runs⟩
    · cases same
      cases call <;> cases inside
    · exact orderly.holds runs inside
  emptied runs := by
    rcases update_calls runs with ⟨rfl, same⟩ | ⟨_, runs⟩
    · cases call <;> cases same
    · exact orderly.emptied runs
  sized runs vectors := by
    rcases update_calls runs with ⟨rfl, same⟩ | ⟨_, runs⟩
    · cases same
      cases call with
      | delete =>
        cases vectors
        rfl
      | _ => cases vectors
    · exact orderly.sized runs vectors
  whole := by
    refine orderly.whole.update ?_
    rintro content ⟨phase, runs⟩
    rw [fresh] at runs
    cases runs

theorem moves_other (moves : Moves view.lock userId number call phase change lock phase') {other : Nat}
    (apart : other ≠ number) (held : view.lock = some other) : lock = some other := by
  cases moves with
  | acquired free =>
    rw [free] at held
    cases held
  | released mine =>
    rw [mine] at held
    exact absurd (Option.some.inj held).symm apart
  | _ => exact held

theorem moves_inside (moves : Moves view.lock userId number call phase change lock phase')
    (held : phase.inside = true → view.lock = some number) (inside : phase'.inside = true) :
    lock = some number := by
  cases moves with
  | acquired _ => rfl
  | cleared | emptied | written => exact held rfl
  | stopped holding => exact held holding
  | _ => cases inside

theorem moves_change (moves : Moves view.lock userId number call phase change lock phase') :
    change = .keep ∨ phase.inside = true := by
  cases moves with
  | cleared | emptied | written => exact .inr rfl
  | _ => exact .inl rfl

theorem moves_vectors (moves : Moves view.lock userId number call phase change lock phase') {vectors : List V}
    (carries : phase'.vectors? = some vectors) :
    phase.vectors? = some vectors ∨ vectors.length = call.chunks.length := by
  cases moves with
  | embedded sized =>
    cases carries
    exact .inr sized
  | acquired _ | cleared => exact .inl carries
  | _ => cases carries

theorem View.Orderly.written (orderly : view.Orderly userId) {vectors : List V}
    (runs : view.calls number = some (call, .upsert vectors)) :
    View.Whole userId ⟨Change.own (.write (pointStructs userId call.chunks vectors)) view.points, lock,
      Function.update view.calls number (some (call, phase'))⟩ := by
  have own : Change.own (.write (pointStructs userId call.chunks vectors)) view.points =
      pointStructs userId call.chunks vectors := by
    rw [orderly.emptied runs]
    rfl
  cases call with
  | index content =>
      exact .inr ⟨number, content, phase', vectors, Function.update_self .., orderly.sized runs rfl, own⟩
  | delete => exact .inl own
  | search query topK => exact .inl own

theorem View.Orderly.moves (orderly : view.Orderly userId) (runs : view.calls number = some (call, phase))
    (moves : Moves view.lock userId number call phase change lock phase') :
    View.Orderly userId ⟨change.own view.points, lock, Function.update view.calls number
      (some (call, phase'))⟩ where
  holds other inside := by
    rcases update_calls other with ⟨rfl, same⟩ | ⟨apart, other⟩
    · cases same
      exact moves_inside moves (orderly.holds runs) inside
    · exact moves_other moves apart (orderly.holds other inside)
  emptied writes := by
    rcases update_calls writes with ⟨rfl, same⟩ | ⟨apart, writer⟩
    · cases same
      cases moves with
      | cleared => rfl
    · -- Another call that is about to write holds the lock, so this one writes nothing.
      rcases moves_change moves with rfl | inside
      · exact orderly.emptied writer
      · have twice := (orderly.holds writer rfl).symm.trans (orderly.holds runs inside)
        exact absurd (Option.some.inj twice) apart
  sized other carries := by
    rcases update_calls other with ⟨rfl, same⟩ | ⟨_, other⟩
    · cases same
      rcases moves_vectors moves carries with before | sized
      · exact orderly.sized runs before
      · exact sized
    · exact orderly.sized other carries
  whole := by
    have stays : ∀ content, (∃ phase, view.calls number = some (.index content, phase)) →
        call = .index content := by
      rintro content ⟨_, again⟩
      rw [runs] at again
      cases again
      rfl
    cases moves with
    | cleared | emptied => exact .inl rfl
    | written => exact orderly.written runs
    | _ => exact orderly.whole.update stays

theorem View.Orderly.expire (orderly : view.Orderly userId)
    (unheld : ∀ {number call phase}, view.calls number = some (call, phase) → view.lock = some number →
      phase.inside = false) :
    View.Orderly userId { view with lock := none } where
  holds runs inside := by
    rw [unheld runs (orderly.holds runs inside)] at inside
    cases inside
  emptied := orderly.emptied
  sized := orderly.sized
  whole := orderly.whole

end Keeping

section Runs

variable {ranking : Ranking V S} {s t : State V S}

def Sound (s : State V S) : Prop := Named s.points ∧ ∀ userId, (s.view userId).Orderly userId

theorem Sound.step {event : Event V} (sound : Sound s) (may : mayExpire s event = true)
    (taken : step ranking s event = some t) :
    Sound t := by
  obtain ⟨named, orderly⟩ := sound
  rcases step_cases taken with ⟨userId, number, call, _, fresh, rfl⟩ |
    ⟨userId, number, input, call, phase, change, lock, phase', _, runs, goes, rfl⟩ | ⟨userId, rfl, rfl⟩
  · refine ⟨named, fun other => ?_⟩
    by_cases here : other = userId
    · subst here
      rw [view_set]
      exact (orderly other).start fresh
    · rw [view_set_other here rfl]
      exact orderly other
  · have moves := next_moves goes
    refine ⟨apply_named moves named, fun other => ?_⟩
    by_cases here : other = userId
    · subst here
      rw [view_set, apply_own moves]
      exact (orderly other).moves runs moves
    · rw [view_set_other here (apply_other moves named here)]
      exact orderly other
  · refine ⟨named, fun other => ?_⟩
    by_cases here : other = userId
    · subst here
      rw [view_expire]
      refine (orderly other).expire fun {number call phase} runs held => ?_
      have lock : s.locks other = some number := held
      have call : s.calls other number = some (call, phase) := runs
      simpa [mayExpire, lock, call] using may
    · rw [view_expire_other here]
      exact orderly other

theorem initial_sound : Sound (initialState : State V S) := by
  refine ⟨fun _ member => (nomatch member), fun userId => ⟨?_, ?_, ?_, .inl rfl⟩⟩
  · exact fun runs => nomatch runs
  · exact fun runs => nomatch runs
  · exact fun runs => nomatch runs

end Runs

/-- At every moment, whether or not somebody holds the lock, a user's points are none or the full chunk list
    of one call, in chunk order and with distinct ids. -/
theorem reindexing_never_mixes (ranking : Ranking V S) {s : State V S}
    (run : Reaches (step ranking) mayExpire initialState s) (userId : Nat) :
    userFilter userId s.points = [] ∨ ∃ number content phase vectors, s.calls userId number =
      some (.index content, phase) ∧
      userFilter userId s.points = pointStructs userId (chunkMarkdown content) vectors ∧
      (userFilter userId s.points).map (·.chunk) = chunkMarkdown content ∧
      ((userFilter userId s.points).map (·.id)).Nodup := by
  have sound : Sound s := run.invariant (fun sound may taken => sound.step may taken) initial_sound
  rcases (sound.2 userId).whole with none | ⟨number, content, phase, vectors, runs, sized, points⟩
  · exact .inl none
  · have same : userFilter userId s.points = pointStructs userId (chunkMarkdown content) vectors := points
    refine .inr ⟨number, content, phase, vectors, runs, same, ?_, ?_⟩
    · rw [same]
      exact pointStructs_chunks userId sized
    · rw [same]
      exact pointStructs_ids userId _ _

def plainRanking : Ranking Nat Nat where
  rank _ points topK := (points.take topK).map fun point => (point, 0)
  ranks := by
    intro _ points topK scored member
    obtain ⟨point, inside, rfl⟩ := List.mem_map.mp member
    exact List.mem_of_mem_take inside

def twoSaves : List (Event Nat) := [
  .start 1 1 (.index "# A\n# B".toList), .start 1 2 (.index "# C".toList), .advance 1 1 (.embedded [0, 1]),
  .advance 1 2 (.embedded [2]), .advance 1 1 .answer, .advance 1 1 .answer, .advance 1 1 .unavailable,
    .advance 1 1 .answer,
  .advance 1 2 .answer, .advance 1 2 .answer, .advance 1 2 .answer, .advance 1 2 .answer]

theorem reindexing_never_mixes_twoSaves :
    ∃ s : State Nat Nat, Reaches (step plainRanking) mayExpire initialState s ∧
    s.locks 1 = none ∧ userFilter 1 s.points ≠ [] ∧
    (userFilter 1 s.points = [] ∨ ∃ number content phase vectors,
      s.calls 1 number = some (.index content, phase) ∧
      userFilter 1 s.points = pointStructs 1 (chunkMarkdown content) vectors ∧
      (userFilter 1 s.points).map (·.chunk) = chunkMarkdown content ∧
    ((userFilter 1 s.points).map (·.id)).Nodup) := by
  have done : (perform (step plainRanking) mayExpire initialState twoSaves).any
      (fun s => decide (s.locks 1 = none ∧ userFilter 1 s.points ≠ [])) = true := by decide
  obtain ⟨s, run, ends⟩ := reaches_of_performed done
  obtain ⟨free, shown⟩ := of_decide_eq_true ends
  exact ⟨s, run, free, shown, reindexing_never_mixes plainRanking run 1⟩

end ManifestCV.Knowledge.Retrieval
