import ManifestCV.Knowledge.Versions

namespace ManifestCV.Knowledge.Retrieval

open Foundation Foundation.Collection Foundation.Machine

variable {V S : Type}

def returned (ranking : Ranking V S) (s : State V S) : Event V → List (PointStruct V)
  | .advance userId number input =>
    match s.calls userId number, input with
    | _, .unavailable => []
    | some (.search _ topK, .query vector), _ =>
        (queryPoints ranking userId vector topK s.points).map Prod.fst
    | _, _ => []
  | _ => []

section Frames

variable {ranking : Ranking V S} {s s' t : State V S} {event : Event V}

theorem step_named (named : Named s.points) (taken : step ranking s event = some t) : Named t.points := by
  rcases step_cases taken with ⟨_, _, _, _, _, rfl⟩ | ⟨_, _, _, _, _, _, _, _, _, _, goes, rfl⟩ | ⟨_, _, rfl⟩
  · exact named
  · exact apply_named (next_moves goes) named
  · exact named

theorem step_other {userId : Nat} (named : Named s.points) (apart : event.userId ≠ userId)
    (taken : step ranking s event = some t) :
    t.view userId = s.view userId := by
  rcases step_cases taken with ⟨_, _, _, rfl, _, rfl⟩ | ⟨_, _, _, _, _, _, _, _, rfl, _, goes,
    rfl⟩ | ⟨_, rfl, rfl⟩
  · exact view_set_other (Ne.symm apart) rfl _ _
  · exact view_set_other (Ne.symm apart) (apply_other (next_moves goes) named (Ne.symm apart)) _ _
  · exact view_expire_other (Ne.symm apart)

theorem next_view {points points' : List (PointStruct V)} {userId : Nat}
    (same : userFilter userId points = userFilter userId points') (lock : Option Nat) (number : Nat)
    (call : Call) (phase : Phase V S) (input : Input V) :
    next ranking points lock userId number call phase input = next ranking points' lock userId number
      call phase input := by
  unfold next queryPoints
  rw [same]

theorem step_own {user : Nat} (mine : event.userId = user) (same : s.view user = s'.view user)
    (taken : step ranking s event = some t) :
    ∃ t', step ranking s' event = some t' ∧ t.view user = t'.view user := by
  have points : userFilter user s.points = userFilter user s'.points := congrArg View.points same
  have locks : s.locks user = s'.locks user := congrArg View.lock same
  have calls : s.calls user = s'.calls user := congrArg View.calls same
  rcases step_cases taken with ⟨userId, number, call, rfl, fresh, rfl⟩ |
    ⟨userId, number, input, call, phase, change, lock, phase', rfl, runs, goes, rfl⟩ | ⟨userId, rfl, rfl⟩
  · have mine : userId = user := mine
    subst mine
    rw [calls] at fresh
    refine ⟨s'.set userId number s'.points (s'.locks userId) (call, call.first), by simp only [step, fresh],
      ?_⟩
    rw [view_set, view_set, points, locks, calls]
  · have mine : userId = user := mine
    subst mine
    have moves := next_moves goes
    rw [next_view points, locks] at goes
    rw [calls] at runs
    refine ⟨s'.set userId number (change.apply userId s'.points) lock (call, phase'), ?_, ?_⟩
    · simp only [step, runs, goes, Option.map_some]
    · rw [view_set, view_set, apply_own moves, apply_own moves, points, calls]
  · have mine : userId = user := mine
    subst mine
    refine ⟨_, rfl, ?_⟩
    rw [view_expire, view_expire, same]

theorem returned_own {point : PointStruct V} (member : point ∈ returned ranking s event) :
    point.userId = event.userId := by
  cases event with
  | advance userId number input =>
    unfold returned at member
    dsimp only at member
    split at member
    · cases member
    · obtain ⟨scored, inside, rfl⟩ := List.mem_map.mp member
      exact (mem_ownedBy.mp (ranking.ranks _ _ _ scored inside)).2
    · cases member
  | _ => cases member

structure Agrees (userId : Nat) (s alone : State V S) : Prop where
  named : Named s.points
  namedAlone : Named alone.points
  view : s.view userId = alone.view userId

theorem Agrees.own {userId : Nat} (agrees : Agrees userId s s') (mine : event.userId = userId)
    (taken : step ranking s event = some t) :
    ∃ t', step ranking s' event = some t' ∧ Agrees userId t t' := by
  obtain ⟨t', taken', same⟩ := step_own mine agrees.view taken
  exact ⟨t', taken', step_named agrees.named taken, step_named agrees.namedAlone taken', same⟩

theorem Agrees.other {userId : Nat} (agrees : Agrees userId s s') (apart : event.userId ≠ userId)
    (taken : step ranking s event = some t) : Agrees userId t s' :=
  ⟨step_named agrees.named taken, agrees.namedAlone, (step_other agrees.named apart taken).trans agrees.view⟩

end Frames

/-- A user's points and results are those of the run of the user's own steps, and no step of another user
    adds, removes, replaces or returns one of the user's points. -/
theorem users_kept_apart (ranking : Ranking V S) (userId : Nat) {events : List (Event V)} {s : State V S}
    (run : perform (step ranking) (fun _ _ => true) initialState events = some s) :
    (∃ alone, perform (step ranking) (fun _ _ => true) initialState (events.filter fun event =>
      decide (event.userId = userId)) =
        some alone ∧ userFilter userId alone.points = userFilter userId s.points ∧
          alone.calls userId = s.calls userId) ∧
      ∀ event t, event.userId ≠ userId → step ranking s event = some t →
        userFilter userId t.points = userFilter userId s.points ∧ t.calls userId = s.calls userId ∧
          ∀ point ∈ returned ranking s event, point.userId ≠ userId := by
  have start : Agrees userId (initialState : State V S) initialState :=
    ⟨fun _ member => (nomatch member), fun _ member => (nomatch member), rfl⟩
  have both : ∀ {s s' t : State V S} {event : Event V}, Agrees userId s s' →
    decide (event.userId = userId) = true → true = true →
      step ranking s event = some t → true = true ∧ ∃ t', step ranking s' event = some t' ∧
          Agrees userId t t' :=
    fun agrees mine _ taken => ⟨rfl, agrees.own (of_decide_eq_true mine) taken⟩
  have first : ∀ {s s' t : State V S} {event : Event V}, Agrees userId s s' → decide (event.userId = userId) =
    false → true = true →
      step ranking s event = some t → Agrees userId t s' :=
    fun agrees other _ taken => agrees.other (of_decide_eq_false other) taken
  obtain ⟨alone, done, agrees⟩ := perform_filter both first start run
  refine ⟨⟨alone, done, (congrArg View.points agrees.view).symm, (congrArg View.calls agrees.view).symm⟩, ?_⟩
  intro event t apart taken
  have kept := step_other agrees.named apart taken
  exact ⟨congrArg View.points kept, congrArg View.calls kept, fun point member mine =>
    apart ((returned_own member).symm.trans mine)⟩

def twoUsers : List (Event Nat) := [
  .start 1 1 (.index "# A".toList), .start 2 1 (.index "# B".toList), .advance 1 1 (.embedded [0]),
    .advance 2 1 (.embedded [0]),
  .advance 1 1 .answer, .advance 2 1 .answer, .advance 1 1 .answer, .advance 2 1 .answer,
    .advance 2 1 .answer,
  .advance 1 1 .answer, .start 1 2 (.search "a".toList 5), .advance 1 2 (.embedded [0]), .advance 2 1 .answer,
    .advance 1 2 .answer]

theorem users_kept_apart_twoUsers : ∃ s : State Nat Nat,
    perform (step plainRanking) (fun _ _ => true) initialState twoUsers = some s ∧ s.points.length = 2 ∧
    (∃ alone, perform (step plainRanking) (fun _ _ => true) initialState (twoUsers.filter fun event =>
      decide (event.userId = 1)) =
        some alone ∧ userFilter 1 alone.points = userFilter 1 s.points ∧ alone.calls 1 = s.calls 1) ∧
      ∀ event t, event.userId ≠ 1 → step plainRanking s event = some t →
        userFilter 1 t.points = userFilter 1 s.points ∧ t.calls 1 = s.calls 1 ∧
          ∀ point ∈ returned plainRanking s event, point.userId ≠ 1 := by
  have done : (perform (step plainRanking) (fun _ _ => true) initialState twoUsers).any (fun s =>
      decide (s.points.length = 2)) = true := by
    decide
  obtain ⟨s, run, two⟩ := (Option.any_eq_true _ _).mp done
  exact ⟨s, run, of_decide_eq_true two, users_kept_apart plainRanking 1 run⟩

end ManifestCV.Knowledge.Retrieval
