import Mathlib.Logic.Relation

namespace ManifestCV.Foundation.Transactions

/-- What one step of a session does: a statement that writes nothing, a write that stays with the session,
    a commit of all its writes, or an exception, which rolls them back. `κ` is state that no transaction
    protects, such as sequences. -/
inductive Effect (κ ρ W : Type) where
  | read (phase : ρ) (outside : κ)
  | write (w : W) (phase : ρ) (outside : κ)
  | commit (phase : ρ) (outside : κ)
  | fail (phase : ρ)

def Effect.phase {κ ρ W : Type} : Effect κ ρ W → ρ
  | .read phase _ | .write _ phase _ | .commit phase _ | .fail phase => phase

/-- Sessions over a database of type `δ` in READ COMMITTED transactions, one SQL statement a step. -/
structure System (δ κ ρ W ι σ : Type) where
  apply : δ → W → δ
  /-- The constraints a write is checked against when its statement runs. -/
  admits : δ → W → Bool
  /-- Two writes that lock the same row or index entry. -/
  conflicts : W → W → Bool
  /-- Where a session is after its transaction was rolled back. -/
  failed : ρ → ρ
  start : κ → σ → Option (ρ × κ)
  next : δ → κ → ρ → ι → Option (Effect κ ρ W)

structure Session (ρ W : Type) where
  phase : ρ
  pending : List W

structure State (δ κ ρ W : Type) where
  db : δ
  outside : κ
  sessions : List (Session ρ W)

inductive Action (ι σ : Type) where
  | start (request : σ)
  | run (i : Nat) (input : ι)
  | abort (i : Nat)

variable {δ κ ρ W ι σ : Type}

namespace System

variable (sys : System δ κ ρ W ι σ)

/-- What a session sees: the last committed state with its own writes. -/
def view (db : δ) (pending : List W) : δ := pending.foldl sys.apply db

def blocked (s : State δ κ ρ W) (i : Nat) (w : W) : Bool :=
  (s.sessions.zipIdx).any fun (other, j) => j ≠ i && other.pending.any (sys.conflicts w)

def place (s : State δ κ ρ W) (i : Nat) (phase : ρ) (pending : List W) : State δ κ ρ W :=
  { s with sessions := s.sessions.set i ⟨phase, pending⟩ }

def run (s : State δ κ ρ W) (i : Nat) (session : Session ρ W) : Effect κ ρ W → Option (State δ κ ρ W)
  | .read phase outside => some { place s i phase session.pending with outside }
  | .write w phase outside =>
    if sys.blocked s i w then none
    else if sys.admits (sys.view s.db session.pending) w then
      some { place s i phase (session.pending ++ [w]) with outside }
    else some (place s i (sys.failed session.phase) [])
  | .commit phase outside => some { place s i phase [] with db := sys.view s.db session.pending, outside }
  | .fail phase => some (place s i phase [])

def step (s : State δ κ ρ W) : Action ι σ → Option (State δ κ ρ W)
  | .start request =>
    (sys.start s.outside request).map fun (phase, outside) =>
      { s with outside, sessions := s.sessions ++ [⟨phase, []⟩] }
  | .run i input => do
    let session ← s.sessions[i]?
    let effect ← sys.next (sys.view s.db session.pending) s.outside session.phase input
    sys.run s i session effect
  | .abort i => do
    let session ← s.sessions[i]?
    some (place s i (sys.failed session.phase) [])

/-- The step of one session, seen from that session alone; no input means its connection was lost. -/
inductive Moves (db : δ) (outside : κ) (phase : ρ) (pending : List W) :
    Option ι → δ → κ → ρ → List W → Prop
  | read {input phase' outside'} (next : sys.next (sys.view db pending) outside phase input =
      some (.read phase' outside')) :
      Moves db outside phase pending (some input) db outside' phase' pending
  | write {input w phase' outside'}
      (next : sys.next (sys.view db pending) outside phase input = some (.write w phase' outside'))
      (admitted : sys.admits (sys.view db pending) w = true) :
      Moves db outside phase pending (some input) db outside' phase' (pending ++ [w])
  | refused {input w phase' outside'}
      (next : sys.next (sys.view db pending) outside phase input = some (.write w phase' outside'))
      (refused : sys.admits (sys.view db pending) w = false) :
      Moves db outside phase pending (some input) db outside (sys.failed phase) []
  | commit {input phase' outside'}
      (next : sys.next (sys.view db pending) outside phase input = some (.commit phase' outside')) :
      Moves db outside phase pending (some input) (sys.view db pending) outside' phase' []
  | fail {input phase'} (next : sys.next (sys.view db pending) outside phase input = some (.fail phase')) :
      Moves db outside phase pending (some input) db outside phase' []
  | abort : Moves db outside phase pending none db outside (sys.failed phase) []

def Compatible (mine theirs : List W) : Prop := ∀ w ∈ mine, ∀ v ∈ theirs, sys.conflicts w v = false

def Separate (s : State δ κ ρ W) : Prop :=
  ∀ (i j : Nat) first second, i ≠ j → s.sessions[i]? = some first → s.sessions[j]? = some second →
    sys.Compatible first.pending second.pending

end System

/-- A restriction on steps: what the acting session's step may do, and beside which other phases. -/
structure Guard (δ κ ρ ι : Type) where
  alone : δ → κ → ρ → ι → Bool
  beside : ρ → ι → ρ → Bool

def Guard.free : Guard δ κ ρ ι := ⟨fun _ _ _ _ => true, fun _ _ _ => true⟩

def Guard.allows (g : Guard δ κ ρ ι) (s : State δ κ ρ W) : Action ι σ → Bool
  | .run i input => s.sessions[i]?.all fun session =>
      g.alone s.db s.outside session.phase input &&
        s.sessions.zipIdx.all fun (other, j) => j = i || g.beside session.phase input other.phase
  | _ => true

def Step (sys : System δ κ ρ W ι σ) (g : Guard δ κ ρ ι) (s s' : State δ κ ρ W) : Prop :=
  ∃ action : Action ι σ, g.allows s action = true ∧ sys.step s action = some s'

def Runs (sys : System δ κ ρ W ι σ) (g : Guard δ κ ρ ι) : State δ κ ρ W → State δ κ ρ W → Prop :=
  Relation.ReflTransGen (Step sys g)

def System.perform (sys : System δ κ ρ W ι σ) (g : Guard δ κ ρ ι) :
    State δ κ ρ W → List (Action ι σ) → Option (State δ κ ρ W)
  | s, [] => some s
  | s, action :: actions => if g.allows s action then (sys.step s action).bind (perform sys g · actions)
      else none

theorem runs_perform {sys : System δ κ ρ W ι σ} {g : Guard δ κ ρ ι} {s s' : State δ κ ρ W}
    {actions : List (Action ι σ)} (performed : sys.perform g s actions = some s') : Runs sys g s s' := by
  induction actions generalizing s with
  | nil =>
    cases performed
    exact .refl
  | cons action actions ih =>
    rw [System.perform] at performed
    split at performed
    · rename_i allowed
      obtain ⟨between, step, performed⟩ := Option.bind_eq_some_iff.mp performed
      exact .head ⟨action, allowed, step⟩ (ih performed)
    · cases performed

theorem runs_of_performed {sys : System δ κ ρ W ι σ} {g : Guard δ κ ρ ι} {s : State δ κ ρ W}
    {actions : List (Action ι σ)} {check : State δ κ ρ W → Bool}
    (checked : (sys.perform g s actions).any check = true) :
    ∃ s', Runs sys g s s' ∧ check s' = true := by
  cases performed : sys.perform g s actions with
  | none =>
    rw [performed] at checked
    cases checked
  | some s' =>
    rw [performed] at checked
    exact ⟨s', runs_perform performed, checked⟩

theorem step_of_performed {sys : System δ κ ρ W ι σ} {g : Guard δ κ ρ ι} {s : State δ κ ρ W}
    {action : Action ι σ} {check : State δ κ ρ W → Bool}
    (checked : (sys.perform g s [action]).any check = true) :
    ∃ s', Step sys g s s' ∧ sys.step s action = some s' ∧ check s' = true := by
  obtain ⟨s', performed, holds⟩ := (Option.any_eq_true _ _).mp checked
  rw [System.perform] at performed
  split at performed
  · rename_i allowed
    obtain ⟨_, step, same⟩ := Option.bind_eq_some_iff.mp performed
    cases same
    exact ⟨s', ⟨action, allowed, step⟩, step, holds⟩
  · cases performed

theorem Guard.free_allows (s : State δ κ ρ W) (action : Action ι σ) : Guard.free.allows s action = true := by
  cases action with
  | run i input => cases found : s.sessions[i]? <;> simp [Guard.allows, Guard.free, found]
  | start request => rfl
  | abort i => rfl

theorem Step.free {sys : System δ κ ρ W ι σ} {g : Guard δ κ ρ ι} {s s' : State δ κ ρ W}
    (step : Step sys g s s') :
    Step sys Guard.free s s' := by
  obtain ⟨action, _, step⟩ := step
  exact ⟨action, Guard.free_allows s action, step⟩

theorem Runs.free {sys : System δ κ ρ W ι σ} {g : Guard δ κ ρ ι} {s s' : State δ κ ρ W}
    (run : Runs sys g s s') :
    Runs sys Guard.free s s' := by
  induction run with
  | refl => exact .refl
  | tail _ step ih => exact ih.tail step.free

theorem Runs.weaken {sys : System δ κ ρ W ι σ} {g g' : Guard δ κ ρ ι} {s s' : State δ κ ρ W}
    (weaker : ∀ (t : State δ κ ρ W) (action : Action ι σ), g.allows t action = true →
      g'.allows t action = true) (run : Runs sys g s s') :
    Runs sys g' s s' := by
  induction run with
  | refl => exact .refl
  | tail _ step ih =>
    obtain ⟨action, allowed, step⟩ := step
    exact ih.tail ⟨action, weaker _ action allowed, step⟩

def StepWhere (sys : System δ κ ρ W ι σ) (may : State δ κ ρ W → Action ι σ → Bool) (s s' : State δ κ ρ W) :
    Prop :=
  ∃ action, may s action = true ∧ sys.step s action = some s'

def RunsWhere (sys : System δ κ ρ W ι σ) (may : State δ κ ρ W → Action ι σ → Bool) :
    State δ κ ρ W → State δ κ ρ W → Prop :=
  Relation.ReflTransGen (StepWhere sys may)

def System.performWhere (sys : System δ κ ρ W ι σ) (may : State δ κ ρ W → Action ι σ → Bool) :
    State δ κ ρ W → List (Action ι σ) → Option (State δ κ ρ W)
  | s, [] => some s
  | s, action :: actions => if may s action then (sys.step s action).bind (performWhere sys may · actions)
      else none

theorem runsWhere_of_performed {sys : System δ κ ρ W ι σ} {may : State δ κ ρ W → Action ι σ → Bool}
    {s : State δ κ ρ W} {actions : List (Action ι σ)} {check : State δ κ ρ W → Bool}
    (checked : (sys.performWhere may s actions).any check = true) :
    ∃ s', RunsWhere sys may s s' ∧ check s' = true := by
  induction actions generalizing s with
  | nil => exact ⟨s, .refl, checked⟩
  | cons action actions ih =>
    rw [System.performWhere] at checked
    split at checked
    · rename_i allowed
      cases taken : sys.step s action with
      | none =>
        rw [taken] at checked
        cases checked
      | some between =>
        rw [taken] at checked
        obtain ⟨s', run, holds⟩ := ih checked
        exact ⟨s', .head ⟨action, allowed, taken⟩ run, holds⟩
    · cases checked

theorem RunsWhere.free {sys : System δ κ ρ W ι σ} {may : State δ κ ρ W → Action ι σ → Bool}
    {s s' : State δ κ ρ W} (run : RunsWhere sys may s s') : Runs sys Guard.free s s' := by
  induction run with
  | refl => exact .refl
  | tail _ step ih =>
    obtain ⟨action, _, step⟩ := step
    exact ih.tail ⟨action, Guard.free_allows _ action, step⟩

theorem Guard.allows_run {g : Guard δ κ ρ ι} {s : State δ κ ρ W} {i : Nat} {input : ι} {session : Session ρ W}
    (allowed : g.allows s (.run i input : Action ι σ) = true) (found : s.sessions[i]? = some session) :
    g.alone s.db s.outside session.phase input = true ∧
      ∀ (j : Nat) other, j ≠ i → s.sessions[j]? = some other →
        g.beside session.phase input other.phase = true := by
  simp only [Guard.allows, found, Option.all_some, Bool.and_eq_true, List.all_eq_true] at allowed
  refine ⟨allowed.1, ?_⟩
  intro j other apart hOther
  have each := allowed.2 (other, j)
    (List.mem_iff_getElem?.mpr ⟨j, by rw [List.getElem?_zipIdx, hOther]; simp⟩)
  simpa [apart] using each

structure Assertion (δ κ ρ W : Type) where
  common : δ → κ → Prop
  own : δ → κ → ρ → List W → Prop
  pair : ρ → List W → ρ → List W → Prop

structure Assertion.Holds (a : Assertion δ κ ρ W) (s : State δ κ ρ W) : Prop where
  common : a.common s.db s.outside
  own : ∀ (i : Nat) session, s.sessions[i]? = some session →
    a.own s.db s.outside session.phase session.pending
  pair : ∀ (i j : Nat) first second, i ≠ j → s.sessions[i]? = some first → s.sessions[j]? = some second →
    a.pair first.phase first.pending second.phase second.pending

def Assertion.trivial : Assertion δ κ ρ W := ⟨fun _ _ => True, fun _ _ _ _ => True, fun _ _ _ _ => True⟩

def Assertion.and (a b : Assertion δ κ ρ W) : Assertion δ κ ρ W where
  common db outside := a.common db outside ∧ b.common db outside
  own db outside phase pending := a.own db outside phase pending ∧ b.own db outside phase pending
  pair phase pending other otherPending := a.pair phase pending other otherPending ∧
    b.pair phase pending other otherPending

theorem Assertion.trivial_holds (s : State δ κ ρ W) : Assertion.trivial.Holds s :=
  ⟨True.intro, fun _ _ _ => True.intro, fun _ _ _ _ _ _ _ => True.intro⟩

theorem Assertion.Holds.and {a b : Assertion δ κ ρ W} {s : State δ κ ρ W} (first : a.Holds s)
    (second : b.Holds s) :
    (a.and b).Holds s where
  common := ⟨first.common, second.common⟩
  own i session found := ⟨first.own i session found, second.own i session found⟩
  pair i j one two apart hOne hTwo :=
    ⟨first.pair i j one two apart hOne hTwo, second.pair i j one two apart hOne hTwo⟩

/-- Why an assertion survives every allowed step, given one that is known to hold: it survives the acting
    session's own step, and that step leaves it true of every session beside. -/
structure Stable (sys : System δ κ ρ W ι σ) (g : Guard δ κ ρ ι) (known a : Assertion δ κ ρ W) : Prop where
  start : ∀ {db outside request phase outside'}, known.common db outside → a.common db outside →
    sys.start outside request = some (phase, outside') → a.common db outside' ∧ a.own db outside' phase []
  startOther : ∀ {db outside request phase outside' other otherPending},
    known.own db outside other otherPending →
    a.common db outside → a.own db outside other otherPending →
      sys.start outside request = some (phase, outside') →
    a.own db outside' other otherPending ∧ a.pair phase [] other otherPending ∧
      a.pair other otherPending phase []
  own : ∀ {db outside phase pending label db' outside' phase' pending'},
    known.common db outside → known.own db outside phase pending → a.common db outside →
      a.own db outside phase pending →
    (∀ input, label = some input → g.alone db outside phase input = true) →
    sys.Moves db outside phase pending label db' outside' phase' pending' →
    a.common db' outside' ∧ a.own db' outside' phase' pending'
  other : ∀ {db outside phase pending label db' outside' phase' pending' other otherPending},
    known.common db outside → known.own db outside phase pending → known.own db outside other otherPending →
    known.pair phase pending other otherPending → known.pair other otherPending phase pending →
    a.common db outside → a.own db outside phase pending → a.own db outside other otherPending →
    a.pair phase pending other otherPending → a.pair other otherPending phase pending →
    (∀ input, label = some input → g.alone db outside phase input = true ∧
      g.beside phase input other = true) →
    sys.Compatible pending otherPending →
      sys.Moves db outside phase pending label db' outside' phase' pending' →
    a.own db' outside' other otherPending ∧ a.pair phase' pending' other otherPending ∧
      a.pair other otherPending phase' pending'

def Assertion.phase (ok : ρ → Prop) : Assertion δ κ ρ W :=
  ⟨fun _ _ => True, fun _ _ phase _ => ok phase, fun _ _ _ _ => True⟩

theorem phase_stable {sys : System δ κ ρ W ι σ} {g : Guard δ κ ρ ι} {known : Assertion δ κ ρ W}
    {ok : ρ → Prop} (starts : ∀ {outside request phase outside'}, sys.start outside request =
      some (phase, outside') → ok phase)
    (steps : ∀ {db outside phase input effect}, sys.next db outside phase input = some effect → ok phase →
      ok effect.phase)
    (fails : ∀ {phase}, ok phase → ok (sys.failed phase)) : Stable sys g known (Assertion.phase ok) where
  start _ _ started := ⟨True.intro, starts started⟩
  startOther _ _ held _ := ⟨held, True.intro, True.intro⟩
  own _ _ _ held _ moves := by
    refine ⟨True.intro, ?_⟩
    cases moves with
    | read next => exact steps next held
    | write next _ => exact steps next held
    | refused _ _ => exact fails held
    | commit next => exact steps next held
    | fail next => exact steps next held
    | abort => exact fails held
  other _ _ _ _ _ _ _ held _ _ _ _ _ := ⟨held, True.intro, True.intro⟩

/-- A step of a running session is one of its moves, and changes nothing of the others. -/
theorem step_moves {sys : System δ κ ρ W ι σ} {s s' : State δ κ ρ W} {action : Action ι σ}
    (step : sys.step s action = some s') :
    (∃ request phase outside, action = .start request ∧ sys.start s.outside request = some (phase, outside) ∧
      s' = { s with outside, sessions := s.sessions ++ [⟨phase, []⟩] }) ∨
    (∃ (i : Nat) (session : Session ρ W) (label : Option ι) (phase : ρ) (pending : List W),
      s.sessions[i]? = some session ∧
      (action = .abort i ∧ label = none ∨ ∃ input, action = .run i input ∧ label = some input) ∧
      sys.Moves s.db s.outside session.phase session.pending label s'.db s'.outside phase pending ∧
      (∀ w ∈ pending, w ∈ session.pending ∨ sys.blocked s i w = false) ∧
      s'.sessions = s.sessions.set i ⟨phase, pending⟩) := by
  cases action with
  | start request =>
    left
    obtain ⟨⟨phase, outside⟩, started, rfl⟩ := Option.map_eq_some_iff.mp step
    exact ⟨request, phase, outside, rfl, started, rfl⟩
  | abort i =>
    right
    obtain ⟨session, found, placed⟩ := Option.bind_eq_some_iff.mp step
    cases placed
    exact ⟨i, session, none, _, [], found, .inl ⟨rfl, rfl⟩, .abort, fun _ member => (nomatch member), rfl⟩
  | run i input =>
    right
    obtain ⟨session, found, step⟩ := Option.bind_eq_some_iff.mp step
    obtain ⟨effect, next, step⟩ := Option.bind_eq_some_iff.mp step
    cases effect with
    | read phase outside =>
      cases step
      exact ⟨i, session, some input, phase, session.pending, found, .inr ⟨input, rfl, rfl⟩, .read next,
        fun _ member => .inl member, rfl⟩
    | write w phase outside =>
      simp only [System.run] at step
      split at step
      · cases step
      · rename_i free
        split at step
        · rename_i admitted
          cases step
          refine ⟨i, session, some input, phase, session.pending ++ [w], found, .inr ⟨input, rfl, rfl⟩,
            .write next admitted, ?_, rfl⟩
          intro v member
          rcases List.mem_append.mp member with member | member
          · exact .inl member
          · rw [List.mem_singleton.mp member]
            exact .inr (Bool.eq_false_iff.mpr free)
        · rename_i refused
          cases step
          exact ⟨i, session, some input, _, [], found, .inr ⟨input, rfl, rfl⟩,
            .refused next (Bool.eq_false_iff.mpr refused), fun _ member => (nomatch member), rfl⟩
    | commit phase outside =>
      cases step
      exact ⟨i, session, some input, phase, [], found, .inr ⟨input, rfl, rfl⟩, .commit next,
        fun _ member => (nomatch member), rfl⟩
    | fail phase =>
      cases step
      exact ⟨i, session, some input, phase, [], found, .inr ⟨input, rfl, rfl⟩, .fail next,
        fun _ member => (nomatch member), rfl⟩

theorem blocked_free {sys : System δ κ ρ W ι σ} {s : State δ κ ρ W} {i j : Nat} {w : W} {other : Session ρ W}
    (free : sys.blocked s i w = false) (apart : j ≠ i) (found : s.sessions[j]? = some other) :
    ∀ v ∈ other.pending, sys.conflicts w v = false := by
  intro v member
  have all := List.any_eq_false.mp free (other, j)
    (List.mem_iff_getElem?.mpr ⟨j, by rw [List.getElem?_zipIdx, found]; simp⟩)
  simp only [Bool.not_eq_true, Bool.and_eq_false_iff, decide_eq_false_iff_not] at all
  rcases all with same | none_held
  · exact absurd apart same
  · simpa using List.any_eq_false.mp none_held v member

theorem blocked_by {sys : System δ κ ρ W ι σ} {s : State δ κ ρ W} {i : Nat} {w : W}
    (waits : sys.blocked s i w = true) :
    ∃ (j : Nat) (other : Session ρ W), j ≠ i ∧ s.sessions[j]? = some other ∧ ∃ v ∈ other.pending,
      sys.conflicts w v = true := by
  obtain ⟨⟨other, j⟩, member, both⟩ := List.any_eq_true.mp waits
  simp only [Bool.and_eq_true, decide_eq_true_eq] at both
  obtain ⟨v, held, conflict⟩ := List.any_eq_true.mp both.2
  refine ⟨j, other, both.1, ?_, v, held, conflict⟩
  obtain ⟨n, here⟩ := List.mem_iff_getElem?.mp member
  rw [List.getElem?_zipIdx] at here
  obtain ⟨session, found, same⟩ := Option.map_eq_some_iff.mp here
  cases same
  rwa [Nat.zero_add]

theorem step_run {sys : System δ κ ρ W ι σ} {s : State δ κ ρ W} {i : Nat} {input : ι} {session : Session ρ W}
    {effect : Effect κ ρ W} (here : s.sessions[i]? = some session)
    (next : sys.next (sys.view s.db session.pending) s.outside session.phase input = some effect) :
    sys.step s (.run i input) = sys.run s i session effect := by
  simp only [System.step, here, Option.bind_eq_bind, Option.bind_some, next]

theorem append_session {s : State δ κ ρ W} {session held : Session ρ W} {n : Nat}
    (found : (s.sessions ++ [session])[n]? = some held) :
    s.sessions[n]? = some held ∨ n = s.sessions.length ∧ held = session := by
  rcases Nat.lt_or_ge n s.sessions.length with inside | outside
  · rw [List.getElem?_append_left inside] at found
    exact .inl found
  · right
    have bound := (List.getElem?_eq_some_iff.mp found).1
    rw [List.length_append, List.length_singleton] at bound
    have last : n = s.sessions.length := by omega
    subst last
    rw [List.getElem?_append_right (Nat.le_refl _), Nat.sub_self] at found
    cases found
    exact ⟨rfl, rfl⟩

theorem set_session {s : State δ κ ρ W} {session held : Session ρ W} {i n : Nat}
    (found : (s.sessions.set i session)[n]? = some held) :
    n = i ∧ held = session ∨ n ≠ i ∧ s.sessions[n]? = some held := by
  by_cases same : n = i
  · subst same
    have bound := (List.getElem?_eq_some_iff.mp found).1
    rw [List.length_set] at bound
    rw [List.getElem?_set_self bound] at found
    cases found
    exact .inl ⟨rfl, rfl⟩
  · rw [List.getElem?_set_ne (Ne.symm same)] at found
    exact .inr ⟨same, found⟩

theorem separate_step {sys : System δ κ ρ W ι σ} (symmetric : ∀ w v, sys.conflicts w v = sys.conflicts v w)
    {s s' : State δ κ ρ W} {action : Action ι σ} (separate : sys.Separate s)
    (step : sys.step s action = some s') :
    sys.Separate s' := by
  rcases step_moves step with ⟨request, phase, outside, _, _, rfl⟩ | ⟨i, session, label, phase, pending,
    found, _, _, free, same⟩
  · have old : ∀ (n : Nat) (held : Session ρ W), (s.sessions ++ [⟨phase, []⟩])[n]? = some held →
        s.sessions[n]? = some held ∨ held.pending = [] := by
      intro n held found
      rcases append_session found with old | ⟨_, rfl⟩
      · exact .inl old
      · exact .inr rfl
    intro j k first second apart hFirst hSecond
    rcases old j first hFirst with hFirst | nothing
    · rcases old k second hSecond with hSecond | nothing
      · exact separate j k first second apart hFirst hSecond
      · intro w _ v member
        rw [nothing] at member
        cases member
    · intro w member
      rw [nothing] at member
      cases member
  · have mine : ∀ (j : Nat) other, j ≠ i → s.sessions[j]? = some other →
        sys.Compatible pending other.pending := by
      intro j other apart hOther w member v inside
      rcases free w member with held | free
      · exact separate i j session other (Ne.symm apart) found hOther w held v inside
      · exact blocked_free free apart hOther v inside
    intro j k first second apart hFirst hSecond
    rw [same] at hFirst hSecond
    rcases set_session hFirst with ⟨atFirst, rfl⟩ | ⟨farFirst, oldFirst⟩
    · rcases set_session hSecond with ⟨atSecond, _⟩ | ⟨farSecond, oldSecond⟩
      · exact absurd (atFirst.trans atSecond.symm) apart
      · exact mine k second farSecond oldSecond
    · rcases set_session hSecond with ⟨_, rfl⟩ | ⟨_, oldSecond⟩
      · intro w member v inside
        rw [symmetric]
        exact mine j first farFirst oldFirst v inside w member
      · exact separate j k first second apart oldFirst oldSecond

theorem Assertion.Holds.add {a : Assertion δ κ ρ W} {s : State δ κ ρ W} {outside : κ} {phase : ρ}
    (holds : a.Holds s) (common : a.common s.db outside) (own : a.own s.db outside phase [])
    (others : ∀ (j : Nat) other, s.sessions[j]? = some other → a.own s.db outside other.phase other.pending ∧
      a.pair phase [] other.phase other.pending ∧ a.pair other.phase other.pending phase []) :
    a.Holds { s with outside, sessions := s.sessions ++ [⟨phase, []⟩] } := by
  constructor
  · exact common
  · intro j other found
    rcases append_session found with old | ⟨_, rfl⟩
    · exact (others j other old).1
    · exact own
  · intro j k first second apart hFirst hSecond
    rcases append_session hFirst with oldFirst | ⟨atFirst, rfl⟩
    · rcases append_session hSecond with oldSecond | ⟨_, rfl⟩
      · exact holds.pair j k first second apart oldFirst oldSecond
      · exact (others j first oldFirst).2.2
    · rcases append_session hSecond with oldSecond | ⟨atSecond, _⟩
      · exact (others k second oldSecond).2.1
      · exact absurd (atFirst.trans atSecond.symm) apart

theorem Assertion.Holds.move {a : Assertion δ κ ρ W} {s s' : State δ κ ρ W} {i : Nat} {phase : ρ}
    {pending : List W} (holds : a.Holds s) (same : s'.sessions = s.sessions.set i ⟨phase, pending⟩)
    (common : a.common s'.db s'.outside) (own : a.own s'.db s'.outside phase pending)
    (others : ∀ (j : Nat) other, j ≠ i → s.sessions[j]? = some other →
      a.own s'.db s'.outside other.phase other.pending ∧
      a.pair phase pending other.phase other.pending ∧ a.pair other.phase other.pending phase pending) :
        a.Holds s' := by
  constructor
  · exact common
  · intro j other hOther
    rw [same] at hOther
    rcases set_session hOther with ⟨_, rfl⟩ | ⟨apart, old⟩
    · exact own
    · exact (others j other apart old).1
  · intro j k first second apart hFirst hSecond
    rw [same] at hFirst hSecond
    rcases set_session hFirst with ⟨atFirst, rfl⟩ | ⟨farFirst, oldFirst⟩
    · rcases set_session hSecond with ⟨atSecond, _⟩ | ⟨farSecond, oldSecond⟩
      · exact absurd (atFirst.trans atSecond.symm) apart
      · exact (others k second farSecond oldSecond).2.1
    · rcases set_session hSecond with ⟨_, rfl⟩ | ⟨farSecond, oldSecond⟩
      · exact (others j first farFirst oldFirst).2.2
      · exact holds.pair j k first second apart oldFirst oldSecond

theorem holds_step {sys : System δ κ ρ W ι σ} {g : Guard δ κ ρ ι} {known a : Assertion δ κ ρ W}
    (stable : Stable sys g known a) {s s' : State δ κ ρ W} (separate : sys.Separate s) (knows : known.Holds s)
    (holds : a.Holds s) (step : Step sys g s s') : a.Holds s' := by
  obtain ⟨action, allowed, step⟩ := step
  rcases step_moves step with ⟨request, phase, outside, _, started, rfl⟩ | ⟨i, session, label, phase, pending,
    found, cause, moves, _, same⟩
  · obtain ⟨common, own⟩ := stable.start knows.common holds.common started
    exact holds.add common own fun j other found =>
      stable.startOther (knows.own j other found) holds.common (holds.own j other found) started
  have granted : ∀ input, label = some input → g.alone s.db s.outside session.phase input = true ∧
      ∀ (j : Nat) other, j ≠ i → s.sessions[j]? = some other →
          g.beside session.phase input other.phase = true := by
    rintro input rfl
    rcases cause with ⟨_, nothing⟩ | ⟨input', rfl, given⟩
    · cases nothing
    · cases given
      exact Guard.allows_run allowed found
  obtain ⟨common, own⟩ := stable.own knows.common (knows.own i session found) holds.common
    (holds.own i session found)
    (fun input given => (granted input given).1) moves
  exact holds.move same common own fun j other apart hOther =>
    stable.other knows.common (knows.own i session found) (knows.own j other hOther)
      (knows.pair i j session other (Ne.symm apart) found hOther)
        (knows.pair j i other session apart hOther found)
      holds.common (holds.own i session found) (holds.own j other hOther)
      (holds.pair i j session other (Ne.symm apart) found hOther)
        (holds.pair j i other session apart hOther found)
      (fun input given => ⟨(granted input given).1, (granted input given).2 j other apart hOther⟩)
      (separate i j session other (Ne.symm apart) found hOther) moves

/-- A stable assertion holds throughout every allowed run in which the known one does. -/
theorem holds_runs {sys : System δ κ ρ W ι σ} (symmetric : ∀ w v, sys.conflicts w v = sys.conflicts v w)
    {g : Guard δ κ ρ ι} {known a : Assertion δ κ ρ W} (stable : Stable sys g known a) {s s' : State δ κ ρ W}
    (knows : ∀ t, Runs sys g s t → known.Holds t) (separate : sys.Separate s) (holds : a.Holds s)
    (run : Runs sys g s s') :
    sys.Separate s' ∧ a.Holds s' := by
  induction run with
  | refl => exact ⟨separate, holds⟩
  | tail before step ih =>
    obtain ⟨separate, holds⟩ := ih
    refine ⟨?_, holds_step stable separate (knows _ before) holds step⟩
    obtain ⟨action, _, step⟩ := step
    exact separate_step symmetric separate step

theorem System.separate_idle {sys : System δ κ ρ W ι σ} {s : State δ κ ρ W} (idle : s.sessions = []) :
    sys.Separate s := by
  intro i j first second _ found
  rw [idle] at found
  cases found

theorem Assertion.holds_idle {a : Assertion δ κ ρ W} {s : State δ κ ρ W} (idle : s.sessions = [])
    (common : a.common s.db s.outside) : a.Holds s where
  common := common
  own i session found := by
    rw [idle] at found
    cases found
  pair i j first second _ found := by
    rw [idle] at found
    cases found

theorem holds_idle_runs {sys : System δ κ ρ W ι σ} (symmetric : ∀ w v, sys.conflicts w v = sys.conflicts v w)
    {g : Guard δ κ ρ ι} {known a : Assertion δ κ ρ W} (stable : Stable sys g known a) {s s' : State δ κ ρ W}
    (knows : ∀ t, Runs sys g s t → known.Holds t) (idle : s.sessions = []) (common : a.common s.db s.outside)
    (run : Runs sys g s s') : sys.Separate s' ∧ a.Holds s' :=
  holds_runs symmetric stable knows (System.separate_idle idle) (Assertion.holds_idle idle common) run

end ManifestCV.Foundation.Transactions
