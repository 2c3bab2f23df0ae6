import Mathlib.Data.List.Nodup
import Mathlib.Logic.Function.Basic
import ManifestCV.Foundation.Machine
import ManifestCV.Knowledge.Points

namespace ManifestCV.Knowledge.Retrieval

open Foundation Foundation.Collection

structure PointStruct (V : Type) where
  id : Str
  vector : V
  userId : Nat
  chunk : Str
  deriving DecidableEq

variable {V S : Type}

def pointStructs (userId : Nat) (chunks : List Str) (vectors : List V) : List (PointStruct V) :=
  (chunks.zip vectors).zipIdx.map fun ((chunk, vector), i) => ⟨pointId userId i, vector, userId, chunk⟩

abbrev userFilter (userId : Nat) (points : List (PointStruct V)) : List (PointStruct V) :=
  ownedBy PointStruct.userId userId points

inductive Change (V : Type) where
  | keep
  | clear
  | write (new : List (PointStruct V))

def Change.apply (userId : Nat) : Change V → List (PointStruct V) → List (PointStruct V)
  | .keep, points => points
  | .clear, points => without PointStruct.userId userId points
  | .write new, points => put PointStruct.id new points

inductive Outcome (S : Type) where
  | done
  | raised
  | found (results : List (Str × S))

/-- How the calls that one `index_knowledge_base` makes end: what `embed_text` returns for the chunk at an
    index, and whether the lock, the delete and the upsert succeed. -/
structure Answers (V : Type) where
  embedded : Nat → Option V
  locked : Bool
  deleted : Bool
  upserted : Bool

def Answers.gather (answers : Answers V) (chunks : List Str) : Option (List V) :=
  chunks.zipIdx.mapM fun chunk => answers.embedded chunk.2

/-- `index_knowledge_base` with nothing else going on. -/
def indexKnowledgeBase (userId : Nat) (content : Str) (answers : Answers V) (points : List (PointStruct V)) :
    Outcome S × List (PointStruct V) :=
  let chunks := chunkMarkdown content
  match answers.gather chunks with
  | none => (.raised, points)
  | some vectors =>
    if !answers.locked then (.raised, points)
    else if !answers.deleted then (.raised, points)
    else if chunks = [] then (.done, Change.clear.apply userId points)
    else if !answers.upserted then (.raised, Change.clear.apply userId points)
    else (.done, (Change.write (pointStructs userId chunks vectors)).apply userId
      (Change.clear.apply userId points))

inductive Call where
  | index (content : Str)
  | delete
  | search (query : Str) (topK : Nat)

/-- What a call waits for. The lock is held from `clear` to `release`. -/
inductive Phase (V S : Type) where
  | embed
  | acquire (vectors : List V)
  | clear (vectors : List V)
  | upsert (vectors : List V)
  | release (failed : Bool)
  | query (vector : V)
  | finished (outcome : Outcome S)

inductive Input (V : Type) where
  | answer
  | embedded (vectors : List V)
  | unavailable

/-- The scores of `query_points`, which ranks the filtered points only. -/
structure Ranking (V S : Type) where
  rank : V → List (PointStruct V) → Nat → List (PointStruct V × S)
  ranks : ∀ vector points topK, ∀ scored ∈ rank vector points topK, scored.1 ∈ points

structure State (V S : Type) where
  points : List (PointStruct V)
  locks : Nat → Option Nat
  calls : Nat → Nat → Option (Call × Phase V S)

def initialState : State V S := ⟨[], fun _ => none, fun _ _ => none⟩

inductive Event (V : Type) where
  | start (userId number : Nat) (call : Call)
  | advance (userId number : Nat) (input : Input V)
  /-- The timeout of a lock. -/
  | expire (userId : Nat)

def Event.userId : Event V → Nat
  | .start userId _ _ | .advance userId _ _ | .expire userId => userId

def Call.chunks : Call → List Str
  | .index content => chunkMarkdown content
  | _ => []

def Call.texts : Call → List Str
  | .search query _ => [query]
  | call => call.chunks

def Call.first : Call → Phase V S
  | .delete => .acquire []
  | _ => .embed

def queryPoints (ranking : Ranking V S) (userId : Nat) (vector : V) (topK : Nat)
    (points : List (PointStruct V)) :
    List (PointStruct V × S) :=
  ranking.rank vector (userFilter userId points) topK

def next (ranking : Ranking V S) (points : List (PointStruct V)) (lock : Option Nat) (userId number : Nat)
    (call : Call) (phase : Phase V S) (input : Input V) : Option (Change V × Option Nat × Phase V S) :=
  match phase, input with
  | .embed, .unavailable => if call.texts = [] then none else some (.keep, lock, .finished .raised)
  | .embed, .embedded vectors =>
    match call, vectors with
    | .search _ _, [vector] => some (.keep, lock, .query vector)
    | .search _ _, _ => none
    | _, _ => if vectors.length = call.texts.length then some (.keep, lock, .acquire vectors) else none
  | .embed, .answer => none
  | .acquire _, .unavailable => some (.keep, lock, .finished .raised)
  | .acquire vectors, _ => if lock = none then some (.keep, some number, .clear vectors) else none
  | .clear _, .unavailable => some (.keep, lock, .release true)
  | .clear vectors, _ => some (.clear, lock, if call.chunks = [] then .release false else .upsert vectors)
  | .upsert _, .unavailable => some (.keep, lock, .release true)
  | .upsert vectors, _ => some (.write (pointStructs userId call.chunks vectors), lock, .release false)
  | .release _, .unavailable => some (.keep, lock, .finished .raised)
  | .release failed, _ =>
    -- A lock that is no longer the call's own raises an error of its own.
    if lock = some number then some (.keep, none, .finished (if failed then .raised else .done))
    else some (.keep, lock, .finished .raised)
  | .query _, .unavailable => some (.keep, lock, .finished .raised)
  | .query vector, _ =>
    match call with
    | .search _ topK => some (.keep, lock, .finished (.found
        ((queryPoints ranking userId vector topK points).map fun scored => (scored.1.chunk, scored.2))))
    | _ => none
  | .finished _, _ => none

def State.set (s : State V S) (userId number : Nat) (points : List (PointStruct V)) (lock : Option Nat)
    (running : Call × Phase V S) :
    State V S where
  points := points
  locks := Function.update s.locks userId lock
  calls := Function.update s.calls userId (Function.update (s.calls userId) number (some running))

def step (ranking : Ranking V S) (s : State V S) : Event V → Option (State V S)
  | .start userId number call =>
    match s.calls userId number with
    | some _ => none
    | none => some (s.set userId number s.points (s.locks userId) (call, call.first))
  | .advance userId number input =>
    match s.calls userId number with
    | none => none
    | some (call, phase) =>
      (next ranking s.points (s.locks userId) userId number call phase input).map fun (change, lock, phase) =>
        s.set userId number (change.apply userId s.points) lock (call, phase)
  | .expire userId => some { s with locks := Function.update s.locks userId none }

section Points

theorem pointStructs_user {userId : Nat} {chunks : List Str} {vectors : List V} :
    ∀ point ∈ pointStructs userId chunks vectors,
    point.userId = userId ∧ ∃ i, point.id = pointId userId i := by
  intro point member
  obtain ⟨⟨_, i⟩, _, rfl⟩ := List.mem_map.mp member
  exact ⟨rfl, i, rfl⟩

theorem clear_own (userId : Nat) (points : List (PointStruct V)) :
    userFilter userId (Change.clear.apply userId points) = [] :=
  ownedBy_without

theorem write_own {userId : Nat} {points : List (PointStruct V)} (empty : userFilter userId points = [])
    (chunks : List Str) (vectors : List V) :
    userFilter userId ((Change.write (pointStructs userId chunks vectors)).apply userId points) =
      pointStructs userId chunks vectors :=
  ownedBy_put_empty empty fun point member => (pointStructs_user point member).1

theorem pointStructs_chunks (userId : Nat) {chunks : List Str} {vectors : List V}
    (sized : vectors.length = chunks.length) :
    (pointStructs userId chunks vectors).map (·.chunk) = chunks := by
  have chunk : ((·.chunk) ∘ fun ((chunk, vector), i) =>
    PointStruct.mk (pointId userId i) vector userId chunk :
      (Str × V) × Nat → Str) = Prod.fst ∘ Prod.fst := rfl
  rw [pointStructs, List.map_map, chunk, ← List.map_map, List.zipIdx_map_fst, List.map_fst_zip sized.ge]

theorem pointId_index {userId i j : Nat} (same : pointId userId i = pointId userId j) : i = j := by
  have number := List.append_cancel_left same
  have read := congrArg Pdf.readNat number
  rwa [← List.append_nil (decimal i), ← List.append_nil (decimal j),
    Pdf.readNat_decimal i [] (fun _ head => nomatch head),
    Pdf.readNat_decimal j [] (fun _ head => nomatch head)] at read

theorem pointStructs_ids (userId : Nat) (chunks : List Str) (vectors : List V) :
    ((pointStructs userId chunks vectors).map (·.id)).Nodup := by
  have id : ((·.id) ∘ fun ((chunk, vector), i) => PointStruct.mk (pointId userId i) vector userId chunk :
      (Str × V) × Nat → Str) = pointId userId ∘ Prod.snd := rfl
  rw [pointStructs, List.map_map, id, ← List.map_map, List.zipIdx_map_snd]
  exact List.Nodup.map (fun _ _ same => pointId_index same) List.nodup_range'

end Points

section Failures

/-- The user's points are as before when the call raises, and exactly the new chunks when it returns. -/
def AllOrNothing (userId : Nat) (content : Str) (answers : Answers V) (points : List (PointStruct V)) :
    Prop :=
  match (indexKnowledgeBase userId content answers points : Outcome S × List (PointStruct V)) with
  | (.raised, after) => userFilter userId after = userFilter userId points
  | (_, after) => ∃ vectors, answers.gather (chunkMarkdown content) = some vectors ∧
      userFilter userId after = pointStructs userId (chunkMarkdown content) vectors

def Answers.FailsLast (answers : Answers V) (content : Str) : Prop :=
  (answers.gather (chunkMarkdown content)).isSome ∧ chunkMarkdown content ≠ [] ∧ answers.locked = true ∧
    answers.deleted = true ∧
    answers.upserted = false

theorem pointStructs_nil (userId : Nat) (vectors : List V) : pointStructs userId [] vectors = [] := rfl

/-- Re-indexing is all or nothing exactly when the upsert does not fail after the delete, or there was nothing
    to lose. -/
theorem reindexing_all_or_nothing (S : Type) (userId : Nat) (content : Str) (answers : Answers V)
    (points : List (PointStruct V)) :
    AllOrNothing (S := S) userId content answers points ↔
      (answers.FailsLast content → userFilter userId points = []) := by
  unfold AllOrNothing Answers.FailsLast indexKnowledgeBase
  dsimp only
  cases gathered : answers.gather (chunkMarkdown content) with
  | none => simp
  | some vectors =>
    dsimp only
    cases locked : answers.locked with
    | false => simp
    | true =>
      cases deleted : answers.deleted with
      | false => simp
      | true =>
        by_cases empty : chunkMarkdown content = []
        · simp [empty, clear_own, pointStructs_nil]
        · cases upserted : answers.upserted with
          | false =>
            simp only [Bool.not_true, Bool.false_eq_true, if_false, empty, Bool.not_false, if_true, clear_own]
            constructor
            · exact fun same _ => same.symm
            · exact fun nothing => (nothing ⟨rfl, empty, trivial, trivial, trivial⟩).symm
          | true => simp [empty, write_own (clear_own userId points)]

/-- An upsert that fails after the delete leaves a user without points. -/
theorem upsert_fails_last : userFilter 1 (pointStructs 1 ["# Skills".toList] [0]) ≠ [] ∧
    ¬AllOrNothing (S := Nat) 1 "# Projects".toList ⟨fun _ => some 1, true, true, false⟩
      (pointStructs 1 ["# Skills".toList] [0]) := by
  refine ⟨by decide, fun kept => ?_⟩
  have lost : userFilter 1 (Change.clear.apply 1 (pointStructs 1 ["# Skills".toList] [0])) =
    userFilter 1 (pointStructs 1 ["# Skills".toList] [0]) := kept
  exact absurd lost (by decide)

def Answers.inputs (answers : Answers V) (content : Str) : List (Input V) :=
  match answers.gather (chunkMarkdown content) with
  | none => [.unavailable]
  | some vectors => .embedded vectors ::
    if answers.locked then .answer ::
      if answers.deleted then
        if chunkMarkdown content = [] then [.answer, .answer]
        else [.answer, if answers.upserted then .answer else .unavailable, .answer]
      else [.unavailable, .answer]
    else [.unavailable]

section Alone

variable {ranking : Ranking V S} {userId number : Nat} {call : Call} {phase phase' : Phase V S}
  {input : Input V} {s : State V S}

@[simp] theorem set_points {points : List (PointStruct V)} {lock : Option Nat} {running : Call × Phase V S} :
    (s.set userId number points lock running).points = points := rfl

@[simp] theorem set_locks {points : List (PointStruct V)} {lock : Option Nat} {running : Call × Phase V S} :
    (s.set userId number points lock running).locks userId = lock := Function.update_self ..

@[simp] theorem set_calls {points : List (PointStruct V)} {lock : Option Nat} {running : Call × Phase V S} :
    (s.set userId number points lock running).calls userId number = some running := by
  show Function.update s.calls userId _ userId number = some running
  rw [Function.update_self, Function.update_self]

theorem perform_advance (runs : s.calls userId number = some (call, phase)) {change : Change V}
    {lock : Option Nat} (goes : next ranking s.points (s.locks userId) userId number call phase input =
      some (change, lock, phase'))
    (inputs : List (Input V)) :
    Machine.perform (step ranking) (fun _ _ => true) s ((input :: inputs).map (.advance userId number)) =
      Machine.perform (step ranking) (fun _ _ => true)
        (s.set userId number (change.apply userId s.points) lock (call, phase'))
        (inputs.map (.advance userId number)) := by
  rw [List.map_cons, Machine.perform, if_pos rfl, step, runs]
  dsimp only
  rw [goes]
  rfl

theorem gather_length {answers : Answers V} {chunks : List Str} {vectors : List V}
    (gathered : answers.gather chunks = some vectors) :
    vectors.length = chunks.length := by
  have length : ∀ (items : List (Str × Nat)) (answered : List V),
    items.mapM (fun chunk => answers.embedded chunk.2) = some answered →
      answered.length = items.length := by
    intro items
    induction items with
    | nil =>
      intro answered done
      cases done
      rfl
    | cons item items ih =>
      intro answered done
      rw [List.mapM_cons] at done
      obtain ⟨first, _, done⟩ := Option.bind_eq_some_iff.mp done
      obtain ⟨rest, others, same⟩ := Option.bind_eq_some_iff.mp done
      cases same
      exact congrArg (· + 1) (ih rest others)
  rw [length _ _ gathered, List.length_zipIdx]

theorem next_acquire {points : List (PointStruct V)} {lock : Option Nat} (free : lock = none)
    (vectors : List V) :
    next ranking points lock userId number call (.acquire vectors) .answer =
      some (.keep, some number, .clear vectors) :=
  if_pos free

theorem next_release {points : List (PointStruct V)} {lock : Option Nat} (held : lock = some number)
    (failed : Bool) :
    next ranking points lock userId number call (.release failed) .answer =
      some (.keep, none, .finished (if failed then .raised else .done)) :=
  if_pos held

theorem perform_release {failed : Bool} (runs : s.calls userId number = some (call, .release failed))
    (held : s.locks userId = some number) : ∃ s',
      Machine.perform (step ranking) (fun _ _ => true) s ([.answer].map (.advance userId number)) = some s' ∧
        s'.points = s.points ∧ s'.calls userId number =
            some (call, .finished (if failed then .raised else .done)) := by
  rw [perform_advance runs (next_release held failed)]
  exact ⟨_, rfl, rfl, set_calls⟩

theorem perform_upsert {content : Str} {vectors : List V}
    (runs : s.calls userId number = some (.index content, .upsert vectors))
    (held : s.locks userId = some number) (upserted : Bool) : ∃ s',
      Machine.perform (step ranking) (fun _ _ => true) s
          ([if upserted then .answer else .unavailable, .answer].map (.advance userId number)) = some s' ∧
        s'.points = (if upserted then
          (Change.write (pointStructs userId (chunkMarkdown content) vectors)).apply userId s.points
          else s.points) ∧
        s'.calls userId number = some (.index content, .finished (if upserted then .done else .raised)) := by
  cases upserted with
  | false =>
    rw [if_neg (by decide), perform_advance runs rfl]
    exact perform_release set_calls (set_locks.trans held)
  | true =>
    rw [if_pos rfl, perform_advance runs rfl]
    exact perform_release set_calls (set_locks.trans held)

theorem perform_clear {content : Str} {vectors : List V}
    (runs : s.calls userId number = some (.index content, .clear vectors))
    (held : s.locks userId = some number) (upserted : Bool) : ∃ s',
      Machine.perform (step ranking) (fun _ _ => true) s
        ((if chunkMarkdown content = [] then [.answer, .answer]
          else [.answer, if upserted then .answer else .unavailable, .answer]).map (.advance userId number)) =
            some s' ∧
        ∃ outcome, s'.calls userId number = some (.index content, .finished outcome) ∧ (outcome, s'.points) =
          if chunkMarkdown content = [] then (.done, Change.clear.apply userId s.points)
          else if !upserted then (.raised, Change.clear.apply userId s.points)
          else (.done,
            (Change.write (pointStructs userId (chunkMarkdown content) vectors)).apply userId
                (Change.clear.apply userId s.points)) := by
  by_cases empty : chunkMarkdown content = []
  · have goes : next ranking s.points (s.locks userId) userId number (.index content)
      (.clear vectors) .answer =
        some (.clear, s.locks userId, .release false) :=
          congrArg (fun phase => some (_, _, phase)) (if_pos empty)
    rw [if_pos empty, if_pos empty, perform_advance runs goes]
    obtain ⟨s', done, points, calls⟩ := @perform_release V S ranking userId number _ _ false
      (@set_calls V S userId number s (Change.clear.apply userId s.points) _ _) (set_locks.trans held)
    exact ⟨s', done, .done, calls, congrArg (Prod.mk _) points⟩
  · have goes : next ranking s.points (s.locks userId) userId number (.index content)
      (.clear vectors) .answer =
        some (.clear, s.locks userId, .upsert vectors) :=
          congrArg (fun phase => some (_, _, phase)) (if_neg empty)
    rw [if_neg empty, if_neg empty, perform_advance runs goes]
    obtain ⟨s', done, points, calls⟩ := @perform_upsert V S ranking userId number _ _ _
      (@set_calls V S userId number s (Change.clear.apply userId s.points) _ _)
        (set_locks.trans held) upserted
    refine ⟨s', done, _, calls, ?_⟩
    rw [points]
    cases upserted with
    | false => rfl
    | true => rfl

theorem perform_alone (ranking : Ranking V S) (answers : Answers V) (content : Str)
    (runs : s.calls userId number = some (.index content, .embed)) (free : s.locks userId = none) :
    ∃ s', Machine.perform (step ranking) (fun _ _ => true) s
      ((answers.inputs content).map (.advance userId number)) = some s' ∧
      s'.points = (indexKnowledgeBase userId content answers s.points : Outcome S × List (PointStruct V)).2 ∧
      s'.calls userId number =
          some (.index content, .finished (indexKnowledgeBase userId content answers s.points).1) := by
  unfold Answers.inputs indexKnowledgeBase
  dsimp only
  cases gathered : answers.gather (chunkMarkdown content) with
  | none =>
    have texts : (Call.index content).texts ≠ [] := by
      intro empty
      have nothing : chunkMarkdown content = [] := empty
      rw [nothing] at gathered
      cases gathered
    have goes : next ranking s.points (s.locks userId) userId number (.index content) .embed .unavailable =
        some (.keep, s.locks userId, .finished .raised) := if_neg texts
    rw [perform_advance runs goes]
    exact ⟨_, rfl, rfl, set_calls⟩
  | some vectors =>
    have goes : next ranking s.points (s.locks userId) userId number (.index content) .embed
      (.embedded vectors) =
        some (.keep, s.locks userId, .acquire vectors) := if_pos (gather_length gathered)
    dsimp only
    rw [perform_advance runs goes]
    cases answers.locked with
    | false =>
      rw [if_neg (by decide), perform_advance set_calls rfl]
      exact ⟨_, rfl, rfl, set_calls⟩
    | true =>
      rw [if_pos rfl, perform_advance set_calls (next_acquire (set_locks.trans free) vectors)]
      cases answers.deleted with
      | false =>
        rw [if_neg (by decide), perform_advance set_calls rfl]
        exact perform_release set_calls (set_locks.trans set_locks)
      | true =>
        rw [if_pos rfl]
        obtain ⟨s', done, outcome, calls, same⟩ :=
          @perform_clear V S ranking userId number _ _ _ set_calls set_locks answers.upserted
        refine ⟨s', done, congrArg Prod.snd same, calls.trans ?_⟩
        exact congrArg (fun outcome => some (Call.index content, Phase.finished outcome))
          (congrArg Prod.fst same)

end Alone

end Failures

end ManifestCV.Knowledge.Retrieval
