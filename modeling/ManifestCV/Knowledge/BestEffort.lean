import ManifestCV.Knowledge.Points

namespace ManifestCV.Knowledge.BestEffort

open Foundation Knowledge

structure LibraryError where
  isTimeout : Bool
  text : Str

inductive Raised where
  | aiIntegrationError (message : Str)
  | retrievalError (message : Str)
  | library (error : LibraryError)

abbrev Try (α : Type) := Except LibraryError α

variable {V : Type}

/-- How the calls that follow a commit end: the embedding calls by the chunk's index and in the order in which
    they finish, entering and leaving the lock, and the two calls to Qdrant. -/
structure Services (V : Type) where
  qdrantClient : Try Unit
  geminiClient : Nat → Try Unit
  embedContent : Nat → Try (Option V)
  finishing : List Nat
  enterLock : Try Unit
  exitLock : Try Unit
  delete : Try Unit
  upsert : Try Unit

def throwing {α : Type} : Try α → Except Raised α
  | .ok value => .ok value
  | .error error => .error (.library error)

def call (action : Str) : Try Unit → Except Raised Unit
  | .ok () => .ok ()
  | .error error =>
    .error (.retrievalError ("Qdrant ".toList ++ action ++
      if error.isTimeout then " did not respond within 15s".toList else " failed: ".toList ++ error.text))

def embedText (client : Try Unit) (response : Try (Option V)) : Except Raised V :=
  match client with
  | .error error => .error (.library error)
  | .ok () =>
    match response with
    | .error error =>
      .error (.aiIntegrationError (if error.isTimeout then
        "Gemini embedding generation did not respond within 30s".toList
        else "Gemini embedding generation failed: ".toList ++ error.text))
    | .ok none => .error (.aiIntegrationError "Gemini returned no embedding".toList)
    | .ok (some vector) => .ok vector

def failure {α : Type} : Except Raised α → Option Raised
  | .ok _ => none
  | .error raised => some raised

def finished (finishing : List Nat) (count : Nat) : List Nat :=
  finishing.filter (· < count) ++ List.range count

/-- `asyncio.gather`: the exception of the call that fails first, or all results. -/
def gather (finishing : List Nat) (count : Nat) (result : Nat → Except Raised V) : Except Raised (List V) :=
  match (finished finishing count).findSome? fun i => failure (result i) with
  | some raised => .error raised
  | none => (List.range count).mapM result

/-- `async with _reindex_lock(user_id)`: an exception on the way out replaces the body's. -/
def withLock (services : Services V) (body : Except Raised Unit) : Except Raised Unit :=
  match services.enterLock, services.exitLock with
  | .error error, _ => .error (.library error)
  | .ok (), .error error => .error (.library error)
  | .ok (), .ok () => body

def indexKnowledgeBase (services : Services V) (content : Str) : Except Raised Unit := do
  throwing services.qdrantClient
  let chunks := chunkMarkdown content
  let _ ← gather services.finishing chunks.length fun i =>
    embedText (services.geminiClient i) (services.embedContent i)
  withLock services do
    call "delete".toList services.delete
    if chunks = [] then pure () else call "upsert".toList services.upsert

def deleteKnowledgeBase (services : Services V) : Except Raised Unit := do
  throwing services.qdrantClient
  withLock services (call "delete".toList services.delete)

def bestEffort : Except Raised Unit → Except Raised Unit
  | .ok () | .error (.aiIntegrationError _) | .error (.retrievalError _) => .ok ()
  | .error (.library error) => .error (.library error)

/-- A request whose commit succeeded, with the content it indexes. -/
inductive Committed where
  | create (content : Str)
  | update (content : Str)
  | delete

def Committed.successStatus : Committed → Nat
  | .create _ => 201
  | .update _ | .delete => 200

def afterCommit (services : Services V) : Committed → Except Raised Unit
  | .create content | .update content => bestEffort (indexKnowledgeBase services content)
  | .delete => bestEffort (deleteKnowledgeBase services)

def respond (services : Services V) (request : Committed) : Nat :=
  match afterCommit services request with
  | .ok () => request.successStatus
  | .error _ => 500

def isOk {α : Type} : Try α → Bool
  | .ok _ => true
  | .error _ => false

def embeds (services : Services V) (i : Nat) : Bool :=
  isOk (services.geminiClient i) &&
    match services.embedContent i with
    | .ok (some _) => true
    | _ => false

def firstFailing (services : Services V) (content : Str) : Option Nat :=
  (finished services.finishing (chunkMarkdown content).length).find? fun i => !embeds services i

/-- No exception but the two that are caught: from the Qdrant client, from the Gemini client of the embedding
    call that fails first, nor, where the lock is reached, from the lock. -/
def OnlyCaught (services : Services V) (request : Committed) : Prop :=
  isOk services.qdrantClient = true ∧
    match request with
    | .create content | .update content =>
      match firstFailing services content with
      | some i => isOk (services.geminiClient i) = true
      | none => isOk services.enterLock = true ∧ isOk services.exitLock = true
    | .delete => isOk services.enterLock = true ∧ isOk services.exitLock = true

section Failures

variable {services : Services V}

def Absorbed (result : Except Raised Unit) : Prop := bestEffort result = .ok ()

theorem absorbed_call (action : Str) (result : Try Unit) : Absorbed (call action result) := by
  cases result <;> rfl

theorem absorbed_bind {first : Except Raised Unit} {rest : Except Raised Unit} (absorbs : Absorbed first)
    (after : Absorbed rest) :
    Absorbed (first >>= fun _ => rest) := by
  cases first with
  | ok => exact after
  | error raised => exact absorbs

theorem absorbed_withLock {body : Except Raised Unit} (absorbs : Absorbed body) :
    Absorbed (withLock services body) ↔ isOk services.enterLock = true ∧ isOk services.exitLock = true := by
  unfold withLock
  cases services.enterLock with
  | error error => exact ⟨fun absorbed => (nomatch absorbed), fun both => (nomatch both.1)⟩
  | ok =>
    cases services.exitLock with
    | error error => exact ⟨fun absorbed => (nomatch absorbed), fun both => (nomatch both.2)⟩
    | ok => exact ⟨fun _ => ⟨rfl, rfl⟩, fun _ => absorbs⟩

theorem absorbed_client {rest : Except Raised Unit} :
    Absorbed (throwing services.qdrantClient >>= fun _ => rest) ↔ isOk services.qdrantClient = true ∧
      Absorbed rest := by
  cases services.qdrantClient with
  | ok => exact ⟨fun absorbed => ⟨rfl, absorbed⟩, fun both => both.2⟩
  | error error => exact ⟨fun absorbed => (nomatch absorbed), fun both => (nomatch both.1)⟩

theorem failure_embedText {i : Nat} : embeds services i = true ↔
    failure (embedText (services.geminiClient i) (services.embedContent i)) = none := by
  unfold embeds embedText
  cases services.geminiClient i with
  | error error => exact ⟨fun absorbed => (nomatch absorbed), fun absorbed => (nomatch absorbed)⟩
  | ok =>
    cases services.embedContent i with
    | error error => exact ⟨fun absorbed => (nomatch absorbed), fun absorbed => (nomatch absorbed)⟩
    | ok answer => cases answer <;> simp [isOk, failure]

theorem findSome_find {α β : Type} {p : α → Bool} {f : α → Option β} (same : ∀ a, p a = (f a).isSome)
    (items : List α) :
    items.findSome? f = (items.find? p).bind f := by
  induction items with
  | nil => rfl
  | cons a items ih =>
    rw [List.findSome?_cons, List.find?_cons, same, ih]
    cases here : f a <;> simp [here]

theorem mapM_succeeds {α β : Type} {f : α → Except Raised β} {items : List α}
    (each : ∀ a ∈ items, failure (f a) = none) :
    ∃ results, items.mapM f = .ok results := by
  induction items with
  | nil => exact ⟨[], rfl⟩
  | cons a items ih =>
    obtain ⟨rest, done⟩ := ih fun b member => each b (List.mem_cons_of_mem _ member)
    have here := each a List.mem_cons_self
    cases first : f a with
    | error raised =>
      rw [first] at here
      cases here
    | ok result => exact ⟨result :: rest, by rw [List.mapM_cons, first, done]; rfl⟩

/-- The first embedding call to fail decides: its exception is caught unless it comes from the Gemini
    client. -/
theorem gather_embeddings (content : Str) (rest : Except Raised Unit) :
    Absorbed (gather services.finishing (chunkMarkdown content).length (fun i =>
        embedText (services.geminiClient i) (services.embedContent i)) >>= fun _ => rest) ↔
      match firstFailing services content with
      | some i => isOk (services.geminiClient i) = true
      | none => Absorbed rest := by
  have same : ∀ i, (!embeds services i) =
      (failure (embedText (services.geminiClient i) (services.embedContent i))).isSome := by
    intro i
    cases failing : failure (embedText (services.geminiClient i) (services.embedContent i)) with
    | none => rw [failure_embedText.mpr failing]; rfl
    | some raised =>
      have fails : embeds services i = false := by
        rw [Bool.eq_false_iff]
        intro embedded
        rw [failure_embedText.mp embedded] at failing
        cases failing
      rw [fails]
      rfl
  rw [gather, findSome_find same, firstFailing]
  cases found : (finished services.finishing (chunkMarkdown content).length).find? fun i =>
    !embeds services i with
  | none =>
    have each : ∀ i ∈ List.range (chunkMarkdown content).length,
        failure (embedText (services.geminiClient i) (services.embedContent i)) = none := by
      intro i member
      have embedded := List.find?_eq_none.mp found i (List.mem_append_right _ member)
      exact failure_embedText.mp (by simpa using embedded)
    obtain ⟨vectors, done⟩ := mapM_succeeds each
    simp only [Option.bind_none, done]
    exact Iff.rfl
  | some i =>
    have fails := List.find?_some found
    rw [same] at fails
    obtain ⟨raised, failing⟩ := Option.isSome_iff_exists.mp fails
    rw [Option.bind_some, failing]
    dsimp only
    unfold embedText at failing
    cases client : services.geminiClient i with
    | error error =>
      rw [client] at failing
      cases failing
      exact ⟨fun absorbed => (nomatch absorbed), fun built => (nomatch built)⟩
    | ok =>
      refine iff_of_true ?_ rfl
      rw [client] at failing
      cases response : services.embedContent i with
      | error error =>
        rw [response] at failing
        cases failing
        rfl
      | ok answer =>
        rw [response] at failing
        cases answer with
        | none =>
          cases failing
          rfl
        | some vector => cases failing

theorem absorbed_index (content : Str) : Absorbed (indexKnowledgeBase services content) ↔
    isOk services.qdrantClient = true ∧
      match firstFailing services content with
      | some i => isOk (services.geminiClient i) = true
      | none => isOk services.enterLock = true ∧ isOk services.exitLock = true := by
  have body : Absorbed (call "delete".toList services.delete >>= fun _ =>
      if chunkMarkdown content = [] then pure () else call "upsert".toList services.upsert) := by
    refine absorbed_bind (absorbed_call _ _) ?_
    split
    · rfl
    · exact absorbed_call _ _
  rw [indexKnowledgeBase, absorbed_client, gather_embeddings, absorbed_withLock body]

theorem absorbed_delete : Absorbed (deleteKnowledgeBase services) ↔
    isOk services.qdrantClient = true ∧ isOk services.enterLock = true ∧ isOk services.exitLock = true := by
  rw [deleteKnowledgeBase, absorbed_client, absorbed_withLock (absorbed_call _ _)]

theorem bestEffort_cases (result : Except Raised Unit) :
    Absorbed result ∨ ∃ error, bestEffort result = .error error := by
  cases result with
  | ok => exact .inl rfl
  | error raised =>
    cases raised with
    | library error => exact .inr ⟨_, rfl⟩
    | _ => exact .inl rfl

theorem respond_success {request : Committed} {result : Except Raised Unit}
    (runs : afterCommit services request = bestEffort result) :
    respond services request = request.successStatus ↔ Absorbed result := by
  rw [respond, runs]
  rcases bestEffort_cases result with absorbed | ⟨error, raised⟩
  · exact iff_of_true (by rw [absorbed]) absorbed
  · rw [raised]
    refine iff_of_false ?_ ?_
    · cases request <;> exact fun same => (nomatch same)
    · rw [Absorbed, raised]
      exact fun same => (nomatch same)

end Failures

/-- A committed save answers with success exactly when nothing but the two caught exception types is raised
    after it. -/
theorem committed_succeeds_iff (services : Services V) (request : Committed) :
    respond services request = request.successStatus ↔ OnlyCaught services request := by
  cases request with
  | create content => exact (respond_success rfl).trans (absorbed_index content)
  | update content => exact (respond_success rfl).trans (absorbed_index content)
  | delete => exact (respond_success rfl).trans absorbed_delete

def lockDown : Services Unit where
  qdrantClient := .ok ()
  geminiClient _ := .ok ()
  embedContent _ := .ok (some ())
  finishing := []
  enterLock := .error ⟨false, "Error 111 connecting to valkey:6379. Connection refused.".toList⟩
  exitLock := .ok ()
  delete := .ok ()
  upsert := .ok ()

theorem lock_failure_reported :
    respond lockDown (.create "# Skills".toList) = 500 ∧ respond lockDown (.update "# Skills".toList) = 500 ∧
      respond lockDown .delete = 500 := by
  decide

end ManifestCV.Knowledge.BestEffort
