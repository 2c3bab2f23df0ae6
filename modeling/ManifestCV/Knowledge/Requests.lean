import ManifestCV.Foundation.Transactions
import ManifestCV.Knowledge.Points

namespace ManifestCV.Knowledge

open Foundation Foundation.Transactions

structure CareerKnowledgeBase where
  id : Nat
  userId : Nat
  rawInput : Str
  content : Str
  deriving DecidableEq

abbrev Table := List CareerKnowledgeBase

/-- `model_dump(exclude_unset=True)` of an update: `none` is a field that was not sent, `some none` a null. -/
structure UpdateFields where
  rawInput : Option (Option Str)
  content : Option (Option Str)
  deriving DecidableEq

/-- One INSERT, UPDATE or DELETE; the last two find their row by the id of the loaded entry. -/
inductive Write where
  | insert (row : CareerKnowledgeBase)
  | update (entry : CareerKnowledgeBase) (fields : UpdateFields)
  | delete (entry : CareerKnowledgeBase)

def getByUserId (table : Table) (userId : Nat) : Option CareerKnowledgeBase := table.find? (·.userId = userId)

def CareerKnowledgeBase.set (row : CareerKnowledgeBase) (fields : UpdateFields) : CareerKnowledgeBase :=
  { row with
    rawInput := fields.rawInput.join.getD row.rawInput
    content := fields.content.join.getD row.content }

def UpdateFields.changes (fields : UpdateFields) (entry : CareerKnowledgeBase) : UpdateFields :=
  ⟨fields.rawInput.filter (· ≠ some entry.rawInput), fields.content.filter (· ≠ some entry.content)⟩

def applyWrite (table : Table) : Write → Table
  | .insert row => table ++ [row]
  | .update entry fields => table.map fun row => if row.id = entry.id then row.set fields else row
  | .delete entry => table.filter (·.id ≠ entry.id)

def admitsWrite (table : Table) : Write → Bool
  | .insert row => table.all fun other => other.id ≠ row.id && other.userId ≠ row.userId
  | .update entry fields => table.any (·.id = entry.id) && fields.rawInput ≠ some none &&
      fields.content ≠ some none
  | .delete _ => true

def locks : Write → Write → Bool
  | .insert row, .insert other => row.id = other.id || row.userId = other.userId
  | .insert _, _ => false
  | .update entry _, .update other _ | .update entry _, .delete other => entry.id = other.id
  | .update _ _, .insert _ => false
  | .delete entry, .insert row => entry.userId = row.userId
  | .delete entry, .update other _ | .delete entry, .delete other => entry.id = other.id

def conflicts (mine other : Write) : Bool := locks mine other || locks other mine

inductive Request where
  | create (userId : Nat) (rawInput : Str)
  | update (userId : Nat) (fields : UpdateFields)
  | delete (userId : Nat)

inductive Change where
  | created (row : CareerKnowledgeBase)
  | updated (entry : CareerKnowledgeBase) (fields : UpdateFields)
  | deleted (entry : CareerKnowledgeBase)

inductive Outcome where
  | done
  /-- An HTTPException. -/
  | refused (status : Nat)
  /-- An exception before the commit. -/
  | failed
  /-- The refresh found no row any more. -/
  | vanished
  /-- The row is committed, but Gemini, Qdrant, the lock or the database failed after that. -/
  | unindexed
  deriving DecidableEq

inductive Phase where
  | find (request : Request)
  | structureNew (userId : Nat) (rawInput : Str)
  | structureAgain (entry : CareerKnowledgeBase) (fields : UpdateFields)
  | insert (userId : Nat) (rawInput content : Str)
  | flush (change : Change) (sent : Nat)
  /-- The content to index is the refreshed row's, or the one given. -/
  | refresh (entry : CareerKnowledgeBase) (content : Option Str)
  | embed (userId : Nat) (content : Str)
  | reindex (userId : Nat) (chunks : List Str)
  | clear (userId : Nat) (chunks : List Str)
  | upsertPoints (userId : Nat) (chunks : List Str)
  | finished (outcome : Outcome)

inductive Input where
  | answer
  | structured (content : Str)
  | unavailable

structure Outside where
  nextId : Nat
  points : List Point
  locked : List Nat

def Change.writes : Change → List Write
  | .created row => [.insert row]
  | .updated entry fields =>
    if fields.changes entry = ⟨none, none⟩ then [] else [.update entry (fields.changes entry)]
  | .deleted entry => [.delete entry]

def Change.after : Change → Phase
  | .created row => .refresh row (some row.content)
  | .updated entry _ => .refresh entry none
  | .deleted entry => .reindex entry.userId []

abbrev Answer := Option (Effect Outside Phase Write)

def refuse (status : Nat) : Answer := some (.fail (.finished (.refused status)))

def Outside.release (outside : Outside) (userId : Nat) : Outside :=
  { outside with locked := outside.locked.erase userId }

def afterFind (table : Table) (outside : Outside) : Request → Answer
  | .create userId rawInput =>
    if (getByUserId table userId).isSome then refuse 409 else
      some (.read (.structureNew userId rawInput) outside)
  | .update userId fields =>
    match getByUserId table userId with
    | none => refuse 404
    | some entry =>
      if fields.rawInput.isSome then some (.read (.structureAgain entry fields) outside)
      else some (.read (.flush (.updated entry fields) 0) outside)
  | .delete userId =>
    match getByUserId table userId with
    | none => refuse 404
    | some entry => some (.read (.flush (.deleted entry) 0) outside)

def next (table : Table) (outside : Outside) (phase : Phase) (input : Input) : Answer :=
  match phase with
  | .find request => afterFind table outside request
  | .structureNew userId rawInput =>
    match input with
    | .structured content => some (.read (.insert userId rawInput content) outside)
    | .unavailable => refuse 502
    | .answer => none
  | .structureAgain entry fields =>
    match input with
    | .structured content =>
        some (.read (.flush (.updated entry { fields with content := some (some content) }) 0) outside)
    | .unavailable => refuse 502
    | .answer => none
  | .insert userId rawInput content =>
    let row : CareerKnowledgeBase := ⟨outside.nextId, userId, rawInput, content⟩
    some (.write (.insert row) (.flush (.created row) 1) { outside with nextId := outside.nextId + 1 })
  | .flush change sent =>
    match change.writes[sent]? with
    | some w => some (.write w (.flush change (sent + 1)) outside)
    | none => some (.commit change.after outside)
  | .refresh entry content =>
    match table.find? (·.id = entry.id) with
    | none => some (.fail (.finished .vanished))
    | some row => some (.read (.embed entry.userId (content.getD row.content)) outside)
  | .embed userId content =>
    match chunkMarkdown content, input with
    | _ :: _, .unavailable => some (.read (.finished .unindexed) outside)
    | chunks, _ => some (.read (.reindex userId chunks) outside)
  | .reindex userId chunks =>
    if userId ∈ outside.locked then none
    else
      match input with
      | .unavailable => some (.read (.finished .unindexed) outside)
      | _ => some (.read (.clear userId chunks) { outside with locked := userId :: outside.locked })
  | .clear userId chunks =>
    match input with
    | .unavailable => some (.read (.finished .unindexed) (outside.release userId))
    | _ =>
      let cleared := { outside with points := deleteUser userId outside.points }
      if chunks = [] then some (.read (.finished .done) (cleared.release userId))
      else some (.read (.upsertPoints userId chunks) cleared)
  | .upsertPoints userId chunks =>
    match input with
    | .unavailable => some (.read (.finished .unindexed) (outside.release userId))
    | _ =>
      let filled := { outside with points := upsert (pointsOf userId chunks) outside.points }
      some (.read (.finished .done) (filled.release userId))
  | .finished _ => none

def failedPhase : Phase → Phase
  | .finished outcome => .finished outcome
  | .refresh _ _ | .embed _ _ | .reindex _ _ | .clear _ _ | .upsertPoints _ _ => .finished .unindexed
  | _ => .finished .failed

def knowledgeSystem : System Table Outside Phase Write Input Request where
  apply := applyWrite
  admits := admitsWrite
  conflicts := conflicts
  failed := failedPhase
  start outside request := some (.find request, outside)
  next := next

def initialState : State Table Outside Phase Write := ⟨[], ⟨1, [], []⟩, []⟩

end ManifestCV.Knowledge
