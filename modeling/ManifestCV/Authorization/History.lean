import ManifestCV.Authorization.Baseline
import ManifestCV.Foundation.Ledger

namespace ManifestCV.Authorization

open Foundation Foundation.Transactions Foundation.Ledger

variable {V R C : Type}

def Change.new : Change V → Option (Definition V)
  | .created new | .updated _ new | .rolledBack _ new => some new
  | .deleted _ => none

def Change.follows (current : Option (Definition V)) : Change V → Prop
  | .created _ => current = none
  | .updated previous _ | .rolledBack previous _ => current = some previous
  | .deleted _ => True

def Store.definition? (db : Store V) (id : Nat) : Option (Definition V) :=
  (db.policy? id).map (·.toDefinition)

def policyLedger : Format Nat (Definition V) (PolicyHistory V) where
  key entry := entry.policyId
  after entry := entry.change.new
  follows current entry := entry.change.follows current

def PolicyHistory.changes (entry : PolicyHistory V) : Bool := entry.change.new.isSome

def Recorded (base db : Store V) : Prop :=
  ∃ entries, db.history = base.history ++ entries ∧
    policyLedger.Records base.definition? db.definition? entries ∧
    policyLedger.Numbered (·.id) (·.changes) entries

/-- The entry's id is drawn, and higher than those of all changes to its policy so far. -/
structure Dated (db : Store V) (nextId : Nat) (entry : PolicyHistory V) : Prop where
  drawn : entry.id < nextId
  latest : entry.changes = true → ∀ earlier ∈ db.history, earlier.policyId = entry.policyId →
    earlier.changes = true → earlier.id < entry.id

def Write.plain : Write V → Bool
  | .insertAssignment _ | .deleteAssignment _ | .insertPermission _ | .updatePermission _ | .deletePermission
      _ => true
  | _ => false

inductive Batch (db : Store V) : List (Write V) → Prop
  | create {new id entry policyName caller} (absent : db.definition? id = none) :
      Batch db [.insertPolicy ⟨new, id⟩, .insertHistory ⟨entry, id, policyName, .created new, caller⟩]
  | change {previous new id entry policyName caller change} (present : db.definition? id = some previous)
      (kind : change = .updated previous new ∨ change = .rolledBack previous new) :
      Batch db [.lockPolicy id, .updatePolicy ⟨new, id⟩,
        .insertHistory ⟨entry, id, policyName, change, caller⟩]
  | delete {previous id entry policyName caller} :
      Batch db [.insertHistory ⟨entry, id, policyName, .deleted previous, caller⟩, .deletePolicy id]
  | plain {writes} (all : ∀ w ∈ writes, w.plain = true) : Batch db writes

def Phase.writes : Phase V R C → List (Write V)
  | .flush writes _ => writes
  | _ => []

structure Prepared (db : Store V) (outside : Outside V) (phase : Phase V R C) (pending : List (Write V)) :
    Prop where
  batch : Batch db (pending ++ phase.writes)
  idle : phase.writing = false → pending = []
  locked : ∀ id, .lockPolicy id ∈ pending ++ phase.writes → .lockPolicy id ∈ pending
  drawn : ∀ policy, .insertPolicy policy ∈ pending ++ phase.writes → policy.id < outside.nextId
  dated : ∀ entry, .insertHistory entry ∈ pending ++ phase.writes → Dated db outside.nextId entry

def historyAssertion (base : Store V) : Assertion (Store V) (Outside V) (Phase V R C) (Write V) where
  common db outside := Recorded base db ∧ (∀ row ∈ db.policies, row.id < outside.nextId) ∧
    ∀ entry ∈ db.history, entry.id < outside.nextId
  own := Prepared
  pair phase pending other otherPending := ∀ policy policy', .insertPolicy policy ∈ pending ++ phase.writes →
    .insertPolicy policy' ∈ otherPending ++ other.writes → policy.id ≠ policy'.id

section Definitions

variable {db : Store V}

theorem definition_insert {new : Definition V} {id : Nat} (absent : db.definition? id = none) (other : Nat) :
    (applyWrite db (.insertPolicy ⟨new, id⟩)).definition? other = if other = id then some new else
    db.definition? other := by
  simp only [Store.definition?, Store.policy?, Option.map_eq_none_iff] at absent ⊢
  rw [applyWrite, List.find?_append]
  by_cases same : other = id
  · subst same
    rw [absent]
    simp
  · have apart : id ≠ other := Ne.symm same
    simp [same, apart]

theorem definition_update (new : Definition V) (id other : Nat) :
    (applyWrite db (.updatePolicy ⟨new, id⟩)).definition? other =
      if other = id then (db.definition? id).map fun _ => new else db.definition? other := by
  simp only [Store.definition?, Store.policy?, applyWrite]
  induction db.policies with
  | nil => split <;> rfl
  | cons row rows ih =>
    rw [List.map_cons]
    by_cases mine : row.id = id
    · by_cases same : other = id
      · simp [mine, same]
      · have apart : id ≠ other := Ne.symm same
        rw [if_neg same] at ih
        simpa [mine, same, apart] using ih
    · by_cases found : row.id = other
      · have apart : other ≠ id := fun same => mine (found.trans same)
        simp [found, apart]
      · simpa [mine, found] using ih

theorem definition_delete (id other : Nat) :
    (applyWrite db (.deletePolicy id)).definition? other = if other = id then none else
    db.definition? other := by
  simp only [Store.definition?, Store.policy?, applyWrite]
  rw [List.find?_filter]
  by_cases same : other = id
  · subst same
    rw [if_pos rfl, Option.map_eq_none_iff, List.find?_eq_none]
    intro row _
    simp
  · rw [if_neg same]
    congr 2
    funext row
    by_cases found : row.id = other
    · simp [found, same]
    · simp [found]

theorem plain_keeps {w : Write V} (plain : w.plain = true) :
    (applyWrite db w).policies = db.policies ∧ (applyWrite db w).history = db.history := by
  cases w <;> first
    | exact ⟨rfl, rfl⟩
    | cases plain

end Definitions

section Commit

variable {base db : Store V} {outside : Outside V}

theorem batch_recorded [BEq V] {registry : Registry V R C} {callers : Str → Bool} {writes : List (Write V)}
    {nextId : Nat} (recorded : Recorded base db) (batch : Batch db writes)
    (dated : ∀ entry, .insertHistory entry ∈ writes → Dated db nextId entry) :
    Recorded base (System.view (managementSystem registry callers) db writes) := by
  obtain ⟨entries, appended, records, numbered⟩ := recorded
  have latest : ∀ entry, .insertHistory entry ∈ writes →
      policyLedger.Numbered (·.id) (·.changes) (entries ++ [entry]) := by
    intro entry member
    apply numbered.append
    intro changes earlier inside
    exact (dated entry member).latest changes earlier (appended ▸ List.mem_append_right _ inside)
  cases batch with
  | @create new id entry policyName caller absent =>
    refine ⟨entries ++ [⟨entry, id, policyName, .created new, caller⟩], ?_, ?_, latest _ (by simp)⟩
    · show db.history ++ [_] = base.history ++ (entries ++ [_])
      rw [appended, List.append_assoc]
    · have moved := @definition_insert V db new id absent
      apply records.append
      · exact absent
      · exact (moved id).trans (if_pos rfl)
      · exact fun other apart => (moved other).trans (if_neg apart)
  | @change previous new id entry policyName caller change present kind =>
    refine ⟨entries ++ [⟨entry, id, policyName, change, caller⟩], ?_, ?_, latest _ (by simp)⟩
    · show db.history ++ [_] = base.history ++ (entries ++ [_])
      rw [appended, List.append_assoc]
    · have moved := @definition_update V db new id
      apply records.append
      · show change.follows (db.definition? id)
        rcases kind with rfl | rfl <;> exact present
      · show (applyWrite db (.updatePolicy ⟨new, id⟩)).definition? id = change.new
        rw [moved id, if_pos rfl, present]
        rcases kind with rfl | rfl <;> rfl
      · exact fun other apart => (moved other).trans (if_neg apart)
  | @delete previous id entry policyName caller =>
    refine ⟨entries ++ [⟨entry, id, policyName, .deleted previous, caller⟩], ?_, ?_, latest _ (by simp)⟩
    · show db.history ++ [_] = base.history ++ (entries ++ [_])
      rw [appended, List.append_assoc]
    · have moved := @definition_delete V db id
      apply records.append
      · exact True.intro
      · exact (moved id).trans (if_pos rfl)
      · exact fun other apart => (moved other).trans (if_neg apart)
  | plain all =>
    have same : (System.view (managementSystem registry callers) db writes).policies = db.policies ∧
        (System.view (managementSystem registry callers) db writes).history = db.history := by
      unfold System.view
      clear appended records numbered dated latest
      induction writes generalizing db with
      | nil => exact ⟨rfl, rfl⟩
      | cons w writes ih =>
        obtain ⟨policies, history⟩ := @ih (applyWrite db w) fun v member =>
          all v (List.mem_cons_of_mem _ member)
        obtain ⟨kept, kept'⟩ := @plain_keeps V db w (all w List.mem_cons_self)
        exact ⟨policies.trans kept, history.trans kept'⟩
    refine ⟨entries, same.2.trans appended, records.same ?_, numbered⟩
    intro id
    unfold Store.definition? Store.policy?
    rw [same.1]

theorem batch_elsewhere [BEq V] {registry : Registry V R C} {callers : Str → Bool} {writes : List (Write V)}
    (batch : Batch db writes) {id : Nat} (inserts : ∀ policy, .insertPolicy policy ∈ writes → policy.id ≠ id)
    (locks : .lockPolicy id ∉ writes) (deletes : .deletePolicy id ∉ writes) :
    (System.view (managementSystem registry callers) db writes).definition? id = db.definition? id := by
  cases batch with
  | @create new other entry policyName caller absent =>
    have apart : id ≠ other := Ne.symm (inserts ⟨new, other⟩ List.mem_cons_self)
    exact (definition_insert absent id).trans (if_neg apart)
  | @change previous new other entry policyName caller change present kind =>
    have apart : id ≠ other := fun same => locks (same ▸ List.mem_cons_self)
    exact (definition_update new other id).trans (if_neg apart)
  | @delete previous other entry policyName caller =>
    have apart : id ≠ other := fun same => deletes (same ▸ List.mem_cons_of_mem _ List.mem_cons_self)
    exact (definition_delete other id).trans (if_neg apart)
  | plain all =>
    have same : (System.view (managementSystem registry callers) db writes).policies = db.policies := by
      unfold System.view
      clear inserts locks deletes
      induction writes generalizing db with
      | nil => rfl
      | cons w writes ih =>
        have later := @ih (applyWrite db w) fun v member => all v (List.mem_cons_of_mem _ member)
        exact later.trans (@plain_keeps V db w (all w List.mem_cons_self)).1
    unfold Store.definition? Store.policy?
    rw [same]

theorem batch_absent [BEq V] {registry : Registry V R C} {callers : Str → Bool} {writes : List (Write V)}
    (batch : Batch db writes) {id : Nat} (absent : db.definition? id = none)
    (inserts : ∀ policy, .insertPolicy policy ∈ writes → policy.id ≠ id) :
    (System.view (managementSystem registry callers) db writes).definition? id = none := by
  have known := batch
  cases batch with
  | @change previous new other entry policyName caller change present kind =>
    have apart : id ≠ other := by
      rintro rfl
      rw [absent] at present
      cases present
    exact (definition_update new other id).trans ((if_neg apart).trans absent)
  | @delete previous other entry policyName caller =>
    apply (definition_delete other id).trans
    split
    · rfl
    · exact absent
  | @create new other entry policyName caller free =>
    rw [batch_elsewhere known inserts] <;> simp [absent]
  | plain all =>
    rw [batch_elsewhere known inserts]
    · exact absent
    · intro member
      cases all _ member
    · intro member
      cases all _ member

theorem applyWrite_drawn {n : Nat} {w : Write V} (drawn : ∀ row ∈ db.policies, row.id < n)
    (own : ∀ policy, w = .insertPolicy policy → policy.id < n) :
    ∀ row ∈ (applyWrite db w).policies, row.id < n := by
  intro row member
  cases w with
  | insertPolicy policy =>
    rcases List.mem_append.mp member with old | new
    · exact drawn row old
    · rw [List.mem_singleton.mp new]
      exact own policy rfl
  | updatePolicy policy =>
    obtain ⟨old, inside, rfl⟩ := List.mem_map.mp member
    split
    · rename_i same
      rw [← same]
      exact drawn old inside
    · exact drawn old inside
  | deletePolicy id => exact drawn row (List.mem_filter.mp member).1
  | _ => exact drawn row member

theorem view_drawn [BEq V] {registry : Registry V R C} {callers : Str → Bool} {n : Nat}
    {writes : List (Write V)} (drawn : ∀ row ∈ db.policies, row.id < n)
    (own : ∀ policy, .insertPolicy policy ∈ writes → policy.id < n) :
    ∀ row ∈ (System.view (managementSystem registry callers) db writes).policies, row.id < n := by
  unfold System.view
  induction writes generalizing db with
  | nil => exact drawn
  | cons w writes ih =>
    apply ih
    · exact applyWrite_drawn drawn fun policy same => own policy (same ▸ List.mem_cons_self)
    · exact fun policy member => own policy (List.mem_cons_of_mem _ member)

theorem view_history [BEq V] {registry : Registry V R C} {callers : Str → Bool} {writes : List (Write V)}
    {entry : PolicyHistory V}
    (member : entry ∈ (System.view (managementSystem registry callers) db writes).history) :
    entry ∈ db.history ∨ .insertHistory entry ∈ writes := by
  unfold System.view at member
  induction writes generalizing db with
  | nil => exact .inl member
  | cons w writes ih =>
    rcases ih member with before | later
    · cases w with
      | insertHistory first =>
        rcases List.mem_append.mp before with old | new
        · exact .inl old
        · exact .inr (List.mem_singleton.mp new ▸ List.mem_cons_self)
      | _ => exact .inl before
    · exact .inr (List.mem_cons_of_mem _ later)

theorem dated_next {nextId : Nat} {entry : PolicyHistory V}
    (written : ∀ earlier ∈ db.history, earlier.id < outside.nextId) (fresh : outside.nextId ≤ entry.id)
    (drawn : entry.id < nextId) : Dated db nextId entry where
  drawn := drawn
  latest _ earlier member _ _ := Nat.lt_of_lt_of_le (written earlier member) fresh

theorem definition_absent {n : Nat} (drawn : ∀ row ∈ db.policies, row.id < n) : db.definition? n = none := by
  rw [Store.definition?, Option.map_eq_none_iff, Store.policy?, List.find?_eq_none]
  intro row member
  have below := drawn row member
  rw [decide_eq_true_eq]
  omega

end Commit

section Phases

variable {caller : Str} {plan : Plan V}

theorem guardFrom_writing (proposals : List (Proposal V)) :
    (guardFrom caller plan proposals : Phase V R C).writing = false := by
  induction proposals with
  | nil => rfl
  | cons proposal more ih =>
    unfold guardFrom
    split
    · rfl
    · split
      · exact ih
      · rfl

theorem guardActions_writing (proposal : Proposal V) (more : List (Proposal V)) (actions : List Str) :
    (guardActions caller plan proposal more actions : Phase V R C).writing = false := by
  cases actions with
  | nil => exact guardFrom_writing more
  | cons action rest => rfl

theorem guardPlan_writing : (guardPlan caller plan : Phase V R C).writing = false :=
  guardFrom_writing plan.proposals

theorem checkDeactivation_writing (policy : Policy V) (fields : PolicyUpdate V) :
    (checkDeactivation caller policy fields : Phase V R C).writing = false := by
  unfold checkDeactivation
  split
  · rfl
  · exact guardPlan_writing

theorem nameFree_writing : (nameFree caller plan : Phase V R C).writing = false := by
  cases plan with
  | update policy fields => exact checkDeactivation_writing policy fields
  | _ => exact guardPlan_writing

theorem policiesLoaded_writing (policies : List (Definition V)) (goal : Goal V R) :
    (policiesLoaded caller policies goal : Phase V R C).writing = false := by
  cases goal with
  | superuser plan proposal more =>
    simp only [policiesLoaded]
    split
    · exact guardFrom_writing more
    · exact guardActions_writing proposal more proposal.actions
  | _ => rfl

theorem body_writing (registry : Registry V R C) (command : Command V R) :
    (body registry caller command).writing = false := by
  cases command with
  | createPolicy data =>
    simp only [body]
    split <;> rfl
  | _ => rfl

theorem decided_writing [BEq V] (registry : Registry V R C) (effective : List (Definition V)) (context : C)
    (goal : Goal V R) :
    (decided registry caller effective context goal).writing = false := by
  cases goal with
  | require command action resourceType rest =>
    simp only [decided]
    split
    · rfl
    · split
      · rfl
      · exact body_writing registry _
      · rfl
  | superuser plan proposal more => exact guardActions_writing proposal more proposal.actions
  | action plan proposal more action rest =>
    simp only [decided]
    split
    · rfl
    · split
      · rfl
      · exact guardActions_writing proposal more rest

theorem policyFound_writing (registry : Registry V R C) (policy : Policy V) (edit : PolicyEdit V) :
    (policyFound registry caller policy edit).writing = false := by
  cases edit with
  | update fields =>
    simp only [policyFound]
    split
    · rfl
    · split
      · rfl
      · split
        · rfl
        · exact checkDeactivation_writing policy fields
  | delete =>
    simp only [policyFound]
    split
    · rfl
    · split
      · rfl
      · exact guardPlan_writing
  | rollback historyId => rfl

theorem historyFound_writing (registry : Registry V R C) (policy : Policy V) (entry : PolicyHistory V) :
    (historyFound registry caller policy entry).writing = false := by
  simp only [historyFound]
  split
  · rfl
  · split
    · rfl
    · split
      · rfl
      · split
        · rfl
        · exact guardPlan_writing

theorem assignedFound_writing (user : User) (policy : Policy V) (edit : AssignmentEdit) :
    (assignedFound caller user policy edit : Phase V R C).writing = false := by
  unfold assignedFound
  split
  · rfl
  · exact guardPlan_writing

theorem granteeFound_writing (registry : Registry V R C) (action resourceType : Str) (user : User)
    (edit : PermissionEdit V) :
    (granteeFound registry caller action resourceType user edit).writing = false := by
  cases edit with
  | grant conditions =>
    simp only [granteeFound]
    split
    · rfl
    · split
      · rfl
      · exact guardPlan_writing
  | revoke =>
    simp only [granteeFound]
    split
    · rfl
    · exact guardPlan_writing

end Phases

section Step

variable {db : Store V} {outside outside' : Outside V} {phase phase' : Phase V R C} {pending : List (Write V)}

theorem writes_idle (idle : phase.writing = false) : phase.writes = [] := by
  cases phase with
  | flush writes follows => cases idle
  | _ => rfl

theorem prepared_idle (idle : phase.writing = false) : Prepared db outside phase [] := by
  have nothing : ([] : List (Write V)) ++ phase.writes = [] := writes_idle idle
  constructor
  · rw [nothing]
    apply Batch.plain
    intro w member
    cases member
  · exact fun _ => rfl
  · intro id member
    rw [nothing] at member
    cases member
  · intro policy member
    rw [nothing] at member
    cases member
  · intro entry member
    rw [nothing] at member
    cases member

theorem prepared_plain {writes : List (Write V)} (follows : List Follow)
    (plain : ∀ w ∈ writes, w.plain = true) :
    Prepared db outside (.flush writes follows : Phase V R C) [] := by
  constructor
  · exact .plain plain
  · exact fun _ => rfl
  · intro id member
    cases plain _ member
  · intro policy member
    cases plain _ member
  · intro entry member
    cases plain _ member

def Draws (outside : Outside V) (before after : List (Write V)) : Prop :=
  ∀ policy, .insertPolicy policy ∈ after → .insertPolicy policy ∈ before ∨ policy.id = outside.nextId

theorem draws_idle {before : List (Write V)} (idle : phase.writing = false) :
    Draws outside before ([] ++ phase.writes) := by
  intro policy member
  rw [writes_idle idle] at member
  cases member

theorem draws_plain {before writes : List (Write V)} (plain : ∀ w ∈ writes, w.plain = true) :
    Draws outside before writes := by
  intro policy member
  cases plain _ member

theorem read_prepared [BEq V] {registry : Registry V R C}
    (drawn : ∀ row ∈ db.policies, row.id < outside.nextId)
    (written : ∀ entry ∈ db.history, entry.id < outside.nextId)
    (next : Next registry db outside phase (.read phase' outside')) :
    Prepared db outside' phase' [] ∧ Draws outside [] ([] ++ phase'.writes) := by
  have idle : ∀ {phase'' : Phase V R C} {outside'' : Outside V}, phase''.writing = false →
      Prepared db outside'' phase'' [] ∧ Draws outside [] ([] ++ phase''.writes) :=
    fun quiet => ⟨prepared_idle quiet, draws_idle quiet⟩
  have plain : ∀ {writes : List (Write V)} {follows : List Follow} {outside'' : Outside V},
    (∀ w ∈ writes, w.plain = true) →
      Prepared db outside'' (.flush writes follows : Phase V R C) [] ∧
          Draws outside [] ([] ++ (.flush writes follows : Phase V R C).writes) :=
    fun all => ⟨prepared_plain _ all, draws_plain all⟩
  have one : ∀ {w : Write V} {follows : List Follow} {outside'' : Outside V}, w.plain = true →
      Prepared db outside'' (.flush [w] follows : Phase V R C) [] ∧
          Draws outside [] ([] ++ (.flush [w] follows : Phase V R C).writes) := by
    intro w follows outside'' each
    apply plain
    intro v member
    rw [List.mem_singleton.mp member]
    exact each
  cases next with
  | cached | stored | unstored => exact idle (policiesLoaded_writing _ _)
  | uncached | selected | permissionsCached | permissionsUncached | permissionsSelected | permissionsStored
  | permissionsUnstored | holderFound | alreadyAssigned | counting | removing | counted | converting =>
      exact idle rfl
  | decided context => exact idle (decided_writing _ _ _ _)
  | nameFree absent => exact idle nameFree_writing
  | policyFound found => exact idle (policyFound_writing _ _ _)
  | historyFound found => exact idle (historyFound_writing _ _ _)
  | assignedFound found => exact idle (assignedFound_writing _ _ _)
  | granteeFound found => exact idle (granteeFound_writing _ _ _ _ _)
  | @created caller data =>
    have inserted : ∀ policy, .insertPolicy policy ∈
        ([.insertPolicy ⟨data.definition, outside.nextId⟩,
          .insertHistory ⟨outside.nextId + 1, outside.nextId, data.name, .created data.definition, caller⟩] :
            List (Write V)) →
        policy.id = outside.nextId := by
      intro policy member
      rcases List.mem_cons.mp member with same | member
      · cases same
        rfl
      · cases List.mem_singleton.mp member
    constructor
    · constructor
      · exact .create (definition_absent drawn)
      · exact fun _ => rfl
      · intro id member
        rcases List.mem_cons.mp member with same | member
        · cases same
        · cases List.mem_singleton.mp member
      · intro policy member
        rw [inserted policy member]
        exact Nat.lt_add_of_pos_right Nat.two_pos
      · intro entry member
        rcases List.mem_cons.mp member with same | member
        · cases same
        · cases List.mem_singleton.mp member
          exact dated_next written (Nat.le_succ _) (Nat.lt_succ_self _)
    · exact fun policy member => .inr (inserted policy member)
  | deleted =>
    constructor
    · constructor
      · exact .delete
      · exact fun _ => rfl
      · intro id member
        rcases List.mem_cons.mp member with same | member
        · cases same
        · cases List.mem_singleton.mp member
      · intro policy member
        rcases List.mem_cons.mp member with same | member
        · cases same
        · cases List.mem_singleton.mp member
      · intro entry member
        rcases List.mem_cons.mp member with same | member
        · cases same
          exact dated_next written (Nat.le_refl _) (Nat.lt_succ_self _)
        · cases List.mem_singleton.mp member
    · intro policy member
      rcases List.mem_cons.mp member with same | member
      · cases same
      · cases List.mem_singleton.mp member
  | assigned | permissionUpdated | permissionInserted | permissionDeleted | assignmentDeleted => exact one rfl
  | converted =>
    apply plain
    intro w member
    rcases List.mem_append.mp member with kept | gone
    · obtain ⟨row, rfl | rfl, _⟩ := retained_permissions kept <;> rfl
    · rw [List.mem_singleton.mp gone]
      rfl
  | followed ends forgets => rcases ends with ⟨rest, rfl⟩ | rfl | ⟨code, rfl⟩ <;> exact idle rfl

theorem written_prepared [BEq V] {registry : Registry V R C} {callers : Str → Bool} {w : Write V}
    (own : Prepared db outside phase pending) (written : ∀ entry ∈ db.history, entry.id < outside.nextId)
    (next : Next registry (System.view (managementSystem registry callers) db pending) outside phase
      (.write w phase' outside')) :
    Prepared db outside' phase' (pending ++ [w]) ∧ Draws outside (pending ++ phase.writes)
      (pending ++ [w] ++ phase'.writes) := by
  cases next with
  | @updated caller plan policy fields row change edits found kind =>
    obtain rfl := own.idle rfl
    have present : db.definition? row.id = some row.toDefinition := by
      obtain ⟨_, same⟩ := policy?_some found
      rw [same]
      exact (congrArg (Option.map (·.toDefinition)) found).trans rfl
    have none_inserted : ∀ {new entry} {policy : Policy V},
        .insertPolicy policy ∉ ([.lockPolicy row.id, .updatePolicy new, .insertHistory entry] : List
            (Write V)) := by
      intro new entry policy member
      rcases List.mem_cons.mp member with same | member
      · cases same
      · rcases List.mem_cons.mp member with same | member
        · cases same
        · cases List.mem_singleton.mp member
    constructor
    · constructor
      · exact .change present kind
      · intro idle
        cases idle
      · intro id member
        rcases List.mem_cons.mp member with same | member
        · cases same
          exact List.mem_singleton_self _
        · rcases List.mem_cons.mp member with same | member
          · cases same
          · cases List.mem_singleton.mp member
      · intro policy member
        exact absurd member none_inserted
      · intro entry member
        rcases List.mem_cons.mp member with same | member
        · cases same
        · rcases List.mem_cons.mp member with same | member
          · cases same
          · cases List.mem_singleton.mp member
            exact dated_next written (Nat.le_refl _) (Nat.lt_succ_self _)
    · intro policy member
      exact absurd member none_inserted
  | @flushed w writes follows =>
    have same : pending ++ [w] ++ (.flush writes follows : Phase V R C).writes =
        pending ++ (.flush (w :: writes) follows : Phase V R C).writes :=
      (List.append_cons pending w writes).symm
    constructor
    · constructor
      · rw [same]
        exact own.batch
      · intro idle
        cases idle
      · intro id member
        apply List.mem_append_left
        apply own.locked id
        rw [← same]
        exact member
      · intro policy member
        apply own.drawn policy
        rw [← same]
        exact member
      · intro entry member
        apply own.dated entry
        rw [← same]
        exact member
    · intro policy member
      left
      rw [← same]
      exact member

theorem Prepared.grow (own : Prepared db outside phase pending) (more : outside.nextId ≤ outside'.nextId) :
    Prepared db outside' phase pending :=
  { own with
    drawn := fun policy member => Nat.lt_of_lt_of_le (own.drawn policy member) more
    dated := fun entry member =>
      ⟨Nat.lt_of_lt_of_le (own.dated entry member).drawn more, (own.dated entry member).latest⟩ }

theorem batch_changes {writes : List (Write V)} {entry : PolicyHistory V} (batch : Batch db writes)
    (member : .insertHistory entry ∈ writes) (changes : entry.changes = true) :
    (∃ policy, .insertPolicy policy ∈ writes ∧ policy.id = entry.policyId ∧ db.definition? policy.id = none) ∨
      .lockPolicy entry.policyId ∈ writes ∧ db.definition? entry.policyId ≠ none := by
  cases batch with
  | @create new id number policyName caller absent =>
    left
    rcases List.mem_cons.mp member with same | member
    · cases same
    · cases List.mem_singleton.mp member
      exact ⟨⟨new, id⟩, List.mem_cons_self, rfl, absent⟩
  | @change previous new id number policyName caller change present kind =>
    right
    rcases List.mem_cons.mp member with same | member
    · cases same
    · rcases List.mem_cons.mp member with same | member
      · cases same
      · cases List.mem_singleton.mp member
        refine ⟨List.mem_cons_self, ?_⟩
        rw [present]
        exact Option.some_ne_none previous
  | delete =>
    rcases List.mem_cons.mp member with same | member
    · cases same
      cases changes
    · cases List.mem_singleton.mp member
  | plain all => cases all _ member

theorem batch_apart {mine theirs pending : List (Write V)} (own : Batch db mine) (batch : Batch db theirs)
    (locked : ∀ id, .lockPolicy id ∈ mine → .lockPolicy id ∈ pending)
    (apart : ∀ w ∈ theirs, ∀ v ∈ pending, conflicts w v = false)
    (inserts : ∀ policy policy', .insertPolicy policy ∈ theirs → .insertPolicy policy' ∈ mine →
      policy.id ≠ policy'.id)
    {entry earlier : PolicyHistory V} (here : .insertHistory entry ∈ mine)
    (there : .insertHistory earlier ∈ theirs) (changes : entry.changes = true)
    (changed : earlier.changes = true) : earlier.policyId ≠ entry.policyId := by
  intro same
  rcases batch_changes own here changes with ⟨policy, inserted, id, absent⟩ | ⟨lock, present⟩
  · rcases batch_changes batch there changed with ⟨policy', inserted', id', _⟩ | ⟨_, present⟩
    · exact inserts policy' policy inserted' inserted (by rw [id, id', same])
    · rw [same, ← id] at present
      exact present absent
  · rcases batch_changes batch there changed with ⟨policy', _, id', absent⟩ | ⟨lock', _⟩
    · rw [id', same] at absent
      exact present absent
    · have free := apart _ lock' _ (locked _ lock)
      rw [same] at free
      simp [conflicts, exclusive] at free

theorem Prepared.beside [BEq V] {registry : Registry V R C} {callers : Str → Bool} {writes : List (Write V)}
    (own : Prepared db outside phase pending) (batch : Batch db writes)
    (apart : (managementSystem registry callers).Compatible writes pending)
    (inserts : ∀ policy policy', .insertPolicy policy ∈ writes →
      .insertPolicy policy' ∈ pending ++ phase.writes → policy.id ≠ policy'.id) :
    Prepared (System.view (managementSystem registry callers) db writes) outside phase pending := by
  have dated : ∀ entry, .insertHistory entry ∈ pending ++ phase.writes →
      Dated (System.view (managementSystem registry callers) db writes) outside.nextId entry := by
    intro entry member
    refine ⟨(own.dated entry member).drawn, ?_⟩
    intro changes earlier inside same changed
    rcases view_history inside with old | new
    · exact (own.dated entry member).latest changes earlier old same changed
    · exact absurd same (batch_apart own.batch batch own.locked apart inserts member new changes changed)
  refine { own with batch := ?_, dated }
  generalize planned : pending ++ phase.writes = all
  have mine := own.batch
  rw [planned] at mine
  cases mine with
  | @create new id entry policyName caller absent =>
    apply Batch.create
    apply batch_absent batch absent
    intro policy member
    apply inserts policy ⟨new, id⟩ member
    rw [planned]
    exact List.mem_cons_self
  | @change previous new id entry policyName caller change present kind =>
    have locked : .lockPolicy id ∈ pending := by
      apply own.locked
      rw [planned]
      exact List.mem_cons_self
    have free : ∀ w ∈ writes, conflicts w (.lockPolicy id) = false := fun w member => apart w member _ locked
    refine .change ?_ kind
    rw [batch_elsewhere batch]
    · exact present
    · intro policy member same
      subst same
      have taken : conflicts (.insertPolicy policy) (.lockPolicy policy.id) = true :=
        by simp [conflicts, exclusive]
      rw [free _ member] at taken
      cases taken
    · intro member
      have taken : conflicts (.lockPolicy id : Write V) (.lockPolicy id) = true :=
        by simp [conflicts, exclusive]
      rw [free _ member] at taken
      cases taken
    · intro member
      have taken : conflicts (.deletePolicy id : Write V) (.lockPolicy id) = true :=
        by simp [conflicts, exclusive]
      rw [free _ member] at taken
      cases taken
  | delete => exact .delete
  | plain each => exact .plain each

end Step

section Runs

variable [BEq V] {registry : Registry V R C} {callers : Str → Bool} {base : Store V}

theorem start_quiet {outside outside' : Outside V} {event : Event V R} {phase : Phase V R C}
    (started : (managementSystem registry callers).start outside event = some (phase, outside')) :
    phase.writing = false ∧ outside'.nextId = outside.nextId := by
  cases event with
  | request request =>
    obtain ⟨caller, command⟩ := request
    simp only [managementSystem] at started
    split at started
    · cases started
      exact ⟨begin_writing caller command, rfl⟩
    · cases started
  | expirePolicies email =>
    cases started
    exact ⟨rfl, rfl⟩
  | expirePermissions email =>
    cases started
    exact ⟨rfl, rfl⟩

theorem moves_prepared {db db' : Store V} {outside outside' : Outside V} {phase phase' : Phase V R C}
    {pending pending' : List (Write V)} {label : Option (Input C)}
    (drawn : ∀ row ∈ db.policies, row.id < outside.nextId)
    (written : ∀ entry ∈ db.history, entry.id < outside.nextId) (own : Prepared db outside phase pending)
    (moves : (managementSystem registry callers).Moves db outside phase pending label db' outside'
      phase' pending') :
    Prepared db' outside' phase' pending' ∧ outside.nextId ≤ outside'.nextId ∧
      Draws outside (pending ++ phase.writes) (pending' ++ phase'.writes) ∧
      (db' = db ∨ db' = System.view (managementSystem registry callers) db pending ∧ phase.writes = []) := by
  have rolledBack : Prepared db outside (failedPhase phase) [] ∧ outside.nextId ≤ outside.nextId ∧
      Draws outside (pending ++ phase.writes) ([] ++ (failedPhase phase).writes) ∧
      (db = db ∨ db = System.view (managementSystem registry callers) db pending ∧ phase.writes = []) := by
    have quiet := failedPhase_writing phase
    exact ⟨prepared_idle quiet, Nat.le_refl _, draws_idle quiet, .inl rfl⟩
  cases moves with
  | read answer =>
    have next := next_cases answer
    cases writing : phase.writing with
    | true => exact (next_writing next writing ⟨_, _, rfl⟩).elim
    | false =>
      obtain rfl := own.idle writing
      obtain ⟨prepared, draws⟩ := read_prepared drawn written next
      refine ⟨prepared, next_nextId next, ?_, .inl rfl⟩
      intro policy member
      rcases draws policy member with held | fresh
      · cases held
      · exact .inr fresh
  | write answer admitted =>
    have next := next_cases answer
    obtain ⟨prepared, draws⟩ := written_prepared own written next
    exact ⟨prepared, next_nextId next, draws, .inl rfl⟩
  | refused _ _ => exact rolledBack
  | commit answer =>
    have next := next_cases answer
    have ends : phase.writes = [] ∧ phase'.writing = false := by
      cases next <;> exact ⟨rfl, rfl⟩
    exact ⟨prepared_idle ends.2, next_nextId next, draws_idle ends.2, .inr ⟨rfl, ends.1⟩⟩
  | @fail input phase' answer =>
    have quiet : phase'.writing = false := by
      cases next_cases answer
      rfl
    exact ⟨prepared_idle quiet, Nat.le_refl _, draws_idle quiet, .inl rfl⟩
  | abort => exact rolledBack

theorem history_stable :
    Stable (managementSystem registry callers) Guard.free Assertion.trivial (historyAssertion base) where
  start _ common started := by
    obtain ⟨quiet, same⟩ := start_quiet started
    exact ⟨⟨common.1, same ▸ common.2.1, same ▸ common.2.2⟩, prepared_idle quiet⟩
  startOther _ _ own started := by
    obtain ⟨quiet, same⟩ := start_quiet started
    refine ⟨own.grow (Nat.le_of_eq same.symm), ?_, ?_⟩
    · intro policy policy' member
      rw [writes_idle quiet] at member
      cases member
    · intro policy policy' _ member
      rw [writes_idle quiet] at member
      cases member
  own := by
    intro db outside phase pending label db' outside' phase' pending' _ _ common own _ moves
    obtain ⟨recorded, drawn, written⟩ := common
    obtain ⟨prepared, more, _, same | ⟨same, nothing⟩⟩ := moves_prepared drawn written own moves
    · subst same
      exact ⟨⟨recorded, fun row member => Nat.lt_of_lt_of_le (drawn row member) more,
        fun entry member => Nat.lt_of_lt_of_le (written entry member) more⟩, prepared⟩
    · subst same
      have whole : pending ++ phase.writes = pending := by rw [nothing, List.append_nil]
      have batch : Batch db pending := whole ▸ own.batch
      have dated : ∀ entry, .insertHistory entry ∈ pending → Dated db outside.nextId entry :=
        fun entry member => own.dated entry (List.mem_append_left _ member)
      refine ⟨⟨batch_recorded recorded batch dated, ?_, ?_⟩, prepared⟩
      · intro row member
        apply Nat.lt_of_lt_of_le _ more
        apply view_drawn drawn _ row member
        intro policy inserted
        exact own.drawn policy (List.mem_append_left _ inserted)
      · intro entry member
        apply Nat.lt_of_lt_of_le _ more
        rcases view_history member with old | new
        · exact written entry old
        · exact (dated entry new).drawn
  other := by
    intro db outside phase pending label db' outside' phase' pending' other otherPending _ _ _ _ _ common own
      theirs apart back _ free moves
    obtain ⟨prepared, more, draws, kept⟩ := moves_prepared common.2.1 common.2.2 own moves
    have new : ∀ policy policy', .insertPolicy policy ∈ pending' ++ phase'.writes →
      .insertPolicy policy' ∈ otherPending ++ other.writes →
        policy.id ≠ policy'.id := by
      intro policy policy' member member'
      rcases draws policy member with old | fresh
      · exact apart policy policy' old member'
      · have below := theirs.drawn policy' member'
        omega
    refine ⟨?_, new, fun policy policy' member member' => Ne.symm (new policy' policy member' member)⟩
    rcases kept with same | ⟨same, written⟩
    · subst same
      exact theirs.grow more
    · subst same
      have whole : pending ++ phase.writes = pending := by rw [written, List.append_nil]
      apply Prepared.grow _ more
      apply theirs.beside (whole ▸ own.batch) free
      intro policy policy' member
      exact apart policy policy' (List.mem_append_left _ member)

/-- However the management requests of any accounts interleave, the entries added to `policy_history`, in the
    order of their commits, make the policies from what they were, and each update of a policy starts from
    what the entry before it left. Of each policy, only the entries of deletions may stand elsewhere by their
    ids. -/
theorem history_replays {nextId : Nat} {s : State (Store V) (Outside V) (Phase V R C) (Write V)}
    (fresh : ∀ row ∈ base.policies, row.id < nextId) (dated : ∀ entry ∈ base.history, entry.id < nextId)
    (run : Runs (managementSystem registry callers) Guard.free (initialState base nextId) s) :
    ∃ entries, s.db.history = base.history ++ entries ∧
      policyLedger.Records base.definition? s.db.definition? entries ∧
      policyLedger.Numbered (·.id) (·.changes) entries := by
  have holds : (historyAssertion base).Holds s := by
    apply And.right
    apply holds_idle_runs conflicts_symm history_stable (fun t _ => Assertion.trivial_holds t) rfl _ run
    exact ⟨⟨[], (List.append_nil _).symm, records_nil, fun _ => List.Pairwise.nil⟩, fresh, dated⟩
  exact holds.common.1

end Runs

/-- Two requests change the managers' policy, and the second one is past its checks before the first one
    writes. -/
theorem history_replays_overlap :
    ∃ s, Runs (managementSystem selfOnly fun _ => true) Guard.free (initialState team 5) s ∧
    s.db.history.length = 2 ∧
    ∃ entries, s.db.history = team.history ++ entries ∧
      policyLedger.Records team.definition? s.db.definition? entries ∧
      policyLedger.Numbered (·.id) (·.changes) entries := by
  let describe : PolicyUpdate Bool := ⟨none, some (some "managers".toList), none, none, none, none⟩
  let deactivate : PolicyUpdate Bool := ⟨none, none, none, none, none, some false⟩
  let actions : List (Action (Input Unit) (Event Bool Str)) :=
    .start (.request ⟨"root".toList, .editPolicy "managers".toList (.update describe)⟩) ::
      .start (.request ⟨"root".toList, .editPolicy "managers".toList (.update deactivate)⟩) ::
      answered 0 8 ++ answered 1 5 ++ answered 0 7 ++ answered 1 7
  have ran : ((managementSystem selfOnly fun _ => true).perform Guard.free (initialState team 5) actions).any
      (fun s => s.db.history.length = 2) = true := by decide +kernel
  obtain ⟨s, run, changed⟩ := runs_of_performed ran
  exact ⟨s, run, of_decide_eq_true changed, history_replays (by decide) (by decide) run⟩

end ManifestCV.Authorization
