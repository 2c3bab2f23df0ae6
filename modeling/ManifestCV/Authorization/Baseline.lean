import ManifestCV.Authorization.Steps

namespace ManifestCV.Authorization

open Foundation Foundation.Transactions

variable {V R C : Type}

section Claims

variable (id : Nat) (name : Str)

def Policy.KeepsName (policy : Policy V) : Prop := policy.id = id → policy.name = name

def Plan.Keeps : Plan V → Prop
  | .update policy fields =>
    policy.id = id → policy.name = name ∧ (∀ other, fields.name = some other → other = name) ∧
      fields.isActive ≠ some false
  | .rollback policy target => policy.id = id → policy.name = name ∧ target.name = name ∧
      target.isActive = true
  | .delete policy => policy.id ≠ id
  | .assignment _ policy _ => policy.KeepsName id name
  | _ => True

def Goal.Keeps : Goal V R → Prop
  | .require _ _ _ _ => True
  | .superuser plan _ _ | .action plan _ _ _ _ => plan.Keeps id name

def Write.Keeps : Write V → Prop
  | .insertPolicy policy => policy.id ≠ id
  | .updatePolicy policy => policy.id = id → policy.name = name ∧ policy.isActive = true
  | .deletePolicy other => other ≠ id
  | _ => True

def Phase.Keeps : Phase V R C → Prop
  | .policies _ goal | .selectPolicies _ goal | .cachePolicies _ goal _ | .permissions _ goal
      _ | .selectPermissions _ goal _
  | .cachePermissions _ goal _ _ | .decide _ goal _ _ => goal.Keeps id name
  | .findName _ _ plan | .perform _ plan => plan.Keeps id name
  | .findHistory _ policy _ | .countHolders _ policy _ | .findAssignment _ policy _ | .findGrants _ policy _
      _ => policy.KeepsName id name
  | .flush writes _ => ∀ w ∈ writes, w.Keeps id name
  | _ => True

structure Store.Keeps (db : Store V) : Prop where
  present : ∃ row ∈ db.policies, row.id = id
  named : ∀ row ∈ db.policies, row.id = id → row.name = name ∧ row.isActive = true

def baselineAssertion : Assertion (Store V) (Outside V) (Phase V R C) (Write V) where
  common db outside := db.Keeps id name ∧ id < outside.nextId
  own _ _ phase pending := phase.Keeps id name ∧ ∀ w ∈ pending, w.Keeps id name
  pair _ _ _ _ := True

end Claims

variable {id : Nat} {name : Str}

theorem applyWrite_keeps {db : Store V} {w : Write V} (keeps : db.Keeps id name) (each : w.Keeps id name) :
    (applyWrite db w).Keeps id name := by
  obtain ⟨⟨row, inside, same⟩, named⟩ := keeps
  cases w with
  | insertPolicy policy =>
    constructor
    · exact ⟨row, List.mem_append_left _ inside, same⟩
    · intro other member equal
      rcases List.mem_append.mp member with old | new
      · exact named other old equal
      · rw [List.mem_singleton.mp new] at equal
        exact absurd equal each
  | updatePolicy policy =>
    have moved : ∀ old, ((if old.id = policy.id then policy else old) : Policy V).id = old.id := by
      intro old
      split
      · rename_i equal
        exact equal.symm
      · rfl
    constructor
    · refine ⟨_, List.mem_map_of_mem inside, ?_⟩
      rw [moved row]
      exact same
    · intro other member equal
      obtain ⟨old, inside, rfl⟩ := List.mem_map.mp member
      rw [moved old] at equal
      split
      · rename_i changed
        exact each (changed.symm.trans equal)
      · exact named old inside equal
  | deletePolicy other =>
    constructor
    · refine ⟨row, List.mem_filter.mpr ⟨inside, ?_⟩, same⟩
      rw [same]
      exact decide_eq_true (Ne.symm each)
    · intro old member
      exact named old (List.mem_filter.mp member).1
  | _ => exact ⟨⟨row, inside, same⟩, named⟩

theorem view_keeps [BEq V] {registry : Registry V R C} {callers : Str → Bool} {db : Store V}
    {pending : List (Write V)} (keeps : db.Keeps id name) (each : ∀ w ∈ pending, w.Keeps id name) :
    (System.view (managementSystem registry callers) db pending).Keeps id name := by
  unfold System.view
  induction pending generalizing db with
  | nil => exact keeps
  | cons w pending ih =>
    apply ih
    · exact applyWrite_keeps keeps (each w List.mem_cons_self)
    · intro v member
      exact each v (List.mem_cons_of_mem _ member)

section Phases

variable {plan : Plan V} {caller : Str}

theorem guardFrom_keeps (proposals : List (Proposal V)) (keeps : plan.Keeps id name) :
    (guardFrom caller plan proposals : Phase V R C).Keeps id name := by
  induction proposals with
  | nil => exact keeps
  | cons proposal more ih =>
    unfold guardFrom
    split
    · exact keeps
    · split
      · exact ih
      · exact keeps

theorem guardActions_keeps (proposal : Proposal V) (more : List (Proposal V)) (actions : List Str)
    (keeps : plan.Keeps id name) :
    (guardActions caller plan proposal more actions : Phase V R C).Keeps id name := by
  cases actions with
  | nil => exact guardFrom_keeps more keeps
  | cons action rest => exact keeps

theorem policiesLoaded_keeps {goal : Goal V R} (policies : List (Definition V)) (keeps : goal.Keeps id name) :
    (policiesLoaded caller policies goal : Phase V R C).Keeps id name := by
  cases goal with
  | superuser plan proposal more =>
    simp only [policiesLoaded]
    split
    · exact guardFrom_keeps more keeps
    · exact guardActions_keeps proposal more _ keeps
  | require command action resourceType rest => exact keeps
  | action plan proposal more action rest => exact keeps

theorem body_keeps (registry : Registry V R C) (command : Command V R) :
    (body registry caller command).Keeps id name := by
  cases command with
  | createPolicy data =>
    simp only [body]
    split <;> exact True.intro
  | _ => exact True.intro

theorem decided_keeps [BEq V] {registry : Registry V R C} {goal : Goal V R} (effective : List (Definition V))
    (context : C) (keeps : goal.Keeps id name) :
    (decided registry caller effective context goal).Keeps id name := by
  cases goal with
  | require command action resourceType rest =>
    simp only [decided]
    split
    · exact True.intro
    · split
      · exact True.intro
      · exact body_keeps registry _
      · exact True.intro
  | superuser plan proposal more => exact guardActions_keeps proposal more _ keeps
  | action plan proposal more action rest =>
    simp only [decided]
    split
    · exact True.intro
    · split
      · exact True.intro
      · exact guardActions_keeps proposal more rest keeps

theorem guardPlan_keeps (keeps : plan.Keeps id name) : (guardPlan caller plan : Phase V R C).Keeps id name :=
  guardFrom_keeps plan.proposals keeps

variable {policy : Policy V} (guarded : isProtected name = true) (keeps : policy.KeepsName id name)

include guarded keeps

theorem unprotected_other (free : isProtected policy.name = false) : policy.id ≠ id := by
  intro same
  rw [keeps same, guarded] at free
  cases free

theorem checkDeactivation_keeps {fields : PolicyUpdate V}
    (renames : fields.name.any (· ≠ policy.name) = false ∨ isProtected policy.name = false) :
    (checkDeactivation caller policy fields : Phase V R C).Keeps id name := by
  unfold checkDeactivation
  split
  · exact True.intro
  · rename_i stays
    apply guardPlan_keeps
    intro same
    rcases renames with still | free
    · refine ⟨keeps same, ?_, ?_⟩
      · intro other set
        rw [set, Option.any_some, decide_eq_false_iff_not, not_not] at still
        exact still.trans (keeps same)
      · intro off
        rw [keeps same, guarded, off] at stays
        exact stays rfl
    · exact absurd same (unprotected_other guarded keeps free)

theorem policyFound_keeps {registry : Registry V R C} (edit : PolicyEdit V) :
    (policyFound registry caller policy edit).Keeps id name := by
  cases edit with
  | update fields =>
    simp only [policyFound]
    split
    · exact True.intro
    · split
      · exact True.intro
      · rename_i allowed
        rw [Bool.and_eq_true, not_and, Bool.not_eq_true] at allowed
        split
        · rename_i renamed
          intro same
          rw [allowed (keeps same ▸ guarded)] at renamed
          cases renamed
        · rename_i still
          exact checkDeactivation_keeps guarded keeps (.inl (Bool.eq_false_iff.mpr still))
  | delete =>
    simp only [policyFound]
    split
    · exact True.intro
    · rename_i free
      split
      · exact True.intro
      · exact guardPlan_keeps (unprotected_other guarded keeps (Bool.eq_false_iff.mpr free))
  | rollback historyId => exact keeps

theorem historyFound_keeps {registry : Registry V R C} (entry : PolicyHistory V) :
    (historyFound registry caller policy entry).Keeps id name := by
  simp only [historyFound]
  split
  · exact True.intro
  · split
    · exact True.intro
    · split
      · exact True.intro
      · rename_i named
        split
        · exact True.intro
        · rename_i active
          apply guardPlan_keeps
          intro same
          rw [keeps same, guarded] at named active
          refine ⟨keeps same, ?_, ?_⟩
          · simpa using named
          · simpa using active

omit guarded in
theorem assignedFound_keeps (user : User) (edit : AssignmentEdit) :
    (assignedFound caller user policy edit : Phase V R C).Keeps id name := by
  unfold assignedFound
  split
  · exact True.intro
  · exact guardPlan_keeps keeps

end Phases

theorem nameFree_keeps {caller : Str} {plan : Plan V} (keeps : plan.Keeps id name) :
    (nameFree caller plan : Phase V R C).Keeps id name := by
  cases plan with
  | update policy fields =>
    simp only [nameFree, checkDeactivation]
    split
    · exact True.intro
    · exact guardPlan_keeps keeps
  | _ => exact guardPlan_keeps keeps

theorem granteeFound_keeps {registry : Registry V R C} {caller action resourceType : Str} {user : User}
    (edit : PermissionEdit V) :
    (granteeFound registry caller action resourceType user edit).Keeps id name := by
  cases edit with
  | grant conditions =>
    simp only [granteeFound]
    split
    · exact True.intro
    · split
      · exact True.intro
      · exact guardPlan_keeps True.intro
  | revoke =>
    simp only [granteeFound]
    split
    · exact True.intro
    · exact guardPlan_keeps True.intro

theorem policyNamed_mem {db : Store V} {policyName : Str} {policy : Policy V}
    (found : db.policyNamed policyName = some policy) :
    policy ∈ db.policies := List.mem_of_find?_eq_some found

theorem policy?_some {db : Store V} {i : Nat} {row : Policy V} (found : db.policy? i = some row) :
    row ∈ db.policies ∧ row.id = i :=
  ⟨List.mem_of_find?_eq_some found, of_decide_eq_true (List.find?_some found :)⟩

section Step

variable [BEq V] {registry : Registry V R C} {db : Store V} {outside : Outside V} {phase : Phase V R C}
  {effect : Effect (Outside V) (Phase V R C) (Write V)}

omit [BEq V] in
theorem updated_keeps {plan : Plan V} {policy row : Policy V} {fields : PolicyUpdate V}
    (planned : plan.Keeps id name) (keeps : db.Keeps id name) (edits : plan.edits = some (policy, fields))
    (found : db.policy? policy.id = some row) (same : row.id = id) :
    (fields.apply row.toDefinition).name = name ∧ (fields.apply row.toDefinition).isActive = true := by
  obtain ⟨inside, equal⟩ := policy?_some found
  obtain ⟨named, active⟩ := keeps.named row inside same
  rw [equal] at same
  cases plan with
  | update policy fields =>
    cases edits
    obtain ⟨_, renames, deactivates⟩ := planned same
    constructor
    · show fields.name.getD row.name = name
      cases set : fields.name with
      | none => exact named
      | some other => exact renames other set
    · show fields.isActive.getD row.isActive = true
      cases set : fields.isActive with
      | none => exact active
      | some on =>
        cases on with
        | true => rfl
        | false => exact absurd set deactivates
  | rollback policy target =>
    cases edits
    exact (planned same).2
  | _ => cases edits

omit [BEq V] in
theorem retained_permissions {user : User} {policy : Policy V} {action : Str} {w : Write V}
    (member : w ∈ retainedGrants db outside user policy action) :
    ∃ row : Permission V, (w = .updatePermission row ∨ w = .insertPermission row) ∧ row.userId = user.id ∧
      row.resourceType = policy.resourceType ∧ row.conditions = policy.conditions ∧
        row.action ∈ policy.actions := by
  rcases List.mem_append.mp member with old | new
  · obtain ⟨row, inside, rfl⟩ := List.mem_map.mp old
    have fits := (List.mem_filter.mp inside).2
    simp only [Bool.and_eq_true, decide_eq_true_eq, List.any_eq_true] at fits
    obtain ⟨⟨mine, type⟩, kept, listed, same⟩ := fits
    exact ⟨_, .inl rfl, mine, type, rfl, same ▸ (List.mem_filter.mp listed).1⟩
  · obtain ⟨⟨kept, n⟩, inside, rfl⟩ := List.mem_map.mp new
    have listed := (List.mem_filter.mp (List.fst_mem_of_mem_zipIdx inside)).1
    exact ⟨_, .inr rfl, rfl, rfl, rfl, (List.mem_filter.mp listed).1⟩

theorem next_keeps (guarded : isProtected name = true) (keeps : db.Keeps id name)
    (fresh : id < outside.nextId) (own : phase.Keeps id name) (next : Next registry db outside phase effect) :
    effect.phase.Keeps id name ∧ ∀ w phase' outside', effect = .write w phase' outside' →
      w.Keeps id name := by
  have none_written : ∀ {phase' : Phase V R C} {outside' : Outside V}, phase'.Keeps id name →
      (Effect.read phase' outside' : Effect (Outside V) (Phase V R C) (Write V)).phase.Keeps id name ∧
        ∀ w phase'' outside'', (Effect.read phase' outside' : Effect _ _ (Write V)) =
            .write w phase'' outside'' → w.Keeps id name := by
    intro phase' outside' kept
    refine ⟨kept, ?_⟩
    intro w _ _ written
    cases written
  have loaded : ∀ {policyName policy}, db.policyNamed policyName = some policy → policy.KeepsName id name :=
    fun found same => (keeps.named _ (policyNamed_mem found) same).1
  cases next with
  | cached | stored | unstored => exact none_written (policiesLoaded_keeps _ own)
  | uncached | selected | permissionsCached | permissionsUncached | permissionsSelected | permissionsStored
  | permissionsUnstored =>
    exact none_written own
  | decided context => exact none_written (decided_keeps _ context own)
  | nameFree absent => exact none_written (nameFree_keeps own)
  | policyFound found => exact none_written (policyFound_keeps guarded (loaded found) _)
  | historyFound found => exact none_written (historyFound_keeps guarded own _)
  | holderFound found => exact none_written True.intro
  | assignedFound found => exact none_written (assignedFound_keeps (loaded found) _ _)
  | granteeFound found => exact none_written (granteeFound_keeps _)
  | created =>
    apply none_written
    intro w member
    rcases List.mem_cons.mp member with rfl | member
    · show outside.nextId ≠ id
      omega
    · rw [List.mem_singleton.mp member]
      exact True.intro
  | updated edits found kind =>
    constructor
    · intro w member
      rcases List.mem_cons.mp member with rfl | member
      · exact updated_keeps own keeps edits found
      · rw [List.mem_singleton.mp member]
        exact True.intro
    · intro w _ _ written
      cases written
      exact True.intro
  | deleted =>
    apply none_written
    intro w member
    rcases List.mem_cons.mp member with rfl | member
    · exact True.intro
    · rw [List.mem_singleton.mp member]
      exact own
  | assigned | permissionUpdated | permissionInserted | permissionDeleted | assignmentDeleted =>
    apply none_written
    intro w member
    rw [List.mem_singleton.mp member]
    exact True.intro
  | alreadyAssigned => exact none_written True.intro
  | counting | removing | counted | converting => exact none_written own
  | converted =>
    apply none_written
    intro w member
    rcases List.mem_append.mp member with kept | gone
    · obtain ⟨row, rfl | rfl, _⟩ := retained_permissions kept <;> exact True.intro
    · rw [List.mem_singleton.mp gone]
      exact True.intro
  | flushed =>
    constructor
    · intro w member
      exact own w (List.mem_cons_of_mem _ member)
    · intro w _ _ written
      cases written
      exact own _ List.mem_cons_self
  | committed | commitLost =>
    refine ⟨True.intro, ?_⟩
    intro w _ _ written
    cases written
  | followed ends forgets =>
    rcases ends with ⟨rest, rfl⟩ | rfl | ⟨code, rfl⟩ <;> exact none_written True.intro
  | refused code =>
    refine ⟨True.intro, ?_⟩
    intro w _ _ written
    cases written

end Step

theorem failedPhase_keeps (phase : Phase V R C) : (failedPhase phase).Keeps id name := by
  cases phase <;> exact True.intro

variable [BEq V] {registry : Registry V R C} {callers : Str → Bool}

omit [BEq V] in
theorem begin_keeps (caller : Str) (command : Command V R) :
    (begin caller command : Phase V R C).Keeps id name := by
  unfold begin
  split <;> exact True.intro

theorem start_keeps {outside outside' : Outside V} {event : Event V R} {phase : Phase V R C}
    (started : (managementSystem registry callers).start outside event = some (phase, outside')) :
    phase.Keeps id name ∧ outside'.nextId = outside.nextId := by
  cases event with
  | request request =>
    obtain ⟨caller, command⟩ := request
    simp only [managementSystem] at started
    split at started
    · cases started
      exact ⟨begin_keeps caller command, rfl⟩
    · cases started
  | expirePolicies email =>
    cases started
    exact ⟨True.intro, rfl⟩
  | expirePermissions email =>
    cases started
    exact ⟨True.intro, rfl⟩

theorem baseline_stable (guarded : isProtected name = true) :
    Stable (managementSystem registry callers) Guard.free Assertion.trivial (baselineAssertion id name) where
  start _ common started := by
    obtain ⟨kept, same⟩ := start_keeps started
    refine ⟨⟨common.1, same ▸ common.2⟩, kept, ?_⟩
    intro w member
    cases member
  startOther _ _ own _ := ⟨own, True.intro, True.intro⟩
  own := by
    intro db outside phase pending label db' outside' phase' pending' _ _ common own _ moves
    obtain ⟨keeps, fresh⟩ := common
    obtain ⟨own, held⟩ := own
    have viewed := @view_keeps V R C id name _ registry callers db pending keeps held
    have nothing : ∀ w ∈ ([] : List (Write V)), w.Keeps id name := by
      intro w member
      cases member
    cases moves with
    | read answer =>
      have next := next_cases answer
      exact ⟨⟨keeps, Nat.lt_of_lt_of_le fresh (next_nextId next)⟩,
        (next_keeps guarded viewed fresh own next).1, held⟩
    | write answer admitted =>
      have next := next_cases answer
      obtain ⟨kept, written⟩ := next_keeps guarded viewed fresh own next
      refine ⟨⟨keeps, Nat.lt_of_lt_of_le fresh (next_nextId next)⟩, kept, ?_⟩
      intro w member
      rcases List.mem_append.mp member with old | new
      · exact held w old
      · rw [List.mem_singleton.mp new]
        exact written _ _ _ rfl
    | refused _ _ => exact ⟨⟨keeps, fresh⟩, failedPhase_keeps phase, nothing⟩
    | commit answer =>
      have next := next_cases answer
      exact ⟨⟨viewed, Nat.lt_of_lt_of_le fresh (next_nextId next)⟩,
        (next_keeps guarded viewed fresh own next).1, nothing⟩
    | fail answer =>
        exact ⟨⟨keeps, fresh⟩, (next_keeps guarded viewed fresh own (next_cases answer)).1, nothing⟩
    | abort => exact ⟨⟨keeps, fresh⟩, failedPhase_keeps phase, nothing⟩
  other _ _ _ _ _ _ _ own _ _ _ _ _ := ⟨own, True.intro, True.intro⟩

theorem baseline_runs {db : Store V} {nextId : Nat} {policy : Policy V}
    {s : State (Store V) (Outside V) (Phase V R C) (Write V)} (inside : policy ∈ db.policies)
    (guarded : isProtected policy.name = true) (active : policy.isActive = true)
    (unique : ∀ other ∈ db.policies, other.id = policy.id → other = policy) (fresh : policy.id < nextId)
    (run : Runs (managementSystem registry callers) Guard.free (initialState db nextId) s) :
    (baselineAssertion policy.id policy.name).Holds s := by
  apply (holds_idle_runs conflicts_symm (baseline_stable guarded) (fun t _ => Assertion.trivial_holds t)
    rfl _ run).2
  refine ⟨⟨⟨policy, inside, rfl⟩, ?_⟩, fresh⟩
  intro row member same
  rw [unique row member same]
  exact ⟨rfl, active⟩

/-- However the management requests of any accounts interleave, a protected policy keeps its row, its name and
    its activity. -/
theorem baseline_stays {db : Store V} {nextId : Nat} {policy : Policy V}
    {s : State (Store V) (Outside V) (Phase V R C) (Write V)} (inside : policy ∈ db.policies)
    (guarded : isProtected policy.name = true) (active : policy.isActive = true)
    (unique : ∀ other ∈ db.policies, other.id = policy.id → other = policy) (fresh : policy.id < nextId)
    (run : Runs (managementSystem registry callers) Guard.free (initialState db nextId) s) :
    (∃ row ∈ s.db.policies, row.id = policy.id) ∧
      ∀ row ∈ s.db.policies, row.id = policy.id → row.name = policy.name ∧ row.isActive = true := by
  have holds := (baseline_runs inside guarded active unique fresh run).common.1
  exact ⟨holds.present, holds.named⟩

def selfOnly : Registry Bool Str Unit := fun key =>
  if key = "self_only".toList then some ⟨fun _ => true, fun value userEmail owner _ => !value ||
    owner.any (· = userEmail)⟩ else none

def team : Store Bool where
  users := [⟨1, "root".toList, true⟩, ⟨2, "m".toList, false⟩, ⟨3, "h".toList, false⟩]
  policies := [
    ⟨⟨systemSuperuserPolicyName, none, ["users:delete_any".toList, "policies:update".toList], wildcard, none,
      true⟩, 1⟩,
    ⟨⟨"managers".toList, none, ["policies:create".toList, "policies:assign".toList, "notes:read".toList],
      wildcard, none, true⟩, 2⟩]
  userPolicies := [⟨3, 1, 1⟩, ⟨4, 2, 2⟩]
  permissions := []
  history := []

def answered (i n : Nat) : List (Action (Input Unit) (Event Bool Str)) :=
  List.replicate n (.run i (.answer ()))

/-- One request describes the superuser policy anew, and another one tries to turn it off. -/
theorem baseline_stays_superuser :
    ∃ s, Runs (managementSystem selfOnly fun _ => true) Guard.free (initialState team 5) s ∧
    s.db.history.length = 1 ∧ (∃ row ∈ s.db.policies, row.id = 1) ∧
    ∀ row ∈ s.db.policies, row.id = 1 → row.name = systemSuperuserPolicyName ∧ row.isActive = true := by
  let describe : PolicyUpdate Bool := ⟨none, some (some "root".toList), none, none, none, none⟩
  let deactivate : PolicyUpdate Bool := ⟨none, none, none, none, none, some false⟩
  let actions : List (Action (Input Unit) (Event Bool Str)) :=
    .start (.request ⟨"root".toList, .editPolicy systemSuperuserPolicyName (.update describe)⟩) ::
      .start (.request ⟨"root".toList, .editPolicy systemSuperuserPolicyName (.update deactivate)⟩) ::
        answered 0 15 ++ answered 1 6
  have ran : ((managementSystem selfOnly fun _ => true).perform Guard.free (initialState team 5) actions).any
      (fun s => s.db.history.length = 1) = true := by decide +kernel
  obtain ⟨s, run, changed⟩ := runs_of_performed ran
  have unique : ∀ other ∈ team.policies, other.id = 1 →
      other = ⟨⟨systemSuperuserPolicyName, none, ["users:delete_any".toList, "policies:update".toList],
        wildcard, none, true⟩, 1⟩ := by decide
  exact ⟨s, run, of_decide_eq_true changed, baseline_stays List.mem_cons_self (by decide) rfl unique
    (by decide) run⟩

end ManifestCV.Authorization
