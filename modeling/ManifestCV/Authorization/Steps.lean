import ManifestCV.Authorization.Management

namespace ManifestCV.Authorization

open Foundation Foundation.Transactions

variable {V R C : Type}

def Plan.edits : Plan V → Option (Policy V × PolicyUpdate V)
  | .update policy fields => some (policy, fields)
  | .rollback policy target => some (policy, target.fields)
  | _ => none

structure Outside.Forgets (outside after : Outside V) : Prop where
  policies : ∀ email policies, after.userPolicies email = some policies →
    outside.userPolicies email = some policies
  permissions : ∀ email permissions, after.userPermissions email = some permissions →
    outside.userPermissions email = some permissions
  nextId : after.nextId = outside.nextId

theorem Outside.Forgets.refl (outside : Outside V) : outside.Forgets outside :=
  ⟨fun _ _ listed => listed, fun _ _ listed => listed, rfl⟩

theorem update_forgets {α : Type} {cache : Str → Option α} {email other : Str} {listed : α}
    (present : Function.update cache email none other = some listed) : cache other = some listed := by
  by_cases same : other = email
  · subst same
    rw [Function.update_self] at present
    cases present
  · rwa [Function.update_of_ne same] at present

theorem forgets_policies {outside : Outside V} (email : Str) :
    outside.Forgets { outside with userPolicies := Function.update outside.userPolicies email none } :=
  ⟨fun _ _ present => update_forgets present, fun _ _ listed => listed, rfl⟩

theorem forgets_permissions {outside : Outside V} (email : Str) :
    outside.Forgets { outside with userPermissions := Function.update outside.userPermissions email none } :=
  ⟨fun _ _ listed => listed, fun _ _ present => update_forgets present, rfl⟩

def outsideAfter (outside : Outside V) : Effect (Outside V) (Phase V R C) (Write V) → Outside V
  | .read _ outside' | .write _ _ outside' | .commit _ outside' => outside'
  | .fail _ => outside

inductive Next [BEq V] (registry : Registry V R C) (db : Store V) (outside : Outside V) :
    Phase V R C → Effect (Outside V) (Phase V R C) (Write V) → Prop
  | cached {caller goal policies} (listed : outside.userPolicies caller = some policies) :
      Next registry db outside (.policies caller goal) (.read (policiesLoaded caller policies goal) outside)
  | uncached {caller goal} :
      Next registry db outside (.policies caller goal) (.read (.selectPolicies caller goal) outside)
  | selected {caller goal} : Next registry db outside (.selectPolicies caller goal)
      (.read (.cachePolicies caller goal (db.activePolicies goal.loaded caller)) outside)
  | stored {caller goal policies} : Next registry db outside (.cachePolicies caller goal policies)
      (.read (policiesLoaded caller policies goal)
        { outside with userPolicies := Function.update outside.userPolicies caller (some policies) })
  | unstored {caller goal policies} : Next registry db outside (.cachePolicies caller goal policies)
      (.read (policiesLoaded caller policies goal) outside)
  | permissionsCached {caller goal policies permissions} (listed : outside.userPermissions caller =
      some permissions) :
      Next registry db outside (.permissions caller goal policies)
        (.read (.decide caller goal policies permissions) outside)
  | permissionsUncached {caller goal policies} : Next registry db outside (.permissions caller goal policies)
      (.read (.selectPermissions caller goal policies) outside)
  | permissionsSelected {caller goal policies} : Next registry db outside
      (.selectPermissions caller goal policies)
      (.read (.cachePermissions caller goal policies (db.activePermissions caller)) outside)
  | permissionsStored {caller goal policies permissions} : Next registry db outside
      (.cachePermissions caller goal policies permissions)
      (.read (.decide caller goal policies permissions)
        { outside with userPermissions := Function.update outside.userPermissions caller (some permissions) })
  | permissionsUnstored {caller goal policies permissions} : Next registry db outside
      (.cachePermissions caller goal policies permissions)
      (.read (.decide caller goal policies permissions) outside)
  | decided {caller goal policies permissions} (context : C) : Next registry db outside
      (.decide caller goal policies permissions)
      (.read (decided registry caller (effectivePolicies policies permissions) context goal) outside)
  | nameFree {caller name plan} (absent : db.policyNamed name = none) : Next registry db outside
      (.findName caller name plan)
      (.read (nameFree caller plan) outside)
  | policyFound {caller policyName edit policy} (found : db.policyNamed policyName = some policy) :
      Next registry db outside (.findPolicy caller policyName edit)
        (.read (policyFound registry caller policy edit) outside)
  | historyFound {caller policy historyId entry} (found : db.historyEntry? historyId = some entry) :
      Next registry db outside (.findHistory caller policy historyId)
        (.read (historyFound registry caller policy entry) outside)
  | holderFound {caller userEmail policyName edit user} (found : db.user? userEmail = some user) :
      Next registry db outside (.findHolder caller userEmail policyName edit)
        (.read (.findAssigned caller user policyName edit) outside)
  | assignedFound {caller user policyName edit policy} (found : db.policyNamed policyName = some policy) :
      Next registry db outside (.findAssigned caller user policyName edit)
        (.read (assignedFound caller user policy edit) outside)
  | granteeFound {caller userEmail action resourceType edit user} (found : db.user? userEmail = some user) :
      Next registry db outside (.findGrantee caller userEmail action resourceType edit)
        (.read (granteeFound registry caller action resourceType user edit) outside)
  | created {caller data} : Next registry db outside (.perform caller (.create data))
      (.read (.flush [.insertPolicy ⟨data.definition, outside.nextId⟩,
          .insertHistory ⟨outside.nextId + 1, outside.nextId, data.name, .created data.definition, caller⟩]
        [.refreshPolicy outside.nextId .internal]) { outside with nextId := outside.nextId + 2 })
  | updated {caller plan policy fields row change} (edits : plan.edits = some (policy, fields))
      (found : db.policy? policy.id = some row)
      (kind : change = .updated row.toDefinition (fields.apply row.toDefinition) ∨
        change = .rolledBack row.toDefinition (fields.apply row.toDefinition)) :
      Next registry db outside (.perform caller plan) (.write (.lockPolicy row.id)
        (.flush [.updatePolicy ⟨fields.apply row.toDefinition, row.id⟩,
            .insertHistory ⟨outside.nextId, row.id, (fields.apply row.toDefinition).name, change, caller⟩]
          [.refreshPolicy row.id .policyNotFound, .invalidateAllUserPolicies])
        { outside with nextId := outside.nextId + 1 })
  | deleted {caller policy} : Next registry db outside (.perform caller (.delete policy))
      (.read (.flush [.insertHistory ⟨outside.nextId, policy.id, policy.name, .deleted policy.toDefinition,
        caller⟩, .deletePolicy policy.id]
        [.invalidateAllUserPolicies]) { outside with nextId := outside.nextId + 1 })
  | assigned {caller user policy} (absent : db.assignment? user.id policy.id = none) :
      Next registry db outside (.perform caller (.assignment user policy .assign))
        (.read (.flush [.insertAssignment ⟨outside.nextId, user.id, policy.id⟩]
          [.refreshAssignment outside.nextId, .invalidateUserPolicies user.email])
            { outside with nextId := outside.nextId + 1 })
  | alreadyAssigned {caller user policy} : Next registry db outside
      (.perform caller (.assignment user policy .assign))
      (.read (.finished .done) outside)
  | counting {caller user policy edit action} (named : policy.name = systemSuperuserPolicyName) :
      Next registry db outside (.perform caller (.assignment user policy edit))
        (.read (.countHolders user policy action) outside)
  | removing {caller user policy edit action} (other : policy.name ≠ systemSuperuserPolicyName) :
      Next registry db outside (.perform caller (.assignment user policy edit))
        (.read (.findAssignment user policy action) outside)
  | permissionUpdated {caller user action resourceType conditions row}
      (found : db.permission? user.id action resourceType = some row) :
      Next registry db outside (.perform caller (.grant user action resourceType conditions))
        (.read (.flush [.updatePermission { row with conditions, isActive := true }]
          [.refreshPermission row.id, .invalidateUserPermissions user.email]) outside)
  | permissionInserted {caller user action resourceType conditions}
      (absent : db.permission? user.id action resourceType = none) :
      Next registry db outside (.perform caller (.grant user action resourceType conditions))
        (.read (.flush [.insertPermission ⟨⟨user.id, action, resourceType, conditions, true⟩, outside.nextId⟩]
          [.refreshPermission outside.nextId, .invalidateUserPermissions user.email])
            { outside with nextId := outside.nextId + 1 })
  | permissionDeleted {caller user action resourceType row}
      (found : db.permission? user.id action resourceType = some row) :
      Next registry db outside (.perform caller (.revoke user action resourceType))
        (.read (.flush [.deletePermission row] [.invalidateUserPermissions user.email]) outside)
  | counted {user policy action} (several : 1 < (db.userPolicies.filter (·.policyId = policy.id)).length) :
      Next registry db outside (.countHolders user policy action)
        (.read (.findAssignment user policy action) outside)
  | assignmentDeleted {user policy row} (found : db.assignment? user.id policy.id = some row) :
      Next registry db outside (.findAssignment user policy none)
        (.read (.flush [.deleteAssignment row] [.invalidateUserPolicies user.email]) outside)
  | converting {user policy action row} (found : db.assignment? user.id policy.id = some row) :
      Next registry db outside (.findAssignment user policy (some action))
        (.read (.findGrants user policy action row) outside)
  | converted {user policy action assignment} : Next registry db outside
      (.findGrants user policy action assignment)
      (.read (.flush (retainedGrants db outside user policy action ++ [.deleteAssignment assignment])
        [.invalidateUserPolicies user.email, .invalidateUserPermissions user.email])
          { outside with nextId := outside.nextId + policy.actions.length })
  | flushed {w writes follows} : Next registry db outside (.flush (w :: writes) follows)
      (.write w (.flush writes follows) outside)
  | committed {follows} : Next registry db outside (.flush [] follows) (.commit (.after follows) outside)
  | commitLost {follows} : Next registry db outside (.flush [] follows) (.commit (rejected .internal) outside)
  | followed {follows phase' outside'} (ends : (∃ rest, phase' = .after rest) ∨ phase' = .finished .done ∨
      ∃ code, phase' = rejected code)
      (forgets : outside.Forgets outside') : Next registry db outside (.after follows) (.read phase' outside')
  | refused {phase} (code : Code) : Next registry db outside phase (.fail (rejected code))

variable [BEq V] {registry : Registry V R C} {db : Store V} {outside : Outside V}
  {effect : Effect (Outside V) (Phase V R C) (Write V)}

theorem perform_cases {caller : Str} {plan : Plan V} (answer : perform db outside caller plan = some effect) :
    Next registry db outside (.perform caller plan) effect := by
  cases plan with
  | create data =>
    cases answer
    exact .created
  | update policy fields =>
    simp only [perform, updateLocked] at answer
    split at answer
    · cases answer
      exact .refused _
    · rename_i row found
      cases answer
      exact .updated rfl found (.inl rfl)
  | rollback policy target =>
    simp only [perform, updateLocked] at answer
    split at answer
    · cases answer
      exact .refused _
    · rename_i row found
      cases answer
      exact .updated rfl found (.inr rfl)
  | delete policy =>
    cases answer
    exact .deleted
  | assignment user policy edit =>
    have sought : ∀ {action : Option Str},
      (if (db.assignment? user.id policy.id).isNone then notHeld user policy
        else if policy.name = systemSuperuserPolicyName then
          some (Effect.read (.countHolders user policy action) outside)
        else some (.read (.findAssignment user policy action) outside)) = some effect →
        Next registry db outside (.perform caller (.assignment user policy edit)) effect := by
      intro action answer
      split at answer
      · cases answer
        exact .refused _
      · split at answer
        · rename_i named
          cases answer
          exact .counting named
        · rename_i other
          cases answer
          exact .removing other
    cases edit with
    | assign =>
      simp only [perform, performAssignment] at answer
      split at answer
      · cases answer
        exact .alreadyAssigned
      · rename_i absent
        cases answer
        exact .assigned (Option.not_isSome_iff_eq_none.mp absent)
    | remove => exact sought answer
    | revokeAction action => exact sought answer
  | grant user action resourceType conditions =>
    simp only [perform] at answer
    split at answer
    · rename_i row found
      cases answer
      exact .permissionUpdated found
    · rename_i absent
      cases answer
      exact .permissionInserted absent
  | revoke user action resourceType =>
    simp only [perform] at answer
    split at answer
    · cases answer
      exact .refused _
    · rename_i row found
      cases answer
      exact .permissionDeleted found

theorem findAssignment_cases {user : User} {policy : Policy V} {action : Option Str}
    (answer : findAssignment db outside user policy action = some effect) :
    Next registry db outside (.findAssignment user policy action) effect := by
  cases action with
  | none =>
    simp only [findAssignment] at answer
    split at answer
    · cases answer
      exact .refused _
    · rename_i row found
      cases answer
      exact .assignmentDeleted found
  | some action =>
    simp only [findAssignment] at answer
    split at answer
    · cases answer
      exact .refused _
    · split at answer
      · cases answer
        exact .refused _
      · rename_i row found
        cases answer
        exact .converting found

theorem refreshed_cases {present : Bool} {missing : Code} {follows : List Follow} {first : Follow}
    {input : Input C} (answer : refreshed outside present missing follows input = some effect) :
    Next registry db outside (.after (first :: follows)) effect := by
  cases input with
  | answer context =>
    cases answer
    apply Next.followed
    · cases present with
      | true => exact .inl ⟨follows, rfl⟩
      | false => exact .inr (.inr ⟨missing, rfl⟩)
    · exact .refl outside
  | _ =>
    cases answer
    exact .followed (.inr (.inr ⟨.internal, rfl⟩)) (.refl outside)

theorem invalidated_cases {cleared : Outside V} {follows : List Follow} {first : Follow} {input : Input C}
    (forgets : outside.Forgets cleared) (answer : invalidated outside cleared follows input = some effect) :
    Next registry db outside (.after (first :: follows)) effect := by
  cases input with
  | answer context =>
    cases answer
    exact .followed (.inl ⟨follows, rfl⟩) forgets
  | _ =>
    cases answer
    exact .followed (.inl ⟨follows, rfl⟩) (.refl outside)

theorem follow_cases {input : Input C} {first : Follow} {follows : List Follow}
    (answer : follow db outside input follows first = some effect) :
    Next registry db outside (.after (first :: follows)) effect := by
  cases first with
  | refreshPolicy id missing => exact refreshed_cases answer
  | refreshAssignment id => exact refreshed_cases answer
  | refreshPermission id => exact refreshed_cases answer
  | invalidateAllUserPolicies =>
    apply invalidated_cases _ answer
    refine ⟨?_, fun _ _ listed => listed, rfl⟩
    intro _ _ listed
    cases listed
  | invalidateUserPolicies userEmail => exact invalidated_cases (forgets_policies userEmail) answer
  | invalidateUserPermissions userEmail => exact invalidated_cases (forgets_permissions userEmail) answer

theorem next_cases {phase : Phase V R C} {input : Input C}
    (answer : next registry db outside phase input = some effect) :
    Next registry db outside phase effect := by
  cases phase with
  | finished outcome => cases answer
  | policies caller goal =>
    cases input with
    | answer context =>
      simp only [next] at answer
      split at answer
      · rename_i policies listed
        cases answer
        exact .cached listed
      · cases answer
        exact .uncached
    | _ =>
      cases answer
      exact .uncached
  | selectPolicies caller goal =>
    cases input <;> cases answer <;> first
      | exact .selected
      | exact .refused _
  | cachePolicies caller goal policies =>
    cases input <;> cases answer <;> first
      | exact .stored
      | exact .unstored
  | permissions caller goal policies =>
    cases input with
    | answer context =>
      simp only [next] at answer
      split at answer
      · rename_i permissions listed
        cases answer
        exact .permissionsCached listed
      · cases answer
        exact .permissionsUncached
    | _ =>
      cases answer
      exact .permissionsUncached
  | selectPermissions caller goal policies =>
    cases input <;> cases answer <;> first
      | exact .permissionsSelected
      | exact .refused _
  | cachePermissions caller goal policies permissions =>
    cases input <;> cases answer <;> first
      | exact .permissionsStored
      | exact .permissionsUnstored
  | decide caller goal policies permissions =>
    cases input <;> cases answer <;> first
      | exact .decided _
      | exact .refused _
  | findName caller name plan =>
    cases input with
    | answer context =>
      simp only [next] at answer
      split at answer
      · cases answer
        exact .refused _
      · rename_i absent
        cases answer
        exact .nameFree (Option.not_isSome_iff_eq_none.mp absent)
    | _ =>
      cases answer
      exact .refused _
  | findPolicy caller policyName edit =>
    cases input with
    | answer context =>
      simp only [next] at answer
      split at answer
      · cases answer
        exact .refused _
      · rename_i policy found
        cases answer
        exact .policyFound found
    | _ =>
      cases answer
      exact .refused _
  | findHistory caller policy historyId =>
    cases input with
    | answer context =>
      simp only [next] at answer
      split at answer
      · cases answer
        exact .refused _
      · rename_i entry found
        cases answer
        exact .historyFound found
    | _ =>
      cases answer
      exact .refused _
  | findHolder caller userEmail policyName edit =>
    cases input with
    | answer context =>
      simp only [next] at answer
      split at answer
      · cases answer
        exact .refused _
      · rename_i user found
        cases answer
        exact .holderFound found
    | _ =>
      cases answer
      exact .refused _
  | findAssigned caller user policyName edit =>
    cases input with
    | answer context =>
      simp only [next] at answer
      split at answer
      · cases answer
        exact .refused _
      · rename_i policy found
        cases answer
        exact .assignedFound found
    | _ =>
      cases answer
      exact .refused _
  | findGrantee caller userEmail action resourceType edit =>
    cases input with
    | answer context =>
      simp only [next] at answer
      split at answer
      · cases answer
        exact .refused _
      · rename_i user found
        cases answer
        exact .granteeFound found
    | _ =>
      cases answer
      exact .refused _
  | perform caller plan =>
    cases input with
    | answer context => exact perform_cases answer
    | _ =>
      cases answer
      exact .refused _
  | countHolders user policy action =>
    cases input with
    | answer context =>
      simp only [next] at answer
      split at answer
      · cases answer
        exact .refused _
      · rename_i several
        cases answer
        exact .counted (Nat.lt_of_not_le several)
    | _ =>
      cases answer
      exact .refused _
  | findAssignment user policy action =>
    cases input with
    | answer context => exact findAssignment_cases answer
    | _ =>
      cases answer
      exact .refused _
  | findGrants user policy action assignment =>
    cases input <;> cases answer <;> first
      | exact .converted
      | exact .refused _
  | flush writes follows =>
    cases writes with
    | nil =>
      cases input <;> cases answer <;> first
        | exact .committed
        | exact .commitLost
        | exact .refused _
    | cons w writes =>
      cases input <;> cases answer <;> first
        | exact .flushed
        | exact .refused _
  | after follows =>
    cases follows with
    | nil =>
      cases input <;> cases answer <;> exact .followed (.inr (.inl rfl)) (.refl outside)
    | cons first follows => exact follow_cases answer

theorem next_nextId {phase : Phase V R C} (next : Next registry db outside phase effect) :
    outside.nextId ≤ (outsideAfter outside effect).nextId := by
  cases next with
  | followed ends forgets => exact Nat.le_of_eq forgets.nextId.symm
  | created | updated | deleted | assigned | permissionInserted | converted => exact Nat.le_add_right _ _
  | _ => exact Nat.le_refl _

theorem next_writing {phase : Phase V R C} (next : Next registry db outside phase effect)
    (held : phase.writing = true) (reads : ∃ phase' outside', effect = .read phase' outside') : False := by
  obtain ⟨phase', outside', rfl⟩ := reads
  cases next <;> cases held

theorem written_writing {w : Write V} {phase phase' : Phase V R C} {outside' : Outside V}
    (next : Next registry db outside phase (.write w phase' outside')) : phase'.writing = true := by
  cases next <;> rfl

omit [BEq V] in
theorem failedPhase_writing (phase : Phase V R C) : (failedPhase phase).writing = false :=
  by cases phase <;> rfl

omit [BEq V] in
theorem begin_writing (caller : Str) (command : Command V R) :
    (begin caller command : Phase V R C).writing = false := by
  unfold begin
  split <;> rfl

omit [BEq V] in
theorem conflicts_symm (w v : Write V) : conflicts w v = conflicts v w := by
  unfold conflicts
  have flips : ((exclusive w).any fun lock => (exclusive v).any (· = lock)) = (exclusive v).any fun lock =>
      (exclusive w).any (· = lock) := by
    apply Bool.eq_iff_iff.mpr
    simp only [List.any_eq_true, decide_eq_true_eq]
    constructor
    · rintro ⟨lock, left, other, right, rfl⟩
      exact ⟨other, right, other, left, rfl⟩
    · rintro ⟨lock, left, other, right, rfl⟩
      exact ⟨other, right, other, left, rfl⟩
  rw [flips, Bool.or_assoc, Bool.or_assoc]
  congr 1
  exact Bool.or_comm _ _

end ManifestCV.Authorization
