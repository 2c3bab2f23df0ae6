import ManifestCV.Authorization.Policies
import ManifestCV.Foundation.Transactions
import Mathlib.Logic.Function.Basic

namespace ManifestCV.Authorization

open Foundation Foundation.Transactions

variable {V R C : Type}

def builtInActions : List Str :=
  ["users:read_own", "users:update_own", "users:list_all", "users:update_any", "users:deactivate_any",
    "users:assign_role", "users:reactivate", "users:assign_system_role", "users:delete_any", "policies:read",
    "policies:create", "policies:update", "policies:delete", "policies:assign", "policies:revoke",
    "permissions:grant", "permissions:revoke", "permissions:read", "security_audit:read", "rate_limits:read",
    "rate_limits:reset"].map String.toList

def systemSuperuserPolicyName : Str := "system_superuser".toList

def protectedPolicyNames : List Str :=
  ["self_service".toList, "user_management".toList, systemSuperuserPolicyName]

def isProtected (name : Str) : Bool := protectedPolicyNames.any (· = name)

structure User where
  id : Nat
  email : Str
  system : Bool

structure Policy (V : Type) extends Definition V where
  id : Nat
  deriving DecidableEq

structure UserPolicy where
  id : Nat
  userId : Nat
  policyId : Nat

structure Permission (V : Type) extends UserPermission V where
  id : Nat

inductive Change (V : Type) where
  | created (new : Definition V)
  | updated (previous new : Definition V)
  | rolledBack (previous new : Definition V)
  | deleted (previous : Definition V)

structure PolicyHistory (V : Type) where
  id : Nat
  policyId : Nat
  policyName : Str
  change : Change V
  changedBy : Str

def Change.definition : Change V → Definition V
  | .created new | .updated _ new | .rolledBack _ new => new
  | .deleted previous => previous

structure Store (V : Type) where
  users : List User
  policies : List (Policy V)
  userPolicies : List UserPolicy
  permissions : List (Permission V)
  history : List (PolicyHistory V)

namespace Store

variable (db : Store V)

def policyNamed (name : Str) : Option (Policy V) := db.policies.find? (·.name = name)

def policy? (id : Nat) : Option (Policy V) := db.policies.find? (·.id = id)

def user? (email : Str) : Option User := db.users.find? (·.email = email)

def assignment? (userId policyId : Nat) : Option UserPolicy :=
  db.userPolicies.find? fun row => row.userId = userId && row.policyId = policyId

def permission? (userId : Nat) (action resourceType : Str) : Option (Permission V) :=
  db.permissions.find? fun row => row.userId = userId && row.action = action &&
    row.resourceType = resourceType

def historyEntry? (id : Nat) : Option (PolicyHistory V) := db.history.find? (·.id = id)

def emailOf (userId : Nat) (email : Str) : Bool :=
  db.users.any fun user => user.id = userId && user.email = email

/-- Of a policy that is loaded already a query gives the loaded object, with the values it was loaded with. -/
def activePolicies (loaded : Option (Policy V)) (email : Str) : List (Definition V) :=
  (db.policies.filter fun row => row.isActive && db.userPolicies.any fun link => link.policyId = row.id &&
    db.emailOf link.userId email).map
    fun row => ((loaded.filter (·.id = row.id)).getD row).toDefinition

def activePermissions (email : Str) : List (UserPermission V) :=
  (db.permissions.filter fun row => row.isActive && db.emailOf row.userId email).map (·.toUserPermission)

end Store

inductive Write (V : Type) where
  | insertPolicy (policy : Policy V)
  /-- `SELECT ... FOR UPDATE`. -/
  | lockPolicy (id : Nat)
  | updatePolicy (policy : Policy V)
  | deletePolicy (id : Nat)
  | insertHistory (entry : PolicyHistory V)
  | insertAssignment (row : UserPolicy)
  | deleteAssignment (row : UserPolicy)
  | insertPermission (row : Permission V)
  | updatePermission (row : Permission V)
  | deletePermission (row : Permission V)

def applyWrite (db : Store V) : Write V → Store V
  | .insertPolicy policy => { db with policies := db.policies ++ [policy] }
  | .lockPolicy _ => db
  | .updatePolicy policy =>
      { db with policies := db.policies.map fun row => if row.id = policy.id then policy else row }
  -- the assignments go with the policy
  | .deletePolicy id =>
    { db with
      policies := db.policies.filter (·.id ≠ id)
      userPolicies := db.userPolicies.filter (·.policyId ≠ id) }
  | .insertHistory entry => { db with history := db.history ++ [entry] }
  | .insertAssignment row => { db with userPolicies := db.userPolicies ++ [row] }
  | .deleteAssignment row => { db with userPolicies := db.userPolicies.filter (·.id ≠ row.id) }
  | .insertPermission row => { db with permissions := db.permissions ++ [row] }
  | .updatePermission row =>
      { db with permissions := db.permissions.map fun old => if old.id = row.id then row else old }
  | .deletePermission row => { db with permissions := db.permissions.filter (·.id ≠ row.id) }

/-- Unique keys, foreign keys, and the row count of an `UPDATE`. -/
def admits (db : Store V) : Write V → Bool
  | .insertPolicy policy => (db.policyNamed policy.name).isNone
  | .updatePolicy policy => db.policies.all fun row => row.id = policy.id || row.name ≠ policy.name
  | .insertAssignment row => (db.policy? row.policyId).isSome &&
      (db.assignment? row.userId row.policyId).isNone
  | .insertPermission row => (db.permission? row.userId row.action row.resourceType).isNone
  | .updatePermission row => db.permissions.any (·.id = row.id)
  | _ => true

inductive Lock where
  | policy (id : Nat)
  | policyName (name : Str)
  | assignments (policyId : Nat)
  | assignment (userId policyId : Nat)
  | permission (userId : Nat) (action resourceType : Str)
  deriving DecidableEq

def exclusive : Write V → List Lock
  | .insertPolicy policy | .updatePolicy policy => [.policy policy.id, .policyName policy.name]
  | .lockPolicy id => [.policy id]
  | .deletePolicy id => [.policy id, .assignments id]
  | .insertHistory _ => []
  | .insertAssignment row | .deleteAssignment row => [.assignment row.userId row.policyId]
  | .insertPermission row | .updatePermission row | .deletePermission row =>
      [.permission row.userId row.action row.resourceType]

def shared : Write V → List Lock
  | .insertAssignment row => [.policy row.policyId, .assignments row.policyId]
  | .deleteAssignment row => [.assignments row.policyId]
  | _ => []

def conflicts (w v : Write V) : Bool :=
  (exclusive w).any (fun lock => (exclusive v).any (· = lock)) ||
    (exclusive w).any (fun lock => (shared v).any (· = lock)) ||
    (exclusive v).any (fun lock => (shared w).any (· = lock))

inductive Code where
  | insufficientPermissions
  | cannotGrantUnheldAction (action : Str)
  | cannotGrantBroaderConditions (action : Str)
  | invalidConditions
  | policyNotFound
  | policyNameExists (policyName : Str)
  | baselinePolicyCannotBeRenamed (policyName : Str)
  | baselinePolicyCannotBeDeactivated (policyName : Str)
  | baselinePolicyCannotBeDeleted (policyName : Str)
  | policyMustBeInactiveToDelete (policyName : Str)
  | historyEntryNotFoundForPolicy
  | userNotFound
  | systemUserCannotBeModified
  | policyNotHeldByUser (userEmail policyName : Str)
  | cannotRemoveLastSuperuserAssignment
  | actionNotInPolicy (action policyName : Str)
  | permissionNotHeldByUser (userEmail action resourceType : Str)
  /-- An exception that is no `AppError`. -/
  | internal

structure PolicyCreate (V : Type) where
  name : Str
  description : Option Str
  actions : List Str
  resourceType : Str
  conditions : Option (Conditions V)

def PolicyCreate.definition (data : PolicyCreate V) : Definition V :=
  ⟨data.name, data.description, data.actions, data.resourceType, data.conditions, true⟩

structure PolicyUpdate (V : Type) where
  name : Option Str
  description : Option (Option Str)
  actions : Option (List Str)
  resourceType : Option Str
  conditions : Option (Option (Conditions V))
  isActive : Option Bool

def PolicyUpdate.apply (fields : PolicyUpdate V) (policy : Definition V) : Definition V where
  name := fields.name.getD policy.name
  description := fields.description.getD policy.description
  actions := fields.actions.getD policy.actions
  resourceType := fields.resourceType.getD policy.resourceType
  conditions := fields.conditions.getD policy.conditions
  isActive := fields.isActive.getD policy.isActive

def PolicyUpdate.scope (fields : PolicyUpdate V) : Bool :=
  fields.actions.isSome || fields.resourceType.isSome || fields.conditions.isSome

def Definition.fields (target : Definition V) : PolicyUpdate V :=
  ⟨some target.name, some target.description, some target.actions, some target.resourceType,
    some target.conditions, some target.isActive⟩

inductive PolicyEdit (V : Type) where
  /-- `update_policy`. -/
  | update (fields : PolicyUpdate V)
  /-- `delete_policy`. -/
  | delete
  /-- `rollback_policy`. -/
  | rollback (historyId : Nat)

inductive AssignmentEdit where
  /-- `assign_policy_to_user`. -/
  | assign
  /-- `remove_policy_from_user`. -/
  | remove
  /-- `revoke_policy_action_from_user`. -/
  | revokeAction (action : Str)

inductive PermissionEdit (V : Type) where
  /-- `grant_permission_to_user`. -/
  | grant (conditions : Option (Conditions V))
  /-- `revoke_permission_from_user`. -/
  | revoke

/-- The routes for one policy, assignment or permission. The bulk routes are none of them: the cache of their
    guard lets through what these refuse. -/
inductive Command (V R : Type) where
  /-- Any route or service that calls `require`. -/
  | access (action resourceType : Str) (resource : Option R)
  | createPolicy (data : PolicyCreate V)
  | editPolicy (policyName : Str) (edit : PolicyEdit V)
  | editAssignment (userEmail policyName : Str) (edit : AssignmentEdit)
  | editPermission (userEmail action resourceType : Str) (edit : PermissionEdit V)

def Command.required : Command V R → List (Str × Str)
  | .access action resourceType _ => [(action, resourceType)]
  | .createPolicy _ => [("policies:create".toList, "policies".toList)]
  | .editPolicy _ .delete => [("policies:delete".toList, "policies".toList)]
  | .editPolicy _ _ => [("policies:update".toList, "policies".toList)]
  | .editAssignment _ _ .assign => [("policies:assign".toList, "policies".toList)]
  | .editAssignment _ _ .remove => [("policies:revoke".toList, "policies".toList)]
  | .editAssignment _ _ (.revokeAction _) =>
    [("policies:revoke".toList, "policies".toList), ("permissions:grant".toList, "permissions".toList)]
  | .editPermission _ _ _ (.grant _) => [("permissions:grant".toList, "permissions".toList)]
  | .editPermission _ _ _ .revoke => [("permissions:revoke".toList, "permissions".toList)]

structure Proposal (V : Type) where
  actions : List Str
  resourceType : Str
  conditions : Option (Conditions V)

def Definition.proposal (policy : Definition V) : Proposal V :=
  ⟨policy.actions, policy.resourceType, policy.conditions⟩

def Proposal.grants (proposal : Proposal V) : List (Grant V) :=
  proposal.actions.map fun action => ⟨action, proposal.resourceType, proposal.conditions.getD []⟩

inductive Plan (V : Type) where
  | create (data : PolicyCreate V)
  | update (policy : Policy V) (fields : PolicyUpdate V)
  | rollback (policy : Policy V) (target : Definition V)
  | delete (policy : Policy V)
  | assignment (user : User) (policy : Policy V) (edit : AssignmentEdit)
  | grant (user : User) (action resourceType : Str) (conditions : Option (Conditions V))
  | revoke (user : User) (action resourceType : Str)

def Plan.loaded : Plan V → Option (Policy V)
  | .update policy _ | .rollback policy _ | .delete policy | .assignment _ policy _ => some policy
  | _ => none

def Plan.proposals : Plan V → List (Proposal V)
  | .create data => [data.definition.proposal]
  | .update policy fields =>
    (if fields.scope || fields.isActive = some false then [policy.proposal] else []) ++
      if fields.scope then [(fields.apply policy.toDefinition).proposal] else []
  | .rollback policy target => [policy.proposal, target.proposal]
  | .delete policy | .assignment _ policy _ => [policy.proposal]
  | .grant _ action resourceType conditions => [⟨[action], resourceType, conditions⟩]
  | .revoke _ action resourceType => [⟨[action], resourceType, none⟩]

inductive Goal (V R : Type) where
  | require (command : Command V R) (action resourceType : Str) (rest : List (Str × Str))
  | superuser (plan : Plan V) (proposal : Proposal V) (more : List (Proposal V))
  | action (plan : Plan V) (proposal : Proposal V) (more : List (Proposal V)) (action : Str) (rest : List Str)

def Goal.loaded : Goal V R → Option (Policy V)
  | .require _ _ _ _ => none
  | .superuser plan _ _ | .action plan _ _ _ _ => plan.loaded

inductive Follow where
  | refreshPolicy (id : Nat) (missing : Code)
  | refreshAssignment (id : Nat)
  | refreshPermission (id : Nat)
  | invalidateAllUserPolicies
  | invalidateUserPolicies (userEmail : Str)
  | invalidateUserPermissions (userEmail : Str)

inductive Outcome (R C : Type) where
  | allowed (access : Access R C)
  | rejected (code : Code)
  | done

inductive Phase (V R C : Type) where
  | policies (caller : Str) (goal : Goal V R)
  | selectPolicies (caller : Str) (goal : Goal V R)
  | cachePolicies (caller : Str) (goal : Goal V R) (policies : List (Definition V))
  | permissions (caller : Str) (goal : Goal V R) (policies : List (Definition V))
  | selectPermissions (caller : Str) (goal : Goal V R) (policies : List (Definition V))
  | cachePermissions (caller : Str) (goal : Goal V R) (policies : List (Definition V))
      (permissions : List (UserPermission V))
  | decide (caller : Str) (goal : Goal V R) (policies : List (Definition V))
      (permissions : List (UserPermission V))
  | findName (caller name : Str) (plan : Plan V)
  | findPolicy (caller policyName : Str) (edit : PolicyEdit V)
  | findHistory (caller : Str) (policy : Policy V) (historyId : Nat)
  | findHolder (caller userEmail policyName : Str) (edit : AssignmentEdit)
  | findAssigned (caller : Str) (user : User) (policyName : Str) (edit : AssignmentEdit)
  | findGrantee (caller userEmail action resourceType : Str) (edit : PermissionEdit V)
  | perform (caller : Str) (plan : Plan V)
  | countHolders (user : User) (policy : Policy V) (action : Option Str)
  | findAssignment (user : User) (policy : Policy V) (action : Option Str)
  | findGrants (user : User) (policy : Policy V) (action : Str) (assignment : UserPolicy)
  | flush (writes : List (Write V)) (follows : List Follow)
  | after (follows : List Follow)
  | finished (outcome : Outcome R C)

def Phase.writing : Phase V R C → Bool
  | .flush _ _ => true
  | _ => false

structure Request (V R : Type) where
  caller : Str
  command : Command V R

inductive Event (V R : Type) where
  | request (request : Request V R)
  /-- A cached list of policies, or of permissions, reaches its TTL. -/
  | expirePolicies (email : Str)
  | expirePermissions (email : Str)

/-- A service answers, with the context in which conditions are evaluated then, does not, or commits without
    saying so. -/
inductive Input (C : Type) where
  | answer (context : C)
  | unavailable
  | lost

/-- The cache, and a counter that every id is drawn from. -/
structure Outside (V : Type) where
  userPolicies : Str → Option (List (Definition V))
  userPermissions : Str → Option (List (UserPermission V))
  nextId : Nat

abbrev Answer (V R C : Type) := Option (Effect (Outside V) (Phase V R C) (Write V))

def rejected (code : Code) : Phase V R C := .finished (.rejected code)

def guardFrom (caller : Str) (plan : Plan V) : List (Proposal V) → Phase V R C
  | [] => .perform caller plan
  | proposal :: more =>
    if proposal.actions.any fun action => !builtInActions.any (· = action) then
      .policies caller (.superuser plan proposal more)
    else match proposal.actions with
      | [] => guardFrom caller plan more
      | action :: rest => .policies caller (.action plan proposal more action rest)

def guardActions (caller : Str) (plan : Plan V) (proposal : Proposal V) (more : List (Proposal V)) :
    List Str → Phase V R C
  | [] => guardFrom caller plan more
  | action :: rest => .policies caller (.action plan proposal more action rest)

def guardPlan (caller : Str) (plan : Plan V) : Phase V R C := guardFrom caller plan plan.proposals

def policiesLoaded (caller : Str) (policies : List (Definition V)) : Goal V R → Phase V R C
  | .superuser plan proposal more =>
    if policies.any (·.name = systemSuperuserPolicyName) then guardFrom caller plan more
    else guardActions caller plan proposal more proposal.actions
  | goal => .permissions caller goal policies

def body (registry : Registry V R C) (caller : Str) : Command V R → Phase V R C
  | .access _ _ _ => .finished .done
  | .createPolicy data => if validateConditions registry data.conditions then
      .findName caller data.name (.create data) else rejected .invalidConditions
  | .editPolicy policyName edit => .findPolicy caller policyName edit
  | .editAssignment userEmail policyName edit => .findHolder caller userEmail policyName edit
  | .editPermission userEmail action resourceType edit =>
      .findGrantee caller userEmail action resourceType edit

def Command.resource : Command V R → Option R
  | .access _ _ resource => resource
  | _ => none

def decided [BEq V] (registry : Registry V R C) (caller : Str) (effective : List (Definition V))
    (context : C) : Goal V R → Phase V R C
  | .require command action resourceType rest =>
    let decision := evaluateDetailed registry effective action resourceType caller command.resource context
    if !decision.allowed then rejected .insufficientPermissions
    else match command, rest with
      | .access _ _ resource, _ => .finished (.allowed ⟨caller, action, resourceType, resource, context⟩)
      | command, [] => body registry caller command
      | command, (action, resourceType) :: rest =>
          .policies caller (.require command action resourceType rest)
  | .superuser plan proposal more => guardActions caller plan proposal more proposal.actions
  | .action plan proposal more action rest =>
    let decision := evaluateDetailed registry effective action proposal.resourceType caller none context
    if !decision.allowed then rejected (.cannotGrantUnheldAction action)
    else if !hasScopeForGrant decision.matchedPolicyConditions proposal.conditions then
      rejected (.cannotGrantBroaderConditions action)
    else guardActions caller plan proposal more rest

def checkDeactivation (caller : Str) (policy : Policy V) (fields : PolicyUpdate V) : Phase V R C :=
  if isProtected policy.name && fields.isActive = some false then
    rejected (.baselinePolicyCannotBeDeactivated policy.name)
  else guardPlan caller (.update policy fields)

def nameFree (caller : Str) : Plan V → Phase V R C
  | .update policy fields => checkDeactivation caller policy fields
  | plan => guardPlan caller plan

def policyFound (registry : Registry V R C) (caller : Str) (policy : Policy V) : PolicyEdit V → Phase V R C
  | .update fields =>
    if !fields.conditions.all (validateConditions registry) then rejected .invalidConditions
    else if isProtected policy.name && fields.name.any (· ≠ policy.name) then
      rejected (.baselinePolicyCannotBeRenamed policy.name)
    else if fields.name.any (· ≠ policy.name) then .findName caller (fields.name.getD policy.name)
      (.update policy fields)
    else checkDeactivation caller policy fields
  | .delete =>
    if isProtected policy.name then rejected (.baselinePolicyCannotBeDeleted policy.name)
    else if policy.isActive then rejected (.policyMustBeInactiveToDelete policy.name)
    else guardPlan caller (.delete policy)
  | .rollback historyId => .findHistory caller policy historyId

def historyFound (registry : Registry V R C) (caller : Str) (policy : Policy V) (entry : PolicyHistory V) :
    Phase V R C :=
  let target := entry.change.definition
  if entry.policyName ≠ policy.name then rejected .historyEntryNotFoundForPolicy
  else if !validateConditions registry target.conditions then rejected .invalidConditions
  else if isProtected policy.name && target.name ≠ policy.name then
    rejected (.baselinePolicyCannotBeRenamed policy.name)
  else if isProtected policy.name && !target.isActive then
    rejected (.baselinePolicyCannotBeDeactivated policy.name)
  else guardPlan caller (.rollback policy target)

def assignedFound (caller : Str) (user : User) (policy : Policy V) (edit : AssignmentEdit) : Phase V R C :=
  if user.system then rejected .systemUserCannotBeModified else
    guardPlan caller (.assignment user policy edit)

def granteeFound (registry : Registry V R C) (caller action resourceType : Str) (user : User) :
    PermissionEdit V → Phase V R C
  | .grant conditions =>
    if !validateConditions registry conditions then rejected .invalidConditions
    else if user.system then rejected .systemUserCannotBeModified
    else guardPlan caller (.grant user action resourceType conditions)
  | .revoke =>
    if user.system then rejected .systemUserCannotBeModified else
      guardPlan caller (.revoke user action resourceType)

section Statements

variable (db : Store V) (outside : Outside V)

/-- `PolicyRepository.update`: the row is locked and read again before the fields are set. -/
def updateLocked (caller : Str) (policy : Policy V) (fields : PolicyUpdate V)
    (change : Definition V → Definition V → Change V) : Answer V R C :=
  match db.policy? policy.id with
  | none => some (.fail (rejected .policyNotFound))
  | some row =>
    let changed := fields.apply row.toDefinition
    some (.write (.lockPolicy row.id)
      (.flush [.updatePolicy ⟨changed, row.id⟩, .insertHistory ⟨outside.nextId, row.id, changed.name,
        change row.toDefinition changed, caller⟩]
        [.refreshPolicy row.id .policyNotFound, .invalidateAllUserPolicies])
      { outside with nextId := outside.nextId + 1 })

def notHeld (user : User) (policy : Policy V) : Answer V R C :=
  some (.fail (rejected (.policyNotHeldByUser user.email policy.name)))

/-- `assign_policy_to_user` does nothing for an assignment that is there; the others look for it first. -/
def performAssignment (user : User) (policy : Policy V) : AssignmentEdit → Answer V R C
  | .assign =>
    if (db.assignment? user.id policy.id).isSome then some (.read (.finished .done) outside)
    else some (.read (.flush [.insertAssignment ⟨outside.nextId, user.id, policy.id⟩]
      [.refreshAssignment outside.nextId, .invalidateUserPolicies user.email])
        { outside with nextId := outside.nextId + 1 })
  | edit =>
    let action := match edit with
      | .revokeAction action => some action
      | _ => none
    if (db.assignment? user.id policy.id).isNone then notHeld user policy
    else if policy.name = systemSuperuserPolicyName then
      some (.read (.countHolders user policy action) outside)
    else some (.read (.findAssignment user policy action) outside)

def perform (caller : Str) : Plan V → Answer V R C
  | .create data =>
    some (.read (.flush [.insertPolicy ⟨data.definition, outside.nextId⟩,
        .insertHistory ⟨outside.nextId + 1, outside.nextId, data.name, .created data.definition, caller⟩]
      [.refreshPolicy outside.nextId .internal]) { outside with nextId := outside.nextId + 2 })
  | .update policy fields => updateLocked db outside caller policy fields .updated
  | .rollback policy target => updateLocked db outside caller policy target.fields .rolledBack
  | .delete policy =>
    some (.read (.flush [.insertHistory ⟨outside.nextId, policy.id, policy.name, .deleted policy.toDefinition,
      caller⟩, .deletePolicy policy.id]
      [.invalidateAllUserPolicies]) { outside with nextId := outside.nextId + 1 })
  | .assignment user policy edit => performAssignment db outside user policy edit
  | .grant user action resourceType conditions =>
    match db.permission? user.id action resourceType with
    | some row => some (.read (.flush [.updatePermission { row with conditions, isActive := true }]
        [.refreshPermission row.id, .invalidateUserPermissions user.email]) outside)
    | none => some (.read
        (.flush [.insertPermission ⟨⟨user.id, action, resourceType, conditions, true⟩, outside.nextId⟩]
        [.refreshPermission outside.nextId, .invalidateUserPermissions user.email])
          { outside with nextId := outside.nextId + 1 })
  | .revoke user action resourceType =>
    match db.permission? user.id action resourceType with
    | none => some (.fail (rejected (.permissionNotHeldByUser user.email action resourceType)))
    | some row => some (.read (.flush [.deletePermission row] [.invalidateUserPermissions user.email])
        outside)

/-- `revoke_single_action`: the other actions become permissions with the conditions of the policy. -/
def retainedGrants (user : User) (policy : Policy V) (action : Str) : List (Write V) :=
  let remaining := policy.actions.filter (· ≠ action)
  let existing := db.permissions.filter fun row =>
    row.userId = user.id && row.resourceType = policy.resourceType && remaining.any (· = row.action)
  let missing := remaining.filter fun kept => !existing.any (·.action = kept)
  (existing.map fun row =>
    Write.updatePermission { row with conditions := policy.conditions, isActive := true }) ++
    missing.zipIdx.map fun (kept, n) =>
      Write.insertPermission ⟨⟨user.id, kept, policy.resourceType, policy.conditions, true⟩,
        outside.nextId + n⟩

def convertGrants (user : User) (policy : Policy V) (action : Str) (assignment : UserPolicy) : Answer V R C :=
  some (.read (.flush (retainedGrants db outside user policy action ++ [.deleteAssignment assignment])
    [.invalidateUserPolicies user.email, .invalidateUserPermissions user.email])
      { outside with nextId := outside.nextId + policy.actions.length })

def findAssignment (user : User) (policy : Policy V) : Option Str → Answer V R C
  | none =>
    match db.assignment? user.id policy.id with
    | none => notHeld user policy
    | some row => some (.read (.flush [.deleteAssignment row] [.invalidateUserPolicies user.email]) outside)
  | some action =>
    if !policy.actions.any (· = action) then some (.fail (rejected (.actionNotInPolicy action policy.name)))
    else match db.assignment? user.id policy.id with
      | none => notHeld user policy
      | some row => some (.read (.findGrants user policy action row) outside)

def refreshed (present : Bool) (missing : Code) (follows : List Follow) : Input C → Answer V R C
  | .answer _ => some (.read (if present then .after follows else rejected missing) outside)
  | _ => some (.read (rejected .internal) outside)

def invalidated (cleared : Outside V) (follows : List Follow) : Input C → Answer V R C
  | .answer _ => some (.read (.after follows) cleared)
  | _ => some (.read (.after follows) outside)

def follow (input : Input C) (follows : List Follow) : Follow → Answer V R C
  | .refreshPolicy id missing => refreshed outside (db.policy? id).isSome missing follows input
  | .refreshAssignment id => refreshed outside (db.userPolicies.any (·.id = id)) .internal follows input
  | .refreshPermission id => refreshed outside (db.permissions.any (·.id = id)) .internal follows input
  | .invalidateAllUserPolicies =>
      invalidated outside { outside with userPolicies := fun _ => none } follows input
  | .invalidateUserPolicies userEmail =>
    invalidated outside { outside with userPolicies := Function.update outside.userPolicies userEmail none }
      follows input
  | .invalidateUserPermissions userEmail =>
    invalidated outside { outside with
      userPermissions := Function.update outside.userPermissions userEmail none } follows input

end Statements

def next [BEq V] (registry : Registry V R C) (db : Store V) (outside : Outside V) (phase : Phase V R C)
    (input : Input C) : Answer V R C :=
  match phase, input with
  | .finished _, _ => none
  -- a cache that fails is a cache that misses
  | .policies caller goal, .answer _ =>
    match outside.userPolicies caller with
    | some policies => some (.read (policiesLoaded caller policies goal) outside)
    | none => some (.read (.selectPolicies caller goal) outside)
  | .policies caller goal, _ => some (.read (.selectPolicies caller goal) outside)
  | .cachePolicies caller goal policies, .answer _ =>
    some (.read (policiesLoaded caller policies goal)
      { outside with userPolicies := Function.update outside.userPolicies caller (some policies) })
  | .cachePolicies caller goal policies, _ => some (.read (policiesLoaded caller policies goal) outside)
  | .permissions caller goal policies, .answer _ =>
    match outside.userPermissions caller with
    | some permissions => some (.read (.decide caller goal policies permissions) outside)
    | none => some (.read (.selectPermissions caller goal policies) outside)
  | .permissions caller goal policies, _ => some (.read (.selectPermissions caller goal policies) outside)
  | .cachePermissions caller goal policies permissions, .answer _ =>
    some (.read (.decide caller goal policies permissions)
      { outside with userPermissions := Function.update outside.userPermissions caller (some permissions) })
  | .cachePermissions caller goal policies permissions, _ =>
      some (.read (.decide caller goal policies permissions) outside)
  | .after [], _ => some (.read (.finished .done) outside)
  | .after (first :: follows), input => follow db outside input follows first
  | .flush [] _, .lost => some (.commit (rejected .internal) outside)
  | .decide caller goal policies permissions, .answer context =>
    some (.read (decided registry caller (effectivePolicies policies permissions) context goal) outside)
  | .selectPolicies caller goal, .answer _ =>
    some (.read (.cachePolicies caller goal (db.activePolicies goal.loaded caller)) outside)
  | .selectPermissions caller goal policies, .answer _ =>
    some (.read (.cachePermissions caller goal policies (db.activePermissions caller)) outside)
  | .findName caller name plan, .answer _ =>
    if (db.policyNamed name).isSome then some (.fail (rejected (.policyNameExists name)))
    else some (.read (nameFree caller plan) outside)
  | .findPolicy caller policyName edit, .answer _ =>
    match db.policyNamed policyName with
    | none => some (.fail (rejected .policyNotFound))
    | some policy => some (.read (policyFound registry caller policy edit) outside)
  | .findHistory caller policy historyId, .answer _ =>
    match db.historyEntry? historyId with
    | none => some (.fail (rejected .historyEntryNotFoundForPolicy))
    | some entry => some (.read (historyFound registry caller policy entry) outside)
  | .findHolder caller userEmail policyName edit, .answer _ =>
    match db.user? userEmail with
    | none => some (.fail (rejected .userNotFound))
    | some user => some (.read (.findAssigned caller user policyName edit) outside)
  | .findAssigned caller user policyName edit, .answer _ =>
    match db.policyNamed policyName with
    | none => some (.fail (rejected .policyNotFound))
    | some policy => some (.read (assignedFound caller user policy edit) outside)
  | .findGrantee caller userEmail action resourceType edit, .answer _ =>
    match db.user? userEmail with
    | none => some (.fail (rejected .userNotFound))
    | some user => some (.read (granteeFound registry caller action resourceType user edit) outside)
  | .perform caller plan, .answer _ => perform db outside caller plan
  | .countHolders user policy action, .answer _ =>
    if (db.userPolicies.filter (·.policyId = policy.id)).length ≤ 1 then
      some (.fail (rejected .cannotRemoveLastSuperuserAssignment))
    else some (.read (.findAssignment user policy action) outside)
  | .findAssignment user policy action, .answer _ => findAssignment db outside user policy action
  | .findGrants user policy action assignment, .answer _ =>
      convertGrants db outside user policy action assignment
  | .flush [] follows, .answer _ => some (.commit (.after follows) outside)
  | .flush (w :: writes) follows, .answer _ => some (.write w (.flush writes follows) outside)
  | _, _ => some (.fail (rejected .internal))

def begin (caller : Str) (command : Command V R) : Phase V R C :=
  match command.required with
  | [] => .finished .done
  | (action, resourceType) :: rest => .policies caller (.require command action resourceType rest)

def failedPhase : Phase V R C → Phase V R C
  | .finished outcome => .finished outcome
  | _ => rejected .internal

def managementSystem [BEq V] (registry : Registry V R C) (callers : Str → Bool) :
    System (Store V) (Outside V) (Phase V R C) (Write V) (Input C) (Event V R) where
  apply := applyWrite
  admits := admits
  conflicts := conflicts
  failed := failedPhase
  start outside
    | .request ⟨caller, command⟩ => if callers caller then some (begin caller command, outside) else none
    | .expirePolicies email =>
        some (.finished .done,
        { outside with userPolicies := Function.update outside.userPolicies email none })
    | .expirePermissions email =>
        some (.finished .done,
        { outside with userPermissions := Function.update outside.userPermissions email none })
  next := next registry

def initialState (db : Store V) (nextId : Nat) : State (Store V) (Outside V) (Phase V R C) (Write V) :=
  ⟨db, ⟨fun _ => none, fun _ => none, nextId⟩, []⟩

end ManifestCV.Authorization
