import ManifestCV.Authorization.Management

namespace ManifestCV.Authorization

open Foundation

variable {V R C : Type}

/-- What a bulk request finds of its caller, the same for every item. -/
structure Caller (V C : Type) where
  email : Str
  policies : List (Definition V)
  permissions : List (UserPermission V)
  context : C

section Route

variable (registry : Registry V R C) (caller : Caller V C)

def Caller.decision (action resourceType : Str) : AuthorizationDecision V :=
  evaluateDetailed registry (effectivePolicies caller.policies caller.permissions) action resourceType
    caller.email none caller.context

/-- `is_system_superuser`, which is asked only about actions that are not built in. -/
def Caller.trusted (actions : List Str) : Bool :=
  actions.any (fun action => !builtInActions.any (· = action)) &&
    caller.policies.any (·.name = systemSuperuserPolicyName)

abbrev GrantCache := List ((Str × Str) × Bool)

def unconditional (conditions : Option (Conditions V)) : Bool := (conditions.getD []).isEmpty

def assertAction [BEq V] (trusted : Bool) (resourceType : Str) (conditions : Option (Conditions V))
    (action : Str) (cache : Option GrantCache) :
    Except Code Unit × Option GrantCache :=
  let remembered := if unconditional conditions then cache.bind (·.lookup (action, resourceType)) else none
  match remembered with
  | some allowed => (if allowed then .ok () else .error (.cannotGrantUnheldAction action), cache)
  | none =>
    let decision := caller.decision registry action resourceType
    let allowed := trusted || decision.allowed
    let cache := if unconditional conditions then cache.map fun entries =>
      setKey entries (action, resourceType) allowed else cache
    if !allowed then (.error (.cannotGrantUnheldAction action), cache)
    else if !trusted && !hasScopeForGrant decision.matchedPolicyConditions conditions then
      (.error (.cannotGrantBroaderConditions action), cache)
    else (.ok (), cache)

def assertActions [BEq V] (trusted : Bool) (resourceType : Str) (conditions : Option (Conditions V)) :
    List Str → Option GrantCache → Except Code Unit × Option GrantCache
  | [], cache => (.ok (), cache)
  | action :: rest, cache =>
    match assertAction registry caller trusted resourceType conditions action cache with
    | (.error code, cache) => (.error code, cache)
    | (.ok _, cache) => assertActions trusted resourceType conditions rest cache

def assertAuthorizedToGrant [BEq V] (proposal : Proposal V) (cache : Option GrantCache) :
    Except Code Unit × Option GrantCache :=
  assertActions registry caller (caller.trusted proposal.actions) proposal.resourceType proposal.conditions
    proposal.actions cache

structure BulkPermissionItem (V : Type) where
  userEmail : Str
  action : Str
  resourceType : Str
  conditions : Option (Conditions V)

/-- `_resolve_and_authorize`; every refusal of the guard is reported alike. -/
def resolveAndAuthorize [BEq V] (db : Store V) (item : BulkPermissionItem V) (cache : GrantCache) :
    Except Code User × GrantCache :=
  match db.user? item.userEmail with
  | none => (.error .userNotFound, cache)
  | some user =>
    if user.system then (.error .systemUserCannotBeModified, cache)
    else match assertAuthorizedToGrant registry caller ⟨[item.action], item.resourceType, item.conditions⟩
      (some cache) with
      | (.error _, cache') => (.error (.cannotGrantUnheldAction item.action), cache'.getD cache)
      | (.ok _, cache') => (.ok user, cache'.getD cache)

/-- The loop of `bulk_assign_permissions`: for each item the account it may be granted to, or its error. The
    rows are written afterwards, all at once. -/
def bulkAssignPermissions [BEq V] (db : Store V) : List (BulkPermissionItem V) → GrantCache →
    List (Except Code User)
  | [], _ => []
  | item :: items, cache =>
    if !validateConditions registry item.conditions then
      .error .invalidConditions :: bulkAssignPermissions db items cache
    else
      let resolved := resolveAndAuthorize registry caller db item cache
      resolved.1 :: bulkAssignPermissions db items resolved.2

def BulkPermissionItem.reaches (db : Store V) (item : BulkPermissionItem V) : Bool :=
  validateConditions registry item.conditions && (db.user? item.userEmail).any (!·.system)

def Caller.holds (action resourceType : Str) : Bool :=
  caller.trusted [action] || (caller.decision registry action resourceType).allowed

def Caller.contains [BEq V] (action resourceType : Str) (conditions : Option (Conditions V)) : Bool :=
  caller.trusted [action] ||
    hasScopeForGrant (caller.decision registry action resourceType).matchedPolicyConditions conditions

def asked (db : Store V) (before : List (BulkPermissionItem V)) (action resourceType : Str) : Bool :=
  before.any fun earlier => earlier.reaches registry db && unconditional earlier.conditions &&
    decide ((action, resourceType) = (earlier.action, earlier.resourceType))

end Route

variable [BEq V] {registry : Registry V R C} {caller : Caller V C} {db : Store V}

/-- A single grant passes the guard if the caller holds the action with no more conditions. -/
theorem assert_single {action resourceType : Str} {conditions : Option (Conditions V)} :
    (assertAuthorizedToGrant registry caller ⟨[action], resourceType, conditions⟩ none).1 = .ok () ↔
      caller.holds registry action resourceType = true ∧ caller.contains registry action resourceType
        conditions = true := by
  have nothing : (if unconditional conditions then (none : Option GrantCache).bind
      (·.lookup (action, resourceType)) else none) = none := by
    split <;> rfl
  simp only [assertAuthorizedToGrant, assertActions, assertAction, nothing, Caller.holds, Caller.contains]
  cases caller.trusted [action] <;> cases (caller.decision registry action resourceType).allowed <;>
    cases hasScopeForGrant (caller.decision registry action resourceType).matchedPolicyConditions
      conditions <;> simp

def Remembers (registry : Registry V R C) (caller : Caller V C) (db : Store V)
    (before : List (BulkPermissionItem V)) (cache : GrantCache) : Prop :=
  ∀ action resourceType, cache.lookup (action, resourceType) =
    if asked registry db before action resourceType then some (caller.holds registry action resourceType)
      else none

section Item

variable {before : List (BulkPermissionItem V)} {cache : GrantCache} {item : BulkPermissionItem V}

omit [BEq V] in
theorem remembers_skipped (remembers : Remembers registry caller db before cache)
    (skipped : item.reaches registry db = false ∨ unconditional item.conditions = false) :
    Remembers registry caller db (before ++ [item]) cache := by
  intro action resourceType
  have same : asked registry db (before ++ [item]) action resourceType =
      asked registry db before action resourceType := by
    unfold asked
    rw [List.any_append, List.any_cons, List.any_nil, Bool.or_false]
    rcases skipped with unreached | conditional
    · rw [unreached, Bool.false_and, Bool.false_and, Bool.or_false]
    · rw [conditional, Bool.and_false, Bool.false_and, Bool.or_false]
  rw [same]
  exact remembers action resourceType

omit [BEq V] in
theorem remembers_known (remembers : Remembers registry caller db before cache)
    (known : asked registry db before item.action item.resourceType = true) :
    Remembers registry caller db (before ++ [item]) cache := by
  intro action resourceType
  have same : asked registry db (before ++ [item]) action resourceType =
      asked registry db before action resourceType := by
    unfold asked at known ⊢
    rw [List.any_append, List.any_cons, List.any_nil, Bool.or_false]
    by_cases equal : (action, resourceType) = (item.action, item.resourceType)
    · obtain ⟨rfl, rfl⟩ := Prod.mk.inj equal
      rw [known, Bool.true_or]
    · rw [decide_eq_false equal, Bool.and_false, Bool.or_false]
  rw [same]
  exact remembers action resourceType

omit [BEq V] in
theorem remembers_asked (remembers : Remembers registry caller db before cache)
    (reached : item.reaches registry db = true) (plain : unconditional item.conditions = true) :
    Remembers registry caller db (before ++ [item])
      (setKey cache (item.action, item.resourceType)
        (caller.holds registry item.action item.resourceType)) := by
  intro action resourceType
  rw [lookup_setKey]
  unfold asked
  rw [List.any_append, List.any_cons, List.any_nil, Bool.or_false, reached, plain, Bool.true_and,
    Bool.true_and]
  by_cases equal : (action, resourceType) = (item.action, item.resourceType)
  · obtain ⟨rfl, rfl⟩ := Prod.mk.inj equal
    rw [if_pos rfl, decide_eq_true rfl, Bool.or_true, if_pos rfl]
  · rw [if_neg equal, decide_eq_false equal, Bool.or_false]
    exact remembers action resourceType

/-- The guard with the shared cache: what was asked once without conditions is not compared with the caller's
    own again. -/
theorem assert_remembering (remembers : Remembers registry caller db before cache)
    (reached : item.reaches registry db = true) :
    let outcome := assertAuthorizedToGrant registry caller ⟨[item.action], item.resourceType, item.conditions⟩
      (some cache)
    (outcome.1 = .ok () ↔ caller.holds registry item.action item.resourceType = true ∧
      (caller.contains registry item.action item.resourceType item.conditions = true ∨
        unconditional item.conditions = true ∧ asked registry db before item.action item.resourceType =
          true)) ∧
    ∃ cache', outcome.2 = some cache' ∧ Remembers registry caller db (before ++ [item]) cache' := by
  have looked := remembers item.action item.resourceType
  cases plain : unconditional item.conditions with
  | false =>
    have kept := remembers_skipped remembers (.inr plain)
    simp only [assertAuthorizedToGrant, assertActions, assertAction, plain, Caller.holds, Caller.contains]
    cases caller.trusted [item.action] <;>
      cases (caller.decision registry item.action item.resourceType).allowed <;>
      cases hasScopeForGrant (caller.decision registry item.action item.resourceType).matchedPolicyConditions
        item.conditions <;>
      simp [kept]
  | true =>
    cases known : asked registry db before item.action item.resourceType with
    | true =>
      rw [known, if_pos rfl] at looked
      have kept := remembers_known remembers known
      simp only [assertAuthorizedToGrant, assertActions, assertAction, plain, if_true,
        Option.bind_some, looked]
      cases caller.holds registry item.action item.resourceType <;> simp [kept]
    | false =>
      rw [known, if_neg Bool.false_ne_true] at looked
      have kept := remembers_asked remembers reached plain
      simp only [assertAuthorizedToGrant, assertActions, assertAction, plain, if_true, Option.bind_some,
        looked, Caller.holds, Caller.contains]
      simp only [Caller.holds] at kept
      cases trusted : caller.trusted [item.action] <;>
        cases allowed : (caller.decision registry item.action item.resourceType).allowed <;>
        cases hasScopeForGrant
          (caller.decision registry item.action item.resourceType).matchedPolicyConditions item.conditions <;>
        rw [trusted, allowed] at kept <;> simp_all

theorem resolve_remembering (remembers : Remembers registry caller db before cache)
    (valid : validateConditions registry item.conditions = true) (user : User) :
    ((resolveAndAuthorize registry caller db item cache).1 = .ok user ↔ db.user? item.userEmail = some user ∧
      user.system = false ∧
      caller.holds registry item.action item.resourceType = true ∧
      (caller.contains registry item.action item.resourceType item.conditions = true ∨
        unconditional item.conditions = true ∧ asked registry db before item.action item.resourceType =
          true)) ∧
    Remembers registry caller db (before ++ [item])
      (resolveAndAuthorize registry caller db item cache).2 := by
  cases found : db.user? item.userEmail with
  | none =>
    have unreached : item.reaches registry db = false :=
      by rw [BulkPermissionItem.reaches, found, Option.any_none, Bool.and_false]
    simp only [resolveAndAuthorize, found]
    exact ⟨by simp, remembers_skipped remembers (.inl unreached)⟩
  | some account =>
    cases reserved : account.system with
    | true =>
      have unreached : item.reaches registry db = false := by
        rw [BulkPermissionItem.reaches, found, Option.any_some, reserved, Bool.not_true, Bool.and_false]
      simp only [resolveAndAuthorize, found, reserved, if_true]
      refine ⟨?_, remembers_skipped remembers (.inl unreached)⟩
      constructor
      · intro granted
        cases granted
      · rintro ⟨same, ordinary, _⟩
        cases same
        exact absurd (reserved.symm.trans ordinary) (by decide)
    | false =>
      have reached : item.reaches registry db = true := by
        rw [BulkPermissionItem.reaches, found, Option.any_some, reserved, valid]
        rfl
      obtain ⟨passes, cache', leaves, kept⟩ := assert_remembering remembers reached
      simp only [resolveAndAuthorize, found, reserved, Bool.false_eq_true, if_false]
      split
      · rename_i code cache'' outcome
        rw [outcome] at passes leaves
        cases leaves
        refine ⟨?_, kept⟩
        constructor
        · intro granted
          cases granted
        · rintro ⟨_, _, holds⟩
          cases passes.mpr holds
      · rename_i cache'' outcome
        rw [outcome] at passes leaves
        cases leaves
        refine ⟨?_, kept⟩
        constructor
        · intro granted
          cases granted
          exact ⟨rfl, reserved, passes.mp rfl⟩
        · rintro ⟨same, _⟩
          cases same
          rfl

end Item

theorem bulk_reaches {items : List (BulkPermissionItem V)} (before after : List (BulkPermissionItem V))
    {cache : GrantCache} (remembers : Remembers registry caller db items cache) :
    ∃ cache', Remembers registry caller db (items ++ before) cache' ∧
      (bulkAssignPermissions registry caller db (before ++ after) cache).drop before.length =
    bulkAssignPermissions registry caller db after cache' := by
  induction before generalizing items cache with
  | nil =>
    rw [List.append_nil]
    exact ⟨cache, remembers, rfl⟩
  | cons item before ih =>
    have moved : items ++ item :: before = (items ++ [item]) ++ before :=
      by rw [List.append_assoc, List.singleton_append]
    rw [moved, List.cons_append, bulkAssignPermissions]
    cases valid : validateConditions registry item.conditions with
    | false =>
      have unreached : item.reaches registry db = false :=
        by rw [BulkPermissionItem.reaches, valid, Bool.false_and]
      exact ih (remembers_skipped remembers (.inl unreached))
    | true =>
      exact ih (resolve_remembering remembers valid ⟨0, [], false⟩).2

/-- An item of a bulk request passes the guard exactly if the caller holds its action, and with no more
    conditions, or if an item before it has asked about the same action without conditions, even in vain. -/
theorem bulk_passes_guard (before after : List (BulkPermissionItem V)) (item : BulkPermissionItem V)
    (user : User) :
    (bulkAssignPermissions registry caller db (before ++ item :: after) [])[before.length]? =
    some (.ok user) ↔
      validateConditions registry item.conditions = true ∧ db.user? item.userEmail = some user ∧
        user.system = false ∧
        caller.holds registry item.action item.resourceType = true ∧
        (caller.contains registry item.action item.resourceType item.conditions = true ∨
          unconditional item.conditions = true ∧ asked registry db before item.action item.resourceType =
            true) := by
  have empty : Remembers registry caller db [] [] := fun _ _ => rfl
  obtain ⟨cache, remembers, dropped⟩ := bulk_reaches before (item :: after) empty
  rw [List.nil_append] at remembers
  have first : (bulkAssignPermissions registry caller db (before ++ item :: after) [])[before.length]? =
      (bulkAssignPermissions registry caller db (item :: after) cache)[0]? := by
    rw [← dropped, List.getElem?_drop, Nat.add_zero]
  rw [first, bulkAssignPermissions]
  cases valid : validateConditions registry item.conditions with
  | false =>
    constructor
    · intro granted
      cases granted
    · rintro ⟨impossible, _⟩
      cases impossible
  | true =>
    rw [Bool.not_true, if_neg Bool.false_ne_true, List.getElem?_cons_zero, Option.some.injEq,
      (resolve_remembering remembers valid user).1]
    exact ⟨fun granted => ⟨rfl, granted⟩, fun granted => granted.2⟩

end ManifestCV.Authorization
