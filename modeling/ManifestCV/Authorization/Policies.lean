import ManifestCV.Foundation.Text
import ManifestCV.Foundation.Entries
import Mathlib.Order.UpperLower.Closure

namespace ManifestCV.Authorization

open Foundation

variable {V R C : Type}

structure ConditionType (V R C : Type) where
  valid : V → Bool
  evaluate : V → Str → Option R → C → Bool

abbrev Registry (V R C : Type) := Str → Option (ConditionType V R C)

abbrev Conditions (V : Type) := List (Str × V)

/-- `_definition_snapshot` of a policy. -/
structure Definition (V : Type) where
  name : Str
  description : Option Str
  actions : List Str
  resourceType : Str
  conditions : Option (Conditions V)
  isActive : Bool
  deriving DecidableEq

structure UserPermission (V : Type) where
  userId : Nat
  action : Str
  resourceType : Str
  conditions : Option (Conditions V)
  isActive : Bool

def wildcard : Str := "*".toList

def validateConditions (registry : Registry V R C) (conditions : Option (Conditions V)) : Bool :=
  (conditions.getD []).all fun (key, value) => (registry key).any fun type => type.valid value

/-- `ConditionEvaluationService.evaluate_detailed`: a key without a handler fails. -/
def failedKeys (registry : Registry V R C) (conditions : Conditions V) (userEmail : Str) (resource : Option R)
    (context : C) : List Str :=
  (conditions.filter fun (key, value) => !(registry key).any fun type =>
    type.evaluate value userEmail resource context).map (·.1)

inductive DenialReason where
  | noAssignedPolicies
  | noMatchingPolicy
  | conditionFailed
  deriving DecidableEq

structure AuthorizationDecision (V : Type) where
  allowed : Bool
  evaluatedPolicies : List Str
  matchedPolicies : List Str
  matchedPolicyConditions : List (Str × Option (Conditions V))
  rejectedPolicies : List Str
  failedConditions : List (Str × List Str)
  denialReason : Option DenialReason

def denialReason (evaluatedPolicies rejectedPolicies : List Str) : DenialReason :=
  if evaluatedPolicies = [] then .noAssignedPolicies
  else if rejectedPolicies = [] then .noMatchingPolicy
  else .conditionFailed

def Definition.applies (policy : Definition V) (action resourceType : Str) : Bool :=
  (policy.resourceType = resourceType || policy.resourceType = wildcard) && policy.actions.any (· = action)

def evaluateDetailed (registry : Registry V R C) (policies : List (Definition V))
    (action resourceType userEmail : Str) (resource : Option R) (context : C) : AuthorizationDecision V :=
  let failed (policy : Definition V) :=
    failedKeys registry (policy.conditions.getD []) userEmail resource context
  let applicable := policies.filter (·.applies action resourceType)
  let matched := applicable.filter fun policy => (failed policy).isEmpty
  let rejected := applicable.filter fun policy => !(failed policy).isEmpty
  let allowed := 0 < matched.length
  { allowed
    evaluatedPolicies := policies.map (·.name)
    matchedPolicies := matched.map (·.name)
    matchedPolicyConditions :=
      matched.foldl (fun entries policy => setKey entries policy.name policy.conditions) []
    rejectedPolicies := rejected.map (·.name)
    failedConditions := rejected.foldl (fun entries policy => setKey entries policy.name (failed policy)) []
    denialReason := if allowed then none else
      some (denialReason (policies.map (·.name)) (rejected.map (·.name))) }

def effectivePolicies (policies : List (Definition V)) (permissions : List (UserPermission V)) :
    List (Definition V) :=
  policies ++ permissions.map fun grant =>
    ⟨"direct:".toList ++ grant.action, none, [grant.action], grant.resourceType, grant.conditions, true⟩

/-- `_has_scope_for_grant`, with Python's `==` on condition values. -/
def hasScopeForGrant [BEq V] (matchedPolicyConditions : List (Str × Option (Conditions V)))
    (proposed : Option (Conditions V)) : Bool :=
  matchedPolicyConditions.any fun (_, source) =>
    (source.getD []).isEmpty || (source.getD []).all fun (key, value) =>
      ((proposed.getD []).lookup key).any (· == value)

structure Access (R C : Type) where
  userEmail : Str
  action : Str
  resourceType : Str
  resource : Option R
  context : C

structure Grant (V : Type) where
  action : Str
  resourceType : Str
  conditions : Conditions V

def Grant.permits (registry : Registry V R C) (grant : Grant V) (access : Access R C) : Bool :=
  grant.action = access.action &&
    (grant.resourceType = access.resourceType || grant.resourceType = wildcard) &&
    (failedKeys registry grant.conditions access.userEmail access.resource access.context).isEmpty

def Definition.grants (policy : Definition V) : List (Grant V) :=
  policy.actions.map fun action => ⟨action, policy.resourceType, policy.conditions.getD []⟩

def UserPermission.grant (permission : UserPermission V) : Grant V :=
  ⟨permission.action, permission.resourceType, permission.conditions.getD []⟩

def Registry.Respects [BEq V] (registry : Registry V R C) : Prop :=
  ∀ key type value other, registry key = some type → (value == other) = true →
    type.evaluate value = type.evaluate other

section Order

variable [BEq V] [EquivBEq V]

instance : Preorder (Grant V) where
  le narrow wide := wide.action = narrow.action ∧
    (wide.resourceType = narrow.resourceType ∨ wide.resourceType = wildcard) ∧
    ∀ key value, (key, value) ∈ wide.conditions → ∃ kept, (key, kept) ∈ narrow.conditions ∧
      (kept == value) = true
  le_refl grant := ⟨rfl, .inl rfl, fun _ value member => ⟨value, member, BEq.refl value⟩⟩
  le_trans narrow middle wide := by
    rintro ⟨action, type, conditions⟩ ⟨action', type', conditions'⟩
    refine ⟨action'.trans action, ?_, ?_⟩
    · rcases type' with same | every
      · rw [same]
        exact type
      · exact .inr every
    · intro key value member
      obtain ⟨between, inside, equal⟩ := conditions' key value member
      obtain ⟨kept, inside, equal'⟩ := conditions key between inside
      exact ⟨kept, inside, BEq.trans equal' equal⟩

variable {narrow wide : Grant V} {registry : Registry V R C} {access : Access R C}

omit [BEq V] [EquivBEq V] in
theorem failedKeys_nil {conditions : Conditions V} {userEmail : Str} {resource : Option R} {context : C} :
    (failedKeys registry conditions userEmail resource context).isEmpty = true ↔
      ∀ key value, (key, value) ∈ conditions → ∃ type, registry key = some type ∧
        type.evaluate value userEmail resource context = true := by
  unfold failedKeys
  rw [List.isEmpty_iff, List.map_eq_nil_iff, List.filter_eq_nil_iff]
  constructor
  · intro all key value member
    have each := all (key, value) member
    rw [Bool.not_not_eq, Option.any_eq_true] at each
    exact each
  · rintro all ⟨key, value⟩ member
    rw [Bool.not_not_eq, Option.any_eq_true]
    exact all key value member

omit [BEq V] [EquivBEq V] in
theorem permits_iff {grant : Grant V} : grant.permits registry access = true ↔ grant.action = access.action ∧
    (grant.resourceType = access.resourceType ∨ grant.resourceType = wildcard) ∧
    ∀ key value, (key, value) ∈ grant.conditions →
      ∃ type, registry key = some type ∧ type.evaluate value access.userEmail access.resource access.context =
        true := by
  unfold Grant.permits
  rw [Bool.and_eq_true, Bool.and_eq_true, failedKeys_nil, Bool.or_eq_true, decide_eq_true_iff,
    decide_eq_true_iff, decide_eq_true_iff, and_assoc]

theorem permits_mono (respects : registry.Respects) (below : narrow ≤ wide)
    (permitted : narrow.permits registry access = true) :
    wide.permits registry access = true := by
  obtain ⟨action, type, conditions⟩ := below
  obtain ⟨same, fits, satisfied⟩ := permits_iff.mp permitted
  apply permits_iff.mpr
  refine ⟨action.trans same, ?_, ?_⟩
  · rcases type with equal | every
    · rw [equal]
      exact fits
    · exact .inr every
  · intro key value member
    obtain ⟨kept, inside, equal⟩ := conditions key value member
    obtain ⟨handler, registered, holds⟩ := satisfied key kept inside
    rw [respects key handler kept value registered equal] at holds
    exact ⟨handler, registered, holds⟩

variable {policies : List (Definition V)} {action resourceType userEmail : Str} {resource : Option R}
  {context : C}

omit [BEq V] [EquivBEq V] in
theorem applies_grants {policy : Definition V} (applies : policy.applies action resourceType = true) :
    ∃ type, (type = resourceType ∨ type = wildcard) ∧ ⟨action, type, policy.conditions.getD []⟩ ∈
      policy.grants := by
  simp only [Definition.applies, Bool.and_eq_true, Bool.or_eq_true, decide_eq_true_eq,
    List.any_eq_true] at applies
  obtain ⟨type, named, listed, rfl⟩ := applies
  exact ⟨policy.resourceType, type, List.mem_map.mpr ⟨named, listed, rfl⟩⟩

omit [BEq V] [EquivBEq V] in
theorem allowed_permits
    (allowed : (evaluateDetailed registry policies action resourceType userEmail resource context).allowed =
      true) :
    ∃ policy ∈ policies, ∃ grant ∈ policy.grants, grant.permits registry ⟨userEmail, action, resourceType,
      resource, context⟩ = true := by
  obtain ⟨policy, member⟩ := List.exists_mem_of_length_pos (of_decide_eq_true allowed)
  obtain ⟨applicable, satisfied⟩ := List.mem_filter.mp member
  obtain ⟨inside, applies⟩ := List.mem_filter.mp applicable
  obtain ⟨type, fits, listed⟩ := applies_grants applies
  refine ⟨policy, inside, _, listed, ?_⟩
  apply permits_iff.mpr
  exact ⟨rfl, fits, failedKeys_nil.mp satisfied⟩

omit [BEq V] [EquivBEq V] in
theorem matched_policy {name : Str} {conditions : Option (Conditions V)}
    (member : (name, conditions) ∈ (evaluateDetailed registry policies action resourceType userEmail resource
      context).matchedPolicyConditions) :
    ∃ policy ∈ policies, policy.applies action resourceType = true ∧ policy.conditions = conditions := by
  have collected : ∀ (matched : List (Definition V)) (entries : List (Str × Option (Conditions V))),
      (name, conditions) ∈ matched.foldl (fun entries policy => setKey entries policy.name policy.conditions)
        entries →
      (name, conditions) ∈ entries ∨ ∃ policy ∈ matched, policy.conditions = conditions := by
    intro matched
    induction matched with
    | nil => exact fun _ member => .inl member
    | cons policy matched ih =>
      intro entries member
      rcases ih _ member with old | ⟨other, inside, same⟩
      · rcases mem_setKey.mp old with ⟨_, same⟩ | ⟨_, old⟩
        · exact .inr ⟨policy, List.mem_cons_self, same.symm⟩
        · exact .inl old
      · exact .inr ⟨other, List.mem_cons_of_mem _ inside, same⟩
  rcases collected _ _ member with nothing | ⟨policy, inside, same⟩
  · cases nothing
  · obtain ⟨inside, applies⟩ := List.mem_filter.mp (List.mem_filter.mp inside).1
    exact ⟨policy, inside, applies, same⟩

omit [EquivBEq V] in
theorem kept_of_lookup {conditions : Conditions V} {key : Str} {value : V}
    (kept : (conditions.lookup key).any (· == value) = true) :
    ∃ other, (key, other) ∈ conditions ∧ (other == value) = true := by
  obtain ⟨other, found, equal⟩ := (Option.any_eq_true _ _).mp kept
  obtain ⟨before, after, rfl, _⟩ := List.lookup_eq_some_iff.mp found
  exact ⟨other, List.mem_append_right _ List.mem_cons_self, equal⟩

theorem scope_narrows {proposed : Option (Conditions V)}
    (scope : hasScopeForGrant (evaluateDetailed registry policies action resourceType userEmail resource
      context).matchedPolicyConditions
      proposed = true) :
    ∃ policy ∈ policies, ∃ grant ∈ policy.grants, (⟨action, resourceType, proposed.getD []⟩ : Grant V) ≤
      grant := by
  obtain ⟨⟨name, source⟩, member, contained⟩ := List.any_eq_true.mp scope
  obtain ⟨policy, inside, applies, rfl⟩ := matched_policy member
  obtain ⟨type, fits, listed⟩ := applies_grants applies
  refine ⟨policy, inside, _, listed, rfl, fits, ?_⟩
  intro key value needed
  rcases Bool.or_eq_true_iff.mp contained with nothing | all
  · rw [List.isEmpty_iff.mp nothing] at needed
    cases needed
  · exact kept_of_lookup (List.all_eq_true.mp all (key, value) needed)

end Order

end ManifestCV.Authorization
