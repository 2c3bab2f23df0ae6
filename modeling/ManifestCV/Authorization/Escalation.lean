import ManifestCV.Authorization.Baseline

namespace ManifestCV.Authorization

open Foundation Foundation.Transactions

variable {V R C : Type}

def sameConditions [BEq V] : Conditions V → Conditions V → Bool
  | [], [] => true
  | (key, value) :: rest, (key', value') :: rest' => key = key' && value == value' &&
      sameConditions rest rest'
  | _, _ => false

def sameScope [BEq V] (policy other : Definition V) : Bool :=
  policy.actions = other.actions && policy.resourceType = other.resourceType &&
    sameConditions (policy.conditions.getD []) (other.conditions.getD [])

/-- An update that sets part of a policy's scope finds the rest as it was checked. -/
def unraced [BEq V] : Guard (Store V) (Outside V) (Phase V R C) (Input C) where
  alone db _ phase _ := match phase with
    | .perform _ (.update policy fields) => !fields.scope || (db.policy? policy.id).all fun row =>
        sameScope (fields.apply row.toDefinition) (fields.apply policy.toDefinition)
    | _ => true
  beside _ _ _ := true

/-- A group of accounts: who they are, the grants they are held to, the policies with more, and the row of the
    superuser policy. -/
structure Group (V : Type) [BEq V] [EquivBEq V] where
  callers : Str → Bool
  member : Nat → Prop
  covered : LowerSet (Grant V)
  secret : Nat → Prop
  superuser : Nat
  hidden : secret superuser

section Claims

variable [BEq V] [EquivBEq V] (group : Group V)

def Definition.Within (policy : Definition V) : Prop := ∀ grant ∈ policy.grants, grant ∈ group.covered

def Definition.Listed (policy : Definition V) : Prop :=
  policy.Within group ∧ policy.name ≠ systemSuperuserPolicyName

def Policy.Settled (policy : Policy V) : Prop := policy.Within group ↔ ¬ group.secret policy.id

def Policy.Genuine (policy : Policy V) : Prop :=
  policy.Settled group ∧ (policy.name = systemSuperuserPolicyName → policy.id = group.superuser)

def Plan.Genuine (plan : Plan V) : Prop := ∀ policy, plan.loaded = some policy → policy.Genuine group

def Plan.Checked (plan : Plan V) (rest : List (Grant V)) : Prop :=
  ∀ proposal ∈ plan.proposals, ∀ grant ∈ proposal.grants, grant ∈ group.covered ∨ grant ∈ rest

def Goal.Sound : Goal V R → Prop
  | .require _ _ _ _ => True
  | .superuser plan proposal more => plan.Genuine group ∧
      plan.Checked group (proposal.grants ++ more.flatMap (·.grants))
  | .action plan proposal more first rest => plan.Genuine group ∧
    plan.Checked group (((first :: rest).map fun action =>
      ⟨action, proposal.resourceType, proposal.conditions.getD []⟩) ++
      more.flatMap (·.grants))

def Write.Sound : Write V → Prop
  | .insertPolicy policy => policy.Within group ∧ ¬ group.secret policy.id
  | .updatePolicy policy => policy.Settled group
  | .insertAssignment row => ¬ group.secret row.policyId
  | .insertPermission row | .updatePermission row => row.grant ∈ group.covered
  | _ => True

def Write.Named : Write V → Prop
  | .insertPolicy policy | .updatePolicy policy => policy.name = systemSuperuserPolicyName →
      policy.id = group.superuser
  | _ => True

def Phase.Sound (registry : Registry V R C) : Phase V R C → Prop
  | .policies caller goal | .selectPolicies caller goal => group.callers caller = true ∧ goal.Sound group
  | .cachePolicies caller goal assigned | .permissions caller goal assigned | .selectPermissions
      caller goal assigned =>
    group.callers caller = true ∧ goal.Sound group ∧ ∀ policy ∈ assigned, policy.Listed group
  | .cachePermissions caller goal assigned direct | .decide caller goal assigned direct =>
    group.callers caller = true ∧ goal.Sound group ∧ (∀ policy ∈ assigned, policy.Listed group) ∧
      ∀ permission ∈ direct, permission.grant ∈ group.covered
  | .findName caller _ plan => group.callers caller = true ∧ plan.Genuine group
  | .findHistory caller policy _ => group.callers caller = true ∧ policy.Genuine group
  | .findPolicy caller _ _ | .findHolder caller _ _ _ | .findAssigned caller _ _ _ | .findGrantee caller _ _ _
      _ => group.callers caller = true
  | .perform _ plan => plan.Genuine group ∧ plan.Checked group []
  | .countHolders _ policy _ | .findAssignment _ policy _ | .findGrants _ policy _ _ => policy.Within group
  | .flush writes _ => ∀ w ∈ writes, w.Sound group
  | .finished (.allowed access) => ∃ grant ∈ group.covered, grant.permits registry access = true
  | _ => True

structure Contained (db : Store V) (outside : Outside V) : Prop where
  users : ∀ email id, group.callers email = true → db.emailOf id email = true → group.member id
  policies : ∀ row ∈ db.policies, row.Genuine group
  assignments : ∀ row ∈ db.userPolicies, group.member row.userId → ¬ group.secret row.policyId
  permissions : ∀ row ∈ db.permissions, group.member row.userId → row.grant ∈ group.covered
  userPolicies : ∀ email, group.callers email = true → ∀ policies,
    outside.userPolicies email = some policies →
    ∀ policy ∈ policies, policy.Listed group
  userPermissions : ∀ email, group.callers email = true → ∀ permissions, outside.userPermissions email =
    some permissions →
    ∀ permission ∈ permissions, permission.grant ∈ group.covered
  fresh : ∀ id, group.secret id → id < outside.nextId

def groupAssertion (registry : Registry V R C) : Assertion (Store V) (Outside V) (Phase V R C) (Write V) where
  common := Contained group
  own _ _ phase pending := phase.Sound group registry ∧ (phase.writing = false → pending = []) ∧
    ∀ w ∈ pending, w.Sound group ∧ w.Named group
  pair _ _ _ _ := True

end Claims

variable [BEq V] [EquivBEq V] {group : Group V} {registry : Registry V R C}

theorem covered_of_within {policies : List (Definition V)} {narrow : Grant V}
    (within : ∀ policy ∈ policies, policy.Within group)
    (below : ∃ policy ∈ policies, ∃ grant ∈ policy.grants, narrow ≤ grant) : narrow ∈ group.covered := by
  obtain ⟨policy, inside, grant, listed, below⟩ := below
  exact group.covered.lower below (within policy inside grant listed)

theorem effective_within {policies : List (Definition V)} {permissions : List (UserPermission V)}
    (listed : ∀ policy ∈ policies, policy.Listed group)
    (covered : ∀ permission ∈ permissions, permission.grant ∈ group.covered) :
    ∀ policy ∈ effectivePolicies policies permissions, policy.Within group := by
  intro policy member
  rcases List.mem_append.mp member with assigned | direct
  · exact (listed policy assigned).1
  · obtain ⟨permission, inside, rfl⟩ := List.mem_map.mp direct
    intro grant listed
    rw [List.mem_singleton.mp listed]
    exact covered permission inside

section Phases

variable {caller : Str} {plan : Plan V} (member : group.callers caller = true)

include member

theorem guardFrom_sound (proposals : List (Proposal V)) (genuine : plan.Genuine group)
    (checked : plan.Checked group (proposals.flatMap (·.grants))) :
    (guardFrom caller plan proposals).Sound group registry := by
  induction proposals with
  | nil => exact ⟨genuine, checked⟩
  | cons proposal more ih =>
    rw [List.flatMap_cons] at checked
    simp only [guardFrom]
    split
    · exact ⟨member, genuine, checked⟩
    · split
      · rename_i empty
        apply ih
        rwa [Proposal.grants, empty, List.map_nil, List.nil_append] at checked
      · rename_i action rest actions
        rw [Proposal.grants, actions] at checked
        exact ⟨member, genuine, checked⟩

theorem guardActions_sound {proposal : Proposal V} {more : List (Proposal V)} {actions : List Str}
    (genuine : plan.Genuine group)
    (checked : plan.Checked group
      ((actions.map fun action => ⟨action, proposal.resourceType, proposal.conditions.getD []⟩) ++
      more.flatMap (·.grants))) : (guardActions caller plan proposal more actions).Sound group registry := by
  cases actions with
  | nil => exact guardFrom_sound member more genuine checked
  | cons action rest => exact ⟨member, genuine, checked⟩

theorem guardPlan_sound (genuine : plan.Genuine group) : (guardPlan caller plan).Sound group registry := by
  apply guardFrom_sound member plan.proposals genuine
  intro proposal inside grant listed
  exact .inr (List.mem_flatMap.mpr ⟨proposal, inside, listed⟩)

theorem policiesLoaded_sound {goal : Goal V R} {policies : List (Definition V)} (sound : goal.Sound group)
    (listed : ∀ policy ∈ policies, policy.Listed group) :
    (policiesLoaded caller policies goal).Sound group registry := by
  cases goal with
  | require command action resourceType rest => exact ⟨member, sound, listed⟩
  | action plan proposal more action rest => exact ⟨member, sound, listed⟩
  | superuser plan proposal more =>
    simp only [policiesLoaded]
    split
    · rename_i named
      obtain ⟨policy, inside, same⟩ := List.any_eq_true.mp named
      exact absurd (of_decide_eq_true same) (listed policy inside).2
    · exact guardActions_sound member sound.1 sound.2

theorem body_sound (command : Command V R) : (body registry caller command).Sound group registry := by
  cases command with
  | createPolicy data =>
    simp only [body]
    split
    · refine ⟨member, ?_⟩
      intro policy loaded
      cases loaded
    · exact True.intro
  | access action resourceType resource => exact True.intro
  | _ => exact member

theorem decided_sound {goal : Goal V R} {effective : List (Definition V)} {context : C}
    (sound : goal.Sound group) (within : ∀ policy ∈ effective, policy.Within group) :
    (decided registry caller effective context goal).Sound group registry := by
  cases goal with
  | require command action resourceType rest =>
    simp only [decided]
    split
    · exact True.intro
    · rename_i allowed
      rw [Bool.not_eq_true, Bool.not_eq_false'] at allowed
      obtain ⟨policy, inside, grant, listed, permitted⟩ := allowed_permits allowed
      split
      · exact ⟨grant, within policy inside grant listed, permitted⟩
      · exact body_sound member _
      · exact ⟨member, True.intro⟩
  | superuser plan proposal more => exact guardActions_sound member sound.1 sound.2
  | action plan proposal more action rest =>
    simp only [decided]
    split
    · exact True.intro
    · split
      · exact True.intro
      · rename_i scope
        rw [Bool.not_eq_true, Bool.not_eq_false'] at scope
        have granted := covered_of_within within (scope_narrows scope)
        apply guardActions_sound member sound.1
        intro other inside grant listed
        rcases sound.2 other inside grant listed with done | opens
        · exact .inl done
        · rcases List.mem_cons.mp opens with rfl | opens
          · exact .inl granted
          · exact .inr opens

theorem checkDeactivation_sound {policy : Policy V} (fields : PolicyUpdate V)
    (genuine : policy.Genuine group) :
    (checkDeactivation caller policy fields).Sound group registry := by
  unfold checkDeactivation
  split
  · exact True.intro
  · apply guardPlan_sound member
    intro loaded same
    cases same
    exact genuine

theorem nameFree_sound (genuine : plan.Genuine group) : (nameFree caller plan).Sound group registry := by
  cases plan with
  | update policy fields => exact checkDeactivation_sound member fields (genuine policy rfl)
  | _ => exact guardPlan_sound member genuine

theorem policyFound_sound {policy : Policy V} (edit : PolicyEdit V) (genuine : policy.Genuine group) :
    (policyFound registry caller policy edit).Sound group registry := by
  have loads : ∀ {plan : Plan V}, plan.loaded = some policy → plan.Genuine group := by
    intro plan loaded other same
    rw [loaded] at same
    cases same
    exact genuine
  cases edit with
  | update fields =>
    simp only [policyFound]
    split
    · exact True.intro
    · split
      · exact True.intro
      · split
        · exact ⟨member, loads rfl⟩
        · exact checkDeactivation_sound member fields genuine
  | delete =>
    simp only [policyFound]
    split
    · exact True.intro
    · split
      · exact True.intro
      · exact guardPlan_sound member (loads rfl)
  | rollback historyId => exact ⟨member, genuine⟩

theorem historyFound_sound {policy : Policy V} (entry : PolicyHistory V) (genuine : policy.Genuine group) :
    (historyFound registry caller policy entry).Sound group registry := by
  simp only [historyFound]
  split
  · exact True.intro
  · split
    · exact True.intro
    · split
      · exact True.intro
      · split
        · exact True.intro
        · apply guardPlan_sound member
          intro loaded same
          cases same
          exact genuine

theorem assignedFound_sound {policy : Policy V} (user : User) (edit : AssignmentEdit)
    (genuine : policy.Genuine group) :
    (assignedFound caller user policy edit).Sound group registry := by
  unfold assignedFound
  split
  · exact True.intro
  · apply guardPlan_sound member
    intro loaded same
    cases same
    exact genuine

theorem granteeFound_sound {action resourceType : Str} {user : User} (edit : PermissionEdit V) :
    (granteeFound registry caller action resourceType user edit).Sound group registry := by
  cases edit with
  | grant conditions =>
    simp only [granteeFound]
    split
    · exact True.intro
    · split
      · exact True.intro
      · apply guardPlan_sound member
        intro loaded same
        cases same
  | revoke =>
    simp only [granteeFound]
    split
    · exact True.intro
    · apply guardPlan_sound member
      intro loaded same
      cases same

end Phases

omit [EquivBEq V] in
theorem kept_of_same {first second : Conditions V} (same : sameConditions first second = true)
    {key : Str} {value : V} (member : (key, value) ∈ second) :
    ∃ kept, (key, kept) ∈ first ∧ (kept == value) = true := by
  induction first generalizing second with
  | nil =>
    cases second with
    | nil => cases member
    | cons _ _ => cases same
  | cons entry rest ih =>
    obtain ⟨name, kept⟩ := entry
    cases second with
    | nil => cases same
    | cons entry' rest' =>
      obtain ⟨name', value'⟩ := entry'
      simp only [sameConditions, Bool.and_eq_true, decide_eq_true_eq] at same
      rcases List.mem_cons.mp member with first | later
      · cases first
        exact ⟨kept, same.1.1 ▸ List.mem_cons_self, same.1.2⟩
      · obtain ⟨other, inside, equal⟩ := ih same.2 later
        exact ⟨other, List.mem_cons_of_mem _ inside, equal⟩

theorem sameScope_within {policy other : Definition V} (same : sameScope policy other = true)
    (within : other.Within group) :
    policy.Within group := by
  simp only [sameScope, Bool.and_eq_true, decide_eq_true_eq] at same
  obtain ⟨⟨actions, type⟩, conditions⟩ := same
  intro grant member
  obtain ⟨action, listed, rfl⟩ := List.mem_map.mp member
  rw [actions] at listed
  apply group.covered.lower _ (within ⟨action, other.resourceType, other.conditions.getD []⟩
    (List.mem_map.mpr ⟨action, listed, rfl⟩))
  exact ⟨rfl, .inl type.symm, fun _ _ member => kept_of_same conditions member⟩

theorem within_of_checked {plan : Plan V} {policy : Definition V} (checked : plan.Checked group [])
    (proposed : policy.proposal ∈ plan.proposals) :
    policy.Within group := by
  intro grant member
  rcases checked policy.proposal proposed grant member with covered | leaves
  · exact covered
  · cases leaves

theorem updated_settled {plan : Plan V} {policy row : Policy V} {fields : PolicyUpdate V}
    (genuine : plan.Genuine group) (checked : plan.Checked group []) (settled : row.Settled group)
    (edits : plan.edits = some (policy, fields)) (same : row.id = policy.id)
    (race : plan = .update policy fields → fields.scope = true →
      sameScope (fields.apply row.toDefinition) (fields.apply policy.toDefinition) = true) :
    (⟨fields.apply row.toDefinition, row.id⟩ : Policy V).Settled group := by
  have both : policy.proposal ∈ plan.proposals → (fields.apply row.toDefinition).Within group →
    plan.loaded = some policy →
      (⟨fields.apply row.toDefinition, row.id⟩ : Policy V).Settled group := by
    intro proposed within loaded
    have opens := (genuine policy loaded).1.mp (within_of_checked checked proposed)
    rw [← same] at opens
    exact ⟨fun _ => opens, fun _ => within⟩
  cases plan with
  | update policy fields =>
    cases edits
    cases scope : fields.scope with
    | true =>
      have targeted : (fields.apply policy.toDefinition).Within group := by
        apply within_of_checked checked
        simp [Plan.proposals, scope]
      apply both
      · simp [Plan.proposals, scope]
      · exact sameScope_within (race rfl scope) targeted
      · rfl
    | false =>
      have kept : (fields.apply row.toDefinition).grants = row.grants := by
        simp only [PolicyUpdate.scope, Bool.or_eq_false_iff, Option.isSome_eq_false_iff,
          Option.isNone_iff_eq_none] at scope
        simp only [Definition.grants, PolicyUpdate.apply, scope.1.1, scope.1.2, scope.2, Option.getD_none]
      show (∀ grant ∈ (fields.apply row.toDefinition).grants, grant ∈ group.covered) ↔ ¬ group.secret row.id
      rw [kept]
      exact settled
  | rollback policy target =>
    cases edits
    apply both
    · exact List.mem_cons_self
    · exact within_of_checked checked (List.mem_cons_of_mem _ List.mem_cons_self)
    · rfl
  | _ => cases edits

section Store

variable {db : Store V} {outside : Outside V}

theorem applyWrite_contained {w : Write V} (contained : Contained group db outside) (sound : w.Sound group)
    (named : w.Named group) :
    Contained group (applyWrite db w) outside := by
  obtain ⟨users, policies, assignments, permissions, cached, cachedPermissions, fresh⟩ := contained
  cases w with
  | insertPolicy policy =>
    refine ⟨users, ?_, assignments, permissions, cached, cachedPermissions, fresh⟩
    intro row member
    rcases List.mem_append.mp member with old | new
    · exact policies row old
    · rw [List.mem_singleton.mp new]
      exact ⟨⟨fun _ => sound.2, fun _ => sound.1⟩, named⟩
  | updatePolicy policy =>
    refine ⟨users, ?_, assignments, permissions, cached, cachedPermissions, fresh⟩
    intro row member
    obtain ⟨old, inside, rfl⟩ := List.mem_map.mp member
    split
    · exact ⟨sound, named⟩
    · exact policies old inside
  | deletePolicy id =>
    refine ⟨users, ?_, ?_, permissions, cached, cachedPermissions, fresh⟩
    · exact fun row member => policies row (List.mem_filter.mp member).1
    · exact fun row member => assignments row (List.mem_filter.mp member).1
  | insertAssignment link =>
    refine ⟨users, policies, ?_, permissions, cached, cachedPermissions, fresh⟩
    intro row member
    rcases List.mem_append.mp member with old | new
    · exact assignments row old
    · rw [List.mem_singleton.mp new]
      exact fun _ => sound
  | deleteAssignment link =>
    refine ⟨users, policies, ?_, permissions, cached, cachedPermissions, fresh⟩
    exact fun row member => assignments row (List.mem_filter.mp member).1
  | insertPermission permission =>
    refine ⟨users, policies, assignments, ?_, cached, cachedPermissions, fresh⟩
    intro row member
    rcases List.mem_append.mp member with old | new
    · exact permissions row old
    · rw [List.mem_singleton.mp new]
      exact fun _ => sound
  | updatePermission permission =>
    refine ⟨users, policies, assignments, ?_, cached, cachedPermissions, fresh⟩
    intro row member
    obtain ⟨old, inside, rfl⟩ := List.mem_map.mp member
    split
    · exact fun _ => sound
    · exact permissions old inside
  | deletePermission permission =>
    refine ⟨users, policies, assignments, ?_, cached, cachedPermissions, fresh⟩
    exact fun row member => permissions row (List.mem_filter.mp member).1
  | lockPolicy id => exact ⟨users, policies, assignments, permissions, cached, cachedPermissions, fresh⟩
  | insertHistory entry => exact ⟨users, policies, assignments, permissions, cached, cachedPermissions, fresh⟩

theorem view_contained {callers : Str → Bool} {pending : List (Write V)}
    (contained : Contained group db outside) (each : ∀ w ∈ pending, w.Sound group ∧ w.Named group) :
    Contained group (System.view (managementSystem registry callers) db pending) outside := by
  unfold System.view
  induction pending generalizing db with
  | nil => exact contained
  | cons w pending ih =>
    obtain ⟨sound, named⟩ := each w List.mem_cons_self
    apply ih (applyWrite_contained contained sound named)
    exact fun v member => each v (List.mem_cons_of_mem _ member)

theorem named_of_admitted {w : Write V} (keeps : db.Keeps group.superuser systemSuperuserPolicyName)
    (admitted : admits db w = true) :
    w.Named group := by
  obtain ⟨⟨row, inside, same⟩, named⟩ := keeps
  have taken := (named row inside same).1
  cases w with
  | insertPolicy policy =>
    intro equal
    simp only [admits, Option.isNone_iff_eq_none, Store.policyNamed, List.find?_eq_none,
      decide_eq_true_eq] at admitted
    exact absurd (taken.trans equal.symm) (admitted row inside)
  | updatePolicy policy =>
    intro equal
    have free := List.all_eq_true.mp admitted row inside
    rcases Bool.or_eq_true_iff.mp free with mine | other
    · exact (of_decide_eq_true mine).symm.trans same
    · exact absurd (taken.trans equal.symm) (of_decide_eq_true other)
  | _ => exact True.intro

theorem activePolicies_listed {loaded : Option (Policy V)} {caller : Str}
    (contained : Contained group db outside) (member : group.callers caller = true)
    (genuine : ∀ policy, loaded = some policy → policy.Genuine group) :
    ∀ policy ∈ db.activePolicies loaded caller, policy.Listed group := by
  intro policy selected
  obtain ⟨row, held, rfl⟩ := List.mem_map.mp selected
  obtain ⟨inside, active⟩ := List.mem_filter.mp held
  obtain ⟨link, assigned, belongs⟩ := List.any_eq_true.mp (Bool.and_eq_true_iff.mp active).2
  obtain ⟨same, mine⟩ := Bool.and_eq_true_iff.mp belongs
  have opens := contained.assignments link assigned (contained.users caller link.userId member mine)
  rw [of_decide_eq_true same] at opens
  have listed : ∀ given : Policy V, given.Genuine group → given.id = row.id → given.Listed group := by
    intro given genuine equal
    rw [← equal] at opens
    refine ⟨genuine.1.mpr opens, ?_⟩
    intro named
    apply opens
    rw [genuine.2 named]
    exact group.hidden
  cases found : loaded.filter (·.id = row.id) with
  | none => exact listed row (contained.policies row inside) rfl
  | some given =>
    obtain ⟨granted, equal⟩ := Option.filter_eq_some_iff.mp found
    exact listed given (genuine given granted) (of_decide_eq_true equal)

theorem activePermissions_covered {caller : Str} (contained : Contained group db outside)
    (member : group.callers caller = true) :
    ∀ permission ∈ db.activePermissions caller, permission.grant ∈ group.covered := by
  intro permission selected
  obtain ⟨row, held, rfl⟩ := List.mem_map.mp selected
  obtain ⟨inside, active⟩ := List.mem_filter.mp held
  have mine := (Bool.and_eq_true_iff.mp active).2
  exact contained.permissions row inside (contained.users caller row.userId member mine)

end Store

section Step

variable {db : Store V} {outside : Outside V} {phase : Phase V R C}
  {effect : Effect (Outside V) (Phase V R C) (Write V)}

theorem Outside.Forgets.contained {outside' : Outside V} (forgets : outside.Forgets outside')
    (contained : Contained group db outside) :
    Contained group db outside' where
  users := contained.users
  policies := contained.policies
  assignments := contained.assignments
  permissions := contained.permissions
  userPolicies email member policies listed :=
    contained.userPolicies email member policies (forgets.policies email policies listed)
  userPermissions email member permissions listed :=
    contained.userPermissions email member permissions (forgets.permissions email permissions listed)
  fresh id hidden := forgets.nextId ▸ contained.fresh id hidden

theorem Contained.grow (contained : Contained group db outside) {n : Nat} (more : outside.nextId ≤ n) :
    Contained group db { outside with nextId := n } :=
  { contained with fresh := fun id hidden => Nat.lt_of_lt_of_le (contained.fresh id hidden) more }

theorem next_contained {view : Store V} (contained : Contained group db outside)
    (own : phase.Sound group registry) (next : Next registry view outside phase effect) :
    Contained group db (outsideAfter outside effect) := by
  cases next with
  | @stored caller goal policies =>
    refine { contained with userPolicies := ?_ }
    intro email member listed present
    by_cases same : email = caller
    · subst same
      simp only [outsideAfter, Function.update_self, Option.some.injEq] at present
      subst present
      exact own.2.2
    · simp only [outsideAfter, Function.update_of_ne same] at present
      exact contained.userPolicies email member listed present
  | @permissionsStored caller goal policies permissions =>
    refine { contained with userPermissions := ?_ }
    intro email member listed present
    by_cases same : email = caller
    · subst same
      simp only [outsideAfter, Function.update_self, Option.some.injEq] at present
      subst present
      exact own.2.2.2
    · simp only [outsideAfter, Function.update_of_ne same] at present
      exact contained.userPermissions email member listed present
  | followed ends forgets => exact forgets.contained contained
  | created | updated | deleted | assigned | permissionInserted | converted =>
      exact contained.grow (Nat.le_add_right _ _)
  | _ => exact contained

theorem loaded_genuine {goal : Goal V R} (sound : goal.Sound group) :
    ∀ policy, goal.loaded = some policy → policy.Genuine group := by
  cases goal with
  | require command action resourceType rest =>
    intro policy loaded
    cases loaded
  | superuser plan proposal more => exact sound.1
  | action plan proposal more action rest => exact sound.1

theorem next_sound {input : Input C} (contained : Contained group db outside)
    (own : phase.Sound group registry) (race : unraced.alone db outside phase input = true)
    (next : Next registry db outside phase effect) :
    effect.phase.Sound group registry ∧ ∀ w phase' outside', effect = .write w phase' outside' →
      w.Sound group := by
  have none_written : ∀ {phase' : Phase V R C} {outside' : Outside V}, phase'.Sound group registry →
      (Effect.read phase' outside' : Effect (Outside V) (Phase V R C) (Write V)).phase.Sound group registry ∧
        ∀ w phase'' outside'', (Effect.read phase' outside' : Effect _ _ (Write V)) =
            .write w phase'' outside'' → w.Sound group := by
    intro phase' outside' kept
    refine ⟨kept, ?_⟩
    intro w _ _ written
    cases written
  have loaded : ∀ {policyName policy}, db.policyNamed policyName = some policy → policy.Genuine group :=
    fun found => contained.policies _ (policyNamed_mem found)
  cases next with
  | cached listed =>
      exact none_written (policiesLoaded_sound own.1 own.2 (contained.userPolicies _ own.1 _ listed))
  | uncached => exact none_written own
  | selected =>
      exact none_written ⟨own.1, own.2, activePolicies_listed contained own.1 (loaded_genuine own.2)⟩
  | stored => exact none_written (policiesLoaded_sound own.1 own.2.1 own.2.2)
  | unstored => exact none_written (policiesLoaded_sound own.1 own.2.1 own.2.2)
  | permissionsCached listed =>
      exact none_written ⟨own.1, own.2.1, own.2.2, contained.userPermissions _ own.1 _ listed⟩
  | permissionsUncached => exact none_written own
  | permissionsSelected =>
      exact none_written ⟨own.1, own.2.1, own.2.2, activePermissions_covered contained own.1⟩
  | permissionsStored => exact none_written own
  | permissionsUnstored => exact none_written own
  | decided context => exact none_written (decided_sound own.1 own.2.1 (effective_within own.2.2.1 own.2.2.2))
  | nameFree absent => exact none_written (nameFree_sound own.1 own.2)
  | policyFound found => exact none_written (policyFound_sound own _ (loaded found))
  | historyFound found => exact none_written (historyFound_sound own.1 _ own.2)
  | holderFound found => exact none_written own
  | assignedFound found => exact none_written (assignedFound_sound own _ _ (loaded found))
  | granteeFound found => exact none_written (granteeFound_sound own _)
  | created =>
    apply none_written
    intro w member
    rcases List.mem_cons.mp member with rfl | member
    · refine ⟨within_of_checked own.2 List.mem_cons_self, ?_⟩
      intro hidden
      exact Nat.lt_irrefl _ (contained.fresh _ hidden)
    · rw [List.mem_singleton.mp member]
      exact True.intro
  | @updated caller plan policy fields row change edits found kind =>
    obtain ⟨inside, same⟩ := policy?_some found
    constructor
    · intro w member
      rcases List.mem_cons.mp member with rfl | member
      · apply updated_settled own.1 own.2 (contained.policies row inside).1 edits same
        rintro rfl scope
        have checked : (!fields.scope || (db.policy? policy.id).all fun row =>
          sameScope (fields.apply row.toDefinition) (fields.apply policy.toDefinition)) = true := race
        rwa [scope, found, Bool.not_true, Bool.false_or, Option.all_some] at checked
      · rw [List.mem_singleton.mp member]
        exact True.intro
    · intro w _ _ written
      cases written
      exact True.intro
  | deleted =>
    apply none_written
    intro w member
    rcases List.mem_cons.mp member with rfl | member
    · exact True.intro
    · rw [List.mem_singleton.mp member]
      exact True.intro
  | @assigned caller user policy absent =>
    apply none_written
    intro w member
    rw [List.mem_singleton.mp member]
    exact (own.1 policy rfl).1.mp (within_of_checked own.2 List.mem_cons_self)
  | alreadyAssigned => exact none_written True.intro
  | counting named => exact none_written (within_of_checked own.2 List.mem_cons_self)
  | removing other => exact none_written (within_of_checked own.2 List.mem_cons_self)
  | @permissionUpdated caller user action resourceType conditions row found =>
    apply none_written
    intro w member
    rw [List.mem_singleton.mp member]
    have fits := List.find?_some found
    simp only [Bool.and_eq_true, decide_eq_true_eq] at fits
    show (⟨row.action, row.resourceType, conditions.getD []⟩ : Grant V) ∈ group.covered
    rw [fits.1.2, fits.2]
    rcases own.2 _ List.mem_cons_self _ List.mem_cons_self with covered | leaves
    · exact covered
    · cases leaves
  | permissionInserted absent =>
    apply none_written
    intro w member
    rw [List.mem_singleton.mp member]
    rcases own.2 _ List.mem_cons_self _ List.mem_cons_self with covered | leaves
    · exact covered
    · cases leaves
  | permissionDeleted found =>
    apply none_written
    intro w member
    rw [List.mem_singleton.mp member]
    exact True.intro
  | counted several => exact none_written own
  | assignmentDeleted found =>
    apply none_written
    intro w member
    rw [List.mem_singleton.mp member]
    exact True.intro
  | converting found => exact none_written own
  | converted =>
    apply none_written
    intro w member
    rcases List.mem_append.mp member with kept | gone
    · obtain ⟨row, form, _, type, conditions, listed⟩ := retained_permissions kept
      have covered : row.grant ∈ group.covered := by
        apply own
        rw [UserPermission.grant, type, conditions]
        exact List.mem_map.mpr ⟨row.action, listed, rfl⟩
      rcases form with rfl | rfl
      · exact covered
      · exact covered
    · rw [List.mem_singleton.mp gone]
      exact True.intro
  | flushed =>
    constructor
    · intro w member
      exact own w (List.mem_cons_of_mem _ member)
    · intro w _ _ written
      cases written
      exact own _ List.mem_cons_self
  | committed =>
    refine ⟨True.intro, ?_⟩
    intro w _ _ written
    cases written
  | commitLost =>
    refine ⟨True.intro, ?_⟩
    intro w _ _ written
    cases written
  | followed ends forgets =>
      rcases ends with ⟨rest, rfl⟩ | rfl | ⟨code, rfl⟩ <;> exact none_written True.intro
  | refused code =>
    refine ⟨True.intro, ?_⟩
    intro w _ _ written
    cases written

end Step

theorem failedPhase_sound {phase : Phase V R C} (sound : phase.Sound group registry) :
    (failedPhase phase).Sound group registry := by
  cases phase with
  | finished outcome => exact sound
  | _ => exact True.intro

theorem begin_sound {caller : Str} (command : Command V R) (member : group.callers caller = true) :
    (begin caller command).Sound group registry := by
  unfold begin
  split
  · exact True.intro
  · exact ⟨member, True.intro⟩

theorem start_sound {db : Store V} {outside outside' : Outside V} {event : Event V R} {phase : Phase V R C}
    (contained : Contained group db outside)
    (started : (managementSystem registry group.callers).start outside event = some (phase, outside')) :
    Contained group db outside' ∧ phase.Sound group registry := by
  cases event with
  | request request =>
    obtain ⟨caller, command⟩ := request
    simp only [managementSystem] at started
    split at started
    · rename_i member
      cases started
      exact ⟨contained, begin_sound command member⟩
    · cases started
  | expirePolicies email =>
    cases started
    exact ⟨(forgets_policies email).contained contained, True.intro⟩
  | expirePermissions email =>
    cases started
    exact ⟨(forgets_permissions email).contained contained, True.intro⟩

theorem group_stable : Stable (managementSystem registry group.callers) unraced
    (baselineAssertion group.superuser systemSuperuserPolicyName) (groupAssertion group registry) where
  start _ common started := by
    obtain ⟨contained, sound⟩ := start_sound common started
    refine ⟨contained, sound, fun _ => rfl, ?_⟩
    intro w member
    cases member
  startOther _ _ own _ := ⟨own, True.intro, True.intro⟩
  own := by
    intro db outside phase pending label db' outside' phase' pending' known knownOwn contained
      own granted moves
    obtain ⟨sound, quiet, held⟩ := own
    have viewed := @view_contained V R C _ _ group registry db outside group.callers pending contained held
    have keeps := @view_keeps V R C _ _ _ registry group.callers db pending known.1 knownOwn.2
    have unheld : ∀ w ∈ ([] : List (Write V)), w.Sound group ∧ w.Named group := by
      intro w member
      cases member
    -- a session that has written nothing sees the tables as its guard did
    have race : ∀ input, label = some input →
        unraced.alone (System.view (managementSystem registry group.callers) db pending) outside phase input =
            true := by
      intro input given
      cases writing : phase.writing with
      | true => cases phase <;> first
        | rfl
        | cases writing
      | false =>
        rw [quiet writing]
        exact granted input given
    cases moves with
    | read answer =>
      have next := next_cases answer
      refine ⟨next_contained contained sound next, (next_sound viewed sound (race _ rfl) next).1, ?_, held⟩
      intro _
      cases writing : phase.writing with
      | true => exact (next_writing next writing ⟨_, _, rfl⟩).elim
      | false => exact quiet writing
    | write answer admitted =>
      have next := next_cases answer
      obtain ⟨kept, written⟩ := next_sound viewed sound (race _ rfl) next
      refine ⟨next_contained contained sound next, kept, ?_, ?_⟩
      · intro done
        rw [written_writing next] at done
        cases done
      · intro w member
        rcases List.mem_append.mp member with old | new
        · exact held w old
        · rw [List.mem_singleton.mp new]
          exact ⟨written _ _ _ rfl, named_of_admitted keeps admitted⟩
    | refused _ _ => exact ⟨contained, failedPhase_sound sound, fun _ => rfl, unheld⟩
    | commit answer =>
      have next := next_cases answer
      exact ⟨next_contained viewed sound next, (next_sound viewed sound (race _ rfl) next).1, fun _ =>
        rfl, unheld⟩
    | fail answer =>
        exact ⟨contained, (next_sound viewed sound (race _ rfl) (next_cases answer)).1, fun _ => rfl, unheld⟩
    | abort => exact ⟨contained, failedPhase_sound sound, fun _ => rfl, unheld⟩
  other _ _ _ _ _ _ _ own _ _ _ _ _ := ⟨own, True.intro, True.intro⟩

/-- Keys that are unique, and ids that were drawn. -/
structure Store.WellFormed (db : Store V) (nextId : Nat) : Prop where
  ids : ∀ row ∈ db.policies, ∀ other ∈ db.policies, row.id = other.id → row = other
  names : ∀ row ∈ db.policies, ∀ other ∈ db.policies, row.name = other.name → row = other
  fresh : ∀ row ∈ db.policies, row.id < nextId

/-- Every grant that one of the accounts is assigned, active or not: nobody has to be allowed what a policy
    grants to activate it. -/
def Store.heldBy (db : Store V) (callers : Str → Bool) : List (Grant V) :=
  let holds (userId : Nat) : Bool := db.users.any fun user => user.id = userId && callers user.email
  ((db.policies.filter fun row => db.userPolicies.any fun link => link.policyId = row.id &&
    holds link.userId).flatMap (·.grants)) ++
    (db.permissions.filter fun row => holds row.userId).map (·.grant)

section Initial

variable {callers : Str → Bool} {db : Store V} {nextId : Nat} {policy : Policy V}

def Group.of (callers : Str → Bool) (db : Store V) (policy : Policy V) (inside : policy ∈ db.policies)
    (beyond : ∃ grant ∈ policy.grants, ∀ held ∈ db.heldBy callers, ¬ grant ≤ held) : Group V where
  callers
  member id := ∃ email, callers email = true ∧ db.emailOf id email = true
  covered := lowerClosure { grant | grant ∈ db.heldBy callers }
  secret id := ∃ row ∈ db.policies, row.id = id ∧ ¬ ∀ grant ∈ row.grants,
    grant ∈ lowerClosure { grant | grant ∈ db.heldBy callers }
  superuser := policy.id
  hidden := by
    refine ⟨policy, inside, rfl, ?_⟩
    intro within
    obtain ⟨grant, listed, outside⟩ := beyond
    obtain ⟨held, holds, below⟩ := mem_lowerClosure.mp (within grant listed)
    exact outside held holds below

omit [BEq V] [EquivBEq V] in
theorem holds_of_email {userId : Nat} {email : Str} (member : callers email = true)
    (mine : db.emailOf userId email = true) :
    (db.users.any fun user => user.id = userId && callers user.email) = true := by
  obtain ⟨user, inside, same⟩ := List.any_eq_true.mp mine
  obtain ⟨id, named⟩ := Bool.and_eq_true_iff.mp same
  apply List.any_eq_true.mpr
  refine ⟨user, inside, Bool.and_eq_true_iff.mpr ⟨id, ?_⟩⟩
  rw [of_decide_eq_true named]
  exact member

theorem initial_contained (wellFormed : db.WellFormed nextId) (inside : policy ∈ db.policies)
    (named : policy.name = systemSuperuserPolicyName)
    (beyond : ∃ grant ∈ policy.grants, ∀ held ∈ db.heldBy callers, ¬ grant ≤ held) :
    Contained (Group.of callers db policy inside beyond) db ⟨fun _ => none, fun _ => none, nextId⟩ where
  users email id member mine := ⟨email, member, mine⟩
  policies row listed := by
    constructor
    · constructor
      · rintro within ⟨other, inside', same, without⟩
        rw [wellFormed.ids other inside' row listed same] at without
        exact without within
      · intro opens
        by_contra without
        exact opens ⟨row, listed, rfl, without⟩
    · intro taken
      rw [wellFormed.names row listed policy inside (taken.trans named.symm)]
      rfl
  assignments link listed := by
    rintro ⟨email, member, mine⟩ ⟨row, inside', same, without⟩
    apply without
    intro grant granted
    apply subset_lowerClosure
    apply List.mem_append_left
    apply List.mem_flatMap.mpr
    refine ⟨row, List.mem_filter.mpr ⟨inside', ?_⟩, granted⟩
    apply List.any_eq_true.mpr
    exact ⟨link, listed, Bool.and_eq_true_iff.mpr ⟨decide_eq_true same.symm, holds_of_email member mine⟩⟩
  permissions row listed := by
    rintro ⟨email, member, mine⟩
    apply subset_lowerClosure
    apply List.mem_append_right
    exact List.mem_map.mpr ⟨row, List.mem_filter.mpr ⟨listed, holds_of_email member mine⟩, rfl⟩
  userPolicies _ _ _ present := by cases present
  userPermissions _ _ _ present := by cases present
  fresh := by
    rintro id ⟨row, listed, rfl, _⟩
    exact wellFormed.fresh row listed

/-- Whatever the accounts of a group do with the routes for single policies, assignments and permissions,
    together and in any order, an access that one of them is allowed is within a grant that one was assigned
    at the start, be it active then or not. -/
theorem no_escalation {s : State (Store V) (Outside V) (Phase V R C) (Write V)} (respects : registry.Respects)
    (wellFormed : db.WellFormed nextId) (inside : policy ∈ db.policies)
    (named : policy.name = systemSuperuserPolicyName) (active : policy.isActive = true)
    (beyond : ∃ grant ∈ policy.grants, ∀ held ∈ db.heldBy callers, ¬ grant ≤ held)
    (run : Runs (managementSystem registry callers) unraced (initialState db nextId) s) {i : Nat}
    {session : Session (Phase V R C) (Write V)} {access : Access R C} (found : s.sessions[i]? = some session)
    (allowed : session.phase = .finished (.allowed access)) :
    ∃ grant ∈ db.heldBy callers, grant.permits registry access = true := by
  have known : ∀ t, Runs (managementSystem registry callers) unraced (initialState db nextId) t →
      (baselineAssertion policy.id systemSuperuserPolicyName).Holds t := by
    intro t reached
    rw [← named]
    apply baseline_runs inside _ active (fun other member same =>
      wellFormed.ids other member policy inside same)
      (wellFormed.fresh policy inside) reached.free
    rw [named]
    rfl
  have holds : (groupAssertion (Group.of callers db policy inside beyond) registry).Holds s := by
    apply And.right
    exact holds_idle_runs conflicts_symm group_stable known rfl
      (initial_contained wellFormed inside named beyond) run
  have sound := (holds.own i session found).1
  rw [allowed] at sound
  obtain ⟨grant, covered, permitted⟩ := sound
  obtain ⟨held, holds, below⟩ := mem_lowerClosure.mp covered
  exact ⟨held, holds, permits_mono respects below permitted⟩

end Initial

def Phase.allowed? : Phase V R C → Option (Access R C)
  | .finished (.allowed access) => some access
  | _ => none

theorem no_escalation_helper : ∃ access : Access Str Unit, access.userEmail = "h".toList ∧
    access.action = "notes:read".toList ∧
    ∃ grant ∈ team.heldBy (fun email => email ≠ "root".toList), grant.permits selfOnly access = true := by
  let readers : PolicyCreate Bool :=
    ⟨"readers".toList, none, ["notes:read".toList], "notes".toList, some [("self_only".toList, true)]⟩
  let actions : List (Action (Input Unit) (Event Bool Str)) :=
    .start (.request ⟨"m".toList, .createPolicy readers⟩) :: answered 0 18 ++
      .start (.request ⟨"m".toList, .editAssignment "h".toList "readers".toList .assign⟩) :: answered 1 15 ++
      .start (.request ⟨"h".toList, .access "notes:read".toList "notes".toList (some "h".toList)⟩) ::
        answered 2 7
  have ran : ((managementSystem selfOnly fun email => email ≠ "root".toList).perform unraced
      (initialState team 5) actions).any (fun s =>
      s.sessions[2]?.any fun session => session.phase.allowed?.any fun access =>
        access.userEmail = "h".toList && access.action = "notes:read".toList) = true := by decide +kernel
  obtain ⟨s, run, checked⟩ := runs_of_performed ran
  obtain ⟨session, found, checked⟩ := (Option.any_eq_true _ _).mp checked
  obtain ⟨access, allowed, checked⟩ := (Option.any_eq_true _ _).mp checked
  have finished : session.phase = .finished (.allowed access) := by
    cases phase : session.phase with
    | finished outcome =>
      rw [phase] at allowed
      cases outcome <;> cases allowed
      rfl
    | _ =>
      rw [phase] at allowed
      cases allowed
  have respects : selfOnly.Respects := by
    intro key type value other _ same
    rw [eq_of_beq same]
  have wellFormed : team.WellFormed 5 := ⟨by decide, by decide, by decide⟩
  have others : ∀ held ∈ team.heldBy fun email => email ≠ "root".toList,
    held.action ≠ "users:delete_any".toList := by decide
  have beyond : ∃ grant : Grant Bool, grant ∈ [(⟨"users:delete_any".toList, wildcard, []⟩ : Grant Bool),
    ⟨"policies:update".toList, wildcard, []⟩] ∧
      ∀ held ∈ team.heldBy fun email => email ≠ "root".toList, ¬ grant ≤ held :=
    ⟨_, List.mem_cons_self, fun held holds below => others held holds below.1⟩
  obtain ⟨mine, named⟩ := Bool.and_eq_true_iff.mp checked
  refine ⟨access, of_decide_eq_true mine, of_decide_eq_true named, ?_⟩
  exact no_escalation respects wellFormed List.mem_cons_self rfl rfl beyond run found finished

end ManifestCV.Authorization
