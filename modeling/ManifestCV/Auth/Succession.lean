import ManifestCV.Auth.Lineage

namespace ManifestCV.Auth

open Foundation Foundation.Transactions

def Phase.heir? : Phase → Option Nat
  | .createSuccessors token _ => some token.chain
  | phase => phase.refresh?.map (·.chain)

def Bumped.reissues? : Bumped → Option Nat
  | .reissue _ chainId => some chainId
  | _ => none

def Phase.reissues? : Phase → Option Nat
  | .revokeOthers token => some token.chain
  | .countActiveSessions _ after | .bump _ after | .commitBump _ after => after.reissues?
  | .createAccess _ chainId => some chainId
  | .readFirstVersions access => some access.chain
  | .createRefresh access => some access.chain
  | _ => none

def steady (chainId : Nat) : Guard Store Outside Phase Input where
  alone db outside phase input := timely.alone db outside phase input && match phase with
    | .updatePassword token => token.chain ≠ chainId
    | _ => true
  beside _ _ _ := true

section Steps

variable {settings : Settings} {db : Store} {outside : Outside} {phase : Phase}
  {effect : Effect Outside Phase Write} {chainId : Nat}

theorem next_heir (step : Next settings db outside phase effect) (heir : effect.phase.heir? = some chainId) :
    phase.heir? = some chainId ∨ chainId = outside.nextChain ∨ phase.reissues? = some chainId ∨
      ∃ token row, phase = .commitClaim token row ∧ token.chain = chainId ∧ ∃ outside',
        effect = .commit (.createSuccessors token row) outside' := by
  cases step with
  | drafted first second =>
    subst first second
    cases heir
    exact .inr (.inl rfl)
  | refreshDrafted =>
    cases heir
    exact .inr (.inr (.inl rfl))
  | claimCommitted =>
    cases heir
    exact .inr (.inr (.inr ⟨_, _, rfl, rfl, _, rfl⟩))
  | succeeded first second =>
    subst first second
    exact .inl heir
  | chainCurrent current =>
    rename_i purpose token
    left
    cases purpose with
    | authenticate =>
      simp only [Effect.phase, afterCheck] at heir
      split at heir <;> cases heir
    | updateProfile =>
      simp only [Effect.phase, afterCheck] at heir
      split at heir <;> cases heir
    | refresh clientIp => cases heir
    | successor parent access => exact heir
  | bumped confirmed =>
    rename_i after
    rcases afterBump_cases confirmed after with ⟨_, same⟩ | ⟨_, _, same⟩ <;>
      (rw [Effect.phase, same] at heir; cases heir)
  | unconfirmed confirmed trying =>
    rename_i after
    rcases afterBump_cases confirmed after with ⟨_, same⟩ | ⟨_, _, same⟩ <;>
      (rw [Effect.phase, same] at heir; cases heir)
  | purged more => cases more <;> cases heir
  | _ => first | exact .inl heir | cases heir

theorem afterBump_reissues (confirmed : Bool) (after : Bumped) :
    (afterBump confirmed after).reissues? = after.reissues? := by
  cases after <;> rfl

theorem next_reissues (step : Next settings db outside phase effect)
    (reissues : effect.phase.reissues? = some chainId) :
    phase.reissues? = some chainId ∨ ∃ token, phase = .updatePassword token ∧ token.chain = chainId := by
  cases step with
  | updated =>
    cases reissues
    exact .inr ⟨_, rfl, rfl⟩
  | revoking follows =>
    left
    cases follows with
    | inl same =>
      subst same
      cases reissues
    | inr same =>
      subst same
      exact reissues
  | chainCurrent current =>
    rename_i purpose token
    rcases afterCheck_cases token purpose with ⟨_, same⟩ | same | ⟨_, same⟩ | ⟨_, _, same⟩ <;>
      (rw [Effect.phase, same] at reissues; cases reissues)
  | bumped confirmed =>
    rw [Effect.phase, afterBump_reissues] at reissues
    exact .inl reissues
  | unconfirmed confirmed trying =>
    rw [Effect.phase, afterBump_reissues] at reissues
    rcases trying with ⟨email, rfl⟩ | ⟨key, rfl | rfl⟩ <;> exact .inl reissues
  | purged more => cases more <;> cases reissues
  | _ => first | exact .inl reissues | cases reissues

theorem next_access (step : Next settings db outside phase effect) :
    ∀ access ∈ effect.phase.access?, access ∈ phase.access? ∨ access.type = .access := by
  intro access held
  cases step with
  | drafted first second =>
    subst first second
    cases held
    exact .inr rfl
  | accessDrafted =>
    cases held
    exact .inr rfl
  | succeeded first second =>
    subst first second
    cases held
    exact .inr rfl
  | chainCurrent current =>
    rename_i purpose token
    left
    cases purpose with
    | authenticate =>
      simp only [Effect.phase, afterCheck] at held
      split at held <;> cases held
    | updateProfile =>
      simp only [Effect.phase, afterCheck] at held
      split at held <;> cases held
    | refresh clientIp => cases held
    | successor parent other => exact held
  | bumped confirmed =>
    rename_i after
    cases after <;> cases held
  | unconfirmed confirmed trying =>
    rename_i after
    cases after <;> cases held
  | purged more => cases more <;> cases held
  | _ => first | exact .inl held | cases held

theorem heir_chains {phase : Phase} (heir : phase.heir? = some chainId) : chainId ∈ phase.chains := by
  rw [mem_chains]
  cases phase with
  | createSuccessors token row =>
    cases heir
    exact .inl ⟨token.stamp, List.mem_cons_self, rfl⟩
  | readVersions access refresh =>
    cases heir
    exact .inr (.inl ⟨_, List.mem_cons_of_mem _ List.mem_cons_self, rfl⟩)
  | readRefreshVersions origin access refresh =>
    cases heir
    exact .inr (.inl ⟨_, List.mem_cons_self, rfl⟩)
  | readAccessVersions access refresh =>
    cases heir
    exact .inl ⟨refresh.stamp, List.mem_cons_self, rfl⟩
  | recordSession origin access refresh =>
    cases heir
    exact .inl ⟨refresh.stamp, List.mem_cons_of_mem _ List.mem_cons_self, rfl⟩
  | respond origin access refresh =>
    cases heir
    exact .inl ⟨refresh.stamp, List.mem_cons_of_mem _ List.mem_cons_self, rfl⟩
  | decode purpose token =>
    cases purpose <;> cases heir
    exact .inl ⟨token.stamp, List.mem_cons_self, rfl⟩
  | accountVersion purpose token =>
    cases purpose <;> cases heir
    exact .inl ⟨token.stamp, List.mem_cons_self, rfl⟩
  | chainVersion purpose token =>
    cases purpose <;> cases heir
    exact .inl ⟨token.stamp, List.mem_cons_self, rfl⟩
  | _ => cases heir

end Steps

structure Carries (outside : Outside) (chainId : Nat) (token : Token) : Prop where
  issued : token ∈ outside.issued
  refreshes : token.type = .refresh
  same : token.chain = chainId

def soleAssertion (chainId : Nat) : Assertion Store Outside Phase Write where
  common db outside := ∀ first, Carries outside chainId first → ∀ second, Carries outside chainId second →
    first = second ∨ Spent db outside first ∨ Spent db outside second
  own db outside phase _ := phase.reissues? ≠ some chainId ∧
    (∀ access ∈ phase.access?, access.type = .access) ∧
    (phase.heir? = some chainId → ∀ token, Carries outside chainId token → Spent db outside token)
  pair phase _ other _ := ¬ (phase.heir? = some chainId ∧ other.heir? = some chainId)

section Invariant

variable {settings : Settings} {chainId : Nat} {db : Store} {outside : Outside} {phase : Phase}
  {pending : List Write}
  {effect : Effect Outside Phase Write}

theorem begin_heir (outside : Outside) (request : Request) :
    (begin outside request).heir? = none ∧ (begin outside request).reissues? = none := by
  have presented : ∀ purpose token, purpose.access? = none → (present outside purpose token).heir? = none ∧
      (present outside purpose token).reissues? = none := by
    intro purpose token nothing
    rw [present]
    split
    · exact ⟨by simp [Phase.heir?, Phase.refresh?, nothing], rfl⟩
    · exact ⟨rfl, rfl⟩
  cases request with
  | authenticate token => exact presented _ token rfl
  | updateProfile token => exact presented _ token rfl
  | refresh token clientIp =>
    rw [begin]
    split
    · exact presented _ token rfl
    · exact ⟨rfl, rfl⟩
  | _ => exact ⟨rfl, rfl⟩

theorem spent_step (step : Next settings (replay db pending) outside phase effect)
    (rooted : Rooted db outside) (sound : Sound db outside phase pending) {token : Token}
    (issued : token ∈ outside.issued) (spent : Spent db outside token) :
    Spent (storeOf db pending effect) (outsideOf outside effect) token := by
  have clock := Nat.le_of_eq (next_now step).symm
  apply spent.later _ clock
  intro consumed
  exact (storeOf_kept rooted sound issued consumed).later .inl clock

theorem next_carries (step : Next settings db outside phase effect)
    (typed : ∀ access ∈ phase.access?, access.type = .access) {token : Token}
    (carries : Carries (outsideOf outside effect) chainId token) : Carries outside chainId token ∨
      phase.heir? = some chainId ∧ effect.phase.heir? = none ∧ ∃ origin access,
        phase = .respond origin access token := by
  have member := carries.issued
  rcases next_answered step with kept | ⟨origin, access, refresh, rfl, answered, kept⟩
  · rw [kept] at member
    exact .inl ⟨member, carries.refreshes, carries.same⟩
  · rw [kept] at member
    cases List.mem_cons.mp member with
    | inl same =>
      subst same
      have type := typed token.toDraft rfl
      exact absurd (type.symm.trans carries.refreshes) (by decide)
    | inr rest =>
      cases List.mem_cons.mp rest with
      | inl same =>
        subst same
        rw [answered]
        exact .inr ⟨congrArg some carries.same, rfl, origin, access, rfl⟩
      | inr old => exact .inl ⟨old, carries.refreshes, carries.same⟩

theorem next_sole (step : Next settings (replay db pending) outside phase effect) (rooted : Rooted db outside)
    (sound : Sound db outside phase pending) (sole : (soleAssertion chainId).common db outside)
    (own : (soleAssertion chainId).own db outside phase pending) :
    (soleAssertion chainId).common (storeOf db pending effect) (outsideOf outside effect) := by
  have older : phase.heir? = some chainId → ∀ {token}, Carries outside chainId token →
      Spent (storeOf db pending effect) (outsideOf outside effect) token :=
    fun heir token carries => spent_step step rooted sound carries.issued (own.2.2 heir token carries)
  intro first hFirst second hSecond
  rcases next_carries step own.2.1 hFirst with oldFirst | ⟨heir, _, origin, access, rfl⟩
  · rcases next_carries step own.2.1 hSecond with oldSecond | ⟨heir, _, _⟩
    · rcases sole first oldFirst second oldSecond with same | spent | spent
      · exact .inl same
      · exact .inr (.inl (spent_step step rooted sound oldFirst.issued spent))
      · exact .inr (.inr (spent_step step rooted sound oldSecond.issued spent))
    · exact .inr (.inl (older heir oldFirst))
  · rcases next_carries step own.2.1 hSecond with oldSecond | ⟨_, _, _, _, same⟩
    · exact .inr (.inr (older heir oldSecond))
    · cases same
      exact .inl rfl

/-- While a claim is committed its token is the one of use, and is spent from then on. -/
theorem claim_spends {token : Token} {row : ConsumedRefreshToken} (rooted : Rooted db outside)
    (sound : Sound db outside (.commitClaim token row) pending)
    (sole : (soleAssertion chainId).common db outside) (belongs : token.chain = chainId)
    (lives : token.expired outside.now = false) :
    (∀ other, Carries outside chainId other → Spent (replay db pending) outside other) ∧
    Carries outside chainId token ∧ ¬ Spent db outside token := by
  obtain ⟨issued, type⟩ := sound.parent token rfl
  obtain ⟨absent, same, _⟩ := sound.claim token row rfl
  have carries : Carries outside chainId token := ⟨issued, type, belongs⟩
  have unspent : ¬ Spent db outside token := by
    intro spent
    cases spent with
    | inl consumed =>
      rw [absent] at consumed
      cases consumed
    | inr expired => exact absurd (lives.symm.trans expired) Bool.false_ne_true
  refine ⟨?_, carries, unspent⟩
  intro other hOther
  rcases sole token carries other hOther with rfl | spent | spent
  · have held := sound.sent
    cases held
    left
    rw [← same]
    exact insertClaim_present db row
  · exact absurd spent unspent
  · exact spent.later (fun consumed => @storeOf_kept _ _ _ _ (.commit (.finished .done) outside) rooted sound
      _ hOther.issued consumed)
      (Nat.le_refl _)

/-- An heir after a step: the chain is as old as before, and no session beside is one. -/
theorem next_heir_cases (step : Next settings (replay db pending) outside phase effect)
    (heir : effect.phase.heir? = some chainId) (own : (soleAssertion chainId).own db outside phase pending) :
    phase.heir? = some chainId ∨ chainId = outside.nextChain ∨
      ∃ token row, phase = .commitClaim token row ∧ token.chain = chainId ∧ ∃ outside',
        effect = .commit (.createSuccessors token row) outside' := by
  rcases next_heir step heir with old | new | reissued | claimed
  · exact .inl old
  · exact .inr (.inl new)
  · exact absurd reissued own.1
  · exact .inr (.inr claimed)

theorem steady_claim {db : Store} {input : Input} {token : Token} {row : ConsumedRefreshToken}
    (allowed : (steady chainId).alone db outside (.commitClaim token row) input = true) :
    token.expired outside.now = false := by
  simpa [steady, timely] using allowed

theorem steady_password {db : Store} {input : Input} {token : Token}
    (allowed : (steady chainId).alone db outside (.updatePassword token) input = true) :
    token.chain ≠ chainId := by
  simpa [steady, timely] using allowed

theorem sole_stable (settings : Settings) (chainId : Nat) :
    Stable (tokenSystem settings) (steady chainId) (lineageAssertion.and boundedAssertion)
      (soleAssertion chainId) where
  start {db outside request phase outside'} known sole started := by
    cases started
    obtain ⟨tokens, _, _⟩ := start_issued outside request
    obtain ⟨passes, _⟩ := start_passes outside request
    obtain ⟨heir, reissues⟩ := begin_heir outside request
    obtain ⟨_, access, _, _⟩ := begin_made outside request
    have before : ∀ {token}, Carries (start outside request) chainId token → Carries outside chainId token :=
      fun carries => ⟨tokens ▸ carries.issued, carries.refreshes, carries.same⟩
    refine ⟨?_, ?_, ?_, ?_⟩
    · intro first hFirst second hSecond
      rcases sole first (before hFirst) second (before hSecond) with same | spent | spent
      · exact .inl same
      · exact .inr (.inl (spent.later .inl passes))
      · exact .inr (.inr (spent.later .inl passes))
    · rw [reissues]
      exact (Option.some_ne_none chainId).symm
    · rw [access]
      intro draft held
      cases held
    · rw [heir]
      intro same
      cases same
  startOther {db outside request phase outside' other otherPending} _ _ own started := by
    cases started
    obtain ⟨tokens, _, _⟩ := start_issued outside request
    obtain ⟨passes, _⟩ := start_passes outside request
    obtain ⟨heir, _⟩ := begin_heir outside request
    refine ⟨⟨own.1, own.2.1, ?_⟩, ?_, ?_⟩
    · intro same token carries
      exact (own.2.2 same token ⟨tokens ▸ carries.issued, carries.refreshes, carries.same⟩).later .inl passes
    · intro both
      rw [heir] at both
      cases both.1
    · intro both
      rw [heir] at both
      cases both.2
  own {db outside phase pending label db' outside' phase' pending'} common known sole own allowed moves := by
    rcases moves_next moves with ⟨input, effect, rfl, step, rfl, rfl, rfl, rfl⟩ | ⟨_, rfl, rfl, rfl, rfl⟩
    · obtain ⟨rooted, issued⟩ := common
      obtain ⟨sound, bounded⟩ := known
      have guard := allowed input rfl
      refine ⟨next_sole step rooted sound sole own, ?_, ?_, ?_⟩
      · intro reissues
        rcases next_reissues step reissues with old | ⟨token, rfl, same⟩
        · exact own.1 old
        · exact steady_password guard same
      · intro access held
        cases next_access step access held with
        | inl old => exact own.2.1 access old
        | inr type => exact type
      · intro heir token carries
        rcases next_carries step own.2.1 carries with old | ⟨_, nothing, _⟩
        · rcases next_heir_cases step heir own with earlier | new | ⟨parent, row, rfl,
            belongs, outside'', rfl⟩
          · exact spent_step step rooted sound old.issued (own.2.2 earlier token old)
          · have bound := (issued.stamps token old.issued).2
            have same := old.same
            omega
          · have spent := (claim_spends rooted sound sole belongs (steady_claim guard)).1 token old
            exact spent.later .inl (Nat.le_of_eq (next_now step).symm)
        · rw [heir] at nothing
          cases nothing
    · obtain ⟨outcome, same⟩ := failedPhase_finished phase
      rw [same]
      refine ⟨sole, (Option.some_ne_none chainId).symm, ?_, ?_⟩
      · intro access held
        cases held
      · intro heir
        cases heir
  other {db outside phase pending label db' outside' phase' pending' other otherPending} common known
    otherKnown _ _ sole own otherOwn pair pair'
      allowed apart moves := by
    rcases moves_next moves with ⟨input, effect, rfl, step, rfl, rfl, rfl, rfl⟩ | ⟨_, rfl, rfl, rfl, rfl⟩
    · obtain ⟨rooted, issued⟩ := common
      obtain ⟨sound, bounded⟩ := known
      have guard := (allowed input rfl).1
      have alone : ¬ (effect.phase.heir? = some chainId ∧ other.heir? = some chainId) := by
        intro both
        rcases next_heir_cases step both.1 own with earlier | new | ⟨parent, row, rfl,
          belongs, outside'', rfl⟩
        · exact pair ⟨earlier, both.2⟩
        · have bound := otherKnown.2.chains chainId (heir_chains both.2)
          omega
        · obtain ⟨_, carries, unspent⟩ := claim_spends rooted sound sole belongs (steady_claim guard)
          exact unspent (otherOwn.2.2 both.2 parent carries)
      refine ⟨⟨otherOwn.1, otherOwn.2.1, ?_⟩, alone, fun both => alone ⟨both.2, both.1⟩⟩
      intro heir token carries
      rcases next_carries step own.2.1 carries with old | ⟨earlier, _, _⟩
      · exact spent_step step rooted sound old.issued (otherOwn.2.2 heir token old)
      · exact absurd ⟨earlier, heir⟩ pair
    · obtain ⟨outcome, same⟩ := failedPhase_finished phase
      rw [same]
      exact ⟨otherOwn, fun both => Option.some_ne_none chainId both.1.symm, fun both =>
        Option.some_ne_none chainId both.2.symm⟩

end Invariant

theorem steady_allows {chainId : Nat} (t : State Store Outside Phase Write) (action : Action Input Request)
    (allowed : (steady chainId).allows t action = true) : timely.allows t action = true := by
  cases action with
  | run i input =>
    simp only [Guard.allows] at allowed ⊢
    cases found : t.sessions[i]? with
    | none => rfl
    | some session =>
      rw [found] at allowed
      simp only [Option.all_some, steady, Bool.and_eq_true] at allowed ⊢
      exact ⟨allowed.1.1, allowed.2⟩
  | start request => rfl
  | abort i => rfl

theorem steady_sole {settings : Settings} {chainId : Nat} {s : State Store Outside Phase Write}
    (run : Runs (tokenSystem settings) (steady chainId) initialState s) :
    (soleAssertion chainId).Holds s := by
  have known : ∀ t, Runs (tokenSystem settings) (steady chainId) initialState t →
      (lineageAssertion.and boundedAssertion).Holds t :=
    fun t reached => (timely_lineage (reached.weaken steady_allows)).and (reachable_bounded reached.free).2
  apply And.right
  apply holds_idle_runs conflicts_symm (sole_stable settings chainId) known rfl _ run
  intro _ hFirst
  exact absurd hFirst.issued List.not_mem_nil

/-- A refresh token in someone's hands that a rotation would still accept, whatever the versions are. -/
structure Redeemable (db : Store) (outside : Outside) (token : Token) : Prop where
  issued : token ∈ outside.issued
  refreshes : token.type = .refresh
  unclaimed : db.consumed? token.jti = none
  lives : token.expired outside.now = false

/-- However the rotations of a login race, are retried, fail or are replayed, at most one of the refresh
    tokens handed out for it can be redeemed, as long as no claim is committed late and the password is not
    changed from it. -/
theorem one_live_token {settings : Settings} {chainId : Nat} {s : State Store Outside Phase Write}
    (run : Runs (tokenSystem settings) (steady chainId) initialState s) {first second : Token}
    (mine : Redeemable s.db s.outside first) (theirs : Redeemable s.db s.outside second)
    (hFirst : first.chain = chainId) (hSecond : second.chain = chainId) : first = second := by
  have unspent : ∀ {token}, Redeemable s.db s.outside token → ¬ Spent s.db s.outside token := by
    intro token redeemable spent
    cases spent with
    | inl consumed =>
      rw [redeemable.unclaimed] at consumed
      cases consumed
    | inr expired => exact absurd (redeemable.lives.symm.trans expired) Bool.false_ne_true
  rcases (steady_sole run).common first ⟨mine.issued, mine.refreshes, hFirst⟩ second
    ⟨theirs.issued, theirs.refreshes, hSecond⟩ with same | spent | spent
  · exact same
  · exact absurd spent (unspent mine)
  · exact absurd spent (unspent theirs)

/-- Two requests raced for the first refresh token of a login: its successor is the only one left. -/
theorem one_live_token_race : ∃ s token, Runs (tokenSystem usualSettings) (steady 0) initialState s ∧
    s.outside.issued.length = 4 ∧
    Redeemable s.db s.outside token ∧ ∀ other, Redeemable s.db s.outside other → other.chain = 0 →
      other = token := by
  let refresh : Token := ⟨⟨.refresh, 1, "a".toList, 0, 604800⟩, 0, 0⟩
  let successor : Token := ⟨⟨.refresh, 3, "a".toList, 0, 604800⟩, 0, 0⟩
  let actions := .start (.login "a".toList) :: running 0 5 ++ [.start (.refresh refresh none),
    .start (.refresh refresh none)] ++
    running 1 4 ++ running 2 4 ++ running 1 7 ++ running 2 3
  have ran : ((tokenSystem usualSettings).perform (steady 0) initialState actions).any (fun s =>
      decide (s.outside.issued.length = 4 ∧ successor ∈ s.outside.issued ∧
        s.db.consumed? successor.jti = none ∧
        successor.expired s.outside.now = false)) = true := by decide +kernel
  obtain ⟨s, run, checked⟩ := runs_of_performed ran
  obtain ⟨counted, issued, unclaimed, lives⟩ := of_decide_eq_true checked
  have redeemable : Redeemable s.db s.outside successor := ⟨issued, rfl, unclaimed, lives⟩
  exact ⟨s, successor, run, counted, redeemable, fun other theirs same =>
    one_live_token run theirs redeemable same rfl⟩

end ManifestCV.Auth
