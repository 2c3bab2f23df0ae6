import ManifestCV.Auth.TokenSteps

namespace ManifestCV.Auth

open Foundation Foundation.Transactions

structure Stamp where
  email : Str
  chain : Nat
  accountVer : Nat
  chainVer : Nat

def Token.stamp (token : Token) : Stamp := ⟨token.email, token.chain, token.accountVer, token.chainVer⟩

def Store.stamp (db : Store) (place : Str × Nat) : Stamp :=
  ⟨place.1, place.2, db.version (.account place.1), db.version (.chain place.1 place.2)⟩

def Stamp.Current (db : Store) (stamp : Stamp) : Prop :=
  stamp.accountVer ≤ db.version (.account stamp.email) ∧ stamp.chainVer ≤
    db.version (.chain stamp.email stamp.chain)

def Purpose.stamps : Purpose → List Stamp
  | .successor _ access => [access.stamp]
  | _ => []

def Phase.stamps : Phase → List Stamp
  | .readRefreshVersions _ access _ | .createRefresh access => [access.stamp]
  | .readAccessVersions _ refresh => [refresh.stamp]
  | .recordSession _ access refresh | .respond _ access refresh => [access.stamp, refresh.stamp]
  | .decode purpose token | .accountVersion purpose token | .chainVersion purpose token =>
      token.stamp :: purpose.stamps
  | .beginClaim token _ | .insertClaim token _ _ | .readClaim token _ | .commitUnclaimed token _ | .duplicate
      token _ => [token.stamp]
  | .updatePassword token | .revokeOthers token => [token.stamp]
  | .commitClaim token row | .createSuccessors token row =>
    [token.stamp, ⟨token.email, token.chain, row.accountVer, row.chainVer⟩]
  | _ => []

def Bumped.places : Bumped → List (Str × Nat)
  | .reissue email chainId => [(email, chainId)]
  | _ => []

def Phase.places : Phase → List (Str × Nat)
  | .readVersions access refresh => [(access.email, access.chain), (refresh.email, refresh.chain)]
  | .readRefreshVersions _ _ draft | .readAccessVersions draft _ | .readFirstVersions draft =>
      [(draft.email, draft.chain)]
  | .createAccess email chainId => [(email, chainId)]
  | .createRefresh access => [(access.email, access.chain)]
  | .updatePassword token | .revokeOthers token => [(token.email, token.chain)]
  | .countActiveSessions _ after | .bump _ after | .commitBump _ after => after.places
  | _ => []

def VersionKey.chains : VersionKey → List Nat
  | .account _ => []
  | .chain _ chainId => [chainId]

def Phase.key? : Phase → Option VersionKey
  | .bump key _ | .commitBump key _ => some key
  | _ => none

def Phase.chains (phase : Phase) : List Nat :=
  phase.stamps.map (·.chain) ++ phase.places.map Prod.snd ++ phase.key?.toList.flatMap VersionKey.chains

def Phase.trusted? : Phase → Option Token
  | .finished (.accepted token) | .updatePassword token | .beginClaim token _ => some token
  | _ => none

def Phase.compared? : Phase → Option Token
  | .chainVersion _ token => some token
  | _ => none

def outsideOf (outside : Outside) : Effect Outside Phase Write → Outside
  | .read _ outside' | .write _ _ outside' | .commit _ outside' => outside'
  | .fail _ => outside

def pendingOf (pending : List Write) : Effect Outside Phase Write → List Write
  | .read _ _ => pending
  | .write w _ _ => pending ++ [w]
  | .commit _ _ | .fail _ => []

def replay (db : Store) (writes : List Write) : Store := writes.foldl applyWrite db

def storeOf (db : Store) (pending : List Write) : Effect Outside Phase Write → Store
  | .commit _ _ => replay db pending
  | _ => db

section Steps

variable {settings : Settings} {db : Store} {outside : Outside} {phase : Phase}
  {effect : Effect Outside Phase Write}

theorem afterCheck_stamps (token : Token) (purpose : Purpose) :
    ∀ stamp ∈ (afterCheck token purpose).stamps, stamp ∈ (Phase.chainVersion purpose token).stamps := by
  intro stamp member
  cases purpose with
  | authenticate =>
    simp only [afterCheck] at member
    split at member <;> cases member
  | updateProfile =>
    simp only [afterCheck] at member
    split at member
    · exact member
    · cases member
  | refresh clientIp => exact member
  | successor parent access =>
    simp only [afterCheck, Phase.stamps, Purpose.stamps, List.mem_cons] at member ⊢
    tauto

theorem afterBump_stamps (confirmed : Bool) (after : Bumped) : (afterBump confirmed after).stamps = [] := by
  cases after <;> rfl

theorem afterBump_places (confirmed : Bool) (after : Bumped) :
    (afterBump confirmed after).places = after.places := by
  cases after <;> rfl

theorem next_stamps (step : Next settings db outside phase effect) : ∀ stamp ∈ effect.phase.stamps,
    stamp ∈ phase.stamps ∨ ∃ place ∈ phase.places, stamp = db.stamp place := by
  intro stamp member
  cases step with
  | refreshFirst => exact .inr ⟨_, List.mem_cons_of_mem _ List.mem_cons_self, List.mem_singleton.mp member⟩
  | accessFirst => exact .inr ⟨_, List.mem_cons_self, List.mem_singleton.mp member⟩
  | firstRead => exact .inr ⟨_, List.mem_cons_self, List.mem_singleton.mp member⟩
  | refreshRead =>
    cases List.mem_cons.mp member with
    | inl same => exact .inl (List.mem_singleton.mpr same)
    | inr new => exact .inr ⟨_, List.mem_cons_self, List.mem_singleton.mp new⟩
  | accessRead =>
    cases List.mem_cons.mp member with
    | inl new => exact .inr ⟨_, List.mem_cons_self, new⟩
    | inr same => exact .inl same
  | chainCurrent current => exact .inl (afterCheck_stamps _ _ stamp member)
  | succeeded first second =>
    left
    subst first second
    simp only [Effect.phase, Phase.stamps, Purpose.stamps, List.mem_cons, List.not_mem_nil,
      or_false] at member
    cases member with
    | inl same => exact List.mem_cons_of_mem _ (List.mem_singleton.mpr same)
    | inr same => exact List.mem_cons_of_mem _ (List.mem_singleton.mpr same)
  | claimed absent =>
    left
    simp only [Effect.phase, Phase.stamps, List.mem_cons, List.not_mem_nil, or_false] at member ⊢
    cases member with
    | inl same => exact same
    | inr same => exact same
  | claimLost => cases member
  | replayed suspicious => cases member
  | revoking follows => cases member
  | bumped confirmed =>
    rw [Effect.phase, afterBump_stamps] at member
    cases member
  | unconfirmed confirmed trying =>
    rw [Effect.phase, afterBump_stamps] at member
    cases member
  | purged more => cases more <;> cases member
  | refused ends => cases member
  | _ => first | exact .inl member | cases member

/-- A place is kept, the new chain of a login, or that of a token which may change the password. -/
theorem next_places (step : Next settings db outside phase effect) : ∀ place ∈ effect.phase.places,
    place ∈ phase.places ∨ place.2 = outside.nextChain ∧ (outsideOf outside effect).nextChain =
      outside.nextChain + 1 ∨
      ∃ token, phase = .chainVersion .updateProfile token ∧ token.chainVer =
        db.version (.chain token.email token.chain) ∧
        place = (token.email, token.chain) := by
  intro place member
  cases step with
  | drafted first second =>
    subst first second
    right
    left
    cases List.mem_cons.mp member with
    | inl same => exact ⟨congrArg Prod.snd same, rfl⟩
    | inr same => exact ⟨congrArg Prod.snd (List.mem_singleton.mp same), rfl⟩
  | refreshFirst => exact .inl (List.mem_cons.mpr (.inl (List.mem_singleton.mp member)))
  | accessFirst => exact .inl (List.mem_cons_of_mem _ member)
  | chainCurrent current =>
    rename_i purpose token
    cases purpose with
    | updateProfile =>
      simp only [Effect.phase, afterCheck] at member
      split at member
      · exact .inr (.inr ⟨token, rfl, current, List.mem_singleton.mp member⟩)
      · cases member
    | authenticate =>
      simp only [Effect.phase, afterCheck] at member
      split at member <;> cases member
    | _ => cases member
  | revoking follows =>
    left
    cases follows with
    | inl same =>
      subst same
      cases member
    | inr same =>
      subst same
      exact member
  | bumped confirmed =>
    rw [Effect.phase, afterBump_places] at member
    exact .inl member
  | unconfirmed confirmed trying =>
    rw [Effect.phase, afterBump_places] at member
    left
    cases trying with
    | inl counting =>
      obtain ⟨email, rfl⟩ := counting
      exact member
    | inr bumping =>
      obtain ⟨key, rfl | rfl⟩ := bumping <;> exact member
  | purged more => cases more <;> cases member
  | _ => first | exact .inl member | cases member

theorem next_key (step : Next settings db outside phase effect) {key : VersionKey}
    (named : effect.phase.key? = some key) :
    phase.key? = some key ∨ (∃ email, key = .account email) ∨ (∃ email chainId, key = .chain email chainId ∧
      ((email, chainId) ∈ outside.recorded ∨ chainId ∈ phase.stamps.map (·.chain))) := by
  cases step with
  | replayed suspicious =>
    cases named
    exact .inr (.inr ⟨_, _, rfl, .inr List.mem_cons_self⟩)
  | found listed =>
    cases named
    exact .inr (.inr ⟨_, _, rfl, .inl listed⟩)
  | counted =>
    cases named
    exact .inr (.inl ⟨_, rfl⟩)
  | bumping =>
    cases named
    exact .inl rfl
  | chainCurrent current =>
    rename_i purpose token
    cases purpose with
    | authenticate =>
      simp only [Effect.phase, afterCheck] at named
      split at named <;> cases named
    | updateProfile =>
      simp only [Effect.phase, afterCheck] at named
      split at named <;> cases named
    | _ => cases named
  | bumped confirmed =>
    rename_i after
    cases after <;> cases named
  | unconfirmed confirmed trying =>
    rename_i after
    cases after <;> cases named
  | purged more => cases more <;> cases named
  | _ => cases named

theorem next_trusted (step : Next settings db outside phase effect) {token : Token}
    (trusted : effect.phase.trusted? = some token) :
    ∃ purpose, phase = .chainVersion purpose token ∧ token.chainVer =
      db.version (.chain token.email token.chain) := by
  cases step with
  | chainCurrent current =>
    rename_i purpose other
    cases purpose with
    | authenticate =>
      simp only [Effect.phase, afterCheck] at trusted
      split at trusted
      · cases trusted
        exact ⟨_, rfl, current⟩
      · cases trusted
    | updateProfile =>
      simp only [Effect.phase, afterCheck] at trusted
      split at trusted
      · cases trusted
        exact ⟨_, rfl, current⟩
      · cases trusted
    | refresh clientIp =>
      cases trusted
      exact ⟨_, rfl, current⟩
    | successor parent access => cases trusted
  | bumped confirmed =>
    rename_i after
    cases after <;> cases trusted
  | unconfirmed confirmed trying =>
    rename_i after
    cases after <;> cases trusted
  | purged more => cases more <;> cases trusted
  | refused ends =>
    cases ends with
    | inl same =>
      subst same
      cases trusted
    | inr same =>
      subst same
      cases trusted
  | _ => cases trusted

theorem next_issued (step : Next settings db outside phase effect) :
    ∀ token ∈ (outsideOf outside effect).issued,
    token ∈ outside.issued ∨ token.stamp ∈ phase.stamps := by
  intro token member
  cases step with
  | responded =>
    cases List.mem_cons.mp member with
    | inl same => exact .inr (same ▸ List.mem_cons_self)
    | inr rest =>
      cases List.mem_cons.mp rest with
      | inl same => exact .inr (same ▸ List.mem_cons_of_mem _ List.mem_cons_self)
      | inr old => exact .inl old
  | _ => exact .inl member

theorem next_recorded (step : Next settings db outside phase effect) :
    ∀ place ∈ (outsideOf outside effect).recorded,
    place ∈ outside.recorded ∨ place.2 ∈ phase.stamps.map (·.chain) := by
  intro place member
  cases step with
  | recorded =>
    cases List.mem_cons.mp member with
    | inl same =>
      subst same
      exact .inr (List.mem_map.mpr ⟨_, List.mem_cons_of_mem _ List.mem_cons_self, rfl⟩)
    | inr old => exact .inl old
  | _ => exact .inl member

theorem next_nextChain (step : Next settings db outside phase effect) :
    outside.nextChain ≤ (outsideOf outside effect).nextChain := by
  cases step <;> first | exact Nat.le_refl _ | exact Nat.le_succ _

theorem next_sent (step : Next settings db outside phase effect) {key : VersionKey} {after : Bumped}
    (waiting : phase = .commitBump key after) (pending : List Write) : pendingOf pending effect = [] := by
  subst waiting
  cases step with
  | bumped confirmed => rfl
  | unconfirmed confirmed trying => rfl
  | refused ends => rfl

theorem next_bump (step : Next settings db outside phase effect) {key : VersionKey} {pending : List Write}
    (sent : .bumpVersion key ∈ pendingOf pending effect)
    (earlier : .bumpVersion key ∈ pending → ∃ after, phase = .commitBump key after) :
    ∃ after, effect.phase = .commitBump key after := by
  have unsent : .bumpVersion key ∉ pending ∨ pendingOf pending effect = [] := by
    by_cases held : .bumpVersion key ∈ pending
    · obtain ⟨after, waiting⟩ := earlier held
      exact .inr (next_sent step waiting pending)
    · exact .inl held
  rcases unsent with unsent | nothing
  · cases step with
    | bumping =>
      cases List.mem_append.mp sent with
      | inl old => exact absurd old unsent
      | inr new =>
        cases List.mem_singleton.mp new
        exact ⟨_, rfl⟩
    | _ => first
      | exact absurd sent unsent
      | exact absurd sent List.not_mem_nil
      | (cases List.mem_append.mp sent with
        | inl old => exact absurd old unsent
        | inr new => cases List.mem_singleton.mp new)
  · rw [nothing] at sent
    cases sent

end Steps

section Versions

variable {db db' : Store} {pending : List Write}

theorem applyWrite_version (db : Store) (w : Write) (key : VersionKey) :
    db.version key ≤ (applyWrite db w).version key := by
  cases w with
  | insertClaim row =>
    simp only [applyWrite]
    split <;> exact Nat.le_refl _
  | deleteClaims jtis => exact Nat.le_refl _
  | bumpVersion other =>
    by_cases same : key = other
    · subst same
      show db.version key ≤ Function.update db.version key (db.version key + 1) key
      rw [Function.update_self]
      exact Nat.le_succ _
    · show db.version key ≤ Function.update db.version other (db.version other + 1) key
      rw [Function.update_of_ne same]

theorem replay_version (db : Store) (pending : List Write) (key : VersionKey) :
    db.version key ≤ (replay db pending).version key := by
  induction pending generalizing db with
  | nil => exact Nat.le_refl _
  | cons w rest ih => exact Nat.le_trans (applyWrite_version db w key) (ih (applyWrite db w))

theorem replay_version_same (db : Store) {key : VersionKey} (unbumped : .bumpVersion key ∉ pending) :
    (replay db pending).version key = db.version key := by
  induction pending generalizing db with
  | nil => rfl
  | cons w rest ih =>
    have later := ih (applyWrite db w) (fun member => unbumped (List.mem_cons_of_mem _ member))
    have first : (applyWrite db w).version key = db.version key := by
      cases w with
      | insertClaim row =>
        simp only [applyWrite]
        split <;> rfl
      | deleteClaims jtis => rfl
      | bumpVersion other =>
        have apart : key ≠ other := fun same => unbumped (same ▸ List.mem_cons_self)
        exact Function.update_of_ne apart _ _
    exact later.trans first

theorem Stamp.Current.mono {stamp : Stamp} (current : stamp.Current db)
    (grows : ∀ key, db.version key ≤ db'.version key) :
    stamp.Current db' :=
  ⟨Nat.le_trans current.1 (grows _), Nat.le_trans current.2 (grows _)⟩

end Versions

structure Bounded (db : Store) (outside : Outside) (phase : Phase) (pending : List Write) : Prop where
  stamps : ∀ stamp ∈ phase.stamps, stamp.Current db
  chains : ∀ chainId ∈ phase.chains, chainId < outside.nextChain
  sent : ∀ key, .bumpVersion key ∈ pending → ∃ after, phase = .commitBump key after

structure Issued (db : Store) (outside : Outside) : Prop where
  stamps : ∀ token ∈ outside.issued, token.stamp.Current db ∧ token.chain < outside.nextChain
  recorded : ∀ place ∈ outside.recorded, place.2 < outside.nextChain

def boundedAssertion : Assertion Store Outside Phase Write where
  common := Issued
  own := Bounded
  pair _ _ _ _ := True

section Invariant

variable {settings : Settings} {db : Store} {outside : Outside} {phase : Phase} {pending : List Write}
  {effect : Effect Outside Phase Write}

theorem mem_chains {phase : Phase} {chainId : Nat} :
    chainId ∈ phase.chains ↔ (∃ stamp ∈ phase.stamps, stamp.chain = chainId) ∨
    (∃ place ∈ phase.places, place.2 = chainId) ∨ ∃ key, phase.key? = some key ∧ chainId ∈ key.chains := by
  simp [Phase.chains]

theorem next_chains (step : Next settings db outside phase effect) (issued : Issued db' outside)
    (bounded : Bounded db' outside phase pending) :
    ∀ chainId ∈ effect.phase.chains, chainId < (outsideOf outside effect).nextChain := by
  have grows := next_nextChain step
  have known : ∀ chainId ∈ phase.chains, chainId < (outsideOf outside effect).nextChain :=
    fun chainId member => Nat.lt_of_lt_of_le (bounded.chains chainId member) grows
  intro chainId member
  rcases mem_chains.mp member with ⟨stamp, held, rfl⟩ | ⟨place, held, rfl⟩ | ⟨key, named, inside⟩
  · cases next_stamps step stamp held with
    | inl old => exact known _ (mem_chains.mpr (.inl ⟨stamp, old, rfl⟩))
    | inr new =>
      obtain ⟨place, old, rfl⟩ := new
      exact known _ (mem_chains.mpr (.inr (.inl ⟨place, old, rfl⟩)))
  · rcases next_places step place held with old | ⟨new, counted⟩ | ⟨token, rfl, _, rfl⟩
    · exact known _ (mem_chains.mpr (.inr (.inl ⟨place, old, rfl⟩)))
    · omega
    · exact known _ (mem_chains.mpr (.inl ⟨token.stamp, List.mem_cons_self, rfl⟩))
  · rcases next_key step named with old | ⟨email, rfl⟩ | ⟨email, other, rfl, listed | shown⟩
    · exact known _ (mem_chains.mpr (.inr (.inr ⟨key, old, inside⟩)))
    · cases inside
    · rw [List.mem_singleton.mp inside]
      exact Nat.lt_of_lt_of_le (issued.recorded _ listed) grows
    · rw [List.mem_singleton.mp inside]
      obtain ⟨stamp, held, same⟩ := List.mem_map.mp shown
      exact known _ (mem_chains.mpr (.inl ⟨stamp, held, same⟩))

theorem next_waiting (step : Next settings db outside phase effect) {key : VersionKey} {after : Bumped}
    (waiting : phase = .commitBump key after) : effect.phase.stamps = [] := by
  subst waiting
  cases step with
  | bumped confirmed => exact afterBump_stamps confirmed after
  | unconfirmed confirmed trying => exact afterBump_stamps confirmed _
  | refused ends => rfl

theorem next_current (step : Next settings (replay db pending) outside phase effect)
    (bounded : Bounded db outside phase pending) :
    ∀ stamp ∈ effect.phase.stamps, stamp.Current db := by
  intro stamp member
  cases next_stamps step stamp member with
  | inl old => exact bounded.stamps stamp old
  | inr new =>
    obtain ⟨place, held, rfl⟩ := new
    have same : ∀ key, (replay db pending).version key = db.version key := by
      intro key
      apply replay_version_same db
      intro sent
      obtain ⟨after, waiting⟩ := bounded.sent key sent
      rw [next_waiting step waiting] at member
      cases member
    exact ⟨Nat.le_of_eq (same _), Nat.le_of_eq (same _)⟩

end Invariant

section Runs

variable {settings : Settings} {db db' : Store} {outside outside' : Outside} {phase phase' : Phase}
  {pending pending' : List Write}
  {label : Option Input}

theorem conflicts_symm (w v : Write) : conflicts w v = conflicts v w := by
  cases w <;> cases v <;> simp only [conflicts, eq_comm]
  rename_i jtis others
  rw [Bool.eq_iff_iff, List.any_eq_true, List.any_eq_true]
  constructor <;> (intro ⟨jti, held, inside⟩; exact ⟨jti, List.contains_iff_mem.mp inside,
    List.contains_iff_mem.mpr held⟩)

theorem failedPhase_finished (phase : Phase) : ∃ outcome, failedPhase phase = .finished outcome := by
  cases phase <;> exact ⟨_, rfl⟩

theorem moves_next (moves : (tokenSystem settings).Moves db outside phase pending label db' outside'
      phase' pending') :
    (∃ input effect, label = some input ∧ Next settings (replay db pending) outside phase effect ∧
      phase' = effect.phase ∧
      outside' = outsideOf outside effect ∧ db' = storeOf db pending effect ∧
        pending' = pendingOf pending effect) ∨
    label = none ∧ phase' = failedPhase phase ∧ outside' = outside ∧ db' = db ∧ pending' = [] := by
  cases moves with
  | read answer => exact .inl ⟨_, _, rfl, next_cases answer, rfl, rfl, rfl, rfl⟩
  | write answer admitted => exact .inl ⟨_, _, rfl, next_cases answer, rfl, rfl, rfl, rfl⟩
  | refused answer refused => exact absurd refused.symm Bool.false_ne_true
  | commit answer => exact .inl ⟨_, _, rfl, next_cases answer, rfl, rfl, rfl, rfl⟩
  | fail answer => exact .inl ⟨_, _, rfl, next_cases answer, rfl, rfl, rfl, rfl⟩
  | abort => exact .inr ⟨rfl, rfl, rfl, rfl, rfl⟩

theorem storeOf_version (db : Store) (pending : List Write) (effect : Effect Outside Phase Write)
    (key : VersionKey) :
    db.version key ≤ (storeOf db pending effect).version key := by
  cases effect with
  | commit phase outside => exact replay_version db pending key
  | _ => exact Nat.le_refl _

theorem moves_version
    (moves : (tokenSystem settings).Moves db outside phase pending label db' outside' phase' pending')
    (key : VersionKey) :
    db.version key ≤ db'.version key := by
  rcases moves_next moves with ⟨_, effect, rfl, _, _, _, rfl, _⟩ | ⟨_, _, _, rfl, _⟩
  · exact storeOf_version db pending effect key
  · exact Nat.le_refl _

theorem moves_nextChain
    (moves : (tokenSystem settings).Moves db outside phase pending label db' outside' phase' pending') :
    outside.nextChain ≤ outside'.nextChain := by
  rcases moves_next moves with ⟨_, effect, rfl, step, _, rfl, _, _⟩ | ⟨_, _, rfl, _, _⟩
  · exact next_nextChain step
  · exact Nat.le_refl _

theorem Bounded.mono (bounded : Bounded db outside phase pending)
    (versions : ∀ key, db.version key ≤ db'.version key) (chains : outside.nextChain ≤ outside'.nextChain) :
    Bounded db' outside' phase pending where
  stamps stamp held := (bounded.stamps stamp held).mono versions
  chains chainId held := Nat.lt_of_lt_of_le (bounded.chains chainId held) chains
  sent := bounded.sent

theorem Bounded.finished (db : Store) (outside : Outside) (outcome : Outcome) :
    Bounded db outside (.finished outcome) [] where
  stamps _ held := (List.not_mem_nil held).elim
  chains _ held := (List.not_mem_nil held).elim
  sent _ held := (List.not_mem_nil held).elim

theorem begin_stamps (outside : Outside) (request : Request) :
    (∀ stamp ∈ (begin outside request).stamps, ∃ token ∈ outside.issued, stamp = token.stamp) ∧
      (begin outside request).places = [] ∧ (begin outside request).key? = none := by
  have presented : ∀ purpose token, purpose.stamps = [] →
    (∀ stamp ∈ (present outside purpose token).stamps, ∃ token ∈ outside.issued,
      stamp = token.stamp) ∧ (present outside purpose token).places = [] ∧
          (present outside purpose token).key? = none := by
    intro purpose token alone
    rw [present]
    split
    · rename_i issued
      refine ⟨?_, rfl, rfl⟩
      intro stamp held
      rw [Phase.stamps, alone] at held
      exact ⟨token, by simpa using issued, List.mem_singleton.mp held⟩
    · exact ⟨fun stamp held => (List.not_mem_nil held).elim, rfl, rfl⟩
  have nothing : ∀ phase : Phase, phase.stamps = [] → ∀ stamp ∈ phase.stamps, ∃ token ∈ outside.issued,
      stamp = token.stamp := by
    intro phase missing stamp held
    rw [missing] at held
    exact (List.not_mem_nil held).elim
  cases request with
  | authenticate token => exact presented .authenticate token rfl
  | updateProfile token => exact presented .updateProfile token rfl
  | refresh token clientIp =>
    rw [begin]
    split
    · exact presented (.refresh clientIp) token rfl
    · exact ⟨nothing _ rfl, rfl, rfl⟩
  | _ => exact ⟨nothing _ rfl, rfl, rfl⟩

theorem start_issued (outside : Outside) (request : Request) :
    (start outside request).issued = outside.issued ∧ (start outside request).recorded = outside.recorded ∧
    (start outside request).nextChain = outside.nextChain := by
  cases request <;> exact ⟨rfl, rfl, rfl⟩

theorem bounded_stable (settings : Settings) :
    Stable (tokenSystem settings) Guard.free Assertion.trivial boundedAssertion where
  start {db outside request phase outside'} _ issued started := by
    cases started
    obtain ⟨tokens, recorded, chains⟩ := start_issued outside request
    obtain ⟨stamps, places, key⟩ := begin_stamps outside request
    refine ⟨⟨?_, ?_⟩, ⟨?_, ?_, fun _ held => (List.not_mem_nil held).elim⟩⟩
    · rw [tokens, chains]
      exact issued.stamps
    · rw [recorded, chains]
      exact issued.recorded
    · intro stamp held
      obtain ⟨token, member, rfl⟩ := stamps stamp held
      exact (issued.stamps token member).1
    · intro chainId held
      rw [chains]
      rcases mem_chains.mp held with ⟨stamp, inside, rfl⟩ | ⟨place, inside, _⟩ | ⟨_, named, _⟩
      · obtain ⟨token, member, rfl⟩ := stamps stamp inside
        exact (issued.stamps token member).2
      · rw [places] at inside
        cases inside
      · rw [key] at named
        cases named
  startOther {db outside request phase outside' other otherPending} _ issued bounded started := by
    cases started
    obtain ⟨tokens, recorded, chains⟩ := start_issued outside request
    exact ⟨bounded.mono (fun key => Nat.le_refl _) (Nat.le_of_eq chains.symm), True.intro, True.intro⟩
  own {db outside phase pending label db' outside' phase' pending'} _ _ issued bounded _ moves := by
    have versions := moves_version moves
    rcases moves_next moves with ⟨_, effect, rfl, step, rfl, rfl, rfl, rfl⟩ | ⟨_, rfl, rfl, rfl, rfl⟩
    · refine ⟨⟨?_, ?_⟩, ⟨?_, next_chains step issued bounded, ?_⟩⟩
      · intro token member
        cases next_issued step token member with
        | inl old =>
            exact ⟨(issued.stamps token old).1.mono versions, Nat.lt_of_lt_of_le (issued.stamps token old).2
              (next_nextChain step)⟩
        | inr held =>
          refine ⟨(bounded.stamps _ held).mono versions, Nat.lt_of_lt_of_le (bounded.chains token.chain ?_)
            (next_nextChain step)⟩
          exact mem_chains.mpr (.inl ⟨_, held, rfl⟩)
      · intro place member
        cases next_recorded step place member with
        | inl old => exact Nat.lt_of_lt_of_le (issued.recorded place old) (next_nextChain step)
        | inr held =>
          obtain ⟨stamp, inside, same⟩ := List.mem_map.mp held
          exact Nat.lt_of_lt_of_le (bounded.chains place.2 (mem_chains.mpr (.inl ⟨stamp, inside, same⟩)))
            (next_nextChain step)
      · intro stamp member
        exact (next_current step bounded stamp member).mono versions
      · intro key held
        exact next_bump step held (bounded.sent key)
    · obtain ⟨outcome, same⟩ := failedPhase_finished phase
      rw [same]
      exact ⟨issued, Bounded.finished _ _ outcome⟩
  other _ _ _ _ _ _ _ bounded _ _ _ _ moves :=
    ⟨bounded.mono (moves_version moves) (moves_nextChain moves), True.intro, True.intro⟩

end Runs

def Reachable (settings : Settings) : State Store Outside Phase Write → Prop :=
  Runs (tokenSystem settings) Guard.free initialState

section Revoked

variable {settings : Settings} {s s' t t' : State Store Outside Phase Write}

theorem reachable_bounded (reachable : Reachable settings s) :
    (tokenSystem settings).Separate s ∧ boundedAssertion.Holds s := by
  apply holds_idle_runs conflicts_symm (bounded_stable settings) (fun t _ => Assertion.trivial_holds t)
    rfl _ reachable
  exact ⟨fun _ held => (List.not_mem_nil held).elim, fun _ held => (List.not_mem_nil held).elim⟩

theorem holds_after {a : Assertion Store Outside Phase Write}
    (stable : Stable (tokenSystem settings) Guard.free Assertion.trivial a) {action : Action Input Request}
    (reachable : Reachable settings s) (step : (tokenSystem settings).step s action = some s')
    (holds : a.Holds s') (run : Runs (tokenSystem settings) Guard.free s' t) : a.Holds t := by
  have separate := separate_step conflicts_symm (reachable_bounded reachable).1 step
  exact (holds_runs conflicts_symm stable (fun t _ => Assertion.trivial_holds t) separate holds run).2

theorem step_raised (bounded : boundedAssertion.Holds s) {action : Action Input Request}
    (step : (tokenSystem settings).step s action = some s') {key : VersionKey}
    (raised : s.db.version key < s'.db.version key) :
    ∃ (i : Nat) (session : Session Phase Write) (phase : Phase), s.sessions[i]? = some session ∧
      session.phase.key? = some key ∧
      phase.stamps = [] ∧ s'.sessions = s.sessions.set i ⟨phase, []⟩ ∧ s'.outside = s.outside := by
  rcases step_moves step with ⟨_, _, outside, _, _, rfl⟩ | ⟨i, session, label, landed, pending, found,
    _, moves, _, same⟩
  · exact absurd raised (Nat.lt_irrefl _)
  have own := bounded.own i session found
  rcases moves_next moves with ⟨_, effect, rfl, next, rfl, kept, store, rfl⟩ | ⟨_, _, _, store, _⟩
  · have committed : ∃ phase outside, effect = .commit phase outside := by
      cases effect with
      | commit phase outside => exact ⟨_, _, rfl⟩
      | _ =>
        rw [store] at raised
        exact absurd raised (Nat.lt_irrefl _)
    obtain ⟨phase, outside, rfl⟩ := committed
    have sent : .bumpVersion key ∈ session.pending := by
      apply Classical.byContradiction
      intro unsent
      have same : s'.db.version key = s.db.version key := by
        rw [store]
        exact replay_version_same s.db unsent
      omega
    obtain ⟨after, waiting⟩ := own.sent key sent
    refine ⟨i, session, phase, found, by rw [waiting, Phase.key?], next_waiting next waiting, same, ?_⟩
    rw [waiting] at next
    cases next with
    | bumped confirmed => exact kept
  · rw [store] at raised
    exact absurd raised (Nat.lt_irrefl _)

theorem step_trusted {j : Nat} {input : Input} (step : (tokenSystem settings).step t (.run j input) = some t')
    {session : Session Phase Write} (found : t'.sessions[j]? = some session) {token : Token}
    (trusted : session.phase.trusted? = some token) :
    ∃ earlier purpose, t.sessions[j]? = some earlier ∧ earlier.phase = .chainVersion purpose token ∧
      token.chainVer = (replay t.db earlier.pending).version (.chain token.email token.chain) := by
  rcases step_moves step with ⟨_, _, _, same, _⟩ | ⟨i, earlier, label, phase, pending, before,
    acts, moves, _, same⟩
  · cases same
  have taken : i = j ∧ label = some input := by
    rcases acts with ⟨other, _⟩ | ⟨given, other, rfl⟩
    · cases other
    · cases other
      exact ⟨rfl, rfl⟩
  obtain ⟨rfl, rfl⟩ := taken
  rw [same] at found
  have landed : session = ⟨phase, pending⟩ := by
    rcases set_session found with ⟨_, landed⟩ | ⟨apart, _⟩
    · exact landed
    · exact absurd rfl apart
  rw [landed] at trusted
  rcases moves_next moves with ⟨_, effect, _, next, rfl, _, _, _⟩ | ⟨gone, _⟩
  · obtain ⟨purpose, checking, current⟩ := next_trusted next trusted
    exact ⟨earlier, purpose, before, checking, current⟩
  · cases gone

end Revoked

def Stamp.Before (email : Str) (chainId n : Nat) (stamp : Stamp) : Prop :=
  stamp.email = email → stamp.chain = chainId → stamp.chainVer < n

def endedAssertion (email : Str) (chainId n : Nat) : Assertion Store Outside Phase Write where
  common db outside := n ≤ db.version (.chain email chainId) ∧ chainId < outside.nextChain ∧
    ∀ token ∈ outside.issued, token.stamp.Before email chainId n
  own _ _ phase _ := (∀ stamp ∈ phase.stamps, stamp.Before email chainId n) ∧ (email, chainId) ∉ phase.places
  pair _ _ _ _ := True

theorem ended_stable (settings : Settings) (email : Str) (chainId n : Nat) :
    Stable (tokenSystem settings) Guard.free Assertion.trivial (endedAssertion email chainId n) where
  start {db outside request phase outside'} _ ended started := by
    cases started
    obtain ⟨tokens, _, chains⟩ := start_issued outside request
    obtain ⟨stamps, places, _⟩ := begin_stamps outside request
    refine ⟨⟨ended.1, ?_, ?_⟩, ?_, ?_⟩
    · rw [chains]
      exact ended.2.1
    · rw [tokens]
      exact ended.2.2
    · intro stamp held
      obtain ⟨token, member, rfl⟩ := stamps stamp held
      exact ended.2.2 token member
    · rw [places]
      exact List.not_mem_nil
  startOther _ _ own _ := ⟨own, True.intro, True.intro⟩
  own {db outside phase pending label db' outside' phase' pending'} _ _ ended own _ moves := by
    have version := Nat.le_trans ended.1 (moves_version moves _)
    have chains := Nat.lt_of_lt_of_le ended.2.1 (moves_nextChain moves)
    rcases moves_next moves with ⟨_, effect, rfl, step, rfl, rfl, rfl, rfl⟩ | ⟨_, rfl, rfl, rfl, rfl⟩
    · refine ⟨⟨version, chains, ?_⟩, ?_, ?_⟩
      · intro token member
        cases next_issued step token member with
        | inl old => exact ended.2.2 token old
        | inr held => exact own.1 _ held
      · intro stamp member
        cases next_stamps step stamp member with
        | inl old => exact own.1 stamp old
        | inr new =>
          obtain ⟨place, held, rfl⟩ := new
          intro sameEmail sameChain
          have same : place = (email, chainId) := Prod.ext sameEmail sameChain
          exact absurd (same ▸ held) own.2
      · intro member
        rcases next_places step _ member with old | ⟨new, _⟩ | ⟨token, rfl, current, same⟩
        · exact own.2 old
        · have bound := ended.2.1
          omega
        · -- a token of the chain that is current would carry version n
          cases same
          have before := own.1 token.stamp List.mem_cons_self rfl rfl
          have grown := Nat.le_trans ended.1 (replay_version db pending (.chain token.email token.chain))
          have carried : token.stamp.chainVer = token.chainVer := rfl
          omega
    · obtain ⟨outcome, same⟩ := failedPhase_finished phase
      rw [same]
      exact ⟨ended, fun stamp held => (List.not_mem_nil held).elim, List.not_mem_nil⟩
  other _ _ _ _ _ _ _ own _ _ _ _ _ := ⟨own, True.intro, True.intro⟩

/-- Once a chain is ended no check lets one of its tokens through, whatever was being rotated or issued
    meanwhile, unless a password change of the same session was about to issue new ones. -/
theorem chain_ends {settings : Settings} {s s' t t' : State Store Outside Phase Write} {email : Str}
    {chainId : Nat} {action : Action Input Request} (reachable : Reachable settings s)
    (ends : (tokenSystem settings).step s action = some s')
    (raised : s.db.version (.chain email chainId) < s'.db.version (.chain email chainId))
    (quiet : ∀ session ∈ s'.sessions, (email, chainId) ∉ session.phase.places)
    (run : Runs (tokenSystem settings) Guard.free s' t) {j : Nat} {input : Input}
    (step : (tokenSystem settings).step t (.run j input) = some t') {session : Session Phase Write}
    (found : t'.sessions[j]? = some session) {token : Token} (trusted : session.phase.trusted? = some token) :
    ¬ (token.email = email ∧ token.chain = chainId) := by
  have bounded := (reachable_bounded reachable).2
  obtain ⟨i, bumping, phase, before, named, nothing, sessions, outside⟩ := step_raised bounded ends raised
  have older : ∀ stamp : Stamp, stamp.Current s.db →
      stamp.Before email chainId (s'.db.version (.chain email chainId)) := by
    intro stamp current sameEmail sameChain
    subst sameEmail sameChain
    exact Nat.lt_of_le_of_lt current.2 raised
  have started : (endedAssertion email chainId (s'.db.version (.chain email chainId))).Holds s' := by
    refine ⟨⟨Nat.le_refl _, ?_, ?_⟩, ?_, fun _ _ _ _ _ _ _ => True.intro⟩
    · rw [outside]
      exact (bounded.own i bumping before).chains chainId
        (mem_chains.mpr (.inr (.inr ⟨_, named, List.mem_singleton.mpr rfl⟩)))
    · rw [outside]
      intro issued member
      exact older _ (bounded.common.stamps issued member).1
    · intro k held here
      refine ⟨?_, quiet held (List.mem_of_getElem? here)⟩
      rw [sessions] at here
      rcases set_session here with ⟨_, rfl⟩ | ⟨_, old⟩
      · rw [nothing]
        exact fun stamp inside => (List.not_mem_nil inside).elim
      · exact fun stamp inside => older stamp ((bounded.own k held old).stamps stamp inside)
  have ended := holds_after (ended_stable settings email chainId _) reachable ends started run
  obtain ⟨earlier, purpose, held, checking, current⟩ := step_trusted step found trusted
  intro same
  obtain ⟨rfl, rfl⟩ := same
  have before := (ended.own j earlier held).1 token.stamp (by rw [checking]; exact List.mem_cons_self) rfl rfl
  have grown := Nat.le_trans ended.common.1
    (replay_version t.db earlier.pending (.chain token.email token.chain))
  have carried : token.stamp.chainVer = token.chainVer := rfl
  omega

def usualSettings : Settings := ⟨15, 10080, 10⟩

def running (i n : Nat) : List (Action Input Request) := List.replicate n (.run i .answer)

theorem chain_ends_rotating : ∃ s s' t t' session token, Reachable usualSettings s ∧
    (tokenSystem usualSettings).step s (.run 2 .answer) = some s' ∧ Runs
    (tokenSystem usualSettings) Guard.free s' t ∧ (tokenSystem usualSettings).step t
    (.run 4 .answer) = some t' ∧ t'.sessions[4]? = some session ∧ session.phase.trusted? = some token ∧
    ¬ (token.email = "a".toList ∧ token.chain = 0) := by
  let refresh : Token := ⟨⟨.refresh, 1, "a".toList, 0, 604800⟩, 0, 0⟩
  let access : Token := ⟨⟨.access, 2, "a".toList, 1, 900⟩, 0, 0⟩
  let before := .start (.login "a".toList) :: running 0 5 ++ [.start (.refresh refresh none)] ++
    running 1 3 ++
    [.start (.logout "a".toList 0)] ++ running 2 2
  let after := running 1 3 ++ [.start (.login "a".toList)] ++ running 3 5 ++
    [.start (.authenticate access)] ++ running 4 2
  have ran : (((tokenSystem usualSettings).perform Guard.free initialState before).bind fun s =>
      ((tokenSystem usualSettings).step s (.run 2 .answer)).bind fun s' =>
          ((tokenSystem usualSettings).perform Guard.free s' after).bind fun t =>
      ((tokenSystem usualSettings).step t (.run 4 .answer)).bind fun t' => t'.sessions[4]?.bind fun session =>
          session.phase.trusted?.map fun _ =>
      decide (s.db.version (.chain "a".toList 0) < s'.db.version (.chain "a".toList 0) ∧
        ∀ session ∈ s'.sessions, ("a".toList, 0) ∉ session.phase.places)) = some true := by decide +kernel
  obtain ⟨s, performed, ran⟩ := Option.bind_eq_some_iff.mp ran
  obtain ⟨s', ends, ran⟩ := Option.bind_eq_some_iff.mp ran
  obtain ⟨t, further, ran⟩ := Option.bind_eq_some_iff.mp ran
  obtain ⟨t', step, ran⟩ := Option.bind_eq_some_iff.mp ran
  obtain ⟨session, found, ran⟩ := Option.bind_eq_some_iff.mp ran
  obtain ⟨token, trusted, checked⟩ := Option.map_eq_some_iff.mp ran
  obtain ⟨raised, quiet⟩ := of_decide_eq_true checked
  have reachable : Reachable usualSettings s := runs_perform performed
  have run := runs_perform further
  exact ⟨s, s', t, t', session, token, reachable, ends, run, step, found, trusted,
    chain_ends reachable ends raised quiet run step found trusted⟩

def renewedAssertion (email : Str) (n : Nat) : Assertion Store Outside Phase Write where
  common db _ := n ≤ db.version (.account email)
  own _ _ phase _ := ∀ token ∈ phase.compared?, token.email = email → n ≤ token.accountVer
  pair _ _ _ _ := True

theorem next_compared {settings : Settings} {db : Store} {outside : Outside} {phase : Phase}
    {effect : Effect Outside Phase Write} (step : Next settings db outside phase effect) {token : Token}
    (compared : token ∈ effect.phase.compared?) :
    token.accountVer = db.version (.account token.email) := by
  cases step with
  | accountCurrent current =>
    cases compared
    exact current
  | chainCurrent current =>
    rename_i purpose' token'
    cases purpose' <;> simp only [Effect.phase, afterCheck] at compared
    · split at compared <;> cases compared
    · split at compared <;> cases compared
    · cases compared
    · cases compared
  | bumped confirmed =>
    rename_i after
    cases after <;> cases compared
  | unconfirmed confirmed trying =>
    rename_i after
    cases after <;> cases compared
  | purged more => cases more <;> cases compared
  | _ => cases compared

theorem begin_compared (outside : Outside) (request : Request) :
    (begin outside request).compared? = none := by
  have presented : ∀ purpose token, (present outside purpose token).compared? = none := by
    intro purpose token
    rw [present]
    split <;> rfl
  cases request with
  | authenticate token => exact presented _ _
  | updateProfile token => exact presented _ _
  | refresh token clientIp =>
    rw [begin]
    split
    · exact presented _ _
    · rfl
  | _ => rfl

theorem renewed_stable (settings : Settings) (email : Str) (n : Nat) :
    Stable (tokenSystem settings) Guard.free Assertion.trivial (renewedAssertion email n) where
  start {db outside request phase outside'} _ renewed started := by
    cases started
    refine ⟨renewed, ?_⟩
    intro token compared
    rw [begin_compared outside request] at compared
    cases compared
  startOther _ _ own _ := ⟨own, True.intro, True.intro⟩
  own {db outside phase pending label db' outside' phase' pending'} _ _ renewed own _ moves := by
    refine ⟨Nat.le_trans renewed (moves_version moves _), ?_⟩
    rcases moves_next moves with ⟨_, effect, rfl, step, rfl, rfl, rfl, rfl⟩ | ⟨_, rfl, rfl, rfl, rfl⟩
    · intro token compared sameEmail
      subst sameEmail
      rw [next_compared step compared]
      exact Nat.le_trans renewed (replay_version db pending _)
    · intro token compared
      obtain ⟨outcome, same⟩ := failedPhase_finished phase
      rw [same] at compared
      cases compared
  other _ _ _ _ _ _ _ own _ _ _ _ _ := ⟨own, True.intro, True.intro⟩

/-- Once all tokens of an account are revoked, none of those issued until then passes a check again, and none
    that was made of the versions before; only a check between its two comparisons may still let one
    through. -/
theorem account_revoked {settings : Settings} {s s' t t' : State Store Outside Phase Write} {email : Str}
    {action : Action Input Request} (reachable : Reachable settings s)
    (revokes : (tokenSystem settings).step s action = some s')
    (raised : s.db.version (.account email) < s'.db.version (.account email))
    (quiet : ∀ session ∈ s'.sessions, ∀ token ∈ session.phase.compared?, token.email ≠ email)
    (run : Runs (tokenSystem settings) Guard.free s' t) {j : Nat} {input : Input}
    (step : (tokenSystem settings).step t (.run j input) = some t') {session : Session Phase Write}
    (found : t'.sessions[j]? = some session) {token : Token} (trusted : session.phase.trusted? = some token)
    (owner : token.email = email) :
    s'.db.version (.account email) ≤ token.accountVer ∧ token ∉ s'.outside.issued := by
  have bounded := (reachable_bounded reachable).2
  obtain ⟨_, _, _, _, _, _, _, outside⟩ := step_raised bounded revokes raised
  have started : (renewedAssertion email (s'.db.version (.account email))).Holds s' := by
    refine ⟨Nat.le_refl _, ?_, fun _ _ _ _ _ _ _ => True.intro⟩
    intro i held here token compared sameEmail
    exact absurd sameEmail (quiet held (List.mem_of_getElem? here) token compared)
  have renewed := holds_after (renewed_stable settings email _) reachable revokes started run
  obtain ⟨earlier, purpose, held, checking, _⟩ := step_trusted step found trusted
  have current := renewed.own j earlier held token (by rw [checking]; rfl) owner
  refine ⟨current, ?_⟩
  intro issued
  rw [outside] at issued
  have older := (bounded.common.stamps token issued).1.1
  have carried : token.stamp.accountVer = token.accountVer := rfl
  have owned : token.stamp.email = email := owner
  rw [owned] at older
  omega

/-- A chain is being rotated while the account logs out everywhere, and logs in again. -/
theorem account_revoked_rotating : ∃ s s' t t' session token, Reachable usualSettings s ∧
    (tokenSystem usualSettings).step s (.run 2 .answer) = some s' ∧ Runs
    (tokenSystem usualSettings) Guard.free s' t ∧ (tokenSystem usualSettings).step t
    (.run 4 .answer) = some t' ∧ t'.sessions[4]? = some session ∧ session.phase.trusted? = some token ∧
    s'.db.version (.account "a".toList) ≤ token.accountVer ∧ token ∉ s'.outside.issued := by
  let refresh : Token := ⟨⟨.refresh, 1, "a".toList, 0, 604800⟩, 0, 0⟩
  let access : Token := ⟨⟨.access, 2, "a".toList, 1, 900⟩, 1, 0⟩
  let before := .start (.login "a".toList) :: running 0 5 ++ [.start (.refresh refresh none)] ++
    running 1 3 ++
    [.start (.revokeAllTokens "a".toList)] ++ running 2 2
  let after := running 1 3 ++ [.start (.login "a".toList)] ++ running 3 5 ++
    [.start (.authenticate access)] ++ running 4 2
  have ran : (((tokenSystem usualSettings).perform Guard.free initialState before).bind fun s =>
      ((tokenSystem usualSettings).step s (.run 2 .answer)).bind fun s' =>
          ((tokenSystem usualSettings).perform Guard.free s' after).bind fun t =>
      ((tokenSystem usualSettings).step t (.run 4 .answer)).bind fun t' => t'.sessions[4]?.bind fun session =>
          session.phase.trusted?.map fun token =>
      decide (s.db.version (.account "a".toList) < s'.db.version (.account "a".toList) ∧
        token.email = "a".toList ∧
        ∀ session ∈ s'.sessions, ∀ token ∈ session.phase.compared?, token.email ≠ "a".toList)) = some true :=
          by decide +kernel
  obtain ⟨s, performed, ran⟩ := Option.bind_eq_some_iff.mp ran
  obtain ⟨s', revokes, ran⟩ := Option.bind_eq_some_iff.mp ran
  obtain ⟨t, further, ran⟩ := Option.bind_eq_some_iff.mp ran
  obtain ⟨t', step, ran⟩ := Option.bind_eq_some_iff.mp ran
  obtain ⟨session, found, ran⟩ := Option.bind_eq_some_iff.mp ran
  obtain ⟨token, trusted, checked⟩ := Option.map_eq_some_iff.mp ran
  obtain ⟨raised, owner, quiet⟩ := of_decide_eq_true checked
  have reachable : Reachable usualSettings s := runs_perform performed
  have run := runs_perform further
  exact ⟨s, s', t, t', session, token, reachable, revokes, run, step, found, trusted,
    account_revoked reachable revokes raised quiet run step found trusted owner⟩

end ManifestCV.Auth
