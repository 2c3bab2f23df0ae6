import ManifestCV.Auth.Revocation

namespace ManifestCV.Auth

open Foundation Foundation.Transactions

def Purpose.parent? (token : Token) : Purpose → Option Token
  | .refresh _ => some token
  | .successor parent _ => some parent
  | _ => none

def Origin.parent? : Origin → Option Token
  | .rotation parent => some parent
  | _ => none

def Phase.parent? : Phase → Option Token
  | .decode purpose token | .accountVersion purpose token | .chainVersion purpose token =>
      purpose.parent? token
  | .beginClaim token _ | .insertClaim token _ _ | .commitClaim token _ | .readClaim token
      _ | .commitUnclaimed token _
  | .createSuccessors token _ | .duplicate token _ => some token
  | .readRefreshVersions origin _ _ | .recordSession origin _ _ | .respond origin _ _ | .finished
      (.issued origin _ _) => origin.parent?
  | _ => none

def Purpose.redeemed? : Purpose → Option Token
  | .successor parent _ => some parent
  | _ => none

def Phase.redeemed? : Phase → Option Token
  | .createSuccessors token _ => some token
  | .decode purpose _ | .accountVersion purpose _ | .chainVersion purpose _ => purpose.redeemed?
  | .readRefreshVersions origin _ _ | .recordSession origin _ _ | .respond origin _ _ | .finished
      (.issued origin _ _) => origin.parent?
  | _ => none

def Purpose.access? : Purpose → Option Token
  | .successor _ access => some access
  | _ => none

def Phase.access? : Phase → Option Draft
  | .readVersions access _ | .readAccessVersions access _ | .readFirstVersions access => some access
  | .readRefreshVersions _ access _ | .createRefresh access | .recordSession _ access _ | .respond _ access
      _ => some access.toDraft
  | .decode purpose _ | .accountVersion purpose _ | .chainVersion purpose _ => purpose.access?.map (·.toDraft)
  | _ => none

def Phase.refresh? : Phase → Option Draft
  | .readVersions _ refresh | .readRefreshVersions _ _ refresh => some refresh
  | .readAccessVersions _ refresh | .recordSession _ _ refresh | .respond _ _ refresh => some refresh.toDraft
  | .decode purpose token | .accountVersion purpose token | .chainVersion purpose token =>
      purpose.access?.map fun _ => token.toDraft
  | _ => none

def Phase.made (phase : Phase) : List Draft := phase.access?.toList ++ phase.refresh?.toList

def Phase.Sent : Phase → List Write → Prop
  | .commitClaim _ row, pending => pending = [.insertClaim row]
  | .commitBump key _, pending => pending = [.bumpVersion key]
  | .commitPurge _, pending => ∃ jtis, pending = [.deleteClaims jtis]
  | _, pending => pending = []

section Steps

variable {settings : Settings} {db : Store} {outside : Outside} {phase : Phase}
  {effect : Effect Outside Phase Write} {pending : List Write}

theorem afterBump_parent (confirmed : Bool) (after : Bumped) :
    (afterBump confirmed after).parent? = none := by
  cases after <;> rfl

theorem afterBump_redeemed (confirmed : Bool) (after : Bumped) :
    (afterBump confirmed after).redeemed? = none := by
  cases after <;> rfl

theorem afterBump_made (confirmed : Bool) (after : Bumped) : (afterBump confirmed after).made = [] := by
  cases after <;> rfl

theorem afterBump_sent (confirmed : Bool) (after : Bumped) : (afterBump confirmed after).Sent [] := by
  cases after <;> rfl

theorem afterCheck_cases (token : Token) (purpose : Purpose) :
    (∃ outcome, afterCheck token purpose = .finished outcome) ∨
    afterCheck token purpose = .updatePassword token ∨
      (∃ clientIp, afterCheck token purpose = .beginClaim token clientIp) ∨
    ∃ origin access, afterCheck token purpose = .recordSession origin access token := by
  cases purpose with
  | authenticate =>
    left
    rw [afterCheck]
    split <;> exact ⟨_, rfl⟩
  | updateProfile =>
    rw [afterCheck]
    split
    · exact .inr (.inl rfl)
    · exact .inl ⟨_, rfl⟩
  | refresh clientIp => exact .inr (.inr (.inl ⟨_, rfl⟩))
  | successor parent access => exact .inr (.inr (.inr ⟨_, _, rfl⟩))

theorem afterBump_cases (confirmed : Bool) (after : Bumped) :
    (∃ outcome, afterBump confirmed after = .finished outcome) ∨
    ∃ email chainId, afterBump confirmed after = .createAccess email chainId := by
  cases after with
  | reissue email chainId => exact .inr ⟨_, _, rfl⟩
  | _ => exact .inl ⟨_, rfl⟩

theorem afterCheck_parent (token : Token) (purpose : Purpose) {parent : Token}
    (held : (afterCheck token purpose).parent? = some parent) :
    purpose.parent? token = some parent := by
  cases purpose with
  | authenticate =>
    rw [afterCheck] at held
    split at held <;> cases held
  | updateProfile =>
    rw [afterCheck] at held
    split at held <;> cases held
  | _ => exact held

theorem next_parent (step : Next settings db outside phase effect) {token : Token}
    (held : effect.phase.parent? = some token) :
    phase.parent? = some token := by
  cases step with
  | chainCurrent current => exact afterCheck_parent _ _ held
  | bumped confirmed =>
    rw [Effect.phase, afterBump_parent] at held
    cases held
  | unconfirmed confirmed trying =>
    rw [Effect.phase, afterBump_parent] at held
    cases held
  | purged more => cases more <;> cases held
  | refused ends =>
    cases ends with
    | inl same =>
      subst same
      cases held
    | inr same =>
      subst same
      cases held
  | claimLost => cases held
  | replayed suspicious => cases held
  | _ => exact held

theorem next_redeemed (step : Next settings db outside phase effect) {token : Token}
    (held : effect.phase.redeemed? = some token) :
    phase.redeemed? = some token ∨ ∃ row, phase = .commitClaim token row ∧ ∃ outside',
      effect = .commit (.createSuccessors token row) outside' := by
  cases step with
  | claimCommitted =>
    cases held
    exact .inr ⟨_, rfl, _, rfl⟩
  | chainCurrent current =>
    rename_i purpose other
    left
    cases purpose with
    | authenticate =>
      simp only [Effect.phase, afterCheck] at held
      split at held <;> cases held
    | updateProfile =>
      simp only [Effect.phase, afterCheck] at held
      split at held <;> cases held
    | refresh clientIp => cases held
    | successor parent access => exact held
  | bumped confirmed =>
    rw [Effect.phase, afterBump_redeemed] at held
    cases held
  | unconfirmed confirmed trying =>
    rw [Effect.phase, afterBump_redeemed] at held
    cases held
  | purged more => cases more <;> cases held
  | refused ends =>
    cases ends with
    | inl same =>
      subst same
      cases held
    | inr same =>
      subst same
      cases held
  | _ => exact .inl held

theorem afterCheck_made (token : Token) (purpose : Purpose) :
    (afterCheck token purpose).made = (Phase.chainVersion purpose token).made := by
  cases purpose with
  | authenticate =>
    rw [afterCheck]
    split <;> rfl
  | updateProfile =>
    rw [afterCheck]
    split <;> rfl
  | _ => rfl

theorem next_made (step : Next settings db outside phase effect) : ∀ draft ∈ effect.phase.made,
    draft ∈ phase.made ∨ outside.nextJti ≤ draft.jti ∧ draft.jti < (outsideOf outside effect).nextJti := by
  intro draft member
  cases step with
  | drafted first second =>
    subst first second
    right
    cases List.mem_cons.mp member with
    | inl same =>
      subst same
      exact ⟨Nat.le_refl _, Nat.lt_add_of_pos_right (by decide)⟩
    | inr rest =>
      cases List.mem_singleton.mp rest
      exact ⟨Nat.le_succ _, Nat.lt_succ_self _⟩
  | accessDrafted =>
    cases List.mem_singleton.mp member
    exact .inr ⟨Nat.le_refl _, Nat.lt_succ_self _⟩
  | refreshDrafted =>
    cases List.mem_cons.mp member with
    | inl same => exact .inl (List.mem_singleton.mpr same)
    | inr rest =>
      cases List.mem_singleton.mp rest
      exact .inr ⟨Nat.le_refl _, Nat.lt_succ_self _⟩
  | succeeded first second =>
    subst first second
    right
    cases List.mem_cons.mp member with
    | inl same =>
      subst same
      exact ⟨Nat.le_refl _, Nat.lt_add_of_pos_right (by decide)⟩
    | inr rest =>
      cases List.mem_singleton.mp rest
      exact ⟨Nat.le_succ _, Nat.lt_succ_self _⟩
  | chainCurrent current =>
    rw [Effect.phase, afterCheck_made] at member
    exact .inl member
  | bumped confirmed =>
    rw [Effect.phase, afterBump_made] at member
    cases member
  | unconfirmed confirmed trying =>
    rw [Effect.phase, afterBump_made] at member
    cases member
  | purged more => cases more <;> cases member
  | _ => first | exact .inl member | cases member

def Phase.Apart (phase : Phase) : Prop := ∀ access ∈ phase.access?, ∀ refresh ∈ phase.refresh?,
    access.jti ≠ refresh.jti

theorem next_apart (step : Next settings db outside phase effect) (apart : phase.Apart)
    (counted : ∀ draft ∈ phase.made, draft.jti < outside.nextJti) : effect.phase.Apart := by
  intro access hAccess refresh hRefresh
  cases step with
  | drafted first second =>
    subst first second
    cases hAccess
    cases hRefresh
    exact Nat.ne_of_lt (Nat.lt_succ_self _)
  | accessDrafted => cases hRefresh
  | refreshDrafted =>
    cases hRefresh
    exact Nat.ne_of_lt (counted access (List.mem_append_left _ (Option.mem_toList.mpr hAccess)))
  | succeeded first second =>
    subst first second
    cases hAccess
    cases hRefresh
    exact Nat.ne_of_lt (Nat.lt_succ_self _)
  | chainCurrent current =>
    rename_i purpose token
    cases purpose with
    | authenticate =>
      simp only [Effect.phase, afterCheck] at hAccess
      split at hAccess <;> cases hAccess
    | updateProfile =>
      simp only [Effect.phase, afterCheck] at hAccess
      split at hAccess <;> cases hAccess
    | refresh clientIp => cases hAccess
    | successor parent other => exact apart access hAccess refresh hRefresh
  | bumped confirmed =>
    rename_i after
    cases after <;> cases hAccess
  | unconfirmed confirmed trying =>
    rename_i after
    cases after <;> cases hAccess
  | purged more => cases more <;> cases hAccess
  | _ => first | exact apart access hAccess refresh hRefresh | cases hAccess

theorem next_answered (step : Next settings db outside phase effect) :
    (outsideOf outside effect).issued = outside.issued ∨
    ∃ origin access refresh, phase = .respond origin access refresh ∧
      effect.phase = .finished (.issued origin access refresh) ∧
      (outsideOf outside effect).issued = access :: refresh :: outside.issued := by
  cases step with
  | responded => exact .inr ⟨_, _, _, rfl, rfl, rfl⟩
  | _ => exact .inl rfl

theorem next_now (step : Next settings db outside phase effect) :
    (outsideOf outside effect).now = outside.now := by
  cases step <;> rfl

theorem next_nextJti (step : Next settings db outside phase effect) :
    outside.nextJti ≤ (outsideOf outside effect).nextJti := by
  cases step <;> first | exact Nat.le_refl _ | exact Nat.le_add_right _ _

theorem afterCheck_sent (token : Token) (purpose : Purpose) : (afterCheck token purpose).Sent [] := by
  cases purpose with
  | authenticate =>
    rw [afterCheck]
    split <;> rfl
  | updateProfile =>
    rw [afterCheck]
    split <;> rfl
  | _ => rfl

theorem next_holds (step : Next settings db outside phase effect) (sent : phase.Sent pending) :
    effect.phase.Sent (pendingOf pending effect) := by
  cases step with
  | claimed absent =>
    cases sent
    rfl
  | bumping =>
    cases sent
    rfl
  | deleting full =>
    cases sent
    exact ⟨_, rfl⟩
  | chainCurrent current =>
    cases sent
    exact afterCheck_sent _ _
  | bumped confirmed => exact afterBump_sent confirmed _
  | unconfirmed confirmed trying => exact afterBump_sent confirmed _
  | revoking follows =>
    cases sent
    rfl
  | purged more => cases more <;> rfl
  | refused ends => rfl
  | _ => first | rfl | exact sent

theorem next_claim (step : Next settings db outside phase effect) {token : Token} {row : ConsumedRefreshToken}
    (claiming : effect.phase = .commitClaim token row) :
    ∃ clientIp now, phase = .insertClaim token clientIp now ∧
      row = claimOf token clientIp now ∧ db.consumed? token.jti = none ∧ ∃ w outside',
        effect = .write w (.commitClaim token row) outside' := by
  cases step with
  | claimed absent =>
    cases claiming
    exact ⟨_, _, rfl, rfl, absent, _, _, rfl⟩
  | chainCurrent current =>
    rename_i purpose other
    rcases afterCheck_cases other purpose with ⟨_, same⟩ | same | ⟨_, same⟩ | ⟨_, _, same⟩ <;>
      (rw [Effect.phase, same] at claiming; cases claiming)
  | bumped confirmed =>
    rename_i after
    rcases afterBump_cases confirmed after with ⟨_, same⟩ | ⟨_, _, same⟩ <;>
      (rw [Effect.phase, same] at claiming; cases claiming)
  | unconfirmed confirmed trying =>
    rename_i after
    rcases afterBump_cases confirmed after with ⟨_, same⟩ | ⟨_, _, same⟩ <;>
      (rw [Effect.phase, same] at claiming; cases claiming)
  | purged more => cases more <;> cases claiming
  | _ => cases claiming

theorem next_began (step : Next settings db outside phase effect) {now : Nat}
    (began : effect.phase = .deleteExpired now) :
    now = outside.now := by
  cases step with
  | purging =>
    cases began
    rfl
  | chainCurrent current =>
    rename_i purpose other
    rcases afterCheck_cases other purpose with ⟨_, same⟩ | same | ⟨_, same⟩ | ⟨_, _, same⟩ <;>
      (rw [Effect.phase, same] at began; cases began)
  | bumped confirmed =>
    rename_i after
    rcases afterBump_cases confirmed after with ⟨_, same⟩ | ⟨_, _, same⟩ <;>
      (rw [Effect.phase, same] at began; cases began)
  | unconfirmed confirmed trying =>
    rename_i after
    rcases afterBump_cases confirmed after with ⟨_, same⟩ | ⟨_, _, same⟩ <;>
      (rw [Effect.phase, same] at began; cases began)
  | purged more => cases more <;> cases began
  | _ => cases began

theorem sent_delete {phase : Phase} {pending : List Write} (sent : phase.Sent pending) {jtis : List Nat}
    (held : .deleteClaims jtis ∈ pending) :
    ∃ full, phase = .commitPurge full := by
  cases phase with
  | commitPurge full => exact ⟨full, rfl⟩
  | commitClaim token row =>
    cases sent
    cases List.mem_singleton.mp held
  | commitBump key after =>
    cases sent
    cases List.mem_singleton.mp held
  | _ =>
    cases sent
    cases held

theorem sent_insert {phase : Phase} {pending : List Write} (sent : phase.Sent pending)
    {row : ConsumedRefreshToken} (held : .insertClaim row ∈ pending) :
    ∃ token, phase = .commitClaim token row := by
  cases phase with
  | commitClaim token other =>
    cases sent
    cases List.mem_singleton.mp held
    exact ⟨token, rfl⟩
  | commitPurge full =>
    obtain ⟨jtis, rfl⟩ := sent
    cases List.mem_singleton.mp held
  | commitBump key after =>
    cases sent
    cases List.mem_singleton.mp held
  | _ =>
    cases sent
    cases held

theorem next_deleted (step : Next settings db outside phase effect) (sent : phase.Sent pending)
    {jtis : List Nat} (held : .deleteClaims jtis ∈ pendingOf pending effect) :
    ∃ now, phase = .deleteExpired now ∧ jtis = expiredClaims db now := by
  obtain ⟨full, purging⟩ := sent_delete (next_holds step sent) held
  cases step with
  | deleting full' =>
    cases sent
    cases List.mem_singleton.mp held
    exact ⟨_, rfl, rfl⟩
  | chainCurrent current =>
    rename_i purpose other
    rcases afterCheck_cases other purpose with ⟨_, same⟩ | same | ⟨_, same⟩ | ⟨_, _, same⟩ <;>
      (rw [Effect.phase, same] at purging; cases purging)
  | bumped confirmed =>
    rename_i after
    rcases afterBump_cases confirmed after with ⟨_, same⟩ | ⟨_, _, same⟩ <;>
      (rw [Effect.phase, same] at purging; cases purging)
  | unconfirmed confirmed trying =>
    rename_i after
    rcases afterBump_cases confirmed after with ⟨_, same⟩ | ⟨_, _, same⟩ <;>
      (rw [Effect.phase, same] at purging; cases purging)
  | purged more => cases more <;> cases purging
  | _ => cases purging

theorem redeemed_parent {phase : Phase} {token : Token} (redeemed : phase.redeemed? = some token) :
    phase.parent? = some token := by
  cases phase with
  | decode purpose other => cases purpose <;> first | exact redeemed | cases redeemed
  | accountVersion purpose other => cases purpose <;> first | exact redeemed | cases redeemed
  | chainVersion purpose other => cases purpose <;> first | exact redeemed | cases redeemed
  | createSuccessors parent row => exact redeemed
  | finished outcome => cases outcome <;> exact redeemed
  | _ => first | exact redeemed | cases redeemed

end Steps

section Claims

variable {db : Store} {pending : List Write}

theorem mem_expiredClaims {db : Store} {now jti : Nat} (member : jti ∈ expiredClaims db now) :
    ∃ row ∈ db.consumed, row.jti = jti ∧ row.expiresAt < now := by
  obtain ⟨row, taken, same⟩ := List.mem_map.mp member
  have kept := List.mem_filter.mp ((List.mergeSort_perm _ _).mem_iff.mp (List.mem_of_mem_take taken))
  exact ⟨row, kept.1, same, of_decide_eq_true kept.2⟩

theorem consumed_some {db : Store} {jti : Nat} : (db.consumed? jti).isSome = true ↔ ∃ row ∈ db.consumed,
    row.jti = jti := by
  simp [Store.consumed?]

theorem applyWrite_rows {db : Store} {w : Write} {row : ConsumedRefreshToken}
    (member : row ∈ (applyWrite db w).consumed) :
    row ∈ db.consumed ∨ w = .insertClaim row := by
  cases w with
  | insertClaim other =>
    simp only [applyWrite] at member
    split at member
    · exact .inl member
    · cases List.mem_append.mp member with
      | inl old => exact .inl old
      | inr new => exact .inr (by rw [List.mem_singleton.mp new])
  | deleteClaims jtis => exact .inl (List.mem_filter.mp member).1
  | bumpVersion key => exact .inl member

theorem replay_rows {row : ConsumedRefreshToken} (member : row ∈ (replay db pending).consumed) :
    row ∈ db.consumed ∨ .insertClaim row ∈ pending := by
  induction pending generalizing db with
  | nil => exact .inl member
  | cons w rest ih =>
    cases ih member with
    | inl first =>
      cases applyWrite_rows first with
      | inl old => exact .inl old
      | inr same => exact .inr (same ▸ List.mem_cons_self)
    | inr later => exact .inr (List.mem_cons_of_mem _ later)

theorem replay_absent {jti : Nat} (absent : db.consumed? jti = none)
    (apart : ∀ row, .insertClaim row ∈ pending → row.jti ≠ jti) :
    (replay db pending).consumed? jti = none := by
  apply Option.not_isSome_iff_eq_none.mp
  intro present
  obtain ⟨row, member, same⟩ := consumed_some.mp present
  cases replay_rows member with
  | inl old =>
    have given := consumed_some.mpr ⟨row, old, same⟩
    rw [absent] at given
    cases given
  | inr sent => exact apart row sent same

theorem applyWrite_kept {w : Write} {jti : Nat} (present : (db.consumed? jti).isSome = true) :
    ((applyWrite db w).consumed? jti).isSome = true ∨ ∃ jtis, w = .deleteClaims jtis ∧ jti ∈ jtis := by
  obtain ⟨row, member, same⟩ := consumed_some.mp present
  cases w with
  | insertClaim other =>
    left
    simp only [applyWrite]
    split
    · exact present
    · exact consumed_some.mpr ⟨row, List.mem_append_left _ member, same⟩
  | deleteClaims jtis =>
    by_cases listed : jti ∈ jtis
    · exact .inr ⟨jtis, rfl, listed⟩
    · left
      apply consumed_some.mpr
      refine ⟨row, List.mem_filter.mpr ⟨member, ?_⟩, same⟩
      simpa [same] using listed
  | bumpVersion key => exact .inl present

theorem replay_kept {jti : Nat} (present : (db.consumed? jti).isSome = true) :
    ((replay db pending).consumed? jti).isSome = true ∨ ∃ jtis, .deleteClaims jtis ∈ pending ∧
    jti ∈ jtis := by
  induction pending generalizing db with
  | nil => exact .inl present
  | cons w rest ih =>
    rcases applyWrite_kept (w := w) present with still | ⟨jtis, rfl, listed⟩
    · rcases ih still with later | ⟨jtis, sent, listed⟩
      · exact .inl later
      · exact .inr ⟨jtis, List.mem_cons_of_mem _ sent, listed⟩
    · exact .inr ⟨jtis, List.mem_cons_self, listed⟩

theorem insertClaim_present (db : Store) (row : ConsumedRefreshToken) :
    ((applyWrite db (.insertClaim row)).consumed? row.jti).isSome = true := by
  simp only [applyWrite]
  split
  · assumption
  · exact consumed_some.mpr ⟨row, List.mem_append_right _ List.mem_cons_self, rfl⟩

theorem expired_mono {draft : Draft} {now later : Nat} (expired : draft.expired now = true)
    (passes : now ≤ later) : draft.expired later = true := by
  have bound := of_decide_eq_true expired
  exact decide_eq_true (Nat.le_trans bound passes)

end Claims

structure Rooted (db : Store) (outside : Outside) : Prop where
  counted : ∀ token ∈ outside.issued, token.jti < outside.nextJti
  unique : ∀ first ∈ outside.issued, ∀ second ∈ outside.issued, first.jti = second.jti → first = second
  rows : ∀ row ∈ db.consumed, ∃ token ∈ outside.issued, token.jti = row.jti ∧
    row.expiresAt = seconds token.exp

/-- Consumed, or of no more use to anyone. -/
def Spent (db : Store) (outside : Outside) (token : Token) : Prop :=
  (db.consumed? token.jti).isSome = true ∨ token.expired outside.now = true

structure Sound (db : Store) (outside : Outside) (phase : Phase) (pending : List Write) : Prop where
  sent : phase.Sent pending
  parent : ∀ token, phase.parent? = some token → token ∈ outside.issued ∧ token.type = .refresh
  counted : ∀ draft ∈ phase.made, draft.jti < outside.nextJti
  unissued : ∀ draft ∈ phase.made, ∀ token ∈ outside.issued, token.jti ≠ draft.jti
  apart : phase.Apart
  claim : ∀ token row, phase = .commitClaim token row →
    db.consumed? token.jti = none ∧ row.jti = token.jti ∧ row.expiresAt = seconds token.exp
  began : ∀ now, phase = .deleteExpired now → now ≤ outside.now
  deleted : ∀ jtis, .deleteClaims jtis ∈ pending → ∀ jti ∈ jtis, ∃ token ∈ outside.issued, token.jti = jti ∧
    token.expired outside.now = true
  redeemed : ∀ token, phase.redeemed? = some token → Spent db outside token

def lineageAssertion : Assertion Store Outside Phase Write where
  common := Rooted
  own := Sound
  pair phase _ other _ := (∀ draft ∈ phase.made, ∀ draft' ∈ other.made, draft.jti ≠ draft'.jti) ∧
    ∀ token token', phase.redeemed? = some token → other.redeemed? = some token' → token.jti ≠ token'.jti

/-- No claim is committed after its token has expired. -/
def timely : Guard Store Outside Phase Input where
  alone _ outside phase _ := match phase with
    | .commitClaim token _ => !token.expired outside.now
    | _ => true
  beside _ _ _ := true

section Invariant

variable {settings : Settings} {db db' : Store} {outside outside' : Outside} {phase other : Phase}
  {pending otherPending : List Write}
  {effect : Effect Outside Phase Write}

theorem Spent.later {token : Token} (spent : Spent db outside token)
    (kept : (db.consumed? token.jti).isSome = true → Spent db' outside' token)
    (passes : outside.now ≤ outside'.now) : Spent db' outside' token := by
  cases spent with
  | inl consumed => exact kept consumed
  | inr expired => exact .inr (expired_mono expired passes)

theorem Sound.mono (sound : Sound db outside phase pending) (counts : outside.nextJti ≤ outside'.nextJti)
    (passes : outside.now ≤ outside'.now) (issued : ∀ token ∈ outside.issued, token ∈ outside'.issued)
    (new : ∀ token ∈ outside'.issued, token ∈ outside.issued ∨ ∀ draft ∈ phase.made, token.jti ≠ draft.jti)
    (absent : ∀ token row, phase = .commitClaim token row → db.consumed? token.jti = none →
      db'.consumed? token.jti = none)
    (kept : ∀ token ∈ outside.issued, (db.consumed? token.jti).isSome = true → Spent db' outside' token) :
    Sound db' outside' phase pending where
  sent := sound.sent
  parent token held := ⟨issued token (sound.parent token held).1, (sound.parent token held).2⟩
  counted draft held := Nat.lt_of_lt_of_le (sound.counted draft held) counts
  unissued draft held token member := by
    cases new token member with
    | inl old => exact sound.unissued draft held token old
    | inr apart => exact apart draft held
  apart := sound.apart
  claim token row claiming := by
    have earlier := sound.claim token row claiming
    exact ⟨absent token row claiming earlier.1, earlier.2⟩
  began now purging := Nat.le_trans (sound.began now purging) passes
  deleted jtis held jti listed := by
    obtain ⟨token, member, same, expired⟩ := sound.deleted jtis held jti listed
    exact ⟨token, issued token member, same, expired_mono expired passes⟩
  redeemed token held := by
    have member := (sound.parent token (redeemed_parent held)).1
    exact (sound.redeemed token held).later (kept token member) passes

theorem next_keeps_issued (step : Next settings db outside phase effect) :
    ∀ token ∈ outside.issued, token ∈ (outsideOf outside effect).issued := by
  intro token member
  rcases next_answered step with same | ⟨origin, access, refresh, _, _, same⟩
  · rw [same]
    exact member
  · rw [same]
    exact List.mem_cons_of_mem _ (List.mem_cons_of_mem _ member)

theorem next_new_issued (step : Next settings db outside phase effect) :
    ∀ token ∈ (outsideOf outside effect).issued,
    token ∈ outside.issued ∨ token.toDraft ∈ phase.made ∧ effect.phase.made = [] := by
  intro token member
  rcases next_answered step with same | ⟨origin, access, refresh, rfl, answered, same⟩
  · rw [same] at member
    exact .inl member
  · rw [same] at member
    rw [answered]
    cases List.mem_cons.mp member with
    | inl same => exact .inr ⟨same ▸ List.mem_cons_self, rfl⟩
    | inr rest =>
      cases List.mem_cons.mp rest with
      | inl same => exact .inr ⟨same ▸ List.mem_cons_of_mem _ List.mem_cons_self, rfl⟩
      | inr old => exact .inl old

theorem storeOf_kept (rooted : Rooted db outside) (sound : Sound db outside phase pending) {token : Token}
    (member : token ∈ outside.issued) (consumed : (db.consumed? token.jti).isSome = true) :
    Spent (storeOf db pending effect) outside token := by
  cases effect with
  | commit phase' outside' =>
    rcases @replay_kept db pending _ consumed with still | ⟨jtis, sent, listed⟩
    · exact .inl still
    · obtain ⟨other, issued, same, expired⟩ := sound.deleted jtis sent token.jti listed
      rw [rooted.unique other issued token member same] at expired
      exact .inr expired
  | _ => exact .inl consumed

theorem storeOf_rows (rooted : Rooted db outside) (sound : Sound db outside phase pending) :
    ∀ row ∈ (storeOf db pending effect).consumed, ∃ token ∈ outside.issued, token.jti = row.jti ∧
      row.expiresAt = seconds token.exp := by
  intro row member
  have source : row ∈ db.consumed ∨ .insertClaim row ∈ pending := by
    cases effect with
    | commit phase' outside' => exact replay_rows member
    | _ => exact .inl member
  cases source with
  | inl old => exact rooted.rows row old
  | inr sent =>
    obtain ⟨token, rfl⟩ := sent_insert sound.sent sent
    obtain ⟨_, same, expires⟩ := sound.claim token row rfl
    exact ⟨token, (sound.parent token rfl).1, same.symm, expires⟩

theorem next_rooted (step : Next settings (replay db pending) outside phase effect)
    (rooted : Rooted db outside) (sound : Sound db outside phase pending) :
    Rooted (storeOf db pending effect) (outsideOf outside effect) where
  counted token member := by
    cases next_new_issued step token member with
    | inl old => exact Nat.lt_of_lt_of_le (rooted.counted token old) (next_nextJti step)
    | inr made => exact Nat.lt_of_lt_of_le (sound.counted _ made.1) (next_nextJti step)
  unique first hFirst second hSecond same := by
    rcases next_answered step with kept | ⟨origin, access, refresh, rfl, _, kept⟩
    · rw [kept] at hFirst hSecond
      exact rooted.unique first hFirst second hSecond same
    · rw [kept] at hFirst hSecond
      have apart := sound.apart access.toDraft rfl refresh.toDraft rfl
      have hAccess := sound.unissued access.toDraft List.mem_cons_self
      have hRefresh := sound.unissued refresh.toDraft (List.mem_cons_of_mem _ List.mem_cons_self)
      simp only [List.mem_cons] at hFirst hSecond
      rcases hFirst with rfl | rfl | oldFirst <;> rcases hSecond with rfl | rfl | oldSecond
      · rfl
      · exact absurd same apart
      · exact absurd same.symm (hAccess second oldSecond)
      · exact absurd same.symm apart
      · rfl
      · exact absurd same.symm (hRefresh second oldSecond)
      · exact absurd same (hAccess first oldFirst)
      · exact absurd same (hRefresh first oldFirst)
      · exact rooted.unique first oldFirst second oldSecond same
  rows row member := by
    obtain ⟨token, issued, same⟩ := storeOf_rows rooted sound row member
    exact ⟨token, next_keeps_issued step token issued, same⟩

theorem next_sound (step : Next settings (replay db pending) outside phase effect)
    (rooted : Rooted db outside) (sound : Sound db outside phase pending) :
    Sound (storeOf db pending effect) (outsideOf outside effect) effect.phase (pendingOf pending effect) where
  sent := next_holds step sound.sent
  parent token held := by
    have earlier := sound.parent token (next_parent step held)
    exact ⟨next_keeps_issued step token earlier.1, earlier.2⟩
  counted draft held := by
    cases next_made step draft held with
    | inl old => exact Nat.lt_of_lt_of_le (sound.counted draft old) (next_nextJti step)
    | inr new => exact new.2
  unissued draft held token member := by
    cases next_new_issued step token member with
    | inl issued =>
      cases next_made step draft held with
      | inl old => exact sound.unissued draft old token issued
      | inr new => exact Nat.ne_of_lt (Nat.lt_of_lt_of_le (rooted.counted token issued) new.1)
    | inr answered =>
      rw [answered.2] at held
      cases held
  apart := next_apart step sound.apart sound.counted
  claim token row claiming := by
    obtain ⟨clientIp, now, rfl, rfl, absent, w, outside'', rfl⟩ := next_claim step claiming
    have nothing := sound.sent
    cases nothing
    exact ⟨absent, rfl, rfl⟩
  began now purging := Nat.le_of_eq ((next_began step purging).trans (next_now step).symm)
  deleted jtis held jti listed := by
    obtain ⟨now, rfl, rfl⟩ := next_deleted step sound.sent held
    have nothing := sound.sent
    cases nothing
    obtain ⟨row, member, same, expires⟩ := mem_expiredClaims listed
    obtain ⟨token, issued, root, expiry⟩ := rooted.rows row member
    refine ⟨token, next_keeps_issued step token issued, root.trans same, ?_⟩
    rw [next_now step]
    have passed := sound.began now rfl
    apply decide_eq_true
    show seconds token.exp ≤ outside.now
    omega
  redeemed token held := by
    rcases next_redeemed step held with old | ⟨row, rfl, outside'', rfl⟩
    · have member := (sound.parent token (redeemed_parent old)).1
      apply (sound.redeemed token old).later
      · intro consumed
        have spent := @storeOf_kept _ _ _ _ effect rooted sound _ member consumed
        exact spent.later .inl (Nat.le_of_eq (next_now step).symm)
      · exact Nat.le_of_eq (next_now step).symm
    · have holding := sound.sent
      cases holding
      obtain ⟨_, same, _⟩ := sound.claim token row rfl
      left
      rw [← same]
      exact insertClaim_present db row

theorem failedPhase_parent {phase : Phase} {token : Token} (held : (failedPhase phase).parent? = some token) :
    phase.parent? = some token := by
  cases phase <;> first | exact held | cases held

theorem failedPhase_redeemed {phase : Phase} {token : Token}
    (held : (failedPhase phase).redeemed? = some token) :
    phase.redeemed? = some token := by
  cases phase <;> first | exact held | cases held

theorem Sound.failed (sound : Sound db outside phase pending) : Sound db outside (failedPhase phase) [] := by
  have finished : (failedPhase phase).made = [] ∧ (failedPhase phase).access? = none ∧
      (failedPhase phase).Sent [] := by
    obtain ⟨outcome, same⟩ := failedPhase_finished phase
    rw [same]
    exact ⟨rfl, rfl, rfl⟩
  obtain ⟨made, access, sent⟩ := finished
  constructor
  · exact sent
  · intro token held
    exact sound.parent token (failedPhase_parent held)
  · intro draft held
    rw [made] at held
    cases held
  · intro draft held
    rw [made] at held
    cases held
  · intro draft held
    rw [access] at held
    cases held
  · intro token row claiming
    obtain ⟨outcome, same⟩ := failedPhase_finished phase
    rw [same] at claiming
    cases claiming
  · intro now purging
    obtain ⟨outcome, same⟩ := failedPhase_finished phase
    rw [same] at purging
    cases purging
  · intro jtis held
    cases held
  · intro token held
    exact sound.redeemed token (failedPhase_redeemed held)

theorem storeOf_absent (otherSound : Sound db outside other otherPending)
    (apart : (tokenSystem settings).Compatible pending otherPending) {token : Token}
    {row : ConsumedRefreshToken} (claiming : other = .commitClaim token row)
    (absent : db.consumed? token.jti = none) :
    (storeOf db pending effect).consumed? token.jti = none := by
  subst claiming
  have held := otherSound.sent
  cases held
  cases effect with
  | commit phase' outside' =>
    apply replay_absent absent
    intro mine sent same
    have free := apart _ sent _ List.mem_cons_self
    obtain ⟨_, root, _⟩ := otherSound.claim token row rfl
    have conflict : conflicts (.insertClaim mine) (.insertClaim row) = true :=
      decide_eq_true (same.trans root.symm)
    exact absurd (free.symm.trans conflict) Bool.false_ne_true
  | _ => exact absent

theorem begin_parent (outside : Outside) (request : Request) {token : Token}
    (held : (begin outside request).parent? = some token) :
    token ∈ outside.issued ∧ token.type = .refresh := by
  have presented : ∀ purpose other, (purpose.parent? other = some token → other = token ∧
    token.type = .refresh) →
      (present outside purpose other).parent? = some token → token ∈ outside.issued ∧
          token.type = .refresh := by
    intro purpose other typed held
    rw [present] at held
    split at held
    · rename_i issued
      obtain ⟨rfl, type⟩ := typed held
      exact ⟨by simpa using issued, type⟩
    · cases held
  cases request with
  | authenticate other => exact presented _ other (fun nothing => by cases nothing) held
  | updateProfile other => exact presented _ other (fun nothing => by cases nothing) held
  | refresh other clientIp =>
    rw [begin] at held
    split at held
    · rename_i type
      apply presented _ other _ held
      intro same
      cases same
      exact ⟨rfl, type⟩
    · cases held
  | _ => cases held

theorem begin_made (outside : Outside) (request : Request) :
    (begin outside request).made = [] ∧ (begin outside request).access? = none ∧
    (begin outside request).redeemed? = none ∧ (begin outside request).Sent [] := by
  have presented : ∀ purpose other, purpose.redeemed? = none → purpose.access? = none →
    (present outside purpose other).made = [] ∧
      (present outside purpose other).access? = none ∧ (present outside purpose other).redeemed? = none ∧
      (present outside purpose other).Sent [] := by
    intro purpose other redeemed access
    rw [present]
    split
    · exact ⟨by simp [Phase.made, Phase.access?, Phase.refresh?, access], by simp [Phase.access?, access],
        redeemed, rfl⟩
    · exact ⟨rfl, rfl, rfl, rfl⟩
  cases request with
  | authenticate other => exact presented _ other rfl rfl
  | updateProfile other => exact presented _ other rfl rfl
  | refresh other clientIp =>
    rw [begin]
    split
    · exact presented _ other rfl rfl
    · exact ⟨rfl, rfl, rfl, rfl⟩
  | _ => exact ⟨rfl, rfl, rfl, rfl⟩

theorem begin_waits (outside : Outside) (request : Request) :
    (∀ token row, begin outside request ≠ .commitClaim token row) ∧
    ∀ now, begin outside request ≠ .deleteExpired now := by
  have presented : ∀ purpose other, (∀ token row, present outside purpose other ≠ .commitClaim token row) ∧
      ∀ now, present outside purpose other ≠ .deleteExpired now := by
    intro purpose other
    rw [present]
    constructor <;> (intros; split <;> simp)
  cases request with
  | authenticate other => exact presented _ other
  | updateProfile other => exact presented _ other
  | refresh other clientIp =>
    rw [begin]
    split
    · exact presented _ other
    · simp
  | _ => simp [begin]

theorem start_passes (outside : Outside) (request : Request) : outside.now ≤ (start outside request).now ∧
    (start outside request).nextJti = outside.nextJti := by
  cases request with
  | wait microseconds => exact ⟨Nat.le_add_right _ _, rfl⟩
  | _ => exact ⟨Nat.le_refl _, rfl⟩

theorem lineage_stable (settings : Settings) :
    Stable (tokenSystem settings) timely Assertion.trivial lineageAssertion where
  start {db outside request phase outside'} _ rooted started := by
    cases started
    obtain ⟨tokens, _, _⟩ := start_issued outside request
    obtain ⟨passes, counts⟩ := start_passes outside request
    obtain ⟨made, access, redeemed, sent⟩ := begin_made outside request
    obtain ⟨claims, purges⟩ := begin_waits outside request
    constructor
    · constructor
      · rw [tokens, counts]
        exact rooted.counted
      · rw [tokens]
        exact rooted.unique
      · rw [tokens]
        exact rooted.rows
    · constructor
      · exact sent
      · rw [tokens]
        intro token held
        exact begin_parent outside request held
      · intro draft held
        rw [made] at held
        cases held
      · intro draft held
        rw [made] at held
        cases held
      · intro draft held
        rw [access] at held
        cases held
      · intro token row claiming
        exact absurd claiming (claims token row)
      · intro now purging
        exact absurd purging (purges now)
      · intro jtis held
        cases held
      · intro token held
        rw [redeemed] at held
        cases held
  startOther {db outside request phase outside' other otherPending} _ rooted sound started := by
    cases started
    obtain ⟨tokens, _, _⟩ := start_issued outside request
    obtain ⟨passes, counts⟩ := start_passes outside request
    obtain ⟨made, _, redeemed, _⟩ := begin_made outside request
    refine ⟨sound.mono (Nat.le_of_eq counts.symm) passes ?_ ?_ (fun _ _ _ absent => absent)
      (fun _ _ consumed => .inl consumed), ⟨?_, ?_⟩, ⟨?_, ?_⟩⟩
    · rw [tokens]
      exact fun token member => member
    · rw [tokens]
      exact fun token member => .inl member
    · intro draft held
      rw [made] at held
      cases held
    · intro token token' held
      rw [redeemed] at held
      cases held
    · intro draft _ draft' held
      rw [made] at held
      cases held
    · intro token token' _ held
      rw [redeemed] at held
      cases held
  own {db outside phase pending label db' outside' phase' pending'} _ _ rooted sound _ moves := by
    rcases moves_next moves with ⟨_, effect, rfl, step, rfl, rfl, rfl, rfl⟩ | ⟨_, rfl, rfl, rfl, rfl⟩
    · exact ⟨next_rooted step rooted sound, next_sound step rooted sound⟩
    · exact ⟨rooted, sound.failed⟩
  other {db outside phase pending label db' outside' phase' pending' other otherPending} _ _ _ _ _ rooted
      sound otherSound pair pair' guard apart moves := by
    rcases moves_next moves with ⟨_, effect, rfl, step, rfl, rfl, rfl, rfl⟩ | ⟨_, rfl, rfl, rfl, rfl⟩
    · have made : ∀ draft ∈ effect.phase.made, ∀ draft' ∈ other.made, draft.jti ≠ draft'.jti := by
        intro draft held draft' held'
        cases next_made step draft held with
        | inl old => exact pair.1 draft old draft' held'
        | inr new => exact Ne.symm (Nat.ne_of_lt (Nat.lt_of_lt_of_le (otherSound.counted draft' held') new.1))
      have redeemed : ∀ token token', effect.phase.redeemed? = some token → other.redeemed? = some token' →
          token.jti ≠ token'.jti := by
        intro token token' held held'
        rcases next_redeemed step held with old | ⟨row, rfl, outside'', rfl⟩
        · exact pair.2 token token' old held'
        · -- what the other has redeemed is spent, what is being redeemed is not
          intro same
          obtain ⟨absent, _, _⟩ := sound.claim token row rfl
          have equal : token = token' :=
            rooted.unique token (sound.parent token rfl).1 token'
            (otherSound.parent token' (redeemed_parent held')).1 same
          subst equal
          cases otherSound.redeemed token held' with
          | inl consumed =>
            rw [absent] at consumed
            cases consumed
          | inr expired =>
            have lives := (guard _ rfl).1
            simp only [timely, expired] at lives
            cases lives
      refine ⟨otherSound.mono (next_nextJti step) (Nat.le_of_eq (next_now step).symm) (next_keeps_issued step)
        ?_ ?_ ?_, ⟨made, redeemed⟩, ?_, ?_⟩
      · intro token member
        cases next_new_issued step token member with
        | inl old => exact .inl old
        | inr answered => exact .inr fun draft held => pair.1 _ answered.1 draft held
      · intro token row claiming absent
        exact storeOf_absent otherSound apart claiming absent
      · intro token member consumed
        exact (storeOf_kept rooted sound member consumed).later .inl (Nat.le_of_eq (next_now step).symm)
      · intro draft held draft' held'
        exact Ne.symm (made draft' held' draft held)
      · intro token token' held held'
        exact Ne.symm (redeemed token' token held' held)
    · have made : (failedPhase phase).made = [] := by
        obtain ⟨outcome, same⟩ := failedPhase_finished phase
        rw [same]
        rfl
      refine ⟨otherSound, ⟨?_, ?_⟩, ?_, ?_⟩
      · rw [made]
        intro draft held
        cases held
      · intro token token' held held'
        exact pair.2 token token' (failedPhase_redeemed held) held'
      · rw [made]
        intro draft _ draft' held'
        cases held'
      · intro token token' held held'
        exact pair'.2 token token' held (failedPhase_redeemed held')

end Invariant

theorem timely_lineage {settings : Settings} {s : State Store Outside Phase Write}
    (run : Runs (tokenSystem settings) timely initialState s) :
    lineageAssertion.Holds s := by
  apply And.right
  apply holds_idle_runs conflicts_symm (lineage_stable settings) (fun t _ => Assertion.trivial_holds t)
    rfl _ run
  constructor
  · intro token held
    cases held
  · intro token held
    cases held
  · intro row held
    cases held

/-- However requests race, are retried or lose their connection, no two of them redeem the same refresh token;
    that the token lives until its claim is committed matters because expired claims are purged. -/
theorem redeemed_once {settings : Settings} {s : State Store Outside Phase Write}
    (run : Runs (tokenSystem settings) timely initialState s) {i j : Nat} {first second : Session Phase Write}
    (apart : i ≠ j) (hFirst : s.sessions[i]? = some first) (hSecond : s.sessions[j]? = some second)
    {token token' : Token} (mine : first.phase.redeemed? = some token)
    (theirs : second.phase.redeemed? = some token') :
    token.jti ≠ token'.jti :=
  ((timely_lineage run).pair i j first second apart hFirst hSecond).2 token token' mine theirs

/-- The token of one chain is presented twice at once, and that of another chain once. -/
theorem redeemed_once_race :
    ∃ s first second token token', Runs (tokenSystem usualSettings) timely initialState s ∧
    s.sessions[2]? = some first ∧ s.sessions[4]? = some second ∧ first.phase.redeemed? = some token ∧
      second.phase.redeemed? = some token' ∧
    token.jti ≠ token'.jti := by
  let refresh : Token := ⟨⟨.refresh, 1, "a".toList, 0, 604800⟩, 0, 0⟩
  let refresh' : Token := ⟨⟨.refresh, 3, "a".toList, 1, 604800⟩, 0, 0⟩
  let actions := .start (.login "a".toList) :: running 0 5 ++ [.start (.login "a".toList)] ++ running 1 5 ++
    [.start (.refresh refresh none), .start (.refresh refresh none), .start (.refresh refresh' none)] ++
    running 2 4 ++ running 3 4 ++ running 4 7 ++ running 2 4 ++ running 3 3
  have ran : (((tokenSystem usualSettings).perform timely initialState actions).bind fun s =>
      s.sessions[2]?.bind fun first =>
      s.sessions[4]?.bind fun second => first.phase.redeemed?.bind fun token =>
          second.phase.redeemed?.map fun token' => (s, first, second, token, token')).isSome = true := by
    decide +kernel
  obtain ⟨_, found⟩ := Option.isSome_iff_exists.mp ran
  obtain ⟨s, performed, found⟩ := Option.bind_eq_some_iff.mp found
  obtain ⟨first, hFirst, found⟩ := Option.bind_eq_some_iff.mp found
  obtain ⟨second, hSecond, found⟩ := Option.bind_eq_some_iff.mp found
  obtain ⟨token, mine, found⟩ := Option.bind_eq_some_iff.mp found
  obtain ⟨token', theirs, _⟩ := Option.map_eq_some_iff.mp found
  have run := runs_perform performed
  exact ⟨s, first, second, token, token', run, hFirst, hSecond, mine, theirs,
    redeemed_once run (by decide) hFirst hSecond mine theirs⟩

end ManifestCV.Auth
