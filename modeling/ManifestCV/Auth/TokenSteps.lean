import ManifestCV.Auth.Tokens

namespace ManifestCV.Auth

open Foundation Foundation.Transactions

inductive Next (settings : Settings) (db : Store) (outside : Outside) :
    Phase → Effect Outside Phase Write → Prop
  | drafted {email access refresh} (first : access = createDraft settings .access email outside.nextChain
      outside.nextJti outside.now)
      (second : refresh = createDraft settings .refresh email outside.nextChain
        (outside.nextJti + 1) outside.now) :
      Next settings db outside (.login email) (.read (.readVersions access refresh)
        { outside with nextChain := outside.nextChain + 1, nextJti := outside.nextJti + 2 })
  | refreshFirst {access refresh} : Next settings db outside (.readVersions access refresh)
      (.read (.readAccessVersions access (refresh.token db)) outside)
  | accessFirst {access refresh} : Next settings db outside (.readVersions access refresh)
      (.read (.readRefreshVersions .login (access.token db) refresh) outside)
  | refreshRead {origin access refresh} : Next settings db outside
      (.readRefreshVersions origin access refresh)
      (.read (.recordSession origin access (refresh.token db)) outside)
  | accessRead {access refresh} : Next settings db outside (.readAccessVersions access refresh)
      (.read (.recordSession .login (access.token db) refresh) outside)
  | accessDrafted {email chainId} : Next settings db outside (.createAccess email chainId)
      (.read (.readFirstVersions (createDraft settings .access email chainId outside.nextJti outside.now))
        { outside with nextJti := outside.nextJti + 1 })
  | firstRead {access} : Next settings db outside (.readFirstVersions access)
      (.read (.createRefresh (access.token db)) outside)
  | refreshDrafted {access} : Next settings db outside (.createRefresh access)
      (.read (.readRefreshVersions .passwordChange access
        (createDraft settings .refresh access.email access.chain outside.nextJti outside.now))
          { outside with nextJti := outside.nextJti + 1 })
  | recorded {origin access refresh} : Next settings db outside (.recordSession origin access refresh)
      (.read (.respond origin access refresh)
        { outside with recorded := (refresh.email, refresh.chain) :: outside.recorded })
  | unrecorded {origin access refresh} : Next settings db outside (.recordSession origin access refresh)
      (.read (.respond origin access refresh) outside)
  | responded {origin access refresh} : Next settings db outside (.respond origin access refresh)
      (.read (.finished (.issued origin access refresh))
        { outside with issued := access :: refresh :: outside.issued })
  | decoded {purpose token} (lives : token.expired outside.now = false) : Next settings db outside
      (.decode purpose token)
      (.read (.accountVersion purpose token) outside)
  | accountCurrent {purpose token} (current : token.accountVer = db.version (.account token.email)) :
      Next settings db outside (.accountVersion purpose token) (.read (.chainVersion purpose token) outside)
  | chainCurrent {purpose token} (current : token.chainVer = db.version (.chain token.email token.chain)) :
      Next settings db outside (.chainVersion purpose token) (.read (afterCheck token purpose) outside)
  | begun {token clientIp} : Next settings db outside (.beginClaim token clientIp)
      (.read (.insertClaim token clientIp outside.now) outside)
  | claimed {token clientIp now} (absent : db.consumed? token.jti = none) : Next settings db outside
      (.insertClaim token clientIp now)
      (.write (.insertClaim (claimOf token clientIp now)) (.commitClaim token (claimOf token clientIp now))
        outside)
  | conflicting {token clientIp now} (present : (db.consumed? token.jti).isSome = true) :
      Next settings db outside (.insertClaim token clientIp now) (.read (.readClaim token clientIp) outside)
  | claimLost {token row} : Next settings db outside (.commitClaim token row)
      (.commit (.finished .rejected) outside)
  | claimCommitted {token row} : Next settings db outside (.commitClaim token row)
      (.commit (.createSuccessors token row) outside)
  | claimRead {token clientIp} : Next settings db outside (.readClaim token clientIp)
      (.read (.commitUnclaimed token clientIp) outside)
  | unclaimed {token clientIp} : Next settings db outside (.commitUnclaimed token clientIp)
      (.commit (.duplicate token clientIp) outside)
  | succeeded {token row access refresh}
      (first : access = createDraft settings .access token.email token.chain outside.nextJti row.consumedAt)
      (second : refresh = createDraft settings .refresh token.email token.chain (outside.nextJti + 1)
        row.consumedAt) :
      Next settings db outside (.createSuccessors token row)
        (.read (.accountVersion (.successor token ⟨access, row.accountVer, row.chainVer⟩)
          ⟨refresh, row.accountVer, row.chainVer⟩)
          { outside with nextJti := outside.nextJti + 2 })
  | replayed {token clientIp} (suspicious : isBenignDuplicate settings db token clientIp outside.now =
      false) :
      Next settings db outside (.duplicate token clientIp)
        (.read (.bump (.chain token.email token.chain) (.reuseDetected token)) outside)
  | updated {token} : Next settings db outside (.updatePassword token) (.read (.revokeOthers token) outside)
  | revoking {token after} (follows : after = .revoked ∨ after = .reissue token.email token.chain) :
      Next settings db outside (.revokeOthers token) (.read (.countActiveSessions token.email after) outside)
  | found {logout email chainId} (listed : (email, chainId) ∈ outside.recorded) :
      Next settings db outside (.findSession logout email chainId)
        (.read (.bump (.chain email chainId) .revoked) outside)
  | counted {email after} : Next settings db outside (.countActiveSessions email after)
      (.read (.bump (.account email) after) outside)
  | bumping {key after} : Next settings db outside (.bump key after)
      (.write (.bumpVersion key) (.commitBump key after) outside)
  | bumped {key after} (confirmed : Bool) : Next settings db outside (.commitBump key after)
      (.commit (afterBump confirmed after) outside)
  | purging : Next settings db outside .purge (.read (.deleteExpired outside.now) outside)
  | deleting {now} (full : Bool) : Next settings db outside (.deleteExpired now)
      (.write (.deleteClaims (expiredClaims db now)) (.commitPurge full) outside)
  | purged {full} (more : Bool) : Next settings db outside (.commitPurge full)
      (.commit (if more then .purge else .finished .done) outside)
  | unconfirmed {phase after} (confirmed : Bool)
      (trying : (∃ email, phase = .countActiveSessions email after) ∨ ∃ key, phase = .bump key after ∨
        phase = .commitBump key after) :
      Next settings db outside phase (.fail (afterBump confirmed after))
  | refused {phase outcome} (ends : outcome = .rejected ∨ outcome = .revoked true) : Next settings db outside
      phase (.fail (.finished outcome))

theorem next_cases {settings : Settings} {db : Store} {outside : Outside} {phase : Phase} {input : Input}
    {effect : Effect Outside Phase Write} (answer : next settings db outside phase input = some effect) :
    Next settings db outside phase effect := by
  have rejected : ∀ {phase}, reject = some effect → Next settings db outside phase effect := by
    intro phase same
    cases same
    exact .refused (.inl rfl)
  cases phase with
  | finished outcome => cases answer
  | login email =>
    cases input <;> first
      | exact rejected answer
      | (cases answer; exact .drafted rfl rfl)
  | readVersions access refresh =>
    cases input <;> first
      | exact rejected answer
      | (cases answer; exact .refreshFirst)
      | (cases answer; exact .accessFirst)
  | readRefreshVersions origin access refresh =>
    cases input <;> first
      | exact rejected answer
      | (cases answer; exact .refreshRead)
  | readAccessVersions access refresh =>
    cases input <;> first
      | exact rejected answer
      | (cases answer; exact .accessRead)
  | createAccess email chainId =>
    cases input <;> first
      | exact rejected answer
      | (cases answer; exact .accessDrafted)
  | readFirstVersions access =>
    cases input <;> first
      | exact rejected answer
      | (cases answer; exact .firstRead)
  | createRefresh access =>
    cases input <;> first
      | exact rejected answer
      | (cases answer; exact .refreshDrafted)
  | recordSession origin access refresh =>
    cases input <;> cases answer <;> first
      | exact .unrecorded
      | exact .recorded
  | respond origin access refresh =>
    cases input <;> first
      | exact rejected answer
      | (cases answer; exact .responded)
  | decode purpose token =>
    have decoded : (if token.expired outside.now then reject else
      some (.read (.accountVersion purpose token) outside)) = some effect →
        Next settings db outside (.decode purpose token) effect := by
      intro answer
      split at answer
      · exact rejected answer
      · rename_i lives
        cases answer
        exact .decoded (Bool.eq_false_iff.mpr lives)
    cases input <;> first
      | exact rejected answer
      | exact decoded answer
  | accountVersion purpose token =>
    have compared : (if token.accountVer = db.version (.account token.email) then
      some (.read (.chainVersion purpose token) outside) else reject) =
        some effect → Next settings db outside (.accountVersion purpose token) effect := by
      intro answer
      split at answer
      · rename_i current
        cases answer
        exact .accountCurrent current
      · exact rejected answer
    cases input <;> first
      | exact rejected answer
      | exact compared answer
  | chainVersion purpose token =>
    have compared : (if token.chainVer = db.version (.chain token.email token.chain) then
      some (.read (afterCheck token purpose) outside)
        else reject) = some effect → Next settings db outside (.chainVersion purpose token) effect := by
      intro answer
      split at answer
      · rename_i current
        cases answer
        exact .chainCurrent current
      · exact rejected answer
    cases input <;> first
      | exact rejected answer
      | exact compared answer
  | beginClaim token clientIp =>
    cases input <;> first
      | exact rejected answer
      | (cases answer; exact .begun)
  | insertClaim token clientIp now =>
    have inserted : (if (db.consumed? token.jti).isSome then
      some (Effect.read (.readClaim token clientIp) outside)
        else some (.write (.insertClaim (claimOf token clientIp now))
          (.commitClaim token (claimOf token clientIp now)) outside)) =
        some effect → Next settings db outside (.insertClaim token clientIp now) effect := by
      intro answer
      split at answer
      · rename_i present
        cases answer
        exact .conflicting present
      · rename_i absent
        cases answer
        exact .claimed (Option.not_isSome_iff_eq_none.mp absent)
    cases input <;> first
      | exact rejected answer
      | exact inserted answer
  | commitClaim token row =>
    cases input <;> first
      | exact rejected answer
      | (cases answer; exact .claimLost)
      | (cases answer; exact .claimCommitted)
  | readClaim token clientIp =>
    cases input <;> first
      | exact rejected answer
      | (simp only [next] at answer
         split at answer
         · exact rejected answer
         · cases answer
           exact .claimRead)
  | commitUnclaimed token clientIp =>
    cases input <;> first
      | exact rejected answer
      | (cases answer; exact .unclaimed)
  | createSuccessors token row =>
    cases input <;> first
      | exact rejected answer
      | (simp only [next] at answer
         split at answer
         · exact rejected answer
         · cases answer
           exact .succeeded rfl rfl)
  | duplicate token clientIp =>
    have judged : (if isBenignDuplicate settings db token clientIp outside.now then reject
        else some (.read (.bump (.chain token.email token.chain) (.reuseDetected token)) outside)) =
          some effect →
        Next settings db outside (.duplicate token clientIp) effect := by
      intro answer
      split at answer
      · exact rejected answer
      · rename_i suspicious
        cases answer
        exact .replayed (Bool.eq_false_iff.mpr suspicious)
    cases input <;> first
      | exact rejected answer
      | exact judged answer
  | updatePassword token =>
    cases input <;> first
      | exact rejected answer
      | (cases answer; exact .updated)
  | revokeOthers token =>
    have follows : (if token.expired outside.now = true then Bumped.revoked else
      .reissue token.email token.chain) = .revoked ∨
        (if token.expired outside.now = true then Bumped.revoked else .reissue token.email token.chain) =
          .reissue token.email token.chain := by
      split
      · exact .inl rfl
      · exact .inr rfl
    cases input <;> first
      | exact rejected answer
      | (cases answer; exact .revoking follows)
  | findSession logout email chainId =>
    have looked : (if outside.recorded.any (· = (email, chainId)) then
      some (Effect.read (.bump (.chain email chainId) .revoked) outside)
        else some (.fail (.finished (.revoked true)))) = some effect →
            Next settings db outside (.findSession logout email chainId) effect := by
      intro answer
      split at answer
      · rename_i listed
        cases answer
        apply Next.found
        simpa using listed
      · cases answer
        exact .refused (.inr rfl)
    cases logout <;> cases input <;> first
      | exact looked answer
      | exact rejected answer
      | (cases answer; exact .refused (.inr rfl))
  | countActiveSessions email after =>
    cases input <;> cases answer <;> first
      | exact .counted
      | exact .unconfirmed true (.inl ⟨email, rfl⟩)
  | bump key after =>
    cases input <;> cases answer <;> first
      | exact .bumping
      | exact .unconfirmed false (.inr ⟨key, .inl rfl⟩)
  | commitBump key after =>
    cases input <;> cases answer <;> first
      | exact .bumped true
      | exact .bumped false
      | exact .unconfirmed false (.inr ⟨key, .inr rfl⟩)
  | purge =>
    cases input <;> first
      | exact rejected answer
      | (cases answer; exact .purging)
  | deleteExpired now =>
    cases input <;> first
      | exact rejected answer
      | (cases answer; exact .deleting _)
  | commitPurge full =>
    cases input <;> first
      | exact rejected answer
      | (cases answer; exact .purged full)

end ManifestCV.Auth
