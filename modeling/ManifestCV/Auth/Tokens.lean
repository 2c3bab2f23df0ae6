import ManifestCV.Foundation.Text
import ManifestCV.Foundation.Transactions
import Mathlib.Logic.Function.Basic

namespace ManifestCV.Auth

open Foundation Foundation.Transactions

/-- Times are counted in microseconds, but a token's `exp` in seconds. -/
def seconds (n : Nat) : Nat := n * 1000000

structure Settings where
  accessTokenExpireMinutes : Nat
  refreshTokenExpireMinutes : Nat
  refreshTokenReuseGraceSeconds : Nat

inductive TokenType where
  | access
  | refresh
  deriving DecidableEq

/-- The claims of a token before its versions are read. `uuid4` never repeats, so ids are counted. -/
structure Draft where
  type : TokenType
  jti : Nat
  email : Str
  chain : Nat
  exp : Nat
  deriving DecidableEq

structure Token extends Draft where
  accountVer : Nat
  chainVer : Nat
  deriving DecidableEq

inductive VersionKey where
  | account (email : Str)
  | chain (email : Str) (chainId : Nat)
  deriving DecidableEq

structure ConsumedRefreshToken where
  jti : Nat
  consumedAt : Nat
  expiresAt : Nat
  clientIp : Option Str
  accountVer : Nat
  chainVer : Nat
  deriving DecidableEq

/-- A key without a row in `token_revocation_versions` counts as version 0. -/
structure Store where
  version : VersionKey → Nat
  consumed : List ConsumedRefreshToken

def Store.empty : Store := ⟨fun _ => 0, []⟩

def Store.consumed? (db : Store) (jti : Nat) : Option ConsumedRefreshToken := db.consumed.find? (·.jti = jti)

inductive Write where
  /-- `ON CONFLICT (jti) DO NOTHING`. -/
  | insertClaim (row : ConsumedRefreshToken)
  | deleteClaims (jtis : List Nat)
  /-- `ON CONFLICT (key) DO UPDATE SET version = version + 1`. -/
  | bumpVersion (key : VersionKey)

def applyWrite (db : Store) : Write → Store
  | .insertClaim row => if (db.consumed? row.jti).isSome then db else
      { db with consumed := db.consumed ++ [row] }
  | .deleteClaims jtis => { db with consumed := db.consumed.filter fun row => !jtis.contains row.jti }
  | .bumpVersion key => { db with version := Function.update db.version key (db.version key + 1) }

def conflicts : Write → Write → Bool
  | .insertClaim row, .insertClaim other => row.jti = other.jti
  | .insertClaim row, .deleteClaims jtis => jtis.contains row.jti
  | .deleteClaims jtis, .insertClaim row => jtis.contains row.jti
  | .deleteClaims jtis, .deleteClaims others => jtis.any others.contains
  | .bumpVersion key, .bumpVersion other => key = other
  | _, _ => false

inductive Origin where
  | login
  | rotation (parent : Token)
  | passwordChange

inductive Purpose where
  /-- `verify_token` for a route. -/
  | authenticate
  /-- `verify_token` for the route that changes the password. -/
  | updateProfile
  | refresh (clientIp : Option Str)
  /-- The new refresh token of a rotation, with its access token. -/
  | successor (parent access : Token)

inductive Bumped where
  | revoked
  | reuseDetected (token : Token)
  | reissue (email : Str) (chainId : Nat)

inductive Outcome where
  | accepted (token : Token)
  | issued (origin : Origin) (access refresh : Token)
  | rejected
  | revoked (confirmed : Bool)
  | reuseDetected (token : Token) (confirmed : Bool)
  | done

inductive Phase where
  | login (email : Str)
  | readVersions (access refresh : Draft)
  | readRefreshVersions (origin : Origin) (access : Token) (refresh : Draft)
  | readAccessVersions (access : Draft) (refresh : Token)
  | createAccess (email : Str) (chainId : Nat)
  | readFirstVersions (access : Draft)
  | createRefresh (access : Token)
  | recordSession (origin : Origin) (access refresh : Token)
  | respond (origin : Origin) (access refresh : Token)
  | decode (purpose : Purpose) (token : Token)
  | accountVersion (purpose : Purpose) (token : Token)
  | chainVersion (purpose : Purpose) (token : Token)
  | beginClaim (token : Token) (clientIp : Option Str)
  | insertClaim (token : Token) (clientIp : Option Str) (now : Nat)
  | commitClaim (token : Token) (row : ConsumedRefreshToken)
  | readClaim (token : Token) (clientIp : Option Str)
  | commitUnclaimed (token : Token) (clientIp : Option Str)
  | createSuccessors (token : Token) (row : ConsumedRefreshToken)
  | duplicate (token : Token) (clientIp : Option Str)
  | updatePassword (token : Token)
  | revokeOthers (token : Token)
  | findSession (logout : Bool) (email : Str) (chainId : Nat)
  | countActiveSessions (email : Str) (after : Bumped)
  | bump (key : VersionKey) (after : Bumped)
  | commitBump (key : VersionKey) (after : Bumped)
  | purge
  | deleteExpired (now : Nat)
  | commitPurge (full : Bool)
  | finished (outcome : Outcome)

inductive Request where
  /-- The password or the OAuth2 provider has vouched for the account. -/
  | login (email : Str)
  | authenticate (token : Token)
  | refresh (token : Token) (clientIp : Option Str)
  | logout (email : Str) (chainId : Nat)
  /-- A session ended on the list of sessions. -/
  | revokeOneSession (email : Str) (chainId : Nat)
  /-- Logout everywhere, a password reset, or the end of the account. -/
  | revokeAllTokens (email : Str)
  | updateProfile (token : Token)
  | purgeConsumedRefreshTokens
  | wait (microseconds : Nat)

/-- A service answers, does not, or commits without saying so. Of the two tokens of a login either is
    finished first. -/
inductive Input where
  | answer
  | refreshFirst
  | unavailable
  | lost

structure Outside where
  now : Nat
  nextChain : Nat
  nextJti : Nat
  /-- The tokens that were handed out; no one else can sign one. -/
  issued : List Token
  /-- The chains with a row on the list of sessions. -/
  recorded : List (Str × Nat)

def Outside.initial : Outside := ⟨0, 0, 0, [], []⟩

abbrev Answer := Option (Effect Outside Phase Write)

/-- `create_access_token` and `create_refresh_token` up to their versions. -/
def createDraft (settings : Settings) (type : TokenType) (email : Str) (chainId jti issuedAt : Nat) : Draft :=
  let minutes := match type with
    | .access => settings.accessTokenExpireMinutes
    | .refresh => settings.refreshTokenExpireMinutes
  ⟨type, jti, email, chainId, issuedAt / 1000000 + minutes * 60⟩

/-- `get_versions`: both are read by one statement. -/
def Draft.token (db : Store) (draft : Draft) : Token where
  toDraft := draft
  accountVer := db.version (.account draft.email)
  chainVer := db.version (.chain draft.email draft.chain)

def Draft.expired (draft : Draft) (now : Nat) : Bool := seconds draft.exp ≤ now

def reject : Answer := some (.fail (.finished .rejected))

def afterCheck (token : Token) : Purpose → Phase
  | .authenticate => if token.type = .access then .finished (.accepted token) else .finished .rejected
  | .updateProfile => if token.type = .access then .updatePassword token else .finished .rejected
  | .refresh clientIp => .beginClaim token clientIp
  | .successor parent access => .recordSession (.rotation parent) access token

def afterBump (confirmed : Bool) : Bumped → Phase
  | .revoked => .finished (.revoked confirmed)
  | .reuseDetected token => .finished (.reuseDetected token confirmed)
  -- the new tokens are made whether or not the others were revoked
  | .reissue email chainId => .createAccess email chainId

/-- The first 5000 expired claims, the oldest first. -/
def expiredClaims (db : Store) (now : Nat) : List Nat :=
  (((db.consumed.filter fun row => row.expiresAt < now).mergeSort fun row other =>
    row.expiresAt ≤ other.expiresAt).take 5000).map (·.jti)

def claimOf (token : Token) (clientIp : Option Str) (now : Nat) : ConsumedRefreshToken :=
  ⟨token.jti, now, seconds token.exp, clientIp, token.accountVer, token.chainVer⟩

def isBenignDuplicate (settings : Settings) (db : Store) (token : Token) (clientIp : Option Str) (now : Nat) :
    Bool :=
  0 < settings.refreshTokenReuseGraceSeconds && (db.consumed? token.jti).any fun row =>
    row.consumedAt ≤ now && now - row.consumedAt ≤ seconds settings.refreshTokenReuseGraceSeconds &&
      row.clientIp = clientIp

def next (settings : Settings) (db : Store) (outside : Outside) (phase : Phase) (input : Input) : Answer :=
  match phase, input with
  | .finished _, _ => none
  -- an exception on the way to the bump is logged, and the caller told that all went well
  | .findSession true _ _, .unavailable => some (.fail (.finished (.revoked true)))
  | .countActiveSessions _ after, .unavailable => some (.fail (afterBump true after))
  | .bump _ after, .unavailable => some (.fail (afterBump false after))
  | .commitBump _ after, .unavailable => some (.fail (afterBump false after))
  | .commitBump _ after, .lost => some (.commit (afterBump false after) outside)
  | .recordSession origin access refresh, .unavailable =>
      some (.read (.respond origin access refresh) outside)
  | _, .unavailable => reject
  | .login email, _ =>
    let chainId := outside.nextChain
    let access := createDraft settings .access email chainId outside.nextJti outside.now
    let refresh := createDraft settings .refresh email chainId (outside.nextJti + 1) outside.now
    some (.read (.readVersions access refresh)
      { outside with nextChain := chainId + 1, nextJti := outside.nextJti + 2 })
  | .readVersions access refresh, .refreshFirst =>
      some (.read (.readAccessVersions access (refresh.token db)) outside)
  | .readVersions access refresh, _ =>
      some (.read (.readRefreshVersions .login (access.token db) refresh) outside)
  | .readRefreshVersions origin access refresh, _ =>
      some (.read (.recordSession origin access (refresh.token db)) outside)
  | .readAccessVersions access refresh, _ =>
      some (.read (.recordSession .login (access.token db) refresh) outside)
  | .createAccess email chainId, _ =>
    some (.read (.readFirstVersions (createDraft settings .access email chainId outside.nextJti outside.now))
      { outside with nextJti := outside.nextJti + 1 })
  | .readFirstVersions access, _ => some (.read (.createRefresh (access.token db)) outside)
  | .createRefresh access, _ =>
    let refresh := createDraft settings .refresh access.email access.chain outside.nextJti outside.now
    some (.read (.readRefreshVersions .passwordChange access refresh)
      { outside with nextJti := outside.nextJti + 1 })
  | .recordSession origin access refresh, _ =>
    some (.read (.respond origin access refresh)
      { outside with recorded := (refresh.email, refresh.chain) :: outside.recorded })
  | .respond origin access refresh, _ =>
    some (.read (.finished (.issued origin access refresh))
      { outside with issued := access :: refresh :: outside.issued })
  | .decode purpose token, _ =>
    if token.expired outside.now then reject else some (.read (.accountVersion purpose token) outside)
  | .accountVersion purpose token, _ =>
    if token.accountVer = db.version (.account token.email) then
      some (.read (.chainVersion purpose token) outside) else reject
  | .chainVersion purpose token, _ =>
    if token.chainVer = db.version (.chain token.email token.chain) then
      some (.read (afterCheck token purpose) outside) else reject
  | .beginClaim token clientIp, _ => some (.read (.insertClaim token clientIp outside.now) outside)
  | .insertClaim token clientIp now, _ =>
    -- an insert that meets a committed row does nothing and locks nothing
    if (db.consumed? token.jti).isSome then some (.read (.readClaim token clientIp) outside)
    else some (.write (.insertClaim (claimOf token clientIp now))
      (.commitClaim token (claimOf token clientIp now)) outside)
  | .commitClaim _ _, .lost => some (.commit (.finished .rejected) outside)
  | .commitClaim token row, _ => some (.commit (.createSuccessors token row) outside)
  | .readClaim token clientIp, _ =>
    match db.consumed? token.jti with
    | none => reject
    | some _ => some (.read (.commitUnclaimed token clientIp) outside)
  | .commitUnclaimed token clientIp, _ => some (.commit (.duplicate token clientIp) outside)
  | .createSuccessors token row, _ =>
    let access := createDraft settings .access token.email token.chain outside.nextJti row.consumedAt
    let refresh := createDraft settings .refresh token.email token.chain (outside.nextJti + 1) row.consumedAt
    if refresh.expired outside.now then reject
    else some (.read (.accountVersion (.successor token ⟨access, row.accountVer, row.chainVer⟩)
      ⟨refresh, row.accountVer, row.chainVer⟩)
      { outside with nextJti := outside.nextJti + 2 })
  | .duplicate token clientIp, _ =>
    if isBenignDuplicate settings db token clientIp outside.now then reject
    else some (.read (.bump (.chain token.email token.chain) (.reuseDetected token)) outside)
  | .updatePassword token, _ => some (.read (.revokeOthers token) outside)
  | .revokeOthers token, _ =>
    -- the cookie is decoded again, and the chain of an expired token is not known
    some (.read (.countActiveSessions token.email
      (if token.expired outside.now then .revoked else .reissue token.email token.chain)) outside)
  | .findSession _ email chainId, _ =>
    if outside.recorded.any (· = (email, chainId)) then
      some (.read (.bump (.chain email chainId) .revoked) outside)
    else some (.fail (.finished (.revoked true)))
  | .countActiveSessions email after, _ => some (.read (.bump (.account email) after) outside)
  | .bump key after, _ => some (.write (.bumpVersion key) (.commitBump key after) outside)
  | .commitBump _ after, _ => some (.commit (afterBump true after) outside)
  | .purge, _ => some (.read (.deleteExpired outside.now) outside)
  | .deleteExpired now, _ =>
    let jtis := expiredClaims db now
    some (.write (.deleteClaims jtis) (.commitPurge (jtis.length = 5000)) outside)
  | .commitPurge full, _ => some (.commit (if full then .purge else .finished .done) outside)

def present (outside : Outside) (purpose : Purpose) (token : Token) : Phase :=
  if outside.issued.any (· = token) then .decode purpose token else .finished .rejected

def begin (outside : Outside) : Request → Phase
  | .login email => .login email
  | .authenticate token => present outside .authenticate token
  | .refresh token clientIp =>
    -- the type is checked before anything is read
    if token.type = .refresh then present outside (.refresh clientIp) token else .finished .rejected
  | .logout email chainId => .findSession true email chainId
  | .revokeOneSession email chainId => .findSession false email chainId
  | .revokeAllTokens email => .countActiveSessions email .revoked
  | .updateProfile token => present outside .updateProfile token
  | .purgeConsumedRefreshTokens => .purge
  | .wait _ => .finished .done

def start (outside : Outside) : Request → Outside
  | .wait microseconds => { outside with now := outside.now + microseconds }
  | _ => outside

def failedPhase : Phase → Phase
  | .finished outcome => .finished outcome
  | _ => .finished .rejected

def tokenSystem (settings : Settings) : System Store Outside Phase Write Input Request where
  apply := applyWrite
  admits _ _ := true
  conflicts := conflicts
  failed := failedPhase
  start outside request := some (begin outside request, start outside request)
  next := next settings

def initialState : State Store Outside Phase Write := ⟨.empty, .initial, []⟩

end ManifestCV.Auth
