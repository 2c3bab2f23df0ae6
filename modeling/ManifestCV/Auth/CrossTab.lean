import ManifestCV.Foundation.Transactions

namespace ManifestCV.Auth.CrossTab

open Foundation.Transactions

def leaseMs : Nat := 15000

structure Lease where
  owner : Nat
  expiresAt : Nat

structure RotationResult where
  epoch : Nat
  success : Bool
  deriving DecidableEq

/-- What the tabs of a browser share, and what the server has made of its cookie. -/
structure Browser where
  now : Nat
  lease : Option Lease
  rotationResult : Option RotationResult
  /-- The exclusive Web Lock. -/
  locked : Bool
  /-- The tabs whose `refreshInFlight` is set. -/
  refreshing : List Nat
  cookie : Nat
  redeemed : List Nat
  nextToken : Nat

inductive Outcome where
  | rotated
  | alreadyRotated
  | failed
  | closed
  | passed

/-- Where a call of `runCrossTabRefresh` is between two looks at what the tabs share, with the result it has
    read first. A tab reads the lease, writes it and reads it back in three steps, between which others go
    on. -/
inductive Phase where
  | requestLock (tab : Nat) (rotationBefore : Option RotationResult)
  | checkLease (tab : Nat) (rotationBefore : Option RotationResult)
  /-- No other tab held the lease. -/
  | writeLease (tab : Nat) (rotationBefore : Option RotationResult)
  | readBack (tab : Nat) (rotationBefore : Option RotationResult)
  /-- `writeLease` has returned true. -/
  | leased (tab : Nat) (rotationBefore : Option RotationResult)
  | waitForAnotherTab (tab : Nat) (rotationBefore : Option RotationResult) (deadline : Nat)
  | awake (tab : Nat) (rotationBefore : Option RotationResult)
  | retryLater (tab : Nat) (rotationBefore : Option RotationResult) (deadline : Nat)
  /-- The refresh request is on its way, with the cookie it carries; a heartbeat has found the own lease and
      renews it next. -/
  | sent (tab token : Nat) (renews : Bool)
  | publish (tab : Nat) (success : Bool) (outcome : Outcome)
  /-- `releaseLease`, before it reads the lease and before it removes it. -/
  | releaseLease (tab : Nat) (outcome : Outcome)
  | removeLease (tab : Nat) (outcome : Outcome)
  /-- The tab was closed with its request on the way. -/
  | abandoned (token : Nat)
  | finished (outcome : Outcome)

inductive Input where
  | proceed
  /-- `localStorage` throws: a read gives null, and a write is not made. -/
  | storageFails
  /-- "refresh-finished", or the end of the lease. -/
  | notified
  | heartbeat
  | rotated
  | refused
  /-- The server has redeemed the token, and its answer never arrives. -/
  | lost
  | closed
  deriving DecidableEq

inductive Request where
  | refreshSession (tab : Nat) (storageWorks : Bool)
  | wait (milliseconds : Nat)

abbrev Answer := Option (Effect Browser Phase Empty)

def rotationCompletedAfter (browser : Browser) (before : Option RotationResult) : Bool :=
  browser.rotationResult.any fun after => before.all (fun result => after.epoch ≠ result.epoch) &&
    after.success

def publishRotationResult (browser : Browser) (success : Bool) : Browser :=
  { browser with rotationResult := some ⟨(browser.rotationResult.map (·.epoch)).getD 0 + 1, success⟩ }

def leave (browser : Browser) (tab : Nat) : Browser :=
  { browser with refreshing := browser.refreshing.filter (· ≠ tab) }

def finish (browser : Browser) (tab : Nat) (outcome : Outcome) : Answer :=
  some (.read (.finished outcome) (leave browser tab))

def heldByAnother (browser : Browser) (tab : Nat) : Bool :=
  browser.lease.any fun lease => lease.owner ≠ tab && browser.now < lease.expiresAt

def ownsLease (browser : Browser) (tab : Nat) : Bool := browser.lease.any (·.owner = tab)

def putLease (browser : Browser) (tab : Nat) : Browser :=
  { browser with lease := some ⟨tab, browser.now + leaseMs⟩ }

def unlock (browser : Browser) : Browser := { browser with locked := false }

/-- The end of `request()`: the browser releases its lock with the callback, the code its lease. -/
def settle (webLocks : Bool) (browser : Browser) (tab : Nat) (outcome : Outcome) : Answer :=
  if webLocks then finish (unlock browser) tab outcome else some (.read (.releaseLease tab outcome) browser)

def Phase.tab? : Phase → Option Nat
  | .requestLock tab _ | .checkLease tab _ | .writeLease tab _ | .readBack tab _ | .leased tab _ => some tab
  | .waitForAnotherTab tab _ _ | .awake tab _ | .retryLater tab _ _ | .sent tab _ _ => some tab
  | .publish tab _ _ | .releaseLease tab _ | .removeLease tab _ => some tab
  | .abandoned _ | .finished _ => none

def Phase.owner? : Phase → Option Nat
  | .readBack tab _ | .leased tab _ | .sent tab _ _ | .publish tab _ _ => some tab
  | .releaseLease tab _ | .removeLease tab _ => some tab
  | _ => none

/-- The browser releases the lock of a tab that is closed; its request may have left. -/
def close (webLocks : Bool) (browser : Browser) (phase : Phase) : Answer :=
  let released := if webLocks && phase.owner?.isSome then unlock browser else browser
  match phase with
  | .sent tab token _ => some (.read (.abandoned token) (leave released tab))
  | phase => phase.tab?.map fun tab => .read (.finished .closed) (leave released tab)

def redeem (browser : Browser) (token : Nat) (after : Browser → Effect Browser Phase Empty) : Answer :=
  if token ∈ browser.redeemed then none else
    some (after { browser with redeemed := token :: browser.redeemed })

def setCookie (browser : Browser) : Browser :=
  { browser with cookie := browser.nextToken, nextToken := browser.nextToken + 1 }

def afterSent (webLocks : Bool) (browser : Browser) (tab token : Nat) : Input → Answer
  | .heartbeat => if webLocks then none else some (.read (.sent tab token (ownsLease browser tab)) browser)
  | .rotated => redeem browser token fun browser => .read (.publish tab true .rotated) (setCookie browser)
  | .lost => redeem browser token fun browser => .read (.publish tab false .failed) browser
  | .refused => some (.read (.publish tab false .failed) browser)
  | _ => none

def afterAbandoned (browser : Browser) (token : Nat) : Input → Answer
  | .rotated => redeem browser token fun browser => .read (.finished .closed) (setCookie browser)
  | .lost => redeem browser token fun browser => .read (.finished .closed) browser
  | _ => some (.read (.finished .closed) browser)

/-- The step of an open tab, with a `localStorage` that works or throws. -/
def proceed (webLocks : Bool) (browser : Browser) (phase : Phase) (input : Input) (works : Bool) : Answer :=
  match phase with
  | .requestLock tab before =>
    if browser.locked then none
    else if works && rotationCompletedAfter browser before then finish browser tab .alreadyRotated
    else some (.read (.sent tab browser.cookie false) { browser with locked := true })
  | .checkLease tab before =>
    if works && heldByAnother browser tab then
      some (.read (.waitForAnotherTab tab before (browser.now + leaseMs)) browser)
    else some (.read (.writeLease tab before) browser)
  | .writeLease tab before =>
    if works then some (.read (.readBack tab before) (putLease browser tab))
    else some (.read (.retryLater tab before (browser.now + 25)) browser)
  | .readBack tab before =>
    if works && ownsLease browser tab then some (.read (.leased tab before) browser)
    else some (.read (.retryLater tab before (browser.now + 25)) browser)
  | .leased tab before =>
    if works && rotationCompletedAfter browser before then
      some (.read (.releaseLease tab .alreadyRotated) browser)
    else some (.read (.sent tab browser.cookie false) browser)
  | .waitForAnotherTab tab before deadline =>
    if input = .notified ∨ deadline ≤ browser.now then some (.read (.awake tab before) browser) else none
  | .awake tab before =>
    if works && rotationCompletedAfter browser before then finish browser tab .alreadyRotated
    else some (.read (.checkLease tab before) browser)
  | .retryLater tab before deadline =>
    if deadline ≤ browser.now then some (.read (.checkLease tab before) browser) else none
  | .sent tab token true =>
      some (.read (.sent tab token false) (if works then putLease browser tab else browser))
  | .sent tab token false => afterSent webLocks browser tab token input
  | .publish tab success outcome =>
    settle webLocks (if works then publishRotationResult browser success else browser) tab outcome
  | .releaseLease tab outcome =>
    if works && ownsLease browser tab then some (.read (.removeLease tab outcome) browser)
    else finish browser tab outcome
  | .removeLease tab outcome => finish (if works then { browser with lease := none } else browser) tab outcome
  | .abandoned token => afterAbandoned browser token input
  | .finished _ => none

def next (webLocks : Bool) (browser : Browser) (phase : Phase) (input : Input) : Answer :=
  if input = .closed then close webLocks browser phase
  else proceed webLocks browser phase input (input ≠ .storageFails)

def start (webLocks : Bool) (browser : Browser) : Request → Option (Phase × Browser)
  | .refreshSession tab storageWorks =>
    let before := if storageWorks then browser.rotationResult else none
    -- within a tab everyone waits for the one call
    if tab ∈ browser.refreshing then none
    else some (if webLocks then .requestLock tab before else .checkLease tab before,
      { browser with refreshing := tab :: browser.refreshing })
  | .wait milliseconds => some (.finished .passed, { browser with now := browser.now + milliseconds })

def tabSystem (webLocks : Bool) : System Unit Browser Phase Empty Input Request where
  apply _ w := w.elim
  admits _ w := w.elim
  conflicts w := w.elim
  failed phase := phase
  start := start webLocks
  next _ := next webLocks

def initialState : State Unit Browser Phase Empty := ⟨(), ⟨0, none, none, false, [], 0, [], 1⟩, []⟩

def Phase.takes : Phase → Bool
  | .writeLease _ _ | .readBack _ _ => true
  | _ => false

/-- What the lease relies on, and a browser with Web Locks does not: a look at the lease does not fail, no
    lease runs out while its owner is still at it, and no tab writes the lease while another is about to write
    it or to read it back. -/
def undisturbed (webLocks : Bool) : Guard Unit Browser Phase Input where
  alone _ browser phase input := webLocks || input = .closed || match phase with
    | .checkLease tab _ => input ≠ .storageFails && browser.lease.all fun lease =>
      lease.owner = tab || browser.now < lease.expiresAt || !browser.refreshing.contains lease.owner
    | _ => true
  beside phase input other := webLocks || input = .closed || input = .storageFails || match phase with
    | .writeLease _ _ => !other.takes
    | _ => true

/-- Besides, no answer of the server is lost, and no tab is closed while its request is on its way. -/
def answered (webLocks : Bool) : Guard Unit Browser Phase Input where
  alone db browser phase input := (undisturbed webLocks).alone db browser phase input && match phase with
    | .sent _ _ _ => input ≠ .lost && input ≠ .closed
    | _ => true
  beside := (undisturbed webLocks).beside

def Phase.Suits (webLocks : Bool) : Phase → Prop
  | .requestLock _ _ => webLocks = true
  | .sent _ _ false | .publish _ _ _ | .abandoned _ | .finished _ => True
  | _ => webLocks = false

inductive Idles : Phase → Phase → Prop
  | held {tab before deadline} : Idles (.checkLease tab before) (.waitForAnotherTab tab before deadline)
  | unwritten {tab before deadline} : Idles (.writeLease tab before) (.retryLater tab before deadline)
  | unread {tab before deadline} : Idles (.readBack tab before) (.retryLater tab before deadline)
  | notified {tab before deadline} : Idles (.waitForAnotherTab tab before deadline) (.awake tab before)
  | unserved {tab before} : Idles (.awake tab before) (.checkLease tab before)
  | retried {tab before deadline} : Idles (.retryLater tab before deadline) (.checkLease tab before)

inductive Keeps (webLocks : Bool) (browser : Browser) : Phase → Phase → Prop
  | confirmed {tab before} : Keeps webLocks browser (.readBack tab before) (.leased tab before)
  | used {tab before} : Keeps webLocks browser (.leased tab before) (.sent tab browser.cookie false)
  | unneeded {tab before outcome} : Keeps webLocks browser (.leased tab before) (.releaseLease tab outcome)
  | beaten {tab token renews} (leases : webLocks = false) :
      Keeps webLocks browser (.sent tab token false) (.sent tab token renews)
  | removes {tab outcome} : Keeps webLocks browser (.releaseLease tab outcome) (.removeLease tab outcome)

inductive Answers (browser : Browser) (token : Nat) : Input → Browser → Prop
  | rotated (unredeemed : token ∉ browser.redeemed) :
      Answers browser token .rotated (setCookie { browser with redeemed := token :: browser.redeemed })
  | lost : Answers browser token .lost { browser with redeemed := token :: browser.redeemed }
  | unserved {input} : Answers browser token input browser

/-- Every answer of `next`, by what it changes of what the tabs share. -/
inductive Next (webLocks : Bool) (browser : Browser) : Phase → Input → Phase → Browser → Prop
  | waits {phase phase' input} (idles : Idles phase phase') : Next webLocks browser phase input phase' browser
  | goes {phase phase' input} (keeps : Keeps webLocks browser phase phase') :
      Next webLocks browser phase input phase' browser
  | looks {tab before input} (unclosed : input ≠ .closed)
      (free : input = .storageFails ∨ heldByAnother browser tab = false) :
      Next webLocks browser (.checkLease tab before) input (.writeLease tab before) browser
  | writes {tab before input} (unclosed : input ≠ .closed) (works : input ≠ .storageFails) :
      Next webLocks browser (.writeLease tab before) input (.readBack tab before) (putLease browser tab)
  | locks {tab before input} (free : browser.locked = false) : Next webLocks browser (.requestLock tab before)
      input (.sent tab browser.cookie false) { browser with locked := true }
  | renews {tab token input lease} (own : lease = browser.lease ∨ lease = (putLease browser tab).lease) :
      Next webLocks browser (.sent tab token true) input (.sent tab token false) { browser with lease }
  | served {tab token input success outcome browser'} (answer : Answers browser token input browser') :
      Next webLocks browser (.sent tab token false) input (.publish tab success outcome) browser'
  | publishes {tab success outcome input rotationResult} (leases : webLocks = false) :
      Next webLocks browser (.publish tab success outcome) input (.releaseLease tab outcome)
        { browser with rotationResult }
  | ends {phase tab input outcome lease locked rotationResult} (running : phase.tab? = some tab)
      (kept : phase.owner? = none → lease = browser.lease ∧ locked = browser.locked) :
      Next webLocks browser phase input (.finished outcome)
        (leave { browser with lease, locked, rotationResult } tab)
  | abandons {tab token renews locked} :
      Next webLocks browser (.sent tab token renews) .closed (.abandoned token)
        (leave { browser with locked } tab)
  | arrives {token input browser'} (answer : Answers browser token input browser') :
      Next webLocks browser (.abandoned token) input (.finished .closed) browser'

section Steps

variable {webLocks : Bool} {browser : Browser} {phase : Phase} {input : Input}
  {effect : Effect Browser Phase Empty}

theorem finish_ends {tab : Nat} {outcome : Outcome} {lease : Option Lease} {locked : Bool}
    {rotationResult : Option RotationResult} (running : phase.tab? = some tab)
    (kept : phase.owner? = none → lease = browser.lease ∧ locked = browser.locked)
    (answer : finish { browser with lease, locked, rotationResult } tab outcome = some effect) :
    ∃ phase' browser', effect = .read phase' browser' ∧
      Next webLocks browser phase input phase' browser' := by
  cases answer
  exact ⟨_, _, rfl, .ends running kept⟩

theorem close_ends {tab : Nat} (running : phase.tab? = some tab) (outcome : Outcome) :
    Next webLocks browser phase input (.finished outcome)
      (leave (if webLocks && phase.owner?.isSome then unlock browser else browser) tab) := by
  split
  · rename_i owned
    apply Next.ends running
    intro free
    rw [free, Option.isSome_none, Bool.and_false] at owned
    cases owned
  · exact .ends running fun _ => ⟨rfl, rfl⟩

theorem close_cases (answer : close webLocks browser phase = some effect) :
    ∃ phase' browser', effect = .read phase' browser' ∧
      Next webLocks browser phase .closed phase' browser' := by
  cases phase with
  | sent tab token renews =>
    cases answer
    refine ⟨_, _, rfl, ?_⟩
    split <;> exact .abandons
  | abandoned token => cases answer
  | finished outcome => cases answer
  | _ =>
    cases answer
    exact ⟨_, _, rfl, close_ends rfl _⟩

theorem afterSent_cases {tab token : Nat}
    (answer : afterSent webLocks browser tab token input = some effect) :
    ∃ phase' browser', effect = .read phase' browser' ∧
      Next webLocks browser (.sent tab token false) input phase' browser' := by
  cases input with
  | heartbeat =>
    simp only [afterSent] at answer
    split at answer
    · cases answer
    · rename_i leases
      cases answer
      exact ⟨_, _, rfl, .goes (.beaten (Bool.not_eq_true _ ▸ leases))⟩
  | rotated =>
    simp only [afterSent, redeem] at answer
    split at answer
    · cases answer
    · rename_i unredeemed
      cases answer
      exact ⟨_, _, rfl, .served (.rotated unredeemed)⟩
  | lost =>
    simp only [afterSent, redeem] at answer
    split at answer
    · cases answer
    · cases answer
      exact ⟨_, _, rfl, .served .lost⟩
  | refused =>
    cases answer
    exact ⟨_, _, rfl, .served .unserved⟩
  | _ => cases answer

theorem afterAbandoned_cases {token : Nat} (answer : afterAbandoned browser token input = some effect) :
    ∃ phase' browser', effect = .read phase' browser' ∧
      Next webLocks browser (.abandoned token) input phase' browser' := by
  cases input with
  | rotated =>
    simp only [afterAbandoned, redeem] at answer
    split at answer
    · cases answer
    · rename_i unredeemed
      cases answer
      exact ⟨_, _, rfl, .arrives (.rotated unredeemed)⟩
  | lost =>
    simp only [afterAbandoned, redeem] at answer
    split at answer
    · cases answer
    · cases answer
      exact ⟨_, _, rfl, .arrives .lost⟩
  | _ =>
    cases answer
    exact ⟨_, _, rfl, .arrives .unserved⟩

theorem settle_cases {tab : Nat} {success : Bool} {outcome : Outcome} {rotationResult : Option RotationResult}
    (answer : settle webLocks { browser with rotationResult } tab outcome = some effect) :
    ∃ phase' browser', effect = .read phase' browser' ∧
      Next webLocks browser (.publish tab success outcome) input phase' browser' := by
  cases webLocks with
  | true => exact finish_ends rfl (fun free => by cases free) answer
  | false =>
    cases answer
    exact ⟨_, _, rfl, .publishes rfl⟩

theorem proceed_cases (unclosed : input ≠ .closed)
    (answer : proceed webLocks browser phase input (input ≠ .storageFails) = some effect) :
    ∃ phase' browser', effect = .read phase' browser' ∧
      Next webLocks browser phase input phase' browser' := by
  cases phase with
  | requestLock tab before =>
    simp only [proceed] at answer
    split at answer
    · cases answer
    · rename_i free
      split at answer
      · exact finish_ends rfl (fun _ => ⟨rfl, rfl⟩) answer
      · cases answer
        exact ⟨_, _, rfl, .locks (Bool.not_eq_true _ ▸ free)⟩
  | checkLease tab before =>
    simp only [proceed] at answer
    split at answer
    · cases answer
      exact ⟨_, _, rfl, .waits .held⟩
    · rename_i unheld
      cases answer
      rw [Bool.and_eq_true, not_and, decide_eq_true_eq] at unheld
      refine ⟨_, _, rfl, .looks unclosed ?_⟩
      by_cases fails : input = .storageFails
      · exact .inl fails
      · exact .inr (Bool.not_eq_true _ ▸ unheld fails)
  | writeLease tab before =>
    simp only [proceed] at answer
    split at answer
    · rename_i works
      cases answer
      exact ⟨_, _, rfl, .writes unclosed (of_decide_eq_true works)⟩
    · cases answer
      exact ⟨_, _, rfl, .waits .unwritten⟩
  | readBack tab before =>
    simp only [proceed] at answer
    split at answer
    · cases answer
      exact ⟨_, _, rfl, .goes .confirmed⟩
    · cases answer
      exact ⟨_, _, rfl, .waits .unread⟩
  | leased tab before =>
    simp only [proceed] at answer
    split at answer
    · cases answer
      exact ⟨_, _, rfl, .goes .unneeded⟩
    · cases answer
      exact ⟨_, _, rfl, .goes .used⟩
  | waitForAnotherTab tab before deadline =>
    simp only [proceed] at answer
    split at answer
    · cases answer
      exact ⟨_, _, rfl, .waits .notified⟩
    · cases answer
  | awake tab before =>
    simp only [proceed] at answer
    split at answer
    · exact finish_ends rfl (fun _ => ⟨rfl, rfl⟩) answer
    · cases answer
      exact ⟨_, _, rfl, .waits .unserved⟩
  | retryLater tab before deadline =>
    simp only [proceed] at answer
    split at answer
    · cases answer
      exact ⟨_, _, rfl, .waits .retried⟩
    · cases answer
  | sent tab token renews =>
    cases renews with
    | true =>
      simp only [proceed] at answer
      cases answer
      refine ⟨_, _, rfl, ?_⟩
      split
      · exact .renews (.inr rfl)
      · exact .renews (.inl rfl)
    | false => exact afterSent_cases answer
  | publish tab success outcome =>
    simp only [proceed] at answer
    split at answer
    · exact settle_cases answer
    · exact settle_cases answer
  | releaseLease tab outcome =>
    simp only [proceed] at answer
    split at answer
    · cases answer
      exact ⟨_, _, rfl, .goes .removes⟩
    · exact finish_ends rfl (fun _ => ⟨rfl, rfl⟩) answer
  | removeLease tab outcome =>
    simp only [proceed] at answer
    split at answer
    · exact finish_ends rfl (fun free => by cases free) answer
    · exact finish_ends rfl (fun _ => ⟨rfl, rfl⟩) answer
  | abandoned token => exact afterAbandoned_cases answer
  | finished outcome => cases answer

theorem next_cases (answer : next webLocks browser phase input = some effect) :
    ∃ phase' browser', effect = .read phase' browser' ∧
      Next webLocks browser phase input phase' browser' := by
  unfold next at answer
  split at answer
  · rename_i same
    subst same
    exact close_cases answer
  · rename_i unclosed
    exact proceed_cases unclosed answer

end Steps

def Holds (webLocks : Bool) (browser : Browser) (tab : Nat) : Prop :=
  if webLocks then browser.locked = true else browser.lease.map (·.owner) = some tab

structure Running (webLocks : Bool) (browser : Browser) (phase : Phase) : Prop where
  refreshing : ∀ tab, phase.tab? = some tab → tab ∈ browser.refreshing
  suits : phase.Suits webLocks
  holds : ∀ tab, phase.owner? = some tab → Holds webLocks browser tab

/-- Beside an owner nobody is one, nor about to be. -/
structure Apart (phase other : Phase) : Prop where
  tabs : ∀ tab, phase.tab? = some tab → other.tab? ≠ some tab
  owner : phase.owner? ≠ none → other.owner? = none ∧ other.takes = false
  other : other.owner? ≠ none → phase.owner? = none ∧ phase.takes = false

def aloneAssertion (webLocks : Bool) : Assertion Unit Browser Phase Empty where
  common _ _ := True
  own _ browser phase _ := Running webLocks browser phase
  pair phase _ other _ := Apart phase other

section Invariant

variable {webLocks : Bool} {browser browser' : Browser} {phase phase' other : Phase} {input : Input}

theorem Apart.symm (apart : Apart phase other) : Apart other phase where
  tabs tab acts same := apart.tabs tab same acts
  owner := apart.other
  other := apart.owner

theorem Apart.quiet (tabs : ∀ tab, phase.tab? = some tab → other.tab? ≠ some tab) (free : phase.owner? = none)
    (takes : phase.takes = false) : Apart phase other where
  tabs := tabs
  owner owned := absurd free owned
  other _ := ⟨free, takes⟩

theorem Apart.beside (tabs : ∀ tab, phase.tab? = some tab → other.tab? ≠ some tab)
    (free : other.owner? = none) (takes : other.takes = false) : Apart phase other where
  tabs := tabs
  owner _ := ⟨free, takes⟩
  other owned := absurd free owned

theorem Phase.owner_tab {tab : Nat} (owned : phase.owner? = some tab) : phase.tab? = some tab := by
  cases phase <;> first | exact owned | cases owned

theorem Phase.takes_suits (takes : phase.takes = true) (suits : phase.Suits webLocks) : webLocks = false := by
  cases phase with
  | writeLease tab before => exact suits
  | readBack tab before => exact suits
  | _ => cases takes

theorem Idles.tab (idles : Idles phase phase') : phase'.tab? = phase.tab? := by
  cases idles <;> rfl

theorem Idles.quiet (idles : Idles phase phase') : phase'.owner? = none ∧ phase'.takes = false := by
  cases idles <;> exact ⟨rfl, rfl⟩

theorem Idles.suits (idles : Idles phase phase') (suits : phase.Suits webLocks) : phase'.Suits webLocks := by
  cases idles <;> exact suits

theorem Keeps.tab (keeps : Keeps webLocks browser phase phase') : phase'.tab? = phase.tab? := by
  cases keeps <;> rfl

theorem Keeps.owner (keeps : Keeps webLocks browser phase phase') :
    phase'.owner? = phase.owner? ∧ phase.owner? ≠ none := by
  cases keeps <;> exact ⟨rfl, Option.some_ne_none _⟩

theorem Keeps.suits (keeps : Keeps webLocks browser phase phase') (suits : phase.Suits webLocks) :
    phase'.Suits webLocks := by
  cases keeps with
  | used => exact True.intro
  | @beaten _ _ renews leases => cases renews with
    | true => exact leases
    | false => exact True.intro
  | _ => exact suits

theorem Answers.shares {token : Nat} (answer : Answers browser token input browser') :
    browser'.lease = browser.lease ∧ browser'.locked = browser.locked ∧ browser'.refreshing =
      browser.refreshing := by
  cases answer <;> exact ⟨rfl, rfl, rfl⟩

theorem next_tab (step : Next webLocks browser phase input phase' browser') :
    phase'.tab? = phase.tab? ∧ browser'.refreshing = browser.refreshing ∨
    phase'.tab? = none ∧
      (∃ tab, phase.tab? = some tab ∧ browser'.refreshing = browser.refreshing.filter (· ≠ tab)) ∨
    phase'.tab? = none ∧ browser'.refreshing = browser.refreshing := by
  cases step with
  | waits idles => exact .inl ⟨idles.tab, rfl⟩
  | goes keeps => exact .inl ⟨keeps.tab, rfl⟩
  | served answer => exact .inl ⟨rfl, answer.shares.2.2⟩
  | ends running kept => exact .inr (.inl ⟨rfl, _, running, rfl⟩)
  | abandons => exact .inr (.inl ⟨rfl, _, rfl, rfl⟩)
  | arrives answer => exact .inr (.inr ⟨rfl, answer.shares.2.2⟩)
  | _ => exact .inl ⟨rfl, rfl⟩

theorem holds_same {tab : Nat} (holds : Holds webLocks browser tab) (lease : browser'.lease = browser.lease)
    (locked : browser'.locked = browser.locked) : Holds webLocks browser' tab := by
  unfold Holds at holds ⊢
  rwa [lease, locked]

theorem holds_lease {tab : Nat} (leases : webLocks = false) (lease : browser.lease.map (·.owner) = some tab) :
    Holds webLocks browser tab := by
  rw [Holds, leases, if_neg Bool.false_ne_true]
  exact lease

theorem Running.finished (webLocks : Bool) (browser : Browser) (outcome : Outcome) :
    Running webLocks browser (.finished outcome) where
  refreshing _ held := by cases held
  suits := True.intro
  holds _ held := by cases held

theorem next_running (step : Next webLocks browser phase input phase' browser')
    (running : Running webLocks browser phase) : Running webLocks browser' phase' := by
  have refreshing : ∀ tab, phase'.tab? = some tab → tab ∈ browser'.refreshing := by
    intro tab acts
    rcases next_tab step with ⟨same, kept⟩ | ⟨gone, _⟩ | ⟨gone, _⟩
    · rw [kept]
      exact running.refreshing tab (same ▸ acts)
    · rw [gone] at acts
      cases acts
    · rw [gone] at acts
      cases acts
  cases step with
  | waits idles =>
    refine ⟨refreshing, idles.suits running.suits, ?_⟩
    intro tab owned
    rw [idles.quiet.1] at owned
    cases owned
  | goes keeps =>
    refine ⟨refreshing, keeps.suits running.suits, ?_⟩
    intro tab owned
    exact running.holds tab (keeps.owner.1 ▸ owned)
  | looks unclosed free =>
    refine ⟨refreshing, running.suits, ?_⟩
    intro tab owned
    cases owned
  | writes unclosed works =>
    refine ⟨refreshing, running.suits, ?_⟩
    intro tab owned
    cases owned
    exact holds_lease running.suits rfl
  | locks free =>
    refine ⟨refreshing, True.intro, ?_⟩
    intro tab owned
    have locks : webLocks = true := running.suits
    rw [Holds, if_pos locks]
  | renews own =>
    refine ⟨refreshing, True.intro, ?_⟩
    intro tab owned
    cases owned
    rcases own with rfl | rfl
    · exact holds_same (running.holds _ rfl) rfl rfl
    · exact holds_lease running.suits rfl
  | served answer =>
    refine ⟨refreshing, True.intro, ?_⟩
    intro tab owned
    exact holds_same (running.holds tab owned) answer.shares.1 answer.shares.2.1
  | publishes leases =>
    refine ⟨refreshing, leases, ?_⟩
    intro tab owned
    exact holds_same (running.holds tab owned) rfl rfl
  | abandons =>
    refine ⟨refreshing, True.intro, ?_⟩
    intro tab owned
    cases owned
  | _ => exact Running.finished _ _ _

theorem lease_free {tab : Nat} {before : Option RotationResult} (unclosed : input ≠ .closed)
    (free : input = .storageFails ∨ heldByAnother browser tab = false)
    (running : Running webLocks browser (.checkLease tab before))
    (otherRunning : Running webLocks browser other) (apart : Apart (.checkLease tab before) other)
    (guard : (undisturbed webLocks).alone () browser (.checkLease tab before) input = true) :
    other.owner? = none := by
  cases owned : other.owner? with
  | none => rfl
  | some tab' =>
    have leases : webLocks = false := running.suits
    have held := otherRunning.holds tab' owned
    rw [Holds, leases, if_neg Bool.false_ne_true] at held
    obtain ⟨lease, found, owner⟩ := Option.map_eq_some_iff.mp held
    have acts := Phase.owner_tab owned
    have different : lease.owner ≠ tab := fun same => apart.tabs tab rfl (by rw [acts, ← owner, same])
    have refreshes : lease.owner ∈ browser.refreshing := owner ▸ otherRunning.refreshing tab' acts
    simp only [undisturbed, leases, unclosed, found, different, Option.all_some, Bool.false_or,
      Bool.and_eq_true, Bool.or_eq_true, decide_eq_true_eq, decide_false, List.contains_eq_mem,
      refreshes, decide_true, Bool.not_true, Bool.false_eq_true, or_false, ne_eq] at guard
    rcases free with fails | free
    · exact absurd fails guard.1
    · simp [heldByAnother, found, different, guard.2] at free

theorem next_apart (step : Next webLocks browser phase input phase' browser')
    (running : Running webLocks browser phase) (otherRunning : Running webLocks browser other)
    (apart : Apart phase other) (alone : (undisturbed webLocks).alone () browser phase input = true)
    (beside : (undisturbed webLocks).beside phase input other = true) :
    Apart phase' other ∧
      (other.owner? = none ∨ browser'.lease = browser.lease ∧ browser'.locked = browser.locked) := by
  have tabs : ∀ tab, phase'.tab? = some tab → other.tab? ≠ some tab := by
    intro tab acts
    rcases next_tab step with ⟨same, _⟩ | ⟨gone, _⟩ | ⟨gone, _⟩
    · exact apart.tabs tab (same ▸ acts)
    · rw [gone] at acts
      cases acts
    · rw [gone] at acts
      cases acts
  -- the steps of an owner
  have owns : ∀ {tab}, phase.owner? = some tab → Apart phase' other ∧ other.owner? = none := by
    intro tab owned
    have quiet := apart.owner (by rw [owned]; exact Option.some_ne_none tab)
    exact ⟨.beside tabs quiet.1 quiet.2, quiet.1⟩
  cases step with
  | waits idles => exact ⟨.quiet tabs idles.quiet.1 idles.quiet.2, .inr ⟨rfl, rfl⟩⟩
  | goes keeps =>
    obtain ⟨tab, owned⟩ := Option.ne_none_iff_exists'.mp keeps.owner.2
    exact ⟨(owns owned).1, .inr ⟨rfl, rfl⟩⟩
  | looks unclosed free =>
    have others := lease_free unclosed free running otherRunning apart alone
    exact ⟨⟨tabs, fun owned => absurd rfl owned, fun owned => absurd others owned⟩, .inl others⟩
  | writes unclosed works =>
    have leases : webLocks = false := running.suits
    have others : other.owner? = none := by
      cases owned : other.owner? with
      | none => rfl
      | some tab =>
        have idle := (apart.other (by rw [owned]; exact Option.some_ne_none tab)).2
        cases idle
    have idle : other.takes = false := by simpa [undisturbed, leases, unclosed, works] using beside
    exact ⟨.beside tabs others idle, .inl others⟩
  | locks free =>
    have locks : webLocks = true := running.suits
    have others : other.owner? = none := by
      cases owned : other.owner? with
      | none => rfl
      | some tab' =>
        have held := otherRunning.holds tab' owned
        rw [Holds, if_pos locks, free] at held
        cases held
    have idle : other.takes = false := by
      cases takes : other.takes with
      | false => rfl
      | true => exact absurd (locks.symm.trans (Phase.takes_suits takes otherRunning.suits)) (by decide)
    exact ⟨.beside tabs others idle, .inl others⟩
  | renews own => exact ⟨(owns rfl).1, .inl (owns rfl).2⟩
  | served answer => exact ⟨(owns rfl).1, .inl (owns rfl).2⟩
  | publishes leases => exact ⟨(owns rfl).1, .inl (owns rfl).2⟩
  | abandons => exact ⟨.quiet tabs rfl rfl, .inl (owns rfl).2⟩
  | ends acts kept =>
    refine ⟨.quiet tabs rfl rfl, ?_⟩
    cases owned : phase.owner? with
    | none => exact .inr (kept owned)
    | some tab => exact .inl (owns owned).2
  | arrives answer => exact ⟨.quiet tabs rfl rfl, .inr ⟨answer.shares.1, answer.shares.2.1⟩⟩

theorem mem_leave {tab tab' : Nat} {tabs : List Nat} (member : tab' ∈ tabs) (different : tab' ≠ tab) :
    tab' ∈ tabs.filter (· ≠ tab) :=
  List.mem_filter.mpr ⟨member, decide_eq_true different⟩

theorem Running.keep (running : Running webLocks browser other)
    (refreshing : ∀ tab, other.tab? = some tab → tab ∈ browser'.refreshing)
    (same : other.owner? = none ∨ browser'.lease = browser.lease ∧ browser'.locked = browser.locked) :
    Running webLocks browser' other where
  refreshing := refreshing
  suits := running.suits
  holds tab owned := by
    rcases same with free | ⟨lease, locked⟩
    · rw [free] at owned
      cases owned
    · exact holds_same (running.holds tab owned) lease locked

theorem next_others (step : Next webLocks browser phase input phase' browser')
    (otherRunning : Running webLocks browser other) (apart : Apart phase other)
    (same : other.owner? = none ∨ browser'.lease = browser.lease ∧ browser'.locked = browser.locked) :
    Running webLocks browser' other := by
  refine otherRunning.keep ?_ same
  intro tab acts
  have before := otherRunning.refreshing tab acts
  rcases next_tab step with ⟨_, kept⟩ | ⟨_, tab', mine, kept⟩ | ⟨_, kept⟩
  · rwa [kept]
  · rw [kept]
    exact mem_leave before fun equal => apart.tabs tab' mine (equal ▸ acts)
  · rwa [kept]

theorem moves_next {label : Option Input} {pending pending' : List Empty}
    (moves : (tabSystem webLocks).Moves () browser phase pending label () browser' phase' pending') :
    (∃ input, label = some input ∧ Next webLocks browser phase input phase' browser') ∨
      label = none ∧ phase' = phase ∧ browser' = browser := by
  cases moves with
  | read answer =>
    obtain ⟨_, _, same, step⟩ := next_cases answer
    cases same
    exact .inl ⟨_, rfl, step⟩
  | @write _ w => exact w.elim
  | @refused _ w => exact w.elim
  | commit answer =>
    obtain ⟨_, _, same, _⟩ := next_cases answer
    cases same
  | fail answer =>
    obtain ⟨_, _, same, _⟩ := next_cases answer
    cases same
  | abort => exact .inr ⟨rfl, rfl, rfl⟩

theorem start_cases {request : Request} (started : start webLocks browser request = some (phase, browser')) :
    phase.owner? = none ∧ phase.takes = false ∧ phase.Suits webLocks ∧
    ((∃ tab, tab ∉ browser.refreshing ∧ phase.tab? = some tab ∧
        browser' = { browser with refreshing := tab :: browser.refreshing }) ∨
      ∃ now, phase.tab? = none ∧ browser' = { browser with now }) := by
  cases request with
  | refreshSession tab storageWorks =>
    simp only [start] at started
    split at started
    · cases started
    · rename_i absent
      cases started
      cases webLocks <;> exact ⟨rfl, rfl, rfl, .inl ⟨tab, absent, rfl, rfl⟩⟩
  | wait milliseconds =>
    cases started
    exact ⟨rfl, rfl, True.intro, .inr ⟨_, rfl, rfl⟩⟩

theorem alone_stable (webLocks : Bool) :
    Stable (tabSystem webLocks) (undisturbed webLocks) Assertion.trivial (aloneAssertion webLocks) where
  start _ _ started := by
    obtain ⟨free, _, suits, ⟨tab, _, acts, rfl⟩ | ⟨now, acts, rfl⟩⟩ := start_cases started
    · refine ⟨True.intro, ?_, suits, ?_⟩
      · intro tab' held
        rw [acts] at held
        cases held
        exact List.mem_cons_self
      · intro tab' owned
        rw [free] at owned
        cases owned
    · refine ⟨True.intro, ?_, suits, ?_⟩
      · intro tab' held
        rw [acts] at held
        cases held
      · intro tab' owned
        rw [free] at owned
        cases owned
  startOther {db browser request phase browser' other otherPending} _ _ otherRunning started := by
    obtain ⟨free, takes, _, ⟨tab, absent, acts, rfl⟩ | ⟨now, acts, rfl⟩⟩ := start_cases started
    · have apart : Apart phase other := by
        apply Apart.quiet _ free takes
        intro tab' held same
        rw [acts] at held
        cases held
        exact absent (otherRunning.refreshing tab same)
      refine ⟨otherRunning.keep ?_ (.inr ⟨rfl, rfl⟩), apart, apart.symm⟩
      intro tab' held
      exact List.mem_cons_of_mem _ (otherRunning.refreshing tab' held)
    · have apart : Apart phase other := by
        apply Apart.quiet _ free takes
        intro tab' held
        rw [acts] at held
        cases held
      exact ⟨otherRunning.keep otherRunning.refreshing (.inr ⟨rfl, rfl⟩), apart, apart.symm⟩
  own _ _ _ running _ moves := by
    rcases moves_next moves with ⟨input, rfl, step⟩ | ⟨_, rfl, rfl⟩
    · exact ⟨True.intro, next_running step running⟩
    · exact ⟨True.intro, running⟩
  other _ _ _ _ _ _ running otherRunning apart _ allowed _ moves := by
    rcases moves_next moves with ⟨input, rfl, step⟩ | ⟨_, rfl, rfl⟩
    · obtain ⟨alone, beside⟩ := allowed input rfl
      obtain ⟨kept, same⟩ := next_apart step running otherRunning apart alone beside
      exact ⟨next_others step otherRunning apart same, kept, kept.symm⟩
    · exact ⟨otherRunning, apart, apart.symm⟩

structure Unredeemed (browser : Browser) : Prop where
  fresh : browser.cookie ∉ browser.redeemed
  cookie : browser.cookie < browser.nextToken
  redeemed : ∀ token ∈ browser.redeemed, token < browser.nextToken

structure Carries (browser : Browser) (phase : Phase) : Prop where
  token : ∀ tab token renews, phase = .sent tab token renews → token = browser.cookie
  answered : ∀ token, phase ≠ .abandoned token

def cookieAssertion : Assertion Unit Browser Phase Empty where
  common _ browser := Unredeemed browser
  own _ browser phase _ := Carries browser phase
  pair _ _ _ _ := True

theorem Unredeemed.same (unredeemed : Unredeemed browser) (cookie : browser'.cookie = browser.cookie)
    (redeemed : browser'.redeemed = browser.redeemed) (nextToken : browser'.nextToken = browser.nextToken) :
    Unredeemed browser' where
  fresh := by
    rw [cookie, redeemed]
    exact unredeemed.fresh
  cookie := by
    rw [cookie, nextToken]
    exact unredeemed.cookie
  redeemed := by
    rw [redeemed, nextToken]
    exact unredeemed.redeemed

theorem Unredeemed.rotated (unredeemed : Unredeemed browser) :
    Unredeemed (setCookie { browser with redeemed := browser.cookie :: browser.redeemed }) where
  fresh member := by
    rcases List.mem_cons.mp member with same | earlier
    · exact absurd same (Nat.ne_of_gt unredeemed.cookie)
    · exact Nat.lt_irrefl _ (unredeemed.redeemed _ earlier)
  cookie := Nat.lt_succ_self _
  redeemed token member := by
    apply Nat.lt_succ_of_lt
    rcases List.mem_cons.mp member with rfl | earlier
    · exact unredeemed.cookie
    · exact unredeemed.redeemed token earlier

theorem Carries.unsent (unsent : ∀ tab token renews, phase ≠ .sent tab token renews)
    (answered : ∀ token, phase ≠ .abandoned token) : Carries browser phase where
  token tab token renews same := absurd same (unsent tab token renews)
  answered := answered

theorem next_carries (step : Next webLocks browser phase input phase' browser')
    (unredeemed : Unredeemed browser) (carries : Carries browser phase)
    (guard : (answered webLocks).alone () browser phase input = true) :
    Unredeemed browser' ∧ Carries browser' phase' := by
  cases step with
  | waits idles =>
    refine ⟨unredeemed, ?_⟩
    cases idles <;> exact .unsent (fun _ _ _ same => by cases same) (fun _ same => by cases same)
  | goes keeps =>
    refine ⟨unredeemed, ?_⟩
    cases keeps with
    | used => exact ⟨fun _ _ _ same => by cases same; rfl, fun _ same => by cases same⟩
    | beaten leases =>
      refine ⟨?_, fun _ same => by cases same⟩
      intro tab token renews same
      cases same
      exact carries.token _ _ _ rfl
    | _ => exact .unsent (fun _ _ _ same => by cases same) (fun _ same => by cases same)
  | locks free =>
    exact ⟨unredeemed.same rfl rfl rfl, fun _ _ _ same => by cases same; rfl, fun _ same => by cases same⟩
  | renews own =>
    refine ⟨unredeemed.same rfl rfl rfl, ?_, fun _ same => by cases same⟩
    intro tab token renews same
    cases same
    exact carries.token _ _ _ rfl
  | served answer =>
    refine ⟨?_, .unsent (fun _ _ _ same => by cases same) (fun _ same => by cases same)⟩
    cases answer with
    | rotated new =>
      have token := carries.token _ _ _ rfl
      rw [token]
      exact unredeemed.rotated
    | lost => simp [answered] at guard
    | unserved => exact unredeemed
  | abandons => simp [answered] at guard
  | arrives answer => exact absurd rfl (carries.answered _)
  | _ =>
    exact ⟨unredeemed.same rfl rfl rfl, .unsent (fun _ _ _ same => by cases same)
      (fun _ same => by cases same)⟩

/-- The cookie changes with a call's answer only, when no other request is on its way. -/
theorem next_cookie (step : Next webLocks browser phase input phase' browser') (apart : Apart phase other)
    (carries : Carries browser phase) (others : Carries browser other) : Carries browser' other := by
  have keep : browser'.cookie = browser.cookie → Carries browser' other := by
    intro cookie
    exact ⟨fun tab token renews same => cookie ▸ others.token tab token renews same, others.answered⟩
  cases step with
  | served answer =>
    refine .unsent ?_ others.answered
    intro tab token renews same
    have free := (apart.owner (Option.some_ne_none _)).1
    rw [same] at free
    cases free
  | arrives answer => exact absurd rfl (carries.answered _)
  | _ => exact keep rfl

theorem start_carries {request : Request}
    (started : start webLocks browser request = some (phase, browser')) :
    Carries browser' phase ∧ browser'.cookie = browser.cookie ∧ browser'.redeemed = browser.redeemed ∧
      browser'.nextToken = browser.nextToken := by
  cases request with
  | refreshSession tab storageWorks =>
    simp only [start] at started
    split at started
    · cases started
    · cases started
      cases webLocks <;>
        exact ⟨.unsent (fun _ _ _ same => by cases same) (fun _ same => by cases same), rfl, rfl, rfl⟩
  | wait milliseconds =>
    cases started
    exact ⟨.unsent (fun _ _ _ same => by cases same) (fun _ same => by cases same), rfl, rfl, rfl⟩

theorem cookie_stable (webLocks : Bool) :
    Stable (tabSystem webLocks) (answered webLocks) (aloneAssertion webLocks) cookieAssertion where
  start _ unredeemed started := by
    obtain ⟨carries, cookie, redeemed, nextToken⟩ := start_carries started
    exact ⟨unredeemed.same cookie redeemed nextToken, carries⟩
  startOther _ _ others started := by
    obtain ⟨_, cookie, _, _⟩ := start_carries started
    exact ⟨⟨fun tab token renews same => cookie ▸ others.token tab token renews same, others.answered⟩,
      True.intro, True.intro⟩
  own _ _ unredeemed carries allowed moves := by
    rcases moves_next moves with ⟨input, rfl, step⟩ | ⟨_, rfl, rfl⟩
    · exact next_carries step unredeemed carries (allowed input rfl)
    · exact ⟨unredeemed, carries⟩
  other _ _ _ apart _ _ carries others _ _ _ _ moves := by
    rcases moves_next moves with ⟨input, _, step⟩ | ⟨_, rfl, rfl⟩
    · exact ⟨next_cookie step apart carries others, True.intro, True.intro⟩
    · exact ⟨others, True.intro, True.intro⟩

end Invariant

theorem undisturbed_alone {webLocks : Bool} {s : State Unit Browser Phase Empty}
    (run : Runs (tabSystem webLocks) (undisturbed webLocks) initialState s) :
    (aloneAssertion webLocks).Holds s := by
  apply And.right
  exact holds_idle_runs (fun w => w.elim) (alone_stable webLocks) (fun t _ => Assertion.trivial_holds t)
    rfl True.intro run

theorem answered_undisturbed {webLocks : Bool} {s s' : State Unit Browser Phase Empty}
    (run : Runs (tabSystem webLocks) (answered webLocks) s s') :
    Runs (tabSystem webLocks) (undisturbed webLocks) s s' := by
  refine run.weaken ?_
  intro t action allowed
  cases action with
  | run i input =>
    simp only [Guard.allows, answered, Bool.and_assoc] at allowed ⊢
    cases found : t.sessions[i]? with
    | none => rfl
    | some session =>
      rw [found] at allowed
      simp only [Option.all_some, Bool.and_eq_true] at allowed ⊢
      exact ⟨allowed.1, allowed.2.2⟩
  | _ => rfl

theorem answered_cookie {webLocks : Bool} {s : State Unit Browser Phase Empty}
    (run : Runs (tabSystem webLocks) (answered webLocks) initialState s) : cookieAssertion.Holds s := by
  apply And.right
  apply holds_idle_runs (fun w => w.elim) (cookie_stable webLocks)
    (fun t before => undisturbed_alone (answered_undisturbed before)) rfl _ run
  exact ⟨List.not_mem_nil, Nat.lt_succ_self 0, fun _ held => (List.not_mem_nil held).elim⟩

/-- One open tab at most has a request on its way. As long as every request is answered while its tab is open,
    it carries the current refresh token, which the server has not redeemed. -/
theorem refreshes_alone {webLocks : Bool} {s : State Unit Browser Phase Empty}
    (run : Runs (tabSystem webLocks) (undisturbed webLocks) initialState s) {i : Nat}
    {session : Session Phase Empty} (found : s.sessions[i]? = some session) {tab token : Nat} {renews : Bool}
    (sends : session.phase = .sent tab token renews) :
    (∀ j other, j ≠ i → s.sessions[j]? = some other → ∀ tab' token' renews',
      other.phase ≠ .sent tab' token' renews') ∧
    (Runs (tabSystem webLocks) (answered webLocks) initialState s →
      token = s.outside.cookie ∧ token ∉ s.outside.redeemed ∧
      ∀ (j : Nat) other, s.sessions[j]? = some other → ∀ token', other.phase ≠ .abandoned token') := by
  have alone := undisturbed_alone run
  constructor
  · intro j other apart hOther tab' token' renews' same
    have pair := alone.pair i j session other (Ne.symm apart) found hOther
    have free := (pair.owner (by rw [sends]; exact Option.some_ne_none tab)).1
    rw [same] at free
    cases free
  · intro answeredRun
    have cookie := answered_cookie answeredRun
    have carried := (cookie.own i session found).token tab token renews sends
    exact ⟨carried, carried ▸ cookie.common.fresh, fun j other hOther => (cookie.own j other hOther).answered⟩

def Phase.sent? : Phase → Option (Nat × Nat × Bool)
  | .sent tab token renews => some (tab, token, renews)
  | _ => none

theorem Phase.sent_some {phase : Phase} {tab token : Nat} {renews : Bool}
    (sent : phase.sent? = some (tab, token, renews)) : phase = .sent tab token renews := by
  cases phase with
  | sent tab' token' renews' =>
    cases sent
    rfl
  | _ => cases sent

/-- Without Web Locks two tabs have asked at once, and the one that waited asks again after the other was
    refused. -/
theorem refreshes_alone_lease : ∃ s session tab token renews,
    Runs (tabSystem false) (answered false) initialState s ∧ s.sessions[1]? = some session ∧
    session.phase = .sent tab token renews ∧
    (∀ j other, j ≠ 1 → s.sessions[j]? = some other → ∀ tab' token' renews',
      other.phase ≠ .sent tab' token' renews') ∧
    token = s.outside.cookie ∧ token ∉ s.outside.redeemed := by
  have ran : ((tabSystem false).perform (answered false) initialState [.start (.refreshSession 7 true),
      .start (.refreshSession 8 true), .run 0 .proceed, .run 0 .proceed, .run 1 .proceed, .run 0 .proceed,
      .run 0 .proceed, .run 0 .heartbeat, .run 0 .proceed, .run 0 .refused, .run 0 .proceed, .run 0 .proceed,
      .run 0 .proceed, .run 1 .notified, .run 1 .proceed, .run 1 .proceed, .run 1 .proceed, .run 1 .proceed,
      .run 1 .proceed]).any (fun s => s.sessions[1]?.any fun session => session.phase.sent?.isSome) =
          true := by
    decide +kernel
  obtain ⟨s, run, checked⟩ := runs_of_performed ran
  obtain ⟨session, found, sending⟩ := (Option.any_eq_true _ _).mp checked
  obtain ⟨⟨tab, token, renews⟩, sent⟩ := Option.isSome_iff_exists.mp sending
  have sends := Phase.sent_some sent
  obtain ⟨others, carried⟩ := refreshes_alone (answered_undisturbed run) found sends
  obtain ⟨cookie, unredeemed, _⟩ := carried run
  exact ⟨s, session, tab, token, renews, run, found, sends, others, cookie, unredeemed⟩

/-- Two tabs that look at the free lease at once both send: each reads back its own, as the second writes
    after the first has read back. -/
theorem lease_races : ∃ s, Runs (tabSystem false) Guard.free initialState s ∧
    (s.sessions.filter fun session => session.phase.sent?.isSome).length = 2 := by
  have ran : ((tabSystem false).perform Guard.free initialState [.start (.refreshSession 7 true),
      .start (.refreshSession 8 true), .run 0 .proceed, .run 1 .proceed, .run 0 .proceed, .run 0 .proceed,
      .run 1 .proceed, .run 1 .proceed, .run 0 .proceed, .run 1 .proceed]).any (fun s =>
      (s.sessions.filter fun session => session.phase.sent?.isSome).length = 2) = true := by decide +kernel
  obtain ⟨s, run, checked⟩ := runs_of_performed ran
  exact ⟨s, run, of_decide_eq_true checked⟩

end ManifestCV.Auth.CrossTab
