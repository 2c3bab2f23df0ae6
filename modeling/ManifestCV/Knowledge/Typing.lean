import ManifestCV.Foundation.Machine
import ManifestCV.Foundation.Text

namespace ManifestCV.Knowledge

open Foundation

structure CareerKnowledgePage where
  content : Str
  prevKnowledgeContent : Option Str
  /-- The content of `knowledgeBase`, once the query has data. -/
  knowledgeBase : Option Str
  /-- A fetch of the query in flight, with the content once the server has read it. -/
  fetching : Option (Option Str)
  /-- The content of a save in flight, and whether the server has stored it. -/
  saving : Option (Str × Bool)
  server : Str
  deriving DecidableEq

inductive PageAction where
  | type (text : Str)
  | save
  /-- The server stores what the save sent. -/
  | store
  | saved
  | saveFailed
  | refetch
  /-- The server reads the content for a fetch. -/
  | read
  | fetched
  | fetchFailed
  deriving DecidableEq

namespace CareerKnowledgePage

def initial (server : Str) : CareerKnowledgePage := ⟨[], none, none, some none, none, server⟩

def isDirty (page : CareerKnowledgePage) : Bool := page.knowledgeBase.any fun stored => page.content ≠ stored

def render (page : CareerKnowledgePage) : CareerKnowledgePage :=
  match page.knowledgeBase with
  | some stored =>
    if page.prevKnowledgeContent ≠ some stored then
      { page with prevKnowledgeContent := some stored, content := stored } else page
  | none => page

def setQueryData (page : CareerKnowledgePage) (text : Str) : CareerKnowledgePage :=
  { page with knowledgeBase := some text }.render

section Steps

-- What `trim` leaves nothing of.
variable (isBlank : Str → Bool)

def step (page : CareerKnowledgePage) : PageAction → Option CareerKnowledgePage
  | .type text => if page.knowledgeBase.isSome then some { page with content := text } else none
  | .save =>
    -- A button is disabled while it is loading.
    if page.isDirty ∧ ¬ isBlank page.content ∧ page.saving.isNone then
      some { page with saving := some (page.content, false) } else none
  | .store =>
    match page.saving with
    | some (sent, false) => some { page with server := sent, saving := some (sent, true) }
    | _ => none
  | .saved =>
    match page.saving with
    | some (sent, true) => some ({ page with saving := none }.setQueryData sent)
    | _ => none
  | .saveFailed => if page.saving.isSome then some { page with saving := none } else none
  | .refetch => if page.fetching.isNone then some { page with fetching := some none } else none
  | .read => if page.fetching = some none then some { page with fetching := some (some page.server) }
      else none
  | .fetched =>
    match page.fetching with
    | some (some text) => some ({ page with fetching := none }.setQueryData text)
    | _ => none
  | .fetchFailed => if page.fetching.isSome then some { page with fetching := none } else none

end Steps

end CareerKnowledgePage

structure Watched where
  page : CareerKnowledgePage
  sent : Bool
  typed : Option Str
  deriving DecidableEq

namespace Watched

variable (isBlank : Str → Bool)

def initial (server : Str) : Watched := ⟨.initial server, false, none⟩

def remember (watched : Watched) (action : PageAction) (page : CareerKnowledgePage) : Watched :=
  match action with
  | .type text => { watched with page, typed := if watched.sent then some text else none }
  | .save => { watched with page, sent := true }
  | _ => { watched with page }

def step (watched : Watched) (action : PageAction) : Option Watched :=
  (watched.page.step isBlank action).map (watched.remember action)

/-- What was typed after a save was sent is in the editor, and the page counts as changed while the editor
    differs from what the server stored. -/
structure Kept (watched : Watched) : Prop where
  survives : ∀ text, watched.typed = some text → watched.page.content = text
  changed : watched.page.knowledgeBase.isSome = true → watched.page.content ≠ watched.page.server →
    watched.page.isDirty = true

/-- The text that arrives is not put in place of another one that was typed. -/
def spares (watched : Watched) (text : Str) : Bool :=
  watched.typed.isNone || watched.page.prevKnowledgeContent = some text || watched.page.content = text

/-- No answer changes the content that the page knows while the editor holds something else that was typed
    after the save; no fetch brings a content that the server has replaced since; and the user does not type
    the content that the page knows while the server stores another. -/
def meets (watched : Watched) : PageAction → Bool
  | .type text => watched.page.knowledgeBase = some watched.page.server ||
      watched.page.knowledgeBase ≠ some text
  | .store => watched.page.saving.all fun (sent, _) =>
      watched.page.knowledgeBase = some sent || watched.page.knowledgeBase ≠ some watched.page.content
  | .saved => watched.page.saving.all fun (sent, _) => watched.spares sent
  | .fetched => watched.page.fetching.join.all fun text => watched.spares text &&
      (text = watched.page.server || watched.page.prevKnowledgeContent = some text &&
        watched.page.content ≠ text)
  | _ => true

end Watched

namespace CareerKnowledgePage

/-- New data of the query leave the editor alone only if the page has seen this content last. -/
theorem setQueryData_eq (page : CareerKnowledgePage) (text : Str) : page.setQueryData text =
    { page with
      knowledgeBase := some text
      prevKnowledgeContent := some text
      content := if page.prevKnowledgeContent = some text then page.content else text } := by
  unfold setQueryData render
  by_cases seen : page.prevKnowledgeContent = some text
  · simp [seen]
  · simp [seen]

inductive Stepped (page : CareerKnowledgePage) : PageAction → CareerKnowledgePage → Prop
  | type (text : Str) {known : Str} :
      page.knowledgeBase = some known → Stepped page (.type text) { page with content := text }
  | save : Stepped page .save { page with saving := some (page.content, false) }
  | store {sent : Str} : page.saving = some (sent, false) →
      Stepped page .store { page with server := sent, saving := some (sent, true) }
  | saved {sent : Str} : page.saving = some (sent, true) →
      Stepped page .saved ({ page with saving := none }.setQueryData sent)
  | saveFailed : Stepped page .saveFailed { page with saving := none }
  | refetch : Stepped page .refetch { page with fetching := some none }
  | read : Stepped page .read { page with fetching := some (some page.server) }
  | fetched {text : Str} : page.fetching = some (some text) →
      Stepped page .fetched ({ page with fetching := none }.setQueryData text)
  | fetchFailed : Stepped page .fetchFailed { page with fetching := none }

theorem step_stepped {isBlank : Str → Bool} {page page' : CareerKnowledgePage} {action : PageAction}
    (taken : page.step isBlank action = some page') : page.Stepped action page' := by
  cases action with
  | type text =>
    obtain ⟨shown, same⟩ := Option.ite_none_right_eq_some.mp taken
    obtain ⟨known, here⟩ := Option.isSome_iff_exists.mp shown
    cases same
    exact .type text here
  | save =>
    obtain ⟨_, same⟩ := Option.ite_none_right_eq_some.mp taken
    cases same
    exact .save
  | store =>
    rw [step] at taken
    split at taken
    · rename_i sent pending
      cases taken
      exact .store pending
    · cases taken
  | saved =>
    rw [step] at taken
    split at taken
    · rename_i sent pending
      cases taken
      exact .saved pending
    · cases taken
  | saveFailed =>
    obtain ⟨_, same⟩ := Option.ite_none_right_eq_some.mp taken
    cases same
    exact .saveFailed
  | refetch =>
    obtain ⟨_, same⟩ := Option.ite_none_right_eq_some.mp taken
    cases same
    exact .refetch
  | read =>
    obtain ⟨_, same⟩ := Option.ite_none_right_eq_some.mp taken
    cases same
    exact .read
  | fetched =>
    rw [step] at taken
    split at taken
    · rename_i text answer
      cases taken
      exact .fetched answer
    · cases taken
  | fetchFailed =>
    obtain ⟨_, same⟩ := Option.ite_none_right_eq_some.mp taken
    cases same
    exact .fetchFailed

end CareerKnowledgePage

namespace Watched

variable {isBlank : Str → Bool} {watched watched' : Watched} {action : PageAction}

structure Settled (watched : Watched) : Prop where
  rendered : watched.page.prevKnowledgeContent = watched.page.knowledgeBase
  stored : ∀ sent, watched.page.saving = some (sent, true) → watched.page.server = sent

theorem settled_step (settled : Settled watched) (taken : watched.step isBlank action = some watched') :
    Settled watched' := by
  obtain ⟨page, stepped, same⟩ := Option.map_eq_some_iff.mp taken
  subst same
  cases CareerKnowledgePage.step_stepped stepped with
  | type text shown => exact ⟨settled.rendered, settled.stored⟩
  | save => exact ⟨settled.rendered, fun sent pending => nomatch pending⟩
  | store pending =>
    refine ⟨settled.rendered, ?_⟩
    intro sent' pending'
    cases pending'
    rfl
  | saved pending =>
    rw [CareerKnowledgePage.setQueryData_eq]
    exact ⟨rfl, fun sent pending => nomatch pending⟩
  | saveFailed => exact ⟨settled.rendered, fun sent pending => nomatch pending⟩
  | refetch => exact ⟨settled.rendered, settled.stored⟩
  | read => exact ⟨settled.rendered, settled.stored⟩
  | fetched answer =>
    rw [CareerKnowledgePage.setQueryData_eq]
    exact ⟨rfl, settled.stored⟩
  | fetchFailed => exact ⟨settled.rendered, settled.stored⟩

theorem spares_iff (kept : Kept watched) (text : Str) :
    (∀ typed, watched.typed = some typed →
      (if watched.page.prevKnowledgeContent = some text then watched.page.content else text) = typed) ↔
    watched.spares text = true := by
  simp only [spares, Bool.or_eq_true, Option.isNone_iff_eq_none, decide_eq_true_eq]
  cases shape : watched.typed with
  | none => exact iff_of_true nofun (.inl (.inl rfl))
  | some typed =>
    have held := kept.survives typed shape
    by_cases seen : watched.page.prevKnowledgeContent = some text
    · rw [if_pos seen]
      apply iff_of_true
      · intro other same
        cases same
        exact held
      · exact .inl (.inr seen)
    · rw [if_neg seen]
      constructor
      · intro each
        exact .inr (held.trans (each typed rfl).symm)
      · rintro ((missing | same) | equal) other known
        · cases missing
        · exact absurd same seen
        · cases known
          exact equal.symm.trans held

/-- The page misses a change only where its editor holds the content that it knows and the server another
    one. -/
theorem changed_iff (page : CareerKnowledgePage) :
    (page.knowledgeBase.isSome = true → page.content ≠ page.server → page.isDirty = true) ↔
    (page.knowledgeBase = some page.content → page.content = page.server) := by
  unfold CareerKnowledgePage.isDirty
  cases page.knowledgeBase with
  | none => exact iff_of_true (fun missing => nomatch missing) (fun same => nomatch same)
  | some known =>
    simp only [Option.isSome_some, Option.any_some, decide_eq_true_eq, true_imp_iff, Option.some.injEq]
    constructor
    · intro dirty same
      exact by_contra fun differs => dirty differs same.symm
    · intro known differs same
      exact differs (known same.symm)

theorem kept_iff : Kept watched ↔ (∀ text, watched.typed = some text → watched.page.content = text) ∧
    (watched.page.knowledgeBase = some watched.page.content →
      watched.page.content = watched.page.server) := by
  rw [← changed_iff]
  exact ⟨fun kept => ⟨kept.survives, kept.changed⟩, fun both => ⟨both.1, both.2⟩⟩

theorem known_or (known : Option Str) (text other : Str) :
    (known = some text → text = other) ↔ known = some other ∨ known ≠ some text := by
  by_cases same : known = some text
  · subst same
    simp
  · simp [same]

theorem kept_step_iff (settled : Settled watched) (kept : Kept watched)
    (taken : watched.step isBlank action = some watched') :
    Kept watched' ↔ watched.meets action = true := by
  obtain ⟨page, stepped, same⟩ := Option.map_eq_some_iff.mp taken
  subst same
  obtain ⟨survives, known⟩ := kept_iff.mp kept
  rw [kept_iff]
  cases CareerKnowledgePage.step_stepped stepped with
  | type text shown =>
    have typed : ∀ typed, (if watched.sent = true then some text else none) = some typed → text = typed := by
      intro typed same
      split at same
      · exact Option.some.inj same
      · cases same
    simp only [meets, Bool.or_eq_true, decide_eq_true_eq, ← known_or]
    exact and_iff_right typed
  | save => exact iff_of_true ⟨survives, known⟩ rfl
  | store pending =>
    simp only [meets, pending, Option.all_some, Bool.or_eq_true, decide_eq_true_eq, ← known_or]
    exact and_iff_right survives
  | @saved sent pending =>
    simp only [meets, pending, Option.all_some, ← spares_iff kept, CareerKnowledgePage.setQueryData_eq]
    apply and_iff_left
    intro same
    exact (Option.some.inj same).symm.trans (settled.stored sent pending).symm
  | saveFailed => exact iff_of_true ⟨survives, known⟩ rfl
  | refetch => exact iff_of_true ⟨survives, known⟩ rfl
  | read => exact iff_of_true ⟨survives, known⟩ rfl
  | @fetched text answer =>
    simp only [meets, answer, Option.join_some, Option.all_some, Bool.and_eq_true, Bool.or_eq_true,
      decide_eq_true_eq, ← spares_iff kept, CareerKnowledgePage.setQueryData_eq]
    apply and_congr_right'
    show (some text = some (if watched.page.prevKnowledgeContent = some text then watched.page.content
      else text) →
      (if watched.page.prevKnowledgeContent = some text then watched.page.content else text) =
        watched.page.server) ↔ _
    by_cases seen : watched.page.prevKnowledgeContent = some text
    · rw [if_pos seen]
      constructor
      · intro after
        by_cases same : watched.page.content = text
        · exact .inl (same.symm.trans (after (congrArg some same.symm)))
        · exact .inr ⟨seen, same⟩
      · rintro (current | ⟨_, other⟩) same
        · exact (Option.some.inj same).symm.trans current
        · exact absurd (Option.some.inj same).symm other
    · simp [seen]
  | fetchFailed => exact iff_of_true ⟨survives, known⟩ rfl

theorem kept_initial (server : Str) : Settled (initial server) ∧ Kept (initial server) :=
  ⟨⟨rfl, fun _ pending => nomatch pending⟩, ⟨fun _ typed => (nomatch typed), fun shown => nomatch shown⟩⟩

end Watched

/-- While every step meets the condition, typing survives and the page knows of it; the first step that does
    not breaks one of both. -/
theorem typing_survives (isBlank : Str → Bool) (server : Str) {watched : Watched}
    (run : Machine.Reaches (Watched.step isBlank) Watched.meets (.initial server) watched) :
    watched.Kept ∧ ∀ action watched', watched.step isBlank action = some watched' →
      (watched'.Kept ↔ watched.meets action = true) := by
  have both : ∀ {before action after}, Watched.Settled before ∧ Watched.Kept before →
    before.meets action = true →
      before.step isBlank action = some after → after.Settled ∧ after.Kept := by
    intro before action after held met taken
    exact ⟨Watched.settled_step held.1 taken, (Watched.kept_step_iff held.1 held.2 taken).mpr met⟩
  obtain ⟨settled, kept⟩ := run.invariant both (Watched.kept_initial server)
  exact ⟨kept, fun action watched' taken => Watched.kept_step_iff settled kept taken⟩

set_option maxRecDepth 20000 in
theorem typing_survives_edited :
    ∃ watched, Machine.Reaches (Watched.step List.isEmpty) Watched.meets (.initial "Looms".toList) watched ∧
    watched.typed = some "Looms and mills".toList ∧ watched.Kept := by
  have run : ∃ watched, Machine.Reaches (Watched.step List.isEmpty) Watched.meets
    (.initial "Looms".toList) watched ∧
      decide (watched.typed = some "Looms and mills".toList) = true := by
    apply @Machine.reaches_of_performed _ _ _ _ _
      [.read, .fetched, .type "Looms and".toList, .save, .store, .saved, .type "Looms and mills".toList,
        .refetch, .read]
    decide
  obtain ⟨watched, reached, typed⟩ := run
  exact ⟨watched, reached, of_decide_eq_true typed, (typing_survives List.isEmpty _ reached).1⟩

set_option maxRecDepth 20000 in
/-- What is typed while a save is on its way is gone once the answer is there. -/
theorem typing_lost :
    ∃ watched, Machine.Reaches (Watched.step List.isEmpty) (fun _ _ => true)
    (.initial "Looms".toList) watched ∧
    ¬ watched.Kept := by
  have run : ∃ watched, Machine.Reaches (Watched.step List.isEmpty) (fun _ _ => true)
    (.initial "Looms".toList) watched ∧
      decide (watched.typed = some "Looms and mills".toList ∧ watched.page.content = "Looms and".toList) =
          true := by
    apply @Machine.reaches_of_performed _ _ _ _ _
      [.read, .fetched, .type "Looms and".toList, .save, .type "Looms and mills".toList, .store, .saved]
    decide
  obtain ⟨watched, reached, lost⟩ := run
  obtain ⟨typed, shown⟩ := of_decide_eq_true lost
  refine ⟨watched, reached, ?_⟩
  intro kept
  have same := (kept.survives _ typed).symm.trans shown
  exact absurd same (by decide)

end ManifestCV.Knowledge
