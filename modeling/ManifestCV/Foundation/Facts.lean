import ManifestCV.Foundation.Transactions

namespace ManifestCV.Foundation.Transactions

variable {δ κ ρ W ι σ F : Type}

def Effect.outside (before : κ) : Effect κ ρ W → κ
  | .read _ outside | .write _ _ outside | .commit _ outside => outside
  | .fail _ => before

/-- What rows, sessions and writes say of things that never change, such as the row behind an id that is given
    once. -/
structure Facts (δ κ ρ W F : Type) where
  agrees : F → F → Prop
  symmetric : ∀ {f g}, agrees f g → agrees g f
  /-- The fact is about something that exists already. -/
  known : κ → F → Prop
  database : δ → F → Prop
  outside : κ → F → Prop
  phase : ρ → F → Prop
  write : W → F → Prop

namespace Facts

variable (facts : Facts δ κ ρ W F)

def common (db : δ) (outside : κ) (f : F) : Prop := facts.database db f ∨ facts.outside outside f

def own (phase : ρ) (pending : List W) (f : F) : Prop := facts.phase phase f ∨ ∃ w ∈ pending, facts.write w f

def seen (db : δ) (outside : κ) (phase : ρ) (pending : List W) (f : F) : Prop :=
  facts.own phase pending f ∨ facts.common db outside f

def effect : Effect κ ρ W → F → Prop
  | .read phase outside, f => facts.phase phase f ∨ facts.outside outside f
  | .write w phase outside, f => facts.phase phase f ∨ facts.write w f ∨ facts.outside outside f
  | .commit phase outside, f => facts.phase phase f ∨ facts.outside outside f
  | .fail phase, f => facts.phase phase f

/-- Whatever agrees with the given facts agrees with this one. -/
def Follows (outside : κ) (base : F → Prop) (f : F) : Prop :=
  ∀ g, facts.known outside g → (∀ h, base h → facts.agrees h g) → facts.agrees f g

structure Adds (outside outside' : κ) (base added : F → Prop) : Prop where
  known : ∀ f, added f → facts.known outside' f
  follows : ∀ f, added f → facts.Follows outside base f
  together : ∀ f g, added f → added g → facts.agrees f g
  kept : ∀ f, facts.known outside f → facts.known outside' f

structure Sound (outside : κ) (base : F → Prop) : Prop where
  known : ∀ f, base f → facts.known outside f
  agreed : ∀ f g, base f → base g → facts.agrees f g

def assertion : Assertion δ κ ρ W where
  common db outside := facts.Sound outside (facts.common db outside)
  own db outside phase pending := facts.Sound outside (facts.seen db outside phase pending)
  pair phase pending other otherPending := ∀ f g, facts.own phase pending f → facts.own other otherPending g →
    facts.agrees f g

def Applied (sys : System δ κ ρ W ι σ) : Prop :=
  ∀ {db w f}, (∀ g h, facts.database db g → facts.write w h → facts.agrees g h) →
    facts.database (sys.apply db w) f →
    facts.database db f ∨ facts.write w f

structure Recorded (sys : System δ κ ρ W ι σ) (known : Assertion δ κ ρ W) : Prop where
  applies : facts.Applied sys
  starts : ∀ {outside request phase outside'}, sys.start outside request = some (phase, outside') →
    outside' = outside ∧ ∀ f, ¬ facts.phase phase f
  fails : ∀ {phase f}, facts.phase (sys.failed phase) f → facts.phase phase f
  steps : ∀ {db outside phase pending input effect}, known.own db outside phase pending →
    facts.Sound outside (facts.seen db outside phase pending) →
    sys.next (sys.view db pending) outside phase input = some effect →
    ∃ added, facts.Adds outside (effect.outside outside) (facts.seen db outside phase pending) added ∧
      ∀ f, facts.effect effect f → facts.seen db outside phase pending f ∨ added f

end Facts

section Agreement

variable {facts : Facts δ κ ρ W F} {sys : System δ κ ρ W ι σ} {known : Assertion δ κ ρ W} {db db' : δ}
  {outside outside' : κ}
  {phase phase' : ρ} {pending pending' : List W}

theorem Facts.Applied.view (applies : facts.Applied sys)
    (agreed : ∀ g h, (facts.database db g ∨ ∃ w ∈ pending, facts.write w g) →
      (∃ w ∈ pending, facts.write w h) → facts.agrees g h)
    {f : F} (seen : facts.database (sys.view db pending) f) :
    facts.database db f ∨ ∃ w ∈ pending, facts.write w f := by
  induction pending generalizing db with
  | nil => exact .inl seen
  | cons w pending ih =>
    have first : ∀ g, facts.database (sys.apply db w) g → facts.database db g ∨ facts.write w g :=
        fun g stored =>
      applies (fun g h old new => agreed g h (.inl old) ⟨w, List.mem_cons_self, new⟩) stored
    have rest : ∀ g h, (facts.database (sys.apply db w) g ∨ ∃ v ∈ pending, facts.write v g) →
        (∃ v ∈ pending, facts.write v h) → facts.agrees g h := by
      rintro g h either ⟨v, member, written⟩
      refine agreed g h ?_ ⟨v, List.mem_cons_of_mem _ member, written⟩
      rcases either with applied | ⟨u, inside, wrote⟩
      · exact (first g applied).imp_right fun new => ⟨w, List.mem_cons_self, new⟩
      · exact .inr ⟨u, List.mem_cons_of_mem _ inside, wrote⟩
    rcases ih rest seen with applied | ⟨v, member, written⟩
    · exact (first f applied).imp_right fun new => ⟨w, List.mem_cons_self, new⟩
    · exact .inr ⟨v, List.mem_cons_of_mem _ member, written⟩

theorem Facts.Applied.seen (applies : facts.Applied sys)
    (sound : facts.Sound outside (facts.seen db outside phase pending)) {f : F}
    (stored : facts.database (sys.view db pending) f) : facts.seen db outside phase pending f := by
  have agreed : ∀ g h, (facts.database db g ∨ ∃ w ∈ pending, facts.write w g) →
    (∃ w ∈ pending, facts.write w h) →
      facts.agrees g h := by
    intro g h either written
    refine sound.agreed g h ?_ (.inl (.inr written))
    exact either.elim (fun old => .inr (.inl old)) fun new => .inl (.inr new)
  rcases applies.view agreed stored with old | written
  · exact .inr (.inl old)
  · exact .inl (.inr written)

theorem Facts.Adds.none (base : F → Prop) : facts.Adds outside outside base fun _ => False :=
  ⟨fun _ nothing => nothing.elim, fun _ nothing => nothing.elim, fun _ _ nothing => nothing.elim,
    fun _ known => known⟩

theorem Facts.Recorded.moves (recorded : facts.Recorded sys known)
    (holds : known.own db outside phase pending)
    (sound : facts.Sound outside (facts.seen db outside phase pending)) {label : Option ι}
    (moves : sys.Moves db outside phase pending label db' outside' phase' pending') :
    ∃ added, facts.Adds outside outside' (facts.seen db outside phase pending) added ∧
      ∀ f, facts.seen db' outside' phase' pending' f → facts.seen db outside phase pending f ∨ added f := by
  have dropped : ∀ f, facts.seen db outside (sys.failed phase) [] f →
      facts.seen db outside phase pending f := by
    rintro f ((held | ⟨w, member, _⟩) | shared)
    · exact .inl (.inl (recorded.fails held))
    · cases member
    · exact .inr shared
  cases moves with
  | read next =>
    obtain ⟨added, adds, effects⟩ := recorded.steps holds sound next
    refine ⟨added, adds, ?_⟩
    rintro f ((held | written) | (stored | kept))
    · exact effects f (.inl held)
    · exact .inl (.inl (.inr written))
    · exact .inl (.inr (.inl stored))
    · exact effects f (.inr kept)
  | write next admitted =>
    rename_i input w
    obtain ⟨added, adds, effects⟩ := recorded.steps holds sound next
    refine ⟨added, adds, ?_⟩
    rintro f ((held | ⟨v, member, written⟩) | (stored | kept))
    · exact effects f (.inl held)
    · rcases List.mem_append.mp member with old | new
      · exact .inl (.inl (.inr ⟨v, old, written⟩))
      · rw [List.mem_singleton.mp new] at written
        exact effects f (.inr (.inl written))
    · exact .inl (.inr (.inl stored))
    · exact effects f (.inr (.inr kept))
  | refused next refused => exact ⟨_, .none _, fun f seen => .inl (dropped f seen)⟩
  | commit next =>
    obtain ⟨added, adds, effects⟩ := recorded.steps holds sound next
    refine ⟨added, adds, ?_⟩
    rintro f ((held | ⟨v, member, _⟩) | (stored | kept))
    · exact effects f (.inl held)
    · cases member
    · exact .inl (Facts.Applied.seen recorded.applies sound stored)
    · exact effects f (.inr kept)
  | fail next =>
    obtain ⟨added, adds, effects⟩ := recorded.steps holds sound next
    refine ⟨added, adds, ?_⟩
    rintro f ((held | ⟨v, member, _⟩) | shared)
    · exact effects f held
    · cases member
    · exact .inl (.inr shared)
  | abort => exact ⟨_, .none _, fun f seen => .inl (dropped f seen)⟩

theorem Facts.Adds.sound {base added new : F → Prop} (adds : facts.Adds outside outside' base added)
    (sound : facts.Sound outside base) (covered : ∀ f, new f → base f ∨ added f) :
    facts.Sound outside' new := by
  have mixed : ∀ f g, added f → base g → facts.agrees f g :=
    fun f g new old => adds.follows f new g (sound.known g old) fun h inside => sound.agreed h g inside old
  refine ⟨?_, ?_⟩
  · intro f member
    rcases covered f member with old | new
    · exact adds.kept f (sound.known f old)
    · exact adds.known f new
  · intro f g first second
    rcases covered f first with oldF | newF
    · rcases covered g second with oldG | newG
      · exact sound.agreed f g oldF oldG
      · exact facts.symmetric (mixed g f newG oldF)
    · rcases covered g second with oldG | newG
      · exact mixed f g newF oldG
      · exact adds.together f g newF newG

/-- Facts agree in every state of every run, once each step is known to add only facts that follow. -/
theorem Facts.Recorded.stable (recorded : facts.Recorded sys known) (g : Guard δ κ ρ ι) :
    Stable sys g known facts.assertion where
  start {db outside request phase outside'} _ sound started := by
    obtain ⟨rfl, nothing⟩ := recorded.starts started
    have shared : ∀ f, facts.seen db outside' phase [] f → facts.common db outside' f := by
      rintro f ((held | ⟨w, member, _⟩) | shared)
      · exact absurd held (nothing f)
      · cases member
      · exact shared
    exact ⟨sound, fun f seen => sound.known f (shared f seen), fun f g first second =>
      sound.agreed f g (shared f first) (shared g second)⟩
  startOther {db outside request phase outside' other otherPending} _ _ sound started := by
    obtain ⟨rfl, nothing⟩ := recorded.starts started
    have missing : ∀ f, ¬ facts.own phase [] f := by
      rintro f (held | ⟨w, member, _⟩)
      · exact nothing f held
      · cases member
    exact ⟨sound, fun f _ mine => absurd mine (missing f), fun _ g _ mine => absurd mine (missing g)⟩
  own _ holds _ sound _ moves := by
    obtain ⟨added, adds, covered⟩ := recorded.moves holds sound moves
    exact ⟨adds.sound sound fun f shared => covered f (.inr shared), adds.sound sound covered⟩
  other {db outside phase pending label db' outside' phase' pending' other otherPending} _ holds _ _ _ _
    sound beside mine _ _ _
      moves := by
    obtain ⟨added, adds, covered⟩ := recorded.moves holds sound moves
    have base : ∀ f g, facts.seen db outside phase pending f → facts.own other otherPending g →
        facts.agrees f g := by
      rintro f g (held | shared) theirs
      · exact mine f g held theirs
      · exact beside.agreed f g (.inr shared) (.inl theirs)
    have after : ∀ f g, facts.seen db' outside' phase' pending' f → facts.own other otherPending g →
        facts.agrees f g := by
      intro f g seen theirs
      rcases covered f seen with old | new
      · exact base f g old theirs
      · exact adds.follows f new g (beside.known g (.inl theirs)) fun h inside => base h g inside theirs
    have shared := adds.sound sound fun f (common : facts.common db' outside' f) => covered f (.inr common)
    refine ⟨⟨?_, ?_⟩, fun f g mine theirs => after f g (.inl mine) theirs,
      fun f g theirs mine => facts.symmetric (after g f (.inl mine) theirs)⟩
    · rintro f (theirs | common)
      · exact adds.kept f (beside.known f (.inl theirs))
      · exact shared.known f common
    · rintro f g (theirF | commonF) (theirG | commonG)
      · exact beside.agreed f g (.inl theirF) (.inl theirG)
      · exact facts.symmetric (after g f (.inr commonG) theirF)
      · exact after f g (.inr commonF) theirG
      · exact shared.agreed f g commonF commonG

def Facts.remembers (facts : Facts δ κ ρ W F) (past : F) : Assertion δ κ ρ W where
  common db outside := facts.known outside past ∧ ∀ f, facts.common db outside f → facts.agrees f past
  own db outside phase pending := ∀ f, facts.seen db outside phase pending f → facts.agrees f past
  pair _ _ _ _ := True

theorem Facts.Recorded.remembers (recorded : facts.Recorded sys known) (past : F) (g : Guard δ κ ρ ι) :
    Stable sys g (known.and facts.assertion) (facts.remembers past) where
  start {db outside request phase outside'} _ remembered started := by
    obtain ⟨rfl, nothing⟩ := recorded.starts started
    refine ⟨remembered, ?_⟩
    rintro f ((held | ⟨w, member, _⟩) | shared)
    · exact absurd held (nothing f)
    · cases member
    · exact remembered.2 f shared
  startOther {db outside request phase outside' other otherPending} _ _ remembered started := by
    obtain ⟨rfl, _⟩ := recorded.starts started
    exact ⟨remembered, True.intro, True.intro⟩
  own _ holds common remembered _ moves := by
    obtain ⟨added, adds, covered⟩ := recorded.moves holds.1 holds.2 moves
    have after : ∀ f, facts.seen _ _ _ _ f → facts.agrees f past := fun f seen =>
      (covered f seen).elim (remembered f) fun new => adds.follows f new past common.1 remembered
    exact ⟨⟨adds.kept past common.1, fun f shared => after f (.inr shared)⟩, after⟩
  other _ holds _ _ _ common remembered beside _ _ _ _ moves := by
    obtain ⟨added, adds, covered⟩ := recorded.moves holds.1 holds.2 moves
    refine ⟨?_, True.intro, True.intro⟩
    rintro f (theirs | shared)
    · exact beside f (.inl theirs)
    · exact (covered f (.inr shared)).elim (remembered f) fun new =>
        adds.follows f new past common.1 remembered

theorem Facts.remembered {s : State δ κ ρ W} (holds : facts.assertion.Holds s) {past : F}
    (fact : facts.common s.db s.outside past) :
    (facts.remembers past).Holds s where
  common := ⟨holds.common.known past fact, fun f shared => holds.common.agreed f past shared fact⟩
  own i session found f seen := (holds.own i session found).agreed f past seen (.inr fact)
  pair _ _ _ _ _ _ _ := True.intro

end Agreement

end ManifestCV.Foundation.Transactions
