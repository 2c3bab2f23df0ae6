import Mathlib.Data.List.Basic

namespace ManifestCV.Foundation.Ledger

variable {κ α ε : Type}

/-- How the entries of a log describe the changes of a table: whose row changed, what it became, and what it
    must have been before. -/
structure Format (κ α ε : Type) where
  key : ε → κ
  after : ε → Option α
  follows : Option α → ε → Prop

variable (format : Format κ α ε)

def Format.replay (row : Option α) (entries : List ε) : Option α :=
  entries.foldl (fun _ entry => format.after entry) row

def Format.Chained : Option α → List ε → Prop
  | _, [] => True
  | row, entry :: entries => format.follows row entry ∧ Chained (format.after entry) entries

theorem Format.chained_append {row : Option α} {entries : List ε} {entry : ε}
    (chained : format.Chained row entries) (follows : format.follows (format.replay row entries) entry) :
    format.Chained row (entries ++ [entry]) := by
  induction entries generalizing row with
  | nil => exact ⟨follows, True.intro⟩
  | cons first entries ih => exact ⟨chained.1, ih chained.2 follows⟩

variable [DecidableEq κ]

def Format.entriesOf (key : κ) (entries : List ε) : List ε :=
  entries.filter fun entry => format.key entry = key

structure Format.Records (start table : κ → Option α) (entries : List ε) : Prop where
  chained : ∀ key, format.Chained (start key) (format.entriesOf key entries)
  replayed : ∀ key, table key = format.replay (start key) (format.entriesOf key entries)

/-- Of each row, the entries that count are numbered in their order. -/
def Format.Numbered (number : ε → Nat) (counts : ε → Bool) (entries : List ε) : Prop :=
  ∀ key, ((format.entriesOf key entries).filter counts).Pairwise fun earlier later =>
    number earlier < number later

variable {format} {start table table' : κ → Option α} {entries : List ε}

theorem Format.entriesOf_append (key : κ) (entry : ε) : format.entriesOf key (entries ++ [entry]) =
    format.entriesOf key entries ++ if format.key entry = key then [entry] else [] := by
  unfold Format.entriesOf
  rw [List.filter_append]
  congr 1
  by_cases same : format.key entry = key
  · rw [if_pos same]
    exact List.filter_cons_of_pos (decide_eq_true same)
  · rw [if_neg same]
    exact List.filter_cons_of_neg (by simpa using same)

theorem Format.Numbered.append {number : ε → Nat} {counts : ε → Bool}
    (numbered : format.Numbered number counts entries) {entry : ε}
    (latest : counts entry = true → ∀ earlier ∈ entries, format.key earlier = format.key entry →
      counts earlier = true → number earlier < number entry) : format.Numbered number counts
        (entries ++ [entry]) := by
  intro key
  rw [format.entriesOf_append, List.filter_append, List.pairwise_append]
  refine ⟨numbered key, ?_, ?_⟩
  · split
    · exact List.Pairwise.filter _ (List.pairwise_singleton _ entry)
    · exact List.Pairwise.nil
  · intro earlier before later last
    obtain ⟨inside, counted⟩ := List.mem_filter.mp last
    split at inside
    · rename_i same
      rw [List.mem_singleton.mp inside] at counted ⊢
      obtain ⟨row, counts'⟩ := List.mem_filter.mp before
      obtain ⟨member, own⟩ := List.mem_filter.mp row
      exact latest counted earlier member ((of_decide_eq_true own).trans same.symm) counts'
    · cases inside

theorem records_nil : format.Records start start [] := ⟨fun _ => True.intro, fun _ => rfl⟩

theorem Format.Records.same (records : format.Records start table entries)
    (same : ∀ key, table' key = table key) :
    format.Records start table' entries :=
  ⟨records.chained, fun key => (same key).trans (records.replayed key)⟩

theorem Format.Records.append (records : format.Records start table entries) {entry : ε}
    (follows : format.follows (table (format.key entry)) entry)
    (becomes : table' (format.key entry) = format.after entry)
    (others : ∀ key, key ≠ format.key entry → table' key = table key) :
    format.Records start table' (entries ++ [entry]) := by
  constructor
  · intro key
    rw [format.entriesOf_append]
    by_cases same : format.key entry = key
    · subst same
      rw [if_pos rfl]
      apply format.chained_append (records.chained _)
      rwa [← records.replayed]
    · rw [if_neg same, List.append_nil]
      exact records.chained key
  · intro key
    rw [format.entriesOf_append]
    by_cases same : format.key entry = key
    · subst same
      rw [if_pos rfl, Format.replay, List.foldl_append]
      exact becomes
    · rw [if_neg same, List.append_nil, others key (Ne.symm same)]
      exact records.replayed key

end ManifestCV.Foundation.Ledger
