import Mathlib.Data.List.Nodup

namespace ManifestCV.Foundation

variable {κ β : Type} [DecidableEq κ]

/-- `entries[key] = value`: a key that is there keeps its place. -/
def setKey (entries : List (κ × β)) (key : κ) (value : β) : List (κ × β) :=
  if key ∈ entries.map Prod.fst then entries.map fun entry => if entry.1 = key then (key, value) else entry
  else entries ++ [(key, value)]

variable {entries : List (κ × β)}

theorem setKey_keys (unique : (entries.map Prod.fst).Nodup) (key : κ) (value : β) :
    ((setKey entries key value).map Prod.fst).Nodup := by
  unfold setKey
  split
  · have same : (entries.map fun entry => if entry.1 = key then (key, value) else entry).map Prod.fst =
        entries.map Prod.fst := by
      rw [List.map_map]
      apply List.map_congr_left
      intro entry _
      rw [Function.comp_apply]
      split
      · rename_i equal
        exact equal.symm
      · rfl
    rwa [same]
  · rename_i absent
    rw [List.map_append, List.nodup_append_comm]
    exact List.nodup_cons.mpr ⟨by simpa using absent, unique⟩

theorem mem_setKey {key name : κ} {value given : β} :
    (name, given) ∈ setKey entries key value ↔ name = key ∧ given = value ∨ name ≠ key ∧
    (name, given) ∈ entries := by
  unfold setKey
  split
  · rename_i present
    constructor
    · intro member
      obtain ⟨entry, inside, same⟩ := List.mem_map.mp member
      split at same
      · cases same
        exact .inl ⟨rfl, rfl⟩
      · rename_i other
        subst same
        exact .inr ⟨other, inside⟩
    · rintro (⟨rfl, rfl⟩ | ⟨other, inside⟩)
      · obtain ⟨entry, inside, named⟩ := List.mem_map.mp present
        exact List.mem_map.mpr ⟨entry, inside, if_pos named⟩
      · exact List.mem_map.mpr ⟨_, inside, if_neg other⟩
  · rename_i absent
    rw [List.mem_append, List.mem_singleton, Prod.mk.injEq]
    constructor
    · rintro (inside | same)
      · apply Or.inr
        refine ⟨?_, inside⟩
        rintro rfl
        exact absent (List.mem_map_of_mem inside)
      · exact .inl same
    · rintro (same | ⟨_, inside⟩)
      · exact .inr same
      · exact .inl inside

variable [BEq κ] [LawfulBEq κ]

theorem lookup_replace (entries : List (κ × β)) (key name : κ) (value : β) :
    (entries.map fun entry => if entry.1 = key then (key, value) else entry).lookup name =
      if name = key then (entries.lookup name).map fun _ => value else entries.lookup name := by
  induction entries with
  | nil => split <;> rfl
  | cons entry entries ih =>
    rw [List.map_cons, List.lookup_cons, List.lookup_cons]
    by_cases named : entry.1 = key
    · rw [if_pos named, named]
      by_cases same : name = key
      · rw [if_pos same, same, beq_self_eq_true]
        rfl
      · rw [beq_false_of_ne same, ih]
    · rw [if_neg named]
      by_cases same : name = entry.1
      · rw [same, beq_self_eq_true, if_neg named]
      · rw [beq_false_of_ne same, ih]

omit [DecidableEq κ] in
theorem lookup_present {key : κ} (present : key ∈ entries.map Prod.fst) :
    ∃ value, entries.lookup key = some value := by
  obtain ⟨entry, inside, rfl⟩ := List.mem_map.mp present
  cases found : entries.lookup entry.1 with
  | some value => exact ⟨value, rfl⟩
  | none =>
    have other := List.lookup_eq_none_iff.mp found entry inside
    rw [bne_self_eq_false] at other
    cases other

theorem lookup_setKey (entries : List (κ × β)) (key name : κ) (value : β) :
    (setKey entries key value).lookup name = if name = key then some value else entries.lookup name := by
  unfold setKey
  split
  · rename_i present
    rw [lookup_replace]
    by_cases same : name = key
    · obtain ⟨old, found⟩ := lookup_present present
      rw [if_pos same, if_pos same, same, found]
      rfl
    · rw [if_neg same, if_neg same]
  · rename_i absent
    rw [List.lookup_append]
    by_cases same : name = key
    · subst same
      have missing : entries.lookup name = none := by
        rw [List.lookup_eq_none_iff]
        intro entry inside
        rw [bne_iff_ne]
        rintro rfl
        exact absent (List.mem_map_of_mem inside)
      rw [if_pos rfl, missing, List.lookup_cons, beq_self_eq_true]
      rfl
    · rw [if_neg same, List.lookup_cons, beq_false_of_ne same]
      exact Option.or_none

end ManifestCV.Foundation
