import ManifestCV.Foundation.Entries
import Mathlib.Logic.Function.Basic

namespace ManifestCV.Foundation

abbrev Row (κ ν : Type) := κ → Option ν

structure Column (κ ν : Type) where
  name : κ
  nullable : Bool
  holds : ν → Bool

variable {κ ν : Type}

def Column.admits (column : Column κ ν) : Option ν → Bool
  | none => column.nullable
  | some value => column.holds value

def Fits (columns : List (Column κ ν)) (row : Row κ ν) : Prop :=
  ∀ column ∈ columns, column.admits (row column.name) = true

instance (columns : List (Column κ ν)) (row : Row κ ν) : Decidable (Fits columns row) :=
  inferInstanceAs (Decidable (∀ column ∈ columns, column.admits (row column.name) = true))

variable [DecidableEq κ]

def setAll (row : Row κ ν) (updates : List (κ × Option ν)) : Row κ ν :=
  updates.foldl (fun row update => Function.update row update.1 update.2) row

variable {row : Row κ ν} {updates : List (κ × Option ν)} {key : κ} {value : Option ν}

theorem setAll_other (absent : key ∉ updates.map Prod.fst) : setAll row updates key = row key := by
  induction updates generalizing row with
  | nil => rfl
  | cons update updates ih =>
    rw [List.map_cons, List.mem_cons, not_or] at absent
    rw [setAll, List.foldl_cons]
    exact (ih absent.2).trans (Function.update_of_ne absent.1 _ _)

theorem setAll_member (unique : (updates.map Prod.fst).Nodup) (member : (key, value) ∈ updates) :
    setAll row updates key = value := by
  induction updates generalizing row with
  | nil => cases member
  | cons update updates ih =>
    obtain ⟨absent, unique⟩ := List.nodup_cons.mp unique
    rw [setAll, List.foldl_cons]
    rcases List.mem_cons.mp member with rfl | member
    · exact (setAll_other absent).trans (Function.update_self _ _ _)
    · exact ih unique member

theorem fits_setAll {columns : List (Column κ ν)} (unique : (updates.map Prod.fst).Nodup)
    (fits : Fits columns row) :
    Fits columns (setAll row updates) ↔ ∀ column ∈ columns, ∀ value, (column.name, value) ∈ updates →
      column.admits value = true := by
  constructor
  · intro after column member value update
    have admitted := after column member
    rwa [setAll_member unique update] at admitted
  · intro each column member
    by_cases given : column.name ∈ updates.map Prod.fst
    · obtain ⟨⟨name, value⟩, update, rfl⟩ := List.mem_map.mp given
      rw [setAll_member unique update]
      exact each column member value update
    · rw [setAll_other given]
      exact fits column member

def rowOf (entries : List (κ × Option ν)) : Row κ ν := fun name => (entries.lookup name).join

end ManifestCV.Foundation
