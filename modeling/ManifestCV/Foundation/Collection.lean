import Mathlib.Data.List.Basic

namespace ManifestCV.Foundation.Collection

variable {α ι κ : Type} [DecidableEq ι] [DecidableEq κ]

def ownedBy (owner : α → κ) (o : κ) (items : List α) : List α := items.filter (owner · = o)

def without (owner : α → κ) (o : κ) (items : List α) : List α := items.filter (owner · ≠ o)

def put (key : α → ι) (new items : List α) : List α :=
  items.filter (fun item => new.all (key · ≠ key item)) ++ new

variable {key : α → ι} {owner : α → κ} {o other : κ} {new items : List α}

theorem mem_ownedBy {item : α} : item ∈ ownedBy owner o items ↔ item ∈ items ∧ owner item = o := by
  simp [ownedBy]

theorem ownedBy_without : ownedBy owner o (without owner o items) = [] := by
  rw [ownedBy, without, List.filter_filter, List.filter_eq_nil_iff]
  simp

theorem ownedBy_without_other (apart : other ≠ o) :
    ownedBy owner other (without owner o items) = ownedBy owner other items := by
  rw [ownedBy, without, List.filter_filter]
  apply List.filter_congr
  intro item _
  by_cases here : owner item = other
  · simp [here, apart]
  · simp [here]

theorem ownedBy_put (mine : ∀ item ∈ new, owner item = o) :
    ownedBy owner o (put key new items) = put key new (ownedBy owner o items) := by
  have all : new.filter (owner · = o) = new := List.filter_eq_self.mpr fun item member =>
    decide_eq_true (mine item member)
  rw [ownedBy, put, List.filter_append, all, put, ownedBy, List.filter_filter, List.filter_filter]
  congr 1
  exact List.filter_congr fun item _ => Bool.and_comm _ _

theorem ownedBy_put_empty (empty : ownedBy owner o items = []) (mine : ∀ item ∈ new, owner item = o) :
    ownedBy owner o (put key new items) = new := by
  rw [ownedBy_put mine, empty]
  rfl

theorem ownedBy_put_other (apart : other ≠ o) (mine : ∀ item ∈ new, owner item = o)
    (distinct : ∀ item ∈ items, owner item = other → ∀ added ∈ new, key added ≠ key item) :
    ownedBy owner other (put key new items) = ownedBy owner other items := by
  rw [ownedBy, put, List.filter_append]
  have nothing : new.filter (owner · = other) = [] := by
    rw [List.filter_eq_nil_iff]
    intro item member here
    exact apart ((of_decide_eq_true here).symm.trans (mine item member))
  rw [nothing, List.append_nil, List.filter_filter]
  apply List.filter_congr
  intro item member
  by_cases here : owner item = other
  · have kept : new.all (key · ≠ key item) = true := by
      rw [List.all_eq_true]
      exact fun added inside => decide_eq_true (distinct item member here added inside)
    rw [kept, Bool.and_true]
  · simp [here]

end ManifestCV.Foundation.Collection
