import Mathlib.Algebra.BigOperators.Group.List.Basic
import Mathlib.Data.List.Forall2
import Mathlib.Data.List.Nodup

namespace ManifestCV.Foundation

variable {α β : Type}

def modifyFirst (f : α → Option α) : List α → Option (List α)
  | [] => none
  | item :: items =>
    match f item with
    | some changed => some (changed :: items)
    | none => (modifyFirst f items).map (item :: ·)

theorem modifyFirst_forall {f : α → Option α} {related : α → α → Prop} (same : ∀ a, related a a)
    (changed : ∀ {a b}, f a = some b → related a b) {items items' : List α}
    (done : modifyFirst f items = some items') :
    List.Forall₂ related items items' := by
  induction items generalizing items' with
  | nil => cases done
  | cons item items ih =>
    rw [modifyFirst] at done
    split at done
    · rename_i new step
      cases done
      exact .cons (changed step) (List.forall₂_same.mpr fun a _ => same a)
    · obtain ⟨rest, later, rfl⟩ := Option.map_eq_some_iff.mp done
      exact .cons (same item) (ih later)

theorem map_forall {f : α → α} {related : α → α → Prop} (changed : ∀ a, related a (f a)) (items : List α) :
    List.Forall₂ related items (items.map f) := by
  induction items with
  | nil => exact .nil
  | cons item items ih => exact .cons (changed item) ih

theorem modify_forall {f : α → α} {related : α → α → Prop} (same : ∀ a, related a a)
    (changed : ∀ a, related a (f a)) (items : List α) (i : Nat) :
    List.Forall₂ related items (items.modify i f) := by
  induction items generalizing i with
  | nil =>
    rw [List.modify_nil]
    exact .nil
  | cons item items ih =>
    cases i with
    | zero => exact .cons (changed item) (List.forall₂_same.mpr fun a _ => same a)
    | succ i => exact .cons (same item) (ih i)

theorem set_forall {related : α → α → Prop} (same : ∀ a, related a a) {items : List α} {i : Nat} {a b : α}
    (found : items[i]? = some a) (changed : related a b) : List.Forall₂ related items (items.set i b) := by
  induction items generalizing i with
  | nil => cases found
  | cons item items ih =>
    cases i with
    | zero =>
      cases found
      exact .cons changed (List.forall₂_same.mpr fun a _ => same a)
    | succ i => exact .cons (same item) (ih found)

theorem modify_found {f : α → α} {items : List α} {i : Nat} {a : α} (found : items[i]? = some a) :
    items.modify i f = items.set i (f a) := by
  induction items generalizing i with
  | nil => cases found
  | cons item items ih =>
    cases i with
    | zero =>
      cases found
      rfl
    | succ i => exact congrArg (item :: ·) (ih found)

theorem modify_bind {γ : Type} {f : α → α} {g : α → Option γ} {items : List α} {i j : Nat}
    (same : i = j → ∀ a, g (f a) = g a) : (items.modify i f)[j]?.bind g = items[j]?.bind g := by
  rw [List.getElem?_modify]
  cases items[j]? with
  | none => rfl
  | some a =>
    split
    · rename_i here
      exact same here a
    · rfl

theorem map_eq_of_forall {g : α → β} {items items' : List α}
    (each : List.Forall₂ (fun a b => g b = g a) items items') :
    items'.map g = items.map g := by
  induction each with
  | nil => rfl
  | cons head _ ih => rw [List.map_cons, List.map_cons, head, ih]

theorem forall_mem_right {related : α → α → Prop} {items items' : List α}
    (each : List.Forall₂ related items items') {b : α} (member : b ∈ items') : ∃ a ∈ items, related a b := by
  induction each with
  | nil => cases member
  | cons head _ ih =>
    rcases List.mem_cons.mp member with rfl | member
    · exact ⟨_, List.mem_cons_self, head⟩
    · obtain ⟨a, inside, holds⟩ := ih member
      exact ⟨a, List.mem_cons_of_mem _ inside, holds⟩

theorem sum_set {M : Type} [AddCommMonoid M] {items : List α} {i : Nat} {a : α} (found : items[i]? = some a)
    (b : α) (g : α → M) :
    ((items.set i b).map g).sum + g a = (items.map g).sum + g b := by
  induction items generalizing i with
  | nil => cases found
  | cons item items ih =>
    cases i with
    | zero =>
      cases found
      rw [List.set_cons_zero, List.map_cons, List.map_cons, List.sum_cons, List.sum_cons, add_right_comm,
        add_comm (g b), add_right_comm]
    | succ i =>
      rw [List.set_cons_succ, List.map_cons, List.map_cons, List.sum_cons, List.sum_cons, add_assoc,
        ih found, add_assoc]

section Counts

variable [BEq β]

theorem count_set {items : List α} {i : Nat} {a : α} (found : items[i]? = some a) (b : α)
    (g : α → List β) (x : β) :
    ((items.set i b).flatMap g).count x + (g a).count x = (items.flatMap g).count x + (g b).count x := by
  induction items generalizing i with
  | nil => cases found
  | cons item items ih =>
    cases i with
    | zero =>
      cases found
      simp only [List.set_cons_zero, List.flatMap_cons, List.count_append]
      omega
    | succ i =>
      have rest := ih found
      simp only [List.set_cons_succ, List.flatMap_cons, List.count_append]
      omega

theorem count_forall {related : α → α → Prop} {g : α → List β}
    (kept : ∀ {a b}, related a b → ∀ x, (g b).count x = (g a).count x) {items items' : List α}
    (each : List.Forall₂ related items items') (x : β) :
    (items'.flatMap g).count x = (items.flatMap g).count x := by
  induction each with
  | nil => rfl
  | cons head _ ih =>
      rw [List.flatMap_cons, List.flatMap_cons, List.count_append, List.count_append, kept head, ih]

theorem count_flatMap_add {g g' : α → List β} {items : List α} {x y : β}
    (each : ∀ a ∈ items, (g' a).count x = (g a).count x + (g a).count y) :
    (items.flatMap g').count x = (items.flatMap g).count x + (items.flatMap g).count y := by
  induction items with
  | nil => rfl
  | cons item items ih =>
    have head := each item List.mem_cons_self
    have rest := ih fun a member => each a (List.mem_cons_of_mem _ member)
    simp only [List.flatMap_cons, List.count_append]
    omega

theorem count_swap [LawfulBEq β] {items : List β} {i j : Nat} {a b : β} (atFirst : items[i]? = some a)
    (atSecond : items[j]? = some b) (apart : i ≠ j) (x : β) :
    ((items.set i b).set j a).count x = items.count x := by
  have still : (items.set i b)[j]? = some b := by
    rw [List.getElem?_set_ne apart]
    exact atSecond
  have first := count_set atFirst b (fun item => [item]) x
  have second := count_set still a (fun item => [item]) x
  simp only [List.flatMap_singleton'] at first second
  omega

end Counts

section Indices

theorem mapIdx_eq_map {f : Nat → α → β} {g : α → β} {items : List α}
    (same : ∀ i a, items[i]? = some a → f i a = g a) :
    items.mapIdx f = items.map g := by
  apply List.ext_getElem?
  intro i
  rw [List.getElem?_mapIdx, List.getElem?_map]
  cases found : items[i]? with
  | none => rfl
  | some a => exact congrArg some (same i a found)

theorem nodup_flatMap_index {f : α → List β} {items : List α} (distinct : (items.flatMap f).Nodup) {i j : Nat}
    {a b : α} {x : β} (first : items[i]? = some a) (second : items[j]? = some b) (inFirst : x ∈ f a)
    (inSecond : x ∈ f b) : i = j := by
  obtain ⟨_, apart⟩ := List.nodup_flatMap.mp distinct
  rw [List.pairwise_iff_getElem] at apart
  obtain ⟨hi, rfl⟩ := List.getElem?_eq_some_iff.mp first
  obtain ⟨hj, rfl⟩ := List.getElem?_eq_some_iff.mp second
  rcases Nat.lt_trichotomy i j with less | same | more
  · exact absurd inSecond (apart i j hi hj less inFirst)
  · exact same
  · exact absurd inFirst (apart j i hj hi more inSecond)

theorem nodup_flatMap_member {f : α → List β} {items : List α} (distinct : (items.flatMap f).Nodup) {a : α}
    (member : a ∈ items) :
    (f a).Nodup := (List.nodup_flatMap.mp distinct).1 a member

end Indices

theorem length_flatMap_le {f g : α → List β} {items : List α}
    (shorter : ∀ a ∈ items, (g a).length ≤ (f a).length) :
    (items.flatMap g).length ≤ (items.flatMap f).length := by
  induction items with
  | nil => exact Nat.le_refl _
  | cons first items ih =>
    have head := shorter first List.mem_cons_self
    have tail := ih fun a member => shorter a (List.mem_cons_of_mem _ member)
    rw [List.flatMap_cons, List.flatMap_cons, List.length_append, List.length_append]
    omega

theorem flatMap_eq_iff {f g : α → List β} {items : List α}
    (shorter : ∀ a ∈ items, (g a).length ≤ (f a).length) :
    items.flatMap g = items.flatMap f ↔ ∀ a ∈ items, g a = f a := by
  constructor
  · induction items with
    | nil => exact fun _ _ member => nomatch member
    | cons first items ih =>
      intro same
      have head := shorter first List.mem_cons_self
      have others : ∀ a ∈ items, (g a).length ≤ (f a).length := fun a member =>
        shorter a (List.mem_cons_of_mem _ member)
      have tail := length_flatMap_le others
      rw [List.flatMap_cons, List.flatMap_cons] at same
      have lengths := congrArg List.length same
      rw [List.length_append, List.length_append] at lengths
      obtain ⟨here, rest⟩ := List.append_inj same (by omega)
      exact List.forall_mem_cons.mpr ⟨here, ih others rest⟩
  · exact List.flatMap_congr

end ManifestCV.Foundation
