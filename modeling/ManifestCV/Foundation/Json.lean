import Mathlib.Data.List.Sort
import Mathlib.Data.List.Nodup
import Mathlib.Data.List.Lex
import Mathlib.Data.Char
import ManifestCV.Foundation.Text
import ManifestCV.Foundation.Double

namespace ManifestCV.Foundation

/-- A JSON value as `json.loads` returns it: objects keep their fields in order. -/
inductive Json where
  | null
  | bool (value : Bool)
  | int (value : Int)
  | float (value : Double)
  | str (value : Str)
  | arr (items : List Json)
  | obj (fields : List (Str × Json))

/-- The fields of an object, as a Python `dict` with string keys. -/
abbrev Dict := List (Str × Json)

/-- `dict[key] = value`: an existing key keeps its place. -/
def dictInsert (fields : Dict) (key : Str) (value : Json) : Dict :=
  if fields.any (·.1 = key) then fields.map fun field => if field.1 = key then (key, value) else field
  else fields ++ [(key, value)]

def keyOrder (a b : Str × Json) : Prop := a.1 ≤ b.1

instance : DecidableRel keyOrder := fun a b => inferInstanceAs (Decidable (a.1 ≤ b.1))

instance : Std.Total keyOrder := ⟨fun a b => le_total a.1 b.1⟩

instance : IsTrans (Str × Json) keyOrder := ⟨fun _ _ _ => le_trans⟩

def sortKeys (fields : Dict) : Dict := fields.insertionSort keyOrder

namespace Json

def isScalar : Json → Bool
  | .arr _ => false
  | .obj _ => false
  | _ => true

mutual
/-- Every object's keys are distinct, as in any value a Python dict can hold. -/
def WellKeyed : Json → Prop
  | .arr items => WellKeyedItems items
  | .obj fields => (fields.map Prod.fst).Nodup ∧ WellKeyedFields fields
  | _ => True

def WellKeyedItems : List Json → Prop
  | [] => True
  | item :: items => WellKeyed item ∧ WellKeyedItems items

def WellKeyedFields : List (Str × Json) → Prop
  | [] => True
  | (_, value) :: fields => WellKeyed value ∧ WellKeyedFields fields
end

mutual
def normalize : Json → Json
  | .arr items => .arr (normalizeItems items)
  | .obj fields => .obj (sortKeys (normalizeFields fields))
  | .null => .null
  | .bool value => .bool value
  | .int value => .int value
  | .float value => .float value
  | .str value => .str value

def normalizeItems : List Json → List Json
  | [] => []
  | item :: items => normalize item :: normalizeItems items

def normalizeFields : List (Str × Json) → List (Str × Json)
  | [] => []
  | (key, value) :: fields => (key, normalize value) :: normalizeFields fields
end

theorem normalize_scalar {j : Json} (scalar : j.isScalar = true) : j.normalize = j := by
  cases j with
  | arr items => cases scalar
  | obj fields => cases scalar
  | _ => rfl

theorem wellKeyedItems_iff (items : List Json) :
    WellKeyedItems items ↔ ∀ item ∈ items, item.WellKeyed := by
  induction items with
  | nil => simp [WellKeyedItems]
  | cons item items ih => simp [WellKeyedItems, ih]

theorem wellKeyedFields_iff (fields : Dict) :
    WellKeyedFields fields ↔ ∀ field ∈ fields, field.2.WellKeyed := by
  induction fields with
  | nil => simp [WellKeyedFields]
  | cons field fields ih => simp [WellKeyedFields, ih]

theorem normalizeItems_eq (items : List Json) : normalizeItems items = items.map normalize := by
  induction items with
  | nil => rfl
  | cons item items ih => simp [normalizeItems, ih]

theorem normalizeFields_eq (fields : Dict) :
    normalizeFields fields = fields.map fun field => (field.1, field.2.normalize) := by
  induction fields with
  | nil => rfl
  | cons field fields ih => simp [normalizeFields, ih]

end Json

theorem sortKeys_perm (fields : Dict) : (sortKeys fields).Perm fields := List.perm_insertionSort _ _

theorem mem_sortKeys {field : Str × Json} {fields : Dict} : field ∈ sortKeys fields ↔ field ∈ fields :=
  (sortKeys_perm fields).mem_iff

@[simp] theorem sortKeys_length (fields : Dict) : (sortKeys fields).length = fields.length :=
  (sortKeys_perm fields).length_eq

theorem sortKeys_keys_nodup {fields : Dict} (distinct : (fields.map Prod.fst).Nodup) :
    ((sortKeys fields).map Prod.fst).Nodup :=
  ((sortKeys_perm fields).map _).nodup_iff.mpr distinct

theorem lookup_of_perm {fields other : Dict} (distinct : (fields.map Prod.fst).Nodup)
    (perm : fields.Perm other) (key : Str) : fields.lookup key = other.lookup key := by
  induction perm with
  | nil => rfl
  | cons field _ ih =>
    obtain ⟨name, value⟩ := field
    simp only [List.map_cons, List.nodup_cons] at distinct
    simp only [List.lookup_cons, ih distinct.2]
  | swap first second rest =>
    obtain ⟨name, value⟩ := first
    obtain ⟨name', value'⟩ := second
    have different : name' ≠ name := by
      simp only [List.map_cons, List.nodup_cons, List.mem_cons, not_or] at distinct
      exact distinct.1.1
    simp only [List.lookup_cons]
    by_cases first : key = name'
    · have second : key ≠ name := fun h => different (first.symm.trans h)
      subst first
      have no : (key == name) = false := beq_eq_false_iff_ne.mpr second
      simp [no]
    · have no : (key == name') = false := beq_eq_false_iff_ne.mpr first
      simp [no]
  | trans first _ ih₁ ih₂ =>
    exact (ih₁ distinct).trans (ih₂ ((first.map _).nodup_iff.mp distinct))

theorem lookup_sortKeys {fields : Dict} (distinct : (fields.map Prod.fst).Nodup) (key : Str) :
    (sortKeys fields).lookup key = fields.lookup key :=
  (lookup_of_perm distinct (sortKeys_perm fields).symm key).symm

theorem lookup_map_values (f : Json → Json) (fields : Dict) (key : Str) :
    (fields.map fun field => (field.1, f field.2)).lookup key = (fields.lookup key).map f := by
  induction fields with
  | nil => rfl
  | cons field fields ih =>
    obtain ⟨name, value⟩ := field
    simp only [List.map_cons, List.lookup_cons]
    by_cases same : key == name <;> simp [same, ih]

theorem lookup_mem {fields : Dict} {key : Str} {value : Json} (found : fields.lookup key = some value) :
    (key, value) ∈ fields := by
  induction fields with
  | nil => simp at found
  | cons field fields ih =>
    obtain ⟨name, first⟩ := field
    rw [List.lookup_cons] at found
    by_cases same : key == name
    · simp only [same, Option.some.injEq] at found
      rw [beq_iff_eq.mp same, found]
      exact List.mem_cons_self
    · simp only [same] at found
      exact List.mem_cons_of_mem _ (ih found)

namespace Json

theorem map_keys_normalizeFields (fields : Dict) :
    (normalizeFields fields).map Prod.fst = fields.map Prod.fst := by
  simp [normalizeFields_eq, Function.comp_def]

/-- Sorting the keys of an object leaves what each key holds, up to the sorting inside it. -/
theorem lookup_normalize {fields : Dict} (distinct : (fields.map Prod.fst).Nodup) (key : Str) :
    (sortKeys (normalizeFields fields)).lookup key = (fields.lookup key).map normalize := by
  rw [lookup_sortKeys (by rwa [map_keys_normalizeFields]), normalizeFields_eq, lookup_map_values]

mutual
theorem normalize_wellKeyed : ∀ j : Json, j.WellKeyed → j.normalize.WellKeyed
  | .null, _ => trivial
  | .bool _, _ => trivial
  | .int _, _ => trivial
  | .float _, _ => trivial
  | .str _, _ => trivial
  | .arr items, keyed => by
    simp only [WellKeyed] at keyed
    simpa only [normalize, WellKeyed] using normalizeItems_wellKeyed items keyed
  | .obj fields, keyed => by
    simp only [WellKeyed] at keyed
    simp only [normalize, WellKeyed]
    refine ⟨sortKeys_keys_nodup (by rw [map_keys_normalizeFields]; exact keyed.1), ?_⟩
    rw [wellKeyedFields_iff]
    intro field member
    exact (wellKeyedFields_iff _).mp (normalizeFields_wellKeyed fields keyed.2) field (mem_sortKeys.mp member)

theorem normalizeItems_wellKeyed : ∀ items : List Json, WellKeyedItems items →
    WellKeyedItems (normalizeItems items)
  | [], _ => trivial
  | item :: items, keyed => by
    simp only [WellKeyedItems] at keyed
    exact ⟨normalize_wellKeyed item keyed.1, normalizeItems_wellKeyed items keyed.2⟩

theorem normalizeFields_wellKeyed : ∀ fields : Dict, WellKeyedFields fields →
    WellKeyedFields (normalizeFields fields)
  | [], _ => trivial
  | (_, value) :: fields, keyed => by
    simp only [WellKeyedFields] at keyed
    exact ⟨normalize_wellKeyed value keyed.1, normalizeFields_wellKeyed fields keyed.2⟩
end

end Json

end ManifestCV.Foundation
