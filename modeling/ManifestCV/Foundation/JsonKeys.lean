import ManifestCV.Foundation.Entries
import ManifestCV.Foundation.JsonText

namespace ManifestCV.Foundation

theorem sortKeys_sortKeys (fields : Dict) : sortKeys (sortKeys fields) = sortKeys fields :=
  (List.pairwise_insertionSort keyOrder fields).insertionSort_eq

namespace Json

theorem normalizeFields_sortKeys (fields : Dict) :
    normalizeFields (sortKeys fields) = sortKeys (normalizeFields fields) := by
  rw [normalizeFields_eq, normalizeFields_eq]
  exact List.map_insertionSort keyOrder keyOrder _ fields fun _ _ _ _ => Iff.rfl

mutual
theorem normalize_normalize : ∀ j : Json, j.normalize.normalize = j.normalize
  | .null | .bool _ | .int _ | .float _ | .str _ => rfl
  | .arr items => by
    rw [normalize, normalize, normalizeItems_normalizeItems items]
  | .obj fields => by
    rw [normalize, normalize, normalizeFields_sortKeys, normalizeFields_normalizeFields fields,
      sortKeys_sortKeys]

theorem normalizeItems_normalizeItems :
    ∀ items : List Json, normalizeItems (normalizeItems items) = normalizeItems items
  | [] => rfl
  | item :: items => by
    rw [normalizeItems, normalizeItems, normalize_normalize item, normalizeItems_normalizeItems items]

theorem normalizeFields_normalizeFields :
    ∀ fields : Dict, normalizeFields (normalizeFields fields) = normalizeFields fields
  | [] => rfl
  | (key, value) :: fields => by
    rw [normalizeFields, normalizeFields, normalize_normalize value, normalizeFields_normalizeFields fields]
end

theorem wellKeyed_arr {items : List Json} : (arr items).WellKeyed ↔ ∀ item ∈ items, item.WellKeyed := by
  rw [WellKeyed, wellKeyedItems_iff]

theorem wellKeyed_obj {fields : Dict} :
    (obj fields).WellKeyed ↔ (fields.map Prod.fst).Nodup ∧ ∀ field ∈ fields, field.2.WellKeyed := by
  rw [WellKeyed, wellKeyedFields_iff]

end Json

theorem dictInsert_eq (fields : Dict) (key : Str) (value : Json) :
    dictInsert fields key value = setKey fields key value := by
  simp only [dictInsert, setKey, List.any_eq_true, decide_eq_true_eq, List.mem_map]

theorem lookup_dictInsert (fields : Dict) (key other : Str) (value : Json) :
    (dictInsert fields key value).lookup other = if other = key then some value else fields.lookup other := by
  rw [dictInsert_eq, lookup_setKey]

theorem mem_dictInsert {fields : Dict} {key : Str} {value : Json} {field : Str × Json}
    (member : field ∈ dictInsert fields key value) :
    field = (key, value) ∨ field ∈ fields := by
  rw [dictInsert_eq, ← Prod.mk.eta (p := field), mem_setKey] at member
  rcases member with ⟨named, held⟩ | ⟨_, inside⟩
  · exact .inl (Prod.ext named held)
  · exact .inr inside

theorem dictInsert_wellKeyed {fields : Dict} {key : Str} {value : Json} (keyed : (Json.obj fields).WellKeyed)
    (inner : value.WellKeyed) : (Json.obj (dictInsert fields key value)).WellKeyed := by
  rw [Json.wellKeyed_obj] at keyed ⊢
  constructor
  · rw [dictInsert_eq]
    exact setKey_keys keyed.1 key value
  · intro field member
    rcases mem_dictInsert member with rfl | inside
    · exact inner
    · exact keyed.2 field inside

theorem dictOf_wellKeyed {fields : Dict} (inner : ∀ field ∈ fields, field.2.WellKeyed) :
    (Json.obj (dictOf fields)).WellKeyed := by
  have extended : ∀ start : Dict, (Json.obj start).WellKeyed →
      (Json.obj (fields.foldl (fun dict field => dictInsert dict field.1 field.2) start)).WellKeyed := by
    induction fields with
    | nil => exact fun _ keyed => keyed
    | cons field fields ih =>
      intro start keyed
      apply ih
      · exact fun other member => inner other (List.mem_cons_of_mem _ member)
      · exact dictInsert_wellKeyed keyed (inner field List.mem_cons_self)
  apply extended
  exact Json.wellKeyed_obj.mpr ⟨List.nodup_nil, fun _ member => (nomatch member)⟩

structure ReadsKeyed (floats : FloatText) (fuel : Nat) : Prop where
  value : ∀ {s rest value}, readValue floats fuel s = some (value, rest) → value.WellKeyed
  items : ∀ {s rest items}, readItems floats fuel s = some (items, rest) → ∀ item ∈ items, item.WellKeyed
  field : ∀ {s rest field}, readField floats fuel s = some (field, rest) → field.2.WellKeyed
  fields : ∀ {s rest fields}, readFields floats fuel s = some (fields, rest) →
    ∀ field ∈ fields, field.2.WellKeyed

section Readers

variable {floats : FloatText} {fuel : Nat}

theorem readKeyword_value {word s rest : Str} {value read : Json}
    (done : readKeyword word value s = some (read, rest)) : read = value := by
  rw [readKeyword] at done
  split at done
  · cases done
    rfl
  · cases done

theorem readNumber_wellKeyed {s rest : Str} {value : Json} (done : readNumber floats s = some (value, rest)) :
    value.WellKeyed := by
  simp only [readNumber] at done
  split at done
  · cases done
    exact True.intro
  · split at done
    · obtain ⟨x, _, same⟩ := Option.map_eq_some_iff.mp done
      cases same
      exact True.intro
    · cases done

theorem ReadsKeyed.readValue (ih : ReadsKeyed floats fuel) {s rest : Str} {value : Json}
    (done : Foundation.readValue floats (fuel + 1) s = some (value, rest)) : value.WellKeyed := by
  rw [Foundation.readValue] at done
  split at done
  · cases done
  · split at done
    · obtain ⟨read, _, same⟩ := Option.map_eq_some_iff.mp done
      cases same
      exact True.intro
    split at done
    · split at done
      · cases done
        exact Json.wellKeyed_arr.mpr fun _ member => (nomatch member)
      · obtain ⟨⟨first, between⟩, head, done⟩ := Option.bind_eq_some_iff.mp done
        obtain ⟨⟨items, after⟩, tail, done⟩ := Option.bind_eq_some_iff.mp done
        cases done
        exact Json.wellKeyed_arr.mpr (List.forall_mem_cons.mpr ⟨ih.value head, ih.items tail⟩)
    split at done
    · split at done
      · cases done
        exact Json.wellKeyed_obj.mpr ⟨List.nodup_nil, fun _ member => (nomatch member)⟩
      · obtain ⟨⟨first, between⟩, head, done⟩ := Option.bind_eq_some_iff.mp done
        obtain ⟨⟨fields, after⟩, tail, done⟩ := Option.bind_eq_some_iff.mp done
        cases done
        exact dictOf_wellKeyed (List.forall_mem_cons.mpr ⟨ih.field head, ih.fields tail⟩)
    split at done
    · exact readKeyword_value done ▸ True.intro
    split at done
    · exact readKeyword_value done ▸ True.intro
    split at done
    · exact readKeyword_value done ▸ True.intro
    · exact readNumber_wellKeyed done

theorem ReadsKeyed.readItems (ih : ReadsKeyed floats fuel) {s rest : Str} {items : List Json}
    (done : Foundation.readItems floats (fuel + 1) s = some (items, rest)) :
    ∀ item ∈ items, item.WellKeyed := by
  rw [Foundation.readItems] at done
  split at done
  · cases done
    exact fun _ member => (nomatch member)
  · obtain ⟨⟨first, between⟩, head, done⟩ := Option.bind_eq_some_iff.mp done
    obtain ⟨⟨items, after⟩, tail, done⟩ := Option.bind_eq_some_iff.mp done
    cases done
    exact List.forall_mem_cons.mpr ⟨ih.value head, ih.items tail⟩
  · cases done

theorem ReadsKeyed.readField (ih : ReadsKeyed floats fuel) {s rest : Str} {field : Str × Json}
    (done : Foundation.readField floats (fuel + 1) s = some (field, rest)) : field.2.WellKeyed := by
  unfold Foundation.readField at done
  split at done
  · obtain ⟨⟨key, between⟩, _, done⟩ := Option.bind_eq_some_iff.mp done
    dsimp only at done
    split at done
    · obtain ⟨⟨value, after⟩, read, done⟩ := Option.bind_eq_some_iff.mp done
      cases done
      exact ih.value read
    · cases done
  · cases done

theorem ReadsKeyed.readFields (ih : ReadsKeyed floats fuel) {s rest : Str} {fields : Dict}
    (done : Foundation.readFields floats (fuel + 1) s = some (fields, rest)) :
    ∀ field ∈ fields, field.2.WellKeyed := by
  rw [Foundation.readFields] at done
  split at done
  · cases done
    exact fun _ member => (nomatch member)
  · obtain ⟨⟨first, between⟩, head, done⟩ := Option.bind_eq_some_iff.mp done
    obtain ⟨⟨fields, after⟩, tail, done⟩ := Option.bind_eq_some_iff.mp done
    cases done
    exact List.forall_mem_cons.mpr ⟨ih.field head, ih.fields tail⟩
  · cases done

theorem readsKeyed (floats : FloatText) (fuel : Nat) : ReadsKeyed floats fuel := by
  induction fuel with
  | zero =>
      exact ⟨fun done => (nomatch done), fun done => (nomatch done), fun done => (nomatch done), fun done =>
        (nomatch done)⟩
  | succ fuel ih => exact ⟨ih.readValue, ih.readItems, ih.readField, ih.readFields⟩

end Readers

theorem loads_wellKeyed {floats : FloatText} {s : Str} {value : Json} (loaded : loads floats s = some value) :
    value.WellKeyed := by
  rw [loads] at loaded
  split at loaded
  · rename_i read rest done
    split at loaded
    · cases loaded
      exact (readsKeyed floats _).value done
    · cases loaded
  · cases loaded

end ManifestCV.Foundation
