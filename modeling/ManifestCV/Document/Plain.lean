import ManifestCV.Document.Canonical
import ManifestCV.Foundation.FloatNumeral

namespace ManifestCV.Document

open Foundation

def chunksOf (width : Nat) : Nat → Str → List Str
  | 0, _ => []
  | fuel + 1, text => if text.isEmpty then [] else text.take width :: chunksOf width fuel (text.drop width)

theorem chunksOf_length (width fuel : Nat) (text : Str) :
    ∀ chunk ∈ chunksOf width fuel text, chunk.length ≤ width := by
  induction fuel generalizing text with
  | zero => exact fun _ member => nomatch member
  | succ fuel ih =>
    intro chunk member
    rw [chunksOf] at member
    split at member
    · cases member
    · rcases List.mem_cons.mp member with rfl | member
      · rw [List.length_take]
        exact Nat.min_le_left _ _
      · exact ih _ chunk member

theorem chunksOf_covers {width fuel : Nat} {text : Str} (positive : 0 < width) (enough : text.length ≤ fuel) :
    (chunksOf width fuel text).flatten = text := by
  induction fuel generalizing text with
  | zero => rw [List.length_eq_zero_iff.mp (Nat.le_zero.mp enough), chunksOf, List.flatten_nil]
  | succ fuel ih =>
    rw [chunksOf]
    split
    · rename_i empty
      rw [List.isEmpty_iff.mp empty, List.flatten_nil]
    · have shorter : (text.drop width).length ≤ fuel := by
        rw [List.length_drop]
        omega
      rw [List.flatten_cons, ih shorter, List.take_append_drop]

/-- The libraries as they behave on ASCII text, whole floats and lines that need no wrapping. -/
def plainRuntime : Runtime where
  floats := exactFloats
  lower := List.map Char.toLower
  isPrintable c := decide (0x20 ≤ c.toNat)
  wrap text width := chunksOf width text.length (strip text)
  netlocError _ := none
  laxBool
    | .bool b => some b
    | _ => none
  laxFloat
    | .float x => some x
    | .int n => some (Double.ofInt n)
    | _ => none
  laxBool_bool _ := rfl
  laxFloat_float _ := rfl
  laxBool_scalar j b same := by cases j <;> first | rfl | cases same
  laxFloat_scalar j x same := by cases j <;> first | rfl | cases same

theorem plainRuntime_wraps : ∀ text width, 0 < width → ∀ chunk ∈ plainRuntime.wrap text width,
    chunk.length ≤ width :=
  fun _ width _ => chunksOf_length width _ _

theorem accepted_of_valid {rt : Runtime} {document : ResumeDocument} (valid : document.Valid rt)
    (keyed : ∀ block ∈ document.blocks, block.WellKeyed) (same : document.reloaded = document) :
    Accepted rt document := by
  refine ⟨modelDump document, modelDump_wellKeyed keyed, ?_⟩
  rw [validateDocument_dump valid, same]

def onePager (text : Str) : ResumeDocument where
  paper := .a4
  pages := [⟨"page-1".toList,
    [⟨"row-1".toList, [⟨"main".toList, Double.ofInt 1, Double.ofInt 1, Double.ofInt 1,
    ["summary".toList]⟩]⟩]⟩]
  blocks := [⟨"summary".toList, .summary, "Summary".toList, true, [("text".toList, .str text)], [], []⟩]
  style := { defaultStyle.reloaded with margin := Double.ofInt 1 }

theorem onePager_valid : (onePager "Engineer".toList).Valid plainRuntime := by
  refine ⟨?_, ?_, ?_, ?_⟩
  · unfold Passes
    decide
  · intro page member
    rw [List.mem_singleton.mp member]
    refine ⟨by unfold Passes; decide, ?_⟩
    intro row inside
    rw [List.mem_singleton.mp inside]
    refine ⟨by unfold Passes; with_unfolding_all decide, ?_⟩
    intro column inner
    rw [List.mem_singleton.mp inner]
    unfold Passes
    with_unfolding_all decide
  · intro block member
    rw [List.mem_singleton.mp member]
    unfold Passes
    decide
  · unfold Passes
    with_unfolding_all decide

theorem onePager_wellKeyed (text : Str) : ∀ block ∈ (onePager text).blocks, block.WellKeyed := by
  intro block member
  rw [List.mem_singleton.mp member]
  simp [ResumeBlock.WellKeyed, Json.WellKeyed, Json.wellKeyedFields_iff]

theorem onePager_reloads :
    validateDocument plainRuntime (modelDump (onePager "Engineer".toList)) =
      .ok (onePager "Engineer".toList) :=
  validateDocument_dump onePager_valid

theorem onePager_accepted : Accepted plainRuntime (onePager "Engineer".toList) :=
  accepted_of_valid onePager_valid (onePager_wellKeyed _) rfl

def onePagerWith (type : BlockType) (title : Str) (content : Dict) : ResumeDocument :=
  { onePager [] with blocks := [⟨"summary".toList, type, title, true, content, [], []⟩] }

theorem onePagerWith_valid {type : BlockType} {title : Str} {content : Dict}
    (titled : (bounded 1 120 title "title".toList).1 = true)
    (bounded : contentIsBounded plainRuntime content = .ok ()) :
    (onePagerWith type title content).Valid plainRuntime := by
  refine ⟨onePager_valid.checks, onePager_valid.pages, ?_, onePager_valid.style⟩
  intro block member
  rw [List.mem_singleton.mp member]
  simp only [Passes, ResumeBlock.checks, List.forall_mem_cons]
  refine ⟨by decide, by decide, titled, rfl, valueCheck_passes.mpr bounded, ?_, fun _ absent =>
    absurd absent List.not_mem_nil⟩
  exact valueCheck_passes.mpr (by rfl)

theorem onePagerWith_accepted {type : BlockType} {title : Str} {content : Dict}
    (titled : (bounded 1 120 title "title".toList).1 = true)
    (bounded : contentIsBounded plainRuntime content = .ok ()) (keyed : (Json.obj content).WellKeyed) :
    Accepted plainRuntime (onePagerWith type title content) := by
  refine accepted_of_valid (onePagerWith_valid titled bounded) ?_ rfl
  intro block member
  rw [List.mem_singleton.mp member]
  exact ⟨keyed, List.nodup_nil⟩

end ManifestCV.Document
