import ManifestCV.Document.Plain
import ManifestCV.Document.Sections

namespace ManifestCV.Document

open Foundation

def matchesName (rt : Runtime) (title type name : Str) : Bool :=
  [rt.lower title, replaceChar '_' " ".toList type].any fun candidate => occursIn candidate name ||
    occursIn name candidate

/-- Some line with text stands under a heading that matches the block, or first of all where "summary"
    does. -/
def hasText (rt : Runtime) (markdown title type : Str) : Bool :=
  (markdownLines rt markdown).any fun tagged => matchesName rt title type tagged.1

def titleOf : Json → Option (Str × Str)
  | .obj fields => titleAndType fields
  | _ => none

def contentOf : Json → Option Json
  | .obj fields => fields.lookup "content".toList
  | _ => none

def Unmatched (rt : Runtime) (markdown : Str) (block : Json) : Prop :=
  ∃ title type, titleOf block = some (title, type) ∧ hasText rt markdown title type = false

def SameContent (content other : Option Json) : Prop := content.map Json.normalize = other.map Json.normalize

def emptyContent : Json := .obj [("text".toList, .str []), ("bullets".toList, .arr [])]

section Stability

variable {rt : Runtime} {markdown : Str}

theorem mapM_forall {α β : Type} {f : α → Option β} {items : List α} {results : List β}
    (done : items.mapM f = some results) :
    List.Forall₂ (fun item result => f item = some result) items results := by
  induction items generalizing results with
  | nil =>
    cases done
    exact .nil
  | cons item items ih =>
    rw [List.mapM_cons] at done
    obtain ⟨first, head, done⟩ := Option.bind_eq_some_iff.mp done
    obtain ⟨rest, tail, same⟩ := Option.bind_eq_some_iff.mp done
    cases same
    exact .cons head (ih tail)

theorem pickedSection_matches {title type : Str} {item : Str × List Str}
    (found : pickedSection rt (readSections rt markdown) title type = some item) :
    item ∈ readSections rt markdown ∧ matchesName rt title type item.1 = true := by
  have passes := List.find?_some found
  exact ⟨List.mem_of_find?_eq_some found, passes⟩

theorem sectionFor_unmatched {title type : Str} (unmatched : hasText rt markdown title type = false) :
    sectionFor rt (readSections rt markdown) title type = [] := by
  rw [sectionFor_picked]
  split
  · rename_i item found
    obtain ⟨member, matching⟩ := pickedSection_matches found
    rw [readSections_lines member, List.map_eq_nil_iff, List.filter_eq_nil_iff]
    intro tagged inside named
    have unlike := List.any_eq_false.mp unmatched tagged inside
    rw [of_decide_eq_true named] at unlike
    exact unlike matching
  · rfl

theorem fillBlock_unmatched {block filled : Json} (unmatched : Unmatched rt markdown block)
    (done : fillBlock rt (readSections rt markdown) block = some filled) :
    contentOf filled = some emptyContent := by
  obtain ⟨title, type, titled, nothing⟩ := unmatched
  cases block with
  | obj fields =>
    rw [titleOf] at titled
    rw [fillBlock, titled] at done
    cases done
    rw [contentOf, lookup_dictInsert, if_pos rfl, sectionFor_unmatched nothing, sectionContent]
    cases bulletTypes.contains type <;> rfl
  | _ => cases titled

end Stability

/-- Blocks without a section keep their content exactly when all of these have the empty content already. -/
theorem unmatched_stable_iff (rt : Runtime) (markdown : Str) (existing result : List Json)
    (done : markdownToBlocks rt markdown existing = some result) :
    List.Forall₂ (fun before after => Unmatched rt markdown before →
      SameContent (contentOf after) (contentOf before)) existing result ↔
      ∀ block ∈ existing, Unmatched rt markdown block →
          SameContent (contentOf block) (some emptyContent) := by
  have filled := mapM_forall done
  clear done
  induction filled with
  | nil => exact ⟨fun _ _ member => absurd member List.not_mem_nil, fun _ => .nil⟩
  | @cons block after blocks afters head _ ih =>
    have here : (Unmatched rt markdown block → SameContent (contentOf after) (contentOf block)) ↔
        (Unmatched rt markdown block → SameContent (contentOf block) (some emptyContent)) := by
      refine forall_congr' fun unmatched => ?_
      rw [fillBlock_unmatched unmatched head]
      exact eq_comm
    rw [List.forall₂_cons, List.forall_mem_cons, here]
    exact and_congr_right fun _ => ih

def contactPage : ResumeDocument :=
  onePagerWith .contact "Contact".toList [("text".toList, .str "ada@example.com".toList)]

theorem unmatched_stable_iff_contactPage : ∃ result,
    markdownToBlocks plainRuntime "# Contact\nBonn".toList (contactPage.blocks.map dumpBlock) = some result ∧
      (List.Forall₂ (fun before after => Unmatched plainRuntime "# Contact\nBonn".toList before →
          SameContent (contentOf after) (contentOf before)) (contactPage.blocks.map dumpBlock) result ↔
        ∀ block ∈ contactPage.blocks.map dumpBlock, Unmatched plainRuntime "# Contact\nBonn".toList block →
          SameContent (contentOf block) (some emptyContent)) :=
  ⟨_, rfl, unmatched_stable_iff plainRuntime _ _ _ rfl⟩

/-- A generated text that only has skills empties the contact details. -/
theorem contact_emptied : Accepted plainRuntime contactPage ∧ ∃ result,
    markdownToBlocks plainRuntime "# Skills\n- Go".toList (contactPage.blocks.map dumpBlock) = some result ∧
      ¬ List.Forall₂ (fun before after => Unmatched plainRuntime "# Skills\n- Go".toList before →
          SameContent (contentOf after) (contentOf before)) (contactPage.blocks.map dumpBlock) result := by
  refine ⟨onePagerWith_accepted rfl rfl ⟨List.nodup_singleton _, trivial, trivial⟩, _, rfl, ?_⟩
  intro each
  cases each with
  | cons head _ =>
    have same := head ⟨_, _, rfl, by decide⟩
    cases same

end ManifestCV.Document
