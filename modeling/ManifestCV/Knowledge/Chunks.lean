import ManifestCV.Foundation.Splitting
import ManifestCV.Knowledge.Points

namespace ManifestCV.Knowledge

open Foundation

/-- The chunks stand one after another in the text, with nothing but white space around them. -/
def Parts : List Str → Str → Prop
  | [], rest => isBlank rest = true
  | chunk :: chunks, rest => ∃ gap after, rest = gap ++ chunk ++ after ∧ isBlank gap = true ∧
      Parts chunks after

def Lossless (content : Str) (chunks : List Str) : Prop :=
  (∀ chunk ∈ chunks, isBlank chunk = false) ∧ Parts chunks content

def beforeHeadings (content : Str) : Str :=
  match headingStarts 0 0 true content with
  | [] => []
  | start :: _ => content.take start

def visible (s : Str) : Str := s.filter fun c => !isSpace c

section Visible

theorem visible_append (s t : Str) : visible (s ++ t) = visible s ++ visible t := List.filter_append ..

theorem isBlank_iff_visible {s : Str} : isBlank s = true ↔ visible s = [] := by
  rw [isBlank, visible, List.all_eq_true, List.filter_eq_nil_iff]
  simp

theorem isBlank_strip (s : Str) : isBlank (strip s) = isBlank s := by
  obtain ⟨left, right, whole, leftBlank, rightBlank⟩ := strip_split s
  rw [Bool.eq_iff_iff]
  conv_rhs => rw [whole]
  rw [isBlank_append, isBlank_append]
  exact ⟨fun middle => ⟨⟨leftBlank, middle⟩, rightBlank⟩, fun all => all.1.2⟩

theorem Parts.visible {chunks : List Str} {content : Str} (parts : Parts chunks content) :
    Knowledge.visible content = chunks.flatMap Knowledge.visible := by
  induction chunks generalizing content with
  | nil => exact isBlank_iff_visible.mp parts
  | cons chunk chunks ih =>
    obtain ⟨gap, after, rfl, blank, rest⟩ := parts
    rw [visible_append, visible_append, isBlank_iff_visible.mp blank, ih rest]
    rfl

theorem parts_strip {pieces : List Str} {gap : Str} (blank : isBlank gap = true) :
    Parts (pieces.map strip) (gap ++ pieces.flatten) := by
  induction pieces generalizing gap with
  | nil =>
    rw [List.flatten_nil, List.append_nil]
    exact blank
  | cons piece pieces ih =>
    obtain ⟨left, right, whole, leftBlank, rightBlank⟩ := strip_split piece
    refine ⟨gap ++ left, right ++ pieces.flatten, ?_, isBlank_append.mpr ⟨blank, leftBlank⟩, ih rightBlank⟩
    rw [List.flatten_cons]
    conv_lhs => rw [whole]
    simp only [List.append_assoc]

end Visible

section Headings

theorem headingLength_hash {text : Str} {length : Nat} (found : headingLength text = some length) :
    ∃ rest, text = '#' :: rest := by
  cases text with
  | nil => cases found
  | cons c rest =>
    by_cases hash : c = '#'
    · exact ⟨rest, by rw [hash]⟩
    · have no : (((c :: rest).takeWhile (· = '#')).length) = 0 := by simp [hash]
      unfold headingLength at found
      simp [no] at found

theorem headingStarts_spec (position skip : Nat) (lineStart : Bool) (text : Str) :
    (headingStarts position skip lineStart text).Pairwise (· < ·) ∧
      ∀ start ∈ headingStarts position skip lineStart text, position ≤ start ∧ ∃ rest,
        text.drop (start - position) = '#' :: rest := by
  induction text generalizing position skip lineStart with
  | nil => exact ⟨.nil, fun _ member => nomatch member⟩
  | cons c text ih =>
    have later : ∀ skip, (headingStarts (position + 1) skip (c = '\n') text).Pairwise (· < ·) ∧
        ∀ start ∈ headingStarts (position + 1) skip (c = '\n') text,
          position < start ∧ ∃ rest, (c :: text).drop (start - position) = '#' :: rest := by
      intro skip
      obtain ⟨sorted, each⟩ := ih (position + 1) skip (c = '\n')
      refine ⟨sorted, fun start member => ?_⟩
      obtain ⟨after, rest, there⟩ := each start member
      refine ⟨after, rest, ?_⟩
      obtain ⟨distance, rfl⟩ : ∃ n, start = position + 1 + n := ⟨start - (position + 1), by omega⟩
      rw [Nat.add_sub_cancel_left] at there
      rw [show position + 1 + distance - position = distance + 1 by omega, List.drop_succ_cons]
      exact there
    have weak : ∀ skip, ∀ start ∈ headingStarts (position + 1) skip (c = '\n') text,
        position ≤ start ∧ ∃ rest, (c :: text).drop (start - position) = '#' :: rest :=
      fun skip start member => ⟨Nat.le_of_lt ((later skip).2 start member).1, ((later skip).2 start member).2⟩
    cases skip with
    | succ skip => exact ⟨(later skip).1, weak skip⟩
    | zero =>
      rw [headingStarts]
      split
      · rename_i length found
        have hash : ∃ rest, c :: text = '#' :: rest := by
          split at found
          · exact headingLength_hash found
          · cases found
        refine ⟨List.pairwise_cons.mpr ⟨fun start member => ((later _).2 start member).1, (later _).1⟩, ?_⟩
        refine List.forall_mem_cons.mpr ⟨⟨Nat.le_refl _, ?_⟩, weak _⟩
        rw [Nat.sub_self, List.drop_zero]
        exact hash
      · exact ⟨(later 0).1, weak 0⟩

/-- The sections from a start on make up the text from there on, and each has a `#` in it. -/
theorem sections_spec {content : Str} {start : Nat} {starts : List Nat}
    (sorted : (start :: starts).Pairwise (· < ·))
    (hashes : ∀ s ∈ start :: starts, ∃ rest, content.drop s = '#' :: rest) :
    (sections content (start :: starts)).flatten = content.drop start ∧
      ∀ piece ∈ sections content (start :: starts), '#' ∈ piece := by
  induction starts generalizing start with
  | nil =>
    obtain ⟨rest, here⟩ := hashes start List.mem_cons_self
    rw [sections, List.flatten_singleton]
    refine ⟨rfl, fun piece member => ?_⟩
    rw [List.mem_singleton.mp member, here]
    exact List.mem_cons_self
  | cons stop starts ih =>
    obtain ⟨before, sorted⟩ := List.pairwise_cons.mp sorted
    have less := before stop List.mem_cons_self
    obtain ⟨whole, inner⟩ := ih sorted fun s member => hashes s (List.mem_cons_of_mem _ member)
    obtain ⟨rest, here⟩ := hashes start List.mem_cons_self
    rw [sections, List.flatten_cons, whole]
    constructor
    · have stopAt : content.drop stop = (content.drop start).drop (stop - start) := by
        rw [List.drop_drop, Nat.add_sub_cancel' (Nat.le_of_lt less)]
      rw [stopAt, List.take_append_drop]
    · refine List.forall_mem_cons.mpr ⟨?_, inner⟩
      obtain ⟨more, positive⟩ : ∃ n, stop - start = n + 1 := ⟨stop - start - 1, by omega⟩
      rw [here, positive, List.take_succ_cons]
      exact List.mem_cons_self

theorem isBlank_hash {s : Str} (member : '#' ∈ s) : isBlank s = false := by
  rw [Bool.eq_false_iff]
  intro blank
  have space := List.all_eq_true.mp blank '#' member
  exact absurd space (by decide)

end Headings

/-- Chunking loses nothing exactly when there is only white space before the first heading. -/
theorem chunkMarkdown_lossless_iff (content : Str) :
    Lossless content (chunkMarkdown content) ↔ isBlank (beforeHeadings content) = true := by
  obtain ⟨sorted, hashes⟩ := headingStarts_spec 0 0 true content
  unfold chunkMarkdown beforeHeadings
  cases starts : headingStarts 0 0 true content with
  | nil =>
    dsimp only
    rw [strip_isEmpty]
    refine iff_of_true ?_ rfl
    split
    · rename_i blank
      exact ⟨fun _ member => (nomatch member), blank⟩
    · rename_i shown
      have parts := @parts_strip [content] [] rfl
      rw [List.flatten_singleton] at parts
      refine ⟨fun chunk member => ?_, parts⟩
      rw [List.mem_singleton.mp member, isBlank_strip]
      exact Bool.eq_false_iff.mpr shown
  | cons start rest =>
    rw [starts] at sorted hashes
    obtain ⟨whole, inner⟩ := sections_spec sorted fun s member => (hashes s member).2
    have shown : ∀ chunk ∈ (sections content (start :: rest)).map strip, isBlank chunk = false := by
      intro chunk member
      obtain ⟨piece, inside, rfl⟩ := List.mem_map.mp member
      rw [isBlank_strip]
      exact isBlank_hash (inner piece inside)
    have all : ((sections content (start :: rest)).map strip).filter (!·.isEmpty) =
        (sections content (start :: rest)).map strip := by
      refine List.filter_eq_self.mpr fun chunk member => ?_
      have nonempty : chunk ≠ [] := by
        rintro rfl
        exact absurd (shown [] member) (by decide)
      simpa using nonempty
    have cut : content = content.take start ++ (sections content (start :: rest)).flatten := by
      rw [whole, List.take_append_drop]
    dsimp only
    rw [all]
    constructor
    · rintro ⟨_, parts⟩
      have kept := parts.visible
      rw [← (@parts_strip (sections content (start :: rest)) [] rfl).visible, List.nil_append] at kept
      conv_lhs at kept => rw [cut]
      rw [visible_append, List.append_left_eq_self] at kept
      exact isBlank_iff_visible.mpr kept
    · intro blank
      refine ⟨shown, ?_⟩
      conv_rhs => rw [cut]
      exact parts_strip blank

/-- A line before the first heading is in no chunk. -/
theorem intro_lost :
    ¬ Lossless "Weaver since 1998\n# Skills\nGo".toList
    (chunkMarkdown "Weaver since 1998\n# Skills\nGo".toList) := by
  intro lossless
  have kept := lossless.2.visible
  exact absurd kept (by decide)

end ManifestCV.Knowledge
