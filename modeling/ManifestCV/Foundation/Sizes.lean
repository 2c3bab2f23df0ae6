import Mathlib.Algebra.Order.BigOperators.Group.List
import ManifestCV.Foundation.PdfFile
import ManifestCV.Foundation.Repr

namespace ManifestCV.Foundation

theorem decimal_length_le {n k : Nat} (positive : 0 < k) (small : n < 10 ^ k) : (decimal n).length ≤ k :=
  (Nat.length_toDigits_le_iff (by decide) positive).mpr small

theorem decimal_length_pos (n : Nat) : 0 < (decimal n).length := Nat.length_toDigits_pos

theorem decimalInt_length_le {n : Int} {k : Nat} (positive : 0 < k) (nonneg : 0 ≤ n) (small : n < 10 ^ k) :
    (decimalInt n).length ≤ k := by
  obtain ⟨m, rfl⟩ := Int.eq_ofNat_of_zero_le nonneg
  exact decimal_length_le positive (by exact_mod_cast small)

theorem decimalInt_length_pos (n : Int) : 0 < (decimalInt n).length := by
  cases n with
  | ofNat m => exact decimal_length_pos m
  | negSucc m => exact Nat.succ_pos _

theorem encode_length (s : Str) : (encode s).length = (s.map Char.utf8Size).sum := by
  rw [encode, List.length_flatMap]
  simp only [String.length_utf8EncodeChar]

theorem encode_length_ge (s : Str) : s.length ≤ (encode s).length := by
  rw [encode_length, ← List.length_map Char.utf8Size]
  refine List.length_le_sum_of_one_le _ ?_
  intro size member
  obtain ⟨c, _, rfl⟩ := List.mem_map.mp member
  exact c.utf8Size_pos

theorem sum_map_const_add {α : Type} (f : α → Nat) (k : Nat) (items : List α) :
    (items.map fun a => f a + k).sum = (items.map f).sum + k * items.length := by
  induction items with
  | nil => rfl
  | cons a items ih =>
    simp only [List.map_cons, List.sum_cons, ih, List.length_cons, Nat.mul_add]
    omega

theorem sum_map_flatMap {α β : Type} (f : α → List β) (g : β → Nat) (items : List α) :
    ((items.flatMap f).map g).sum = (items.map fun a => ((f a).map g).sum).sum := by
  induction items with
  | nil => rfl
  | cons a items ih =>
      rw [List.flatMap_cons, List.map_append, List.sum_append, ih, List.map_cons, List.sum_cons]

theorem joinWith_length_le (sep : Str) (texts : List Str) :
    (joinWith sep texts).length ≤ (texts.map fun text => text.length + sep.length).sum := by
  rw [joinWith_length, sum_map_const_add, Nat.mul_comm sep.length]
  exact Nat.add_le_add_left (Nat.mul_le_mul_right _ (Nat.sub_le _ 1)) _

theorem joinWith_length_ge (sep : Str) (texts : List Str) :
    (texts.map fun text => text.length + sep.length).sum ≤ (joinWith sep texts).length + sep.length := by
  rw [joinWith_length, sum_map_const_add, Nat.mul_comm sep.length]
  cases texts with
  | nil => simp
  | cons text texts =>
    simp only [List.length_cons, Nat.add_sub_cancel, Nat.succ_mul]
    omega

namespace Pdf

theorem encode_length_plain {s : Str} (plain : Plain s) : (encode s).length = s.length := by
  induction s with
  | nil => rfl
  | cons c s ih =>
    rw [encode_cons, utf8EncodeChar_ascii (plain c List.mem_cons_self).1, List.length_append,
      ih fun d member => plain d (List.mem_cons_of_mem _ member)]
    simp [Nat.add_comm]

theorem pad10_length {n : Nat} (small : n < 10 ^ 10) : (pad10 n).length = 10 := by
  have digits := decimal_length_le (by decide) small
  rw [pad10, List.length_append, List.length_replicate]
  omega

theorem line_length {s : Str} (plain : Plain s) : (line s).length = s.length + 1 := by
  rw [line, List.length_append, encode_length_plain plain]
  rfl

section Files

variable {bodies : List Bytes}

theorem block_length (number : Nat) (body : Bytes) :
    (block number body).length = (decimal number).length + body.length + 15 := by
  have head : (ascii " 0 obj\n").length = 7 := rfl
  have tail : (ascii "\nendobj\n").length = 8 := rfl
  simp only [block, List.length_append, encode_length_plain (decimal_plain number), head, tail]
  omega

theorem layout_length_le {number : Nat} {output : Bytes} (few : number + bodies.length ≤ 10 ^ 5) :
    (layout number output bodies).1.length ≤ output.length +
    (bodies.map fun body => body.length + 20).sum := by
  induction bodies generalizing number output with
  | nil => simp [layout]
  | cons body bodies ih =>
    rw [List.length_cons] at few
    have rest := @ih (number + 1) (output ++ block number body) (by omega)
    have digits : (decimal number).length ≤ 5 := decimal_length_le (by decide) (by omega)
    rw [List.length_append, block_length] at rest
    rw [layout, List.map_cons, List.sum_cons]
    dsimp only
    omega

theorem layout_length_ge (number : Nat) (output : Bytes) :
    output.length + (bodies.map List.length).sum ≤ (layout number output bodies).1.length := by
  induction bodies generalizing number output with
  | nil => simp [layout]
  | cons body bodies ih =>
    have rest := ih (number + 1) (output ++ block number body)
    rw [List.length_append, block_length] at rest
    rw [layout, List.map_cons, List.sum_cons]
    dsimp only
    omega

theorem layout_offsets_le (number : Nat) (output : Bytes) :
    ∀ offset ∈ (layout number output bodies).2, offset ≤ (layout number output bodies).1.length := by
  induction bodies generalizing number output with
  | nil => exact fun _ member => nomatch member
  | cons body bodies ih =>
    obtain ⟨after, same⟩ := layout_extends number output (body :: bodies)
    intro offset member
    rcases List.mem_cons.mp member with rfl | member
    · rw [same, List.length_append]
      exact Nat.le_add_right _ _
    · exact ih (number + 1) (output ++ block number body) offset member

theorem writeFile_length_le {root : Nat} (few : bodies.length + 1 < 10 ^ 5) (numbered : root < 10 ^ 5)
    (short : (bodies.map fun body => body.length + 20).sum < 10 ^ 9) :
    (writeFile bodies root).length ≤ 120 + (bodies.map fun body => body.length + 40).sum := by
  have laid := @layout_length_le bodies 1 (ascii "%PDF-1.4\n") (by omega)
  have header : (ascii "%PDF-1.4\n").length = 9 := rfl
  have offsets : ((layout 1 (ascii "%PDF-1.4\n") bodies).2.flatMap fun offset =>
    line (entryLine offset)).length =
      20 * bodies.length := by
    rw [List.length_flatMap, List.sum_eq_card_nsmul _ 20, List.length_map, layout_length, nsmul_eq_mul,
      Nat.cast_id, Nat.mul_comm]
    intro size member
    obtain ⟨offset, inside, rfl⟩ := List.mem_map.mp member
    have near := layout_offsets_le 1 (ascii "%PDF-1.4\n") offset inside
    rw [line_length (entryLine_plain offset), entryLine, List.length_append, pad10_length (by omega)]
    rfl
  have dict : ∀ size, size < 10 ^ 5 → (line (Object.dict (trailerDict size root)).print).length ≤ 35 := by
    intro size small
    have sizeDigits : (decimal size).length ≤ 5 := decimal_length_le (by decide) small
    have rootDigits : (decimal root).length ≤ 5 := decimal_length_le (by decide) numbered
    rw [line_length (print_plain _ (trailerDict_regular size root))]
    simp only [Object.print, Object.printEntries, trailerDict, List.length_append, String.length_toList,
      List.length_cons, List.length_nil]
    have texts : "<<".length = 2 ∧ " >>".length = 3 ∧ " /".length = 2 ∧ "Size".length = 4 ∧
      "Root".length = 4 ∧
        " 0 R".length = 4 := by decide
    omega
  have count : (line (decimal (bodies.length + 1))).length ≤ 6 := by
    have digits : (decimal (bodies.length + 1)).length ≤ 5 := decimal_length_le (by decide) few
    rw [line_length (decimal_plain _)]
    omega
  have start : (encode (decimal (layout 1 (ascii "%PDF-1.4\n") bodies).1.length)).length ≤ 10 := by
    rw [encode_length_plain (decimal_plain _)]
    exact decimal_length_le (by decide) (by omega)
  have trailer := dict (bodies.length + 1) few
  have texts : (ascii "xref\n0 ").length = 7 ∧ (line freeLine).length = 20 ∧ (ascii "trailer\n").length = 8 ∧
      (ascii "startxref\n").length = 10 ∧ (ascii "\n%%EOF\n").length = 7 := ⟨rfl, rfl, rfl, rfl, rfl⟩
  have sizes : (bodies.map fun body => body.length + 40).sum = (bodies.map fun body => body.length + 20).sum +
      20 * bodies.length := by
    rw [sum_map_const_add, sum_map_const_add]
    omega
  simp only [writeFile, List.length_append, offsets]
  omega

theorem writeFile_length_ge (root : Nat) : (bodies.map List.length).sum ≤ (writeFile bodies root).length := by
  have laid := @layout_length_ge bodies 1 (ascii "%PDF-1.4\n")
  simp only [writeFile, List.length_append]
  omega

end Files

end Pdf

end ManifestCV.Foundation
