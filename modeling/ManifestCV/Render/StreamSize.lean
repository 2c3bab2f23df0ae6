import ManifestCV.Foundation.Sizes
import ManifestCV.Render.Margins
import ManifestCV.Render.ObjectGraph

namespace ManifestCV.Render

open Foundation Document Pdf

section Numbers

variable {places : Nat} {x : Double}

theorem fixed_scaled_le {n : Nat} (bound : x.val ≤ n) :
    (roundHalfEven (x.val * (10 ^ places : Nat))).toNat ≤ n * 10 ^ places := by
  have scaled : x.val * (10 ^ places : Nat) ≤ ((n * 10 ^ places : Nat) : Int) := by
    have grown := mul_le_mul_of_nonneg_right bound (Nat.cast_nonneg (α := ℚ) (10 ^ places))
    push_cast at grown ⊢
    exact grown
  have rounded := roundHalfEven_le scaled
  omega

theorem fixed_length_ge (places : Nat) (x : Double) : places + 2 ≤ (fixed places x).length := by
  have whole := decimal_length_pos ((roundHalfEven (x.val * (10 ^ places : Nat))).toNat / 10 ^ places)
  simp only [fixed, List.length_append, List.length_cons, List.length_replicate]
  omega

theorem fixed_length_le {n k : Nat} (fraction : 0 < places) (positive : 0 < k) (bound : x.val ≤ n)
    (small : n < 10 ^ k) :
    (fixed places x).length ≤ places + 1 + k := by
  have scaled := @fixed_scaled_le places _ _ bound
  have unit : 0 < 10 ^ places := Nat.pow_pos (by decide)
  have whole : (decimal ((roundHalfEven (x.val * (10 ^ places : Nat))).toNat / 10 ^ places)).length ≤ k :=
    decimal_length_le positive (lt_of_le_of_lt (Nat.div_le_of_le_mul (by rwa [Nat.mul_comm])) small)
  have rest : (decimal ((roundHalfEven (x.val * (10 ^ places : Nat))).toNat % 10 ^ places)).length ≤ places :=
    decimal_length_le fraction (Nat.mod_lt _ unit)
  simp only [fixed, List.length_append, List.length_cons, List.length_replicate]
  omega

theorem general_length_le (bound : x.val ≤ 16) : (general x).length ≤ 8 := by
  refine le_trans (general_sublist x).length_le ?_
  split
  · exact fixed_length_le (n := 16) (k := 2) (by decide) (by decide) bound (by decide)
  · exact le_trans (fixed_length_le (n := 16) (k := 2) (by decide) (by decide) bound (by decide)) (by decide)

end Numbers

section Colors

theorem hexValue_le (c : Char) : (hexValue c).getD 0 ≤ 15 := by
  unfold hexValue
  split
  · rename_i digit
    have high : c.toNat ≤ 57 := digit.2
    exact show c.toNat - 48 ≤ 15 by omega
  · split
    · rename_i lower
      have high : c.toNat ≤ 102 := lower.2
      exact show c.toNat - 87 ≤ 15 by omega
    · split
      · rename_i upper
        have high : c.toNat ≤ 70 := upper.2
        exact show c.toNat - 55 ≤ 15 by omega
      · exact Nat.zero_le _

theorem hexByte_le {digits : Str} (two : digits.length ≤ 2) : hexByte digits ≤ 255 := by
  match digits, two with
  | [], _ => exact Nat.zero_le _
  | [c], _ =>
    have low := hexValue_le c
    simp only [hexByte, List.foldl_cons, List.foldl_nil]
    omega
  | [c, d], _ =>
    have high := hexValue_le c
    have low := hexValue_le d
    simp only [hexByte, List.foldl_cons, List.foldl_nil]
    omega

theorem ofRat_le_one {q : ℚ} (bound : q ≤ 1) : (Double.ofRat q).val ≤ (1 : Nat) :=
  roundDouble_le (by decide) (by simpa using bound)

theorem rgb_shares (value : Str) : (rgb value).length = 3 ∧ ∀ share ∈ rgb value, share.val ≤ (1 : Nat) := by
  unfold rgb
  split
  · refine ⟨rfl, ?_⟩
    intro share member
    obtain ⟨index, _, rfl⟩ := List.mem_map.mp member
    have byte : hexByte ((value.drop index).take 2) ≤ 255 := hexByte_le (List.length_take_le _ _)
    refine ofRat_le_one ?_
    rw [div_le_one (by norm_num)]
    exact_mod_cast byte
  · refine ⟨rfl, ?_⟩
    intro share member
    simp only [List.mem_cons, List.not_mem_nil, or_false] at member
    rcases member with rfl | rfl | rfl <;> exact ofRat_le_one (by norm_num)

theorem colorCommand_length (value : Str) : (encode (colorCommand (rgb value))).length = 23 := by
  obtain ⟨three, shares⟩ := rgb_shares value
  have each : ∀ share ∈ rgb value, Plain (fixed 4 share) ∧ (fixed 4 share).length = 6 := by
    intro share member
    have low := fixed_length_ge 4 share
    have high : (fixed 4 share).length ≤ 4 + 1 + 1 :=
      fixed_length_le (by decide) (by decide) (shares share member) (by decide)
    exact ⟨fixed_plain 4 share, by omega⟩
  match rgb value, three, each with
  | [r, g, b], _, each =>
    obtain ⟨plainR, lengthR⟩ := each r (by simp)
    obtain ⟨plainG, lengthG⟩ := each g (by simp)
    obtain ⟨plainB, lengthB⟩ := each b (by simp)
    have ending : (encode " rg".toList).length = 3 := rfl
    have space : (encode [' ']).length = 1 := rfl
    simp only [colorCommand, List.map_cons, List.map_nil, joinWith, encode_append, List.length_append,
      encode_length_plain plainR, encode_length_plain plainG, encode_length_plain plainB, ending, space]
    omega

end Colors

def textBytes (line : Line) : Nat := (encode (escape (line.text.take 180))).length

section Commands

variable {document : ResumeDocument} {draw : Draw Double}

theorem encode_joinWith_le (texts : List Str) :
    (encode (joinWith ['\n'] texts)).length ≤ (texts.map fun text => (encode text).length + 1).sum := by
  induction texts with
  | nil => exact Nat.zero_le _
  | cons text texts ih =>
    cases texts with
    | nil => simp [joinWith]
    | cons second texts =>
      have joined : joinWith ['\n'] (text :: second :: texts) = text ++ ['\n'] ++ joinWith ['\n']
        (second :: texts) := rfl
      have newline : (encode ['\n']).length = 1 := rfl
      rw [joined, encode_append, encode_append, List.length_append, List.length_append, newline,
        List.map_cons, List.sum_cons]
      omega

theorem encode_joinWith_ge (texts : List Str) :
    (texts.map fun text => (encode text).length + 1).sum ≤ (encode (joinWith ['\n'] texts)).length + 1 := by
  induction texts with
  | nil => exact Nat.zero_le _
  | cons text texts ih =>
    cases texts with
    | nil => simp [joinWith]
    | cons second texts =>
      have joined : joinWith ['\n'] (text :: second :: texts) = text ++ ['\n'] ++ joinWith ['\n']
        (second :: texts) := rfl
      have newline : (encode ['\n']).length = 1 := rfl
      rw [joined, encode_append, encode_append, List.length_append, List.length_append, newline,
        List.map_cons, List.sum_cons]
      omega

theorem drawCommands_length (document : ResumeDocument) (draw : Draw Double) :
    ((drawCommands document draw).map fun command => (encode command).length + 1).sum =
      43 + (decimalInt draw.x).length + (decimalInt draw.y).length + textBytes draw.line := by
  have color : ∀ heading : Bool, (encode (colorCommand (if heading then rgb document.style.accentColor
      else rgb document.style.textColor))).length = 23 := by
    intro heading
    cases heading <;> exact colorCommand_length _
  have number : ∀ n : Int, Plain (decimalInt n) := by
    intro n
    cases n with
    | ofNat m => exact decimal_plain m
    | negSucc m => exact Plain.append (s := ['-']) (by decide) (decimal_plain (m + 1))
  have texts : (encode "1 0 0 1 ".toList).length = 8 ∧ (encode [' ']).length = 1 ∧
    (encode " Tm".toList).length = 3 ∧
      (encode ['(']).length = 1 ∧ (encode ") Tj".toList).length = 4 := ⟨rfl, rfl, rfl, rfl, rfl⟩
  have place : encode ("1 0 0 1 ".toList ++ decimalInt draw.x ++ ' ' :: decimalInt draw.y ++ " Tm".toList) =
      encode "1 0 0 1 ".toList ++ encode (decimalInt draw.x) ++
        (encode [' '] ++ encode (decimalInt draw.y)) ++
        encode " Tm".toList := by
    simp only [← encode_append]
    rfl
  have shown : encode ('(' :: escape (draw.line.text.take 180) ++ ") Tj".toList) =
      encode ['('] ++ encode (escape (draw.line.text.take 180)) ++ encode ") Tj".toList := by
    simp only [← encode_append]
    rfl
  simp only [drawCommands, List.map_cons, List.map_nil, List.sum_cons, List.sum_nil, place, shown,
    List.length_append, encode_length_plain (number _), color, textBytes, Draw.text]
  omega

end Commands

section Places

variable {ω : Type} (document : ResumeDocument) (width : ω → Double)

theorem columnDraws_x (column : ω) (x y : Int) (lines : List Line) :
    ∀ draw ∈ columnDraws document column x y lines, draw.x = x := by
  induction lines generalizing y with
  | nil => exact fun _ member => nomatch member
  | cons line lines ih =>
    intro draw member
    rcases List.mem_cons.mp member with rfl | member
    · rfl
    · exact ih _ draw member

theorem rowDraws_across (x y : Int) (columns : List (ω × List Line))
    (narrow : ∀ column ∈ columns, columnWidth document width column.1 ≤ 612) :
    ∀ draw ∈ rowDraws document width x y columns, x ≤ draw.x ∧ draw.x ≤ x + 612 * columns.length := by
  induction columns generalizing x with
  | nil => exact fun _ member => nomatch member
  | cons column columns ih =>
    have wide : 40 ≤ columnWidth document width column.1 := le_max_left _ _
    have here := narrow column List.mem_cons_self
    intro draw member
    rw [List.length_cons]
    push_cast
    rcases List.mem_append.mp member with member | member
    · rw [columnDraws_x document _ _ _ _ draw member]
      omega
    · have rest := ih _ (fun other inside => narrow other (List.mem_cons_of_mem _ inside)) draw member
      omega

theorem rowsDraws_across (y : Int) (rows : List (PageRow ω)) (narrow : ∀ row ∈ rows, row.columns.length ≤ 4 ∧
    ∀ column ∈ row.columns, columnWidth document width column.1 ≤ 612) :
    ∀ draw ∈ rowsDraws document width y rows, margin document ≤ draw.x ∧ draw.x ≤ margin document + 2448 := by
  induction rows generalizing y with
  | nil => exact fun _ member => nomatch member
  | cons row rows ih =>
    intro draw member
    rcases List.mem_append.mp member with member | member
    · obtain ⟨few, thin⟩ := narrow row List.mem_cons_self
      have across := rowDraws_across document width _ y row.columns thin draw member
      omega
    · exact ih _ (fun other inside => narrow other (List.mem_cons_of_mem _ inside)) draw member

variable {document}

theorem columnWidth_le (passes : Passes document.style.checks) {column : ω} (nonneg : 0 ≤ (width column).val)
    (share : (width column).val ≤ 1) : columnWidth document width column ≤ 612 := by
  have inner := style_margin passes
  have outer := margin_le passes
  have page : 595 ≤ (pageSize document).1 ∧ (pageSize document).1 ≤ 612 := by
    unfold pageSize
    split <;> decide
  obtain ⟨n, same⟩ := Int.eq_ofNat_of_zero_le (show 0 ≤ (pageSize document).1 - 2 * margin document by omega)
  have small : n ≤ 612 := by omega
  have across : (Double.ofInt n).val ≤ n := Double.ofInt_val_le (by omega)
  have positive : 0 ≤ (Double.ofInt n).val := Double.ofInt_nonneg (by omega)
  refine max_le (by decide) ?_
  rw [same]
  refine Double.toInt_le (n := 612) (Double.mul_nonneg positive nonneg) (Double.mul_le (by decide) ?_)
  calc (Double.ofInt n).val * (width column).val ≤ n * 1 := mul_le_mul across share nonneg (Nat.cast_nonneg n)
    _ ≤ ((612 : Nat) : ℚ) := by
      rw [mul_one]
      exact_mod_cast small

end Places

section Streams

variable {document : ResumeDocument}

def RegularWidths (labels : List Double) : Prop :=
  labels.length ≤ 4 ∧ ∀ width ∈ labels, 0 ≤ width.val ∧ width.val ≤ 1

theorem pageDraws_numbers (passes : Passes document.style.checks) {sources : List (List (PageRow Double))}
    {page : List (PageRow Double)}
    (member : page ∈ paginate (availableLines document (pageSize document).2) sources)
    (regular : ∀ row ∈ page, RegularWidths row.labels) : ∀ draw ∈ pageDraws document id page,
      (decimalInt draw.x).length ≤ 4 ∧ (decimalInt draw.y).length ≤ 3 := by
  have inner := style_margin passes
  have outer := margin_le passes
  have tall : (pageSize document).2 ≤ 842 := by
    unfold pageSize
    split <;> decide
  have narrow : ∀ row ∈ page, row.columns.length ≤ 4 ∧ ∀ column ∈ row.columns,
      columnWidth document id column.1 ≤ 612 := by
    intro row inside
    obtain ⟨few, widths⟩ := regular row inside
    refine ⟨by simpa [PageRow.labels] using few, fun column inRow => ?_⟩
    obtain ⟨nonneg, share⟩ := widths column.1 (List.mem_map_of_mem inRow)
    exact columnWidth_le id passes nonneg share
  intro draw drawn
  obtain ⟨left, right⟩ := rowsDraws_across document id _ page narrow draw drawn
  obtain ⟨low, high⟩ := pageDraws_within passes id sources page member draw drawn
  exact ⟨decimalInt_length_le (by decide) (by omega) (by omega),
    decimalInt_length_le (by decide) (by omega) (by omega)⟩

theorem drawn_sum (f : Line → Nat) (width : Double → Double) (y : Int) (rows : List (PageRow Double)) :
    ((rowsDraws document width y rows).map fun draw => f draw.line).sum = rowsWeight f rows := by
  have column : ∀ (columns : List (Double × List Line)) (x y : Int),
      ((rowDraws document width x y columns).map fun draw => f draw.line).sum =
        (columns.map fun column => (column.2.map f).sum).sum := by
    intro columns
    induction columns with
    | nil => exact fun _ _ => rfl
    | cons column columns ih =>
      intro x y
      have lines : (columnDraws document column.1 x y column.2).map (fun draw => f draw.line) =
          column.2.map f := by
        rw [← columnDraws_lines document column.1 x y column.2, List.map_map]
        simp only [columnDraws_lines]
        rfl
      rw [rowDraws, List.map_append, List.sum_append, lines, ih, List.map_cons, List.sum_cons]
  induction rows generalizing y with
  | nil => rfl
  | cons row rows ih =>
      rw [rowsDraws, List.map_append, List.sum_append, column, ih, rowsWeight_cons, PageRow.weight]

theorem pageCommands_sum (rows : List (PageRow Double)) (size : Str → Nat) :
    ((pageCommands document rows).map size).sum = size "BT".toList +
      size ('/' :: fontResource document ++ ' ' :: general document.style.fontSize.toDouble ++ " Tf".toList) +
      ((pageDraws document id rows).map fun draw => ((drawCommands document draw).map size).sum).sum +
    size "ET".toList := by
  rw [pageCommands, List.map_append, List.map_cons, List.map_cons, List.sum_append, List.sum_cons,
    List.sum_cons, sum_map_flatMap]
  simp only [List.map_cons, List.map_nil, List.sum_cons, List.sum_nil]
  omega

theorem pageStream_length_le (passes : Passes document.style.checks) {sources : List (List (PageRow Double))}
    {page : List (PageRow Double)}
    (member : page ∈ paginate (availableLines document (pageSize document).2) sources)
    (regular : ∀ row ∈ page, RegularWidths row.labels) :
    (pageStream document page).length ≤ 30 + rowsWeight (fun line => 50 + textBytes line) page := by
  have font : (encode ('/' :: fontResource document ++ ' ' :: general document.style.fontSize.toDouble ++
      " Tf".toList)).length ≤ 23 := by
    have name : Plain (fontResource document) ∧ (fontResource document).length ≤ 10 := by
      refine ⟨regular_plain (fontName_regular document).2, ?_⟩
      unfold fontResource fontName
      cases document.style.fontFamily <;> decide
    have size := general_length_le (style_fontSize passes).2
    have plain : Plain ('/' :: fontResource document ++ ' ' :: general document.style.fontSize.toDouble ++
        " Tf".toList) := by
      refine Plain.append (Plain.append (s := ['/']) (by decide) (Plain.append name.1 ?_)) (by decide)
      exact Plain.append (s := [' ']) (by decide) (general_plain _)
    have ending : " Tf".toList.length = 3 := rfl
    rw [encode_length_plain plain]
    simp only [List.length_append, List.length_cons, ending]
    omega
  have draws : ((pageDraws document id page).map fun draw =>
        ((drawCommands document draw).map fun command => (encode command).length + 1).sum).sum ≤
      rowsWeight (fun line => 50 + textBytes line) page := by
    rw [← @drawn_sum document (fun line => 50 + textBytes line) id ((pageSize document).2 - margin document)]
    refine List.sum_le_sum fun draw drawn => ?_
    obtain ⟨across, down⟩ := pageDraws_numbers passes member regular draw drawn
    rw [drawCommands_length]
    omega
  have commands := @pageCommands_sum document page fun command => (encode command).length + 1
  have texts : (encode "BT".toList).length = 2 ∧ (encode "ET".toList).length = 2 := ⟨rfl, rfl⟩
  refine le_trans (encode_joinWith_le _) ?_
  rw [commands]
  omega

theorem pageStream_length_ge (page : List (PageRow Double)) :
    rowsWeight (fun _ => 45) page ≤ (pageStream document page).length := by
  have draws : rowsWeight (fun _ => 45) page ≤ ((pageDraws document id page).map fun draw =>
        ((drawCommands document draw).map fun command => (encode command).length + 1).sum).sum := by
    rw [← @drawn_sum document (fun _ => 45) id ((pageSize document).2 - margin document)]
    refine List.sum_le_sum fun draw _ => ?_
    have across := decimalInt_length_pos draw.x
    have down := decimalInt_length_pos draw.y
    rw [drawCommands_length]
    omega
  have commands := @pageCommands_sum document page fun command => (encode command).length + 1
  have joined := encode_joinWith_ge (pageCommands document page)
  rw [pageStream]
  omega

end Streams

end ManifestCV.Render
