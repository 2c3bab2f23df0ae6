import ManifestCV.Render.PageCount
import ManifestCV.Render.Provenance

namespace ManifestCV.Render

open Foundation Document

section Style

variable {document : ResumeDocument}

theorem style_fontSize (passes : Passes document.style.checks) :
    8 ≤ document.style.fontSize.val ∧ document.style.fontSize.val ≤ 16 := by
  have check := passes (within 8 16 document.style.fontSize.toDouble "font_size".toList)
    (by simp only [ResumeStyle.checks, List.mem_cons]; tauto)
  simpa [within, Number.val] using check

theorem style_spacing (passes : Passes document.style.checks) :
    1 / 2 ≤ document.style.spacing.val ∧ document.style.spacing.val ≤ 2 := by
  have check := passes (within (1 / 2) 2 document.style.spacing.toDouble "spacing".toList)
    (by simp only [ResumeStyle.checks, List.mem_cons]; tauto)
  simpa [within, Number.val] using check

theorem margin_le (passes : Passes document.style.checks) : margin document ≤ 90 := by
  have bounded : (1 / 4 : ℚ) ≤ document.style.margin.val ∧ document.style.margin.val ≤ 5 / 4 := by
    have check := passes (within (1 / 4) (5 / 4) document.style.margin "margin".toList)
      (by simp only [ResumeStyle.checks, List.mem_cons]; tauto)
    simpa [within] using check
  have points : 0 ≤ (Double.ofInt 72).val := Double.ofInt_nonneg (by decide)
  have most : (Double.ofInt 72).val ≤ (72 : Nat) := Double.ofInt_val_le (n := 72) (by decide)
  have size : 0 ≤ document.style.margin.val := le_trans (by norm_num) bounded.1
  refine Double.toInt_le (n := 90) (Double.mul_nonneg size points) (Double.mul_le (by decide) ?_)
  calc document.style.margin.val * (Double.ofInt 72).val ≤ 5 / 4 * 72 :=
    mul_le_mul bounded.2 most points (by norm_num)
    _ = ((90 : Nat) : ℚ) := by norm_num

theorem lineHeight_le (passes : Passes document.style.checks) : lineHeight document ≤ 22 := by
  obtain ⟨low, high⟩ := style_spacing passes
  have points : 0 ≤ (Double.ofInt 11).val := Double.ofInt_nonneg (by decide)
  have most : (Double.ofInt 11).val ≤ (11 : Nat) := Double.ofInt_val_le (n := 11) (by decide)
  have size : 0 ≤ document.style.spacing.val := le_trans (by norm_num) low
  refine max_le (by decide) (Double.toInt_le (n := 22) (Double.mul_nonneg points size)
    (Double.mul_le (by decide) ?_))
  calc (Double.ofInt 11).val * document.style.spacing.val ≤ 11 * 2 := mul_le_mul most high size (by norm_num)
    _ = ((22 : Nat) : ℚ) := by norm_num

theorem pageHeight_ge (document : ResumeDocument) : 792 ≤ (pageSize document).2 := by
  unfold pageSize
  split <;> decide

theorem availableLines_ge (passes : Passes document.style.checks) :
    27 ≤ availableLines document (pageSize document).2 := by
  have tall := pageHeight_ge document
  have narrow := margin_le passes
  have short := lineHeight_le passes
  have positive := lineHeight_pos document
  refine le_max_of_le_right ?_
  rw [Int.le_ediv_iff_mul_le (by omega)]
  nlinarith

theorem availableLines_fit (passes : Passes document.style.checks) :
    availableLines document (pageSize document).2 * lineHeight document ≤ (pageSize document).2 - 2 *
      margin document := by
  have several := availableLines_ge passes
  have quotient : availableLines document (pageSize document).2 =
      ((pageSize document).2 - 2 * margin document) / lineHeight document := by
    unfold availableLines at several ⊢
    omega
  rw [quotient]
  exact Int.ediv_mul_le _ (by have := lineHeight_pos document; omega)

end Style

section Heights

variable {ω : Type} (document : ResumeDocument) (width : ω → Double)

theorem rowsDraws_below (y : Int) (rows : List (PageRow ω)) :
    ∀ draw ∈ rowsDraws document width y rows, y + lineHeight document < draw.y + rowsCost rows *
      lineHeight document := by
  have positive := lineHeight_pos document
  induction rows generalizing y with
  | nil => exact fun _ member => nomatch member
  | cons row rows ih =>
    have charged : ((rowsCost (row :: rows) : Nat) : Int) * lineHeight document =
        row.height * lineHeight document + lineHeight document + rowsCost rows * lineHeight document := by
      rw [rowsCost_cons]
      push_cast
      ring
    have rest : 0 ≤ (rowsCost rows : Int) * lineHeight document := Int.mul_nonneg (by omega) (by omega)
    intro draw member
    rw [charged]
    rcases List.mem_append.mp member with member | member
    · have band := (rowDraws_band document width _ y row.columns row.height row.length_le_height
        draw member).2
      omega
    · have below := ih _ draw member
      omega

end Heights

theorem pageDraws_within {ω : Type} {document : ResumeDocument} (passes : Passes document.style.checks)
    (width : ω → Double) (sources : List (List (PageRow ω))) :
    ∀ page ∈ paginate (availableLines document (pageSize document).2) sources,
      ∀ draw ∈ pageDraws document width page,
        margin document ≤ draw.y ∧ draw.y ≤ (pageSize document).2 - margin document := by
  intro page member draw drawn
  have several := availableLines_ge passes
  have charged := paginate_cost (by omega) sources page member
  have fit := availableLines_fit passes
  have positive := lineHeight_pos document
  have below := rowsDraws_below document width _ page draw drawn
  have spent : (rowsCost page : Int) * lineHeight document ≤
      availableLines document (pageSize document).2 * lineHeight document + lineHeight document := by
    calc (rowsCost page : Int) * lineHeight document
        ≤ (availableLines document (pageSize document).2 + 1) * lineHeight document :=
          Int.mul_le_mul_of_nonneg_right charged (by omega)
      _ = _ := by ring
  exact ⟨by omega, rowsDraws_above document width _ page draw drawn⟩

theorem paginateRows_accepted {rt : Runtime} {document : ResumeDocument} (valid : document.Valid rt) :
    paginateRows rt document (pageSize document).1 (pageSize document).2 =
      some (paginate (availableLines document (pageSize document).2) (sourcesOf rt document)) := by
  have nonempty : paginate (availableLines document (pageSize document).2) (sourcesOf rt document) ≠ [] := by
    obtain ⟨page, member, some_rows⟩ := accepted_rows valid
    exact paginate_ne_nil _ (List.mem_map_of_mem member) (by simpa using some_rows)
  have rows : sourceRows rt document (pageSize document).1 = some (sourcesOf rt document) :=
    sourceRows_accepted valid.checks
  rw [paginateRows, rows, Option.map_some]
  dsimp only
  rw [if_neg (by simpa using nonempty)]

/-- Every page is laid out, and every line of it is drawn between the top and the bottom margin. -/
theorem drawn_within_margins (rt : Runtime) (document : ResumeDocument) (accepted : Accepted rt document) :
    ∃ pages, paginateRows rt document (pageSize document).1 (pageSize document).2 = some pages ∧
      ∀ page ∈ pages, ∀ draw ∈ pageDraws document id page,
        margin document ≤ draw.y ∧ draw.y ≤ (pageSize document).2 - margin document := by
  obtain ⟨payload, keyed, parsed⟩ := accepted
  obtain ⟨valid, _⟩ := validateDocument_sound keyed parsed
  exact ⟨_, paginateRows_accepted valid, pageDraws_within valid.style id _⟩

theorem drawn_within_margins_onePager :
    ∃ pages, paginateRows plainRuntime (onePager "Engineer".toList) (pageSize (onePager "Engineer".toList)).1
        (pageSize (onePager "Engineer".toList)).2 = some pages ∧
      ∀ page ∈ pages, ∀ draw ∈ pageDraws (onePager "Engineer".toList) id page,
        margin (onePager "Engineer".toList) ≤ draw.y ∧
          draw.y ≤ (pageSize (onePager "Engineer".toList)).2 - margin (onePager "Engineer".toList) :=
  drawn_within_margins plainRuntime _ onePager_accepted

end ManifestCV.Render
