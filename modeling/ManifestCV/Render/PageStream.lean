import ManifestCV.Render.Paginate

namespace ManifestCV.Render

open Foundation Document

def escape (value : Str) : Str :=
  replaceChar ')' "\\)".toList (replaceChar '(' "\\(".toList (replaceChar '\\' "\\\\".toList value))

def escapeChar (c : Char) : Str := if c = '\\' ∨ c = '(' ∨ c = ')' then ['\\', c] else [c]

theorem escape_eq (value : Str) : escape value = value.flatMap escapeChar := by
  have one : ∀ c : Char, escape [c] = escapeChar c := by
    intro c
    by_cases slash : c = '\\'
    · rw [slash]
      decide
    · by_cases left : c = '('
      · rw [left]
        decide
      · by_cases right : c = ')'
        · rw [right]
          decide
        · simp [escape, replaceChar, escapeChar, slash, left, right]
  have each : ∀ old new s t, replaceChar old new (s ++ t) = replaceChar old new s ++ replaceChar old new t :=
    fun old new s t => List.flatMap_append
  induction value with
  | nil => rfl
  | cons c value ih =>
    have split : escape (c :: value) = escape [c] ++ escape value := by
      rw [← List.singleton_append, escape, each, each, each]
      rfl
    rw [split, one, ih, List.flatMap_cons]

def hexByte (digits : Str) : Nat := digits.foldl (fun n c => 16 * n + (hexValue c).getD 0) 0

def rgb (value : Str) : List Double :=
  if isColor value then
    [1, 3, 5].map fun index => Double.ofRat (hexByte ((value.drop index).take 2) / 255)
  else [Double.ofRat (12 / 100), Double.ofRat (16 / 100), Double.ofRat (22 / 100)]

/-- `f"{x:.{places}f}"` of a number that is not negative. -/
def fixed (places : Nat) (x : Double) : Str :=
  let scaled := (roundHalfEven (x.val * (10 ^ places : Nat))).toNat
  let digits := decimal (scaled % 10 ^ places)
  decimal (scaled / 10 ^ places) ++ '.' :: List.replicate (places - digits.length) '0' ++ digits

/-- `f"{x:g}"` in the range of a font size: six significant digits without trailing zeros. -/
def general (x : Double) : Str :=
  let text := fixed (if x.val < 10 then 5 else 4) x
  ((text.reverse.dropWhile (· = '0')).dropWhile (· = '.')).reverse

def fontName (document : ResumeDocument) : Str :=
  match document.style.fontFamily with
  | .inter => "Helvetica".toList
  | .arial => "Helvetica".toList
  | .sourceSans => "Helvetica".toList
  | .georgia => "Times-Roman".toList

def fontResource (document : ResumeDocument) : Str := replaceChar '-' [] (fontName document)

structure Draw (ω : Type) where
  column : ω
  x : Int
  y : Int
  line : Line

def Draw.text {ω : Type} (draw : Draw ω) : Str := draw.line.text.take 180

section Draws

variable {ω : Type} (document : ResumeDocument) (width : ω → Double)

def columnDraws (column : ω) (x y : Int) : List Line → List (Draw ω)
  | [] => []
  | line :: lines => ⟨column, x, y, line⟩ :: columnDraws column x (y - lineHeight document) lines

def columnWidth (column : ω) : Int :=
  let availableWidth := (pageSize document).1 - 2 * margin document
  max 40 (Double.mul (Double.ofInt availableWidth) (width column)).toInt

def rowDraws (x y : Int) : List (ω × List Line) → List (Draw ω)
  | [] => []
  | column :: columns =>
    columnDraws document column.1 x y column.2 ++ rowDraws (x + columnWidth document width column.1) y columns

def rowsDraws (y : Int) : List (PageRow ω) → List (Draw ω)
  | [] => []
  | row :: rows =>
    rowDraws document width (margin document) y row.columns ++
      rowsDraws (y - (row.height * lineHeight document + lineHeight document)) rows

def pageDraws (rows : List (PageRow ω)) : List (Draw ω) :=
  rowsDraws document width ((pageSize document).2 - margin document) rows

end Draws

def colorCommand (color : List Double) : Str :=
  joinWith [' '] (color.map (fixed 4)) ++ " rg".toList

def drawCommands (document : ResumeDocument) (draw : Draw Double) : List Str := [
  colorCommand (if draw.line.heading then rgb document.style.accentColor else rgb document.style.textColor),
  "1 0 0 1 ".toList ++ decimalInt draw.x ++ ' ' :: decimalInt draw.y ++ " Tm".toList,
  '(' :: escape draw.text ++ ") Tj".toList]

def pageCommands (document : ResumeDocument) (rows : List (PageRow Double)) : List Str :=
  "BT".toList :: ('/' :: fontResource document ++ ' ' :: general document.style.fontSize.toDouble ++
    " Tf".toList) ::
    (pageDraws document id rows).flatMap (drawCommands document) ++ ["ET".toList]

def pageStream (document : ResumeDocument) (rows : List (PageRow Double)) : List UInt8 :=
  encode (joinWith ['\n'] (pageCommands document rows))

def pageStreams (rt : Runtime) (document : ResumeDocument) : Option (List (List UInt8)) :=
  (paginateRows rt document (pageSize document).1 (pageSize document).2).map (List.map (pageStream document))

section DrawLemmas

variable {ω ω' : Type} (document : ResumeDocument)

theorem columnDraws_column (column : ω) (x y : Int) (lines : List Line) :
    ∀ draw ∈ columnDraws document column x y lines, draw.column = column := by
  induction lines generalizing y with
  | nil => exact fun _ member => nomatch member
  | cons line lines ih =>
    intro draw member
    rcases List.mem_cons.mp member with rfl | member
    · rfl
    · exact ih _ draw member

theorem columnDraws_lines (column : ω) (x y : Int) (lines : List Line) :
    (columnDraws document column x y lines).map (·.line) = lines := by
  induction lines generalizing y with
  | nil => rfl
  | cons line lines ih => simp [columnDraws, ih]

theorem rowDraws_column (width : ω → Double) (x y : Int) (columns : List (ω × List Line)) :
    ∀ draw ∈ rowDraws document width x y columns, draw.column ∈ columns.map (·.1) := by
  induction columns generalizing x with
  | nil => exact fun _ member => nomatch member
  | cons column columns ih =>
    intro draw member
    rcases List.mem_append.mp member with member | member
    · rw [columnDraws_column document column.1 x y column.2 draw member]
      exact List.mem_cons_self
    · exact List.mem_cons_of_mem _ (ih _ draw member)

theorem rowsDraws_column (width : ω → Double) (y : Int) (rows : List (PageRow ω)) :
    ∀ draw ∈ rowsDraws document width y rows, ∃ row ∈ rows, draw.column ∈ row.labels := by
  induction rows generalizing y with
  | nil => exact fun _ member => nomatch member
  | cons row rows ih =>
    intro draw member
    rcases List.mem_append.mp member with member | member
    · exact ⟨row, List.mem_cons_self, rowDraws_column document width _ _ _ draw member⟩
    · obtain ⟨other, inside, label⟩ := ih _ draw member
      exact ⟨other, List.mem_cons_of_mem _ inside, label⟩

def Draw.relabel (f : ω → ω') (draw : Draw ω) : Draw ω' := ⟨f draw.column, draw.x, draw.y, draw.line⟩

theorem columnDraws_relabel (f : ω → ω') (column : ω) (x y : Int) (lines : List Line) :
    columnDraws document (f column) x y lines = (columnDraws document column x y lines).map
      (·.relabel f) := by
  induction lines generalizing y with
  | nil => rfl
  | cons line lines ih => simp [columnDraws, Draw.relabel, ih]

theorem rowDraws_relabel (f : ω → ω') (width : ω' → Double) (x y : Int) (columns : List (ω × List Line)) :
    rowDraws document width x y (columns.map fun column => (f column.1, column.2)) =
      (rowDraws document (width ∘ f) x y columns).map (·.relabel f) := by
  induction columns generalizing x with
  | nil => rfl
  | cons column columns ih =>
    have same : columnWidth document width (f column.1) = columnWidth document (width ∘ f) column.1 := rfl
    simp only [List.map_cons, rowDraws, columnDraws_relabel, List.map_append, ih, same]

theorem rowsDraws_relabel (f : ω → ω') (width : ω' → Double) (y : Int) (rows : List (PageRow ω)) :
    rowsDraws document width y (rows.map (·.relabel f)) =
      (rowsDraws document (width ∘ f) y rows).map (·.relabel f) := by
  induction rows generalizing y with
  | nil => rfl
  | cons row rows ih =>
    have columns : (row.relabel f).columns = row.columns.map fun column => (f column.1, column.2) := rfl
    simp only [List.map_cons, rowsDraws, height_relabel, columns, rowDraws_relabel, List.map_append, ih]

section Chosen

variable (p : ω → Bool)

def drawsOf (draws : List (Draw ω)) : List (Draw ω) := draws.filter (p ·.column)

theorem rowDraws_lines (width : ω → Double) (x y : Int) (columns : List (ω × List Line)) :
    (drawsOf p (rowDraws document width x y columns)).map (·.line) = (columns.filter (p ·.1)).flatMap
    (·.2) := by
  induction columns generalizing x with
  | nil => rfl
  | cons column columns ih =>
    have others := ih (x + columnWidth document width column.1)
    have own := columnDraws_column document column.1 x y column.2
    simp only [drawsOf, rowDraws, List.filter_append, List.map_append] at others ⊢
    rw [others]
    cases chosen : p column.1 with
    | true =>
      have all : (columnDraws document column.1 x y column.2).filter (p ·.column) =
          columnDraws document column.1 x y column.2 := by
        rw [List.filter_eq_self]
        intro draw member
        rw [own draw member, chosen]
      rw [all, columnDraws_lines, List.filter_cons_of_pos (by simpa using chosen), List.flatMap_cons]
    | false =>
      have nothing : (columnDraws document column.1 x y column.2).filter (p ·.column) = [] := by
        rw [List.filter_eq_nil_iff]
        intro draw member
        rw [own draw member, chosen]
        exact Bool.false_ne_true
      rw [nothing, List.filter_cons_of_neg (by simp [chosen])]
      rfl

/-- The strings drawn for chosen columns are the lines these columns hold, in their order. -/
theorem rowsDraws_lines (width : ω → Double) (y : Int) (rows : List (PageRow ω)) :
    (drawsOf p (rowsDraws document width y rows)).map (·.line) = linesOf p rows := by
  induction rows generalizing y with
  | nil => rfl
  | cons row rows ih =>
    have first := rowDraws_lines document p width (margin document) y row.columns
    have others := ih (y - (row.height * lineHeight document + lineHeight document))
    simp only [drawsOf, rowsDraws, List.filter_append, List.map_append] at first others ⊢
    rw [first, others]
    rfl

end Chosen

theorem lineHeight_pos : 9 ≤ lineHeight document := le_max_left _ _

theorem columnDraws_band (column : ω) (x y : Int) (lines : List Line) :
    ∀ draw ∈ columnDraws document column x y lines, draw.y ≤ y ∧ y - lines.length * lineHeight document <
      draw.y := by
  have positive := lineHeight_pos document
  induction lines generalizing y with
  | nil => exact fun _ member => nomatch member
  | cons line lines ih =>
    intro draw member
    have grow : 0 ≤ (lines.length : Int) * lineHeight document := Int.mul_nonneg (by omega) (by omega)
    have longer : ((line :: lines).length : Int) * lineHeight document =
        lines.length * lineHeight document + lineHeight document := by
      rw [List.length_cons, Nat.cast_add, Nat.cast_one, Int.add_mul, Int.one_mul]
    rw [longer]
    rcases List.mem_cons.mp member with rfl | member
    · constructor
      · exact le_rfl
      · show y - _ < y
        omega
    · have band := ih (y - lineHeight document) draw member
      constructor <;> omega

theorem columnDraws_descend (column : ω) (x y : Int) (lines : List Line) :
    (columnDraws document column x y lines).Pairwise fun a b => b.y < a.y := by
  have positive := lineHeight_pos document
  induction lines generalizing y with
  | nil => exact .nil
  | cons line lines ih =>
    refine .cons ?_ (ih _)
    intro draw member
    have band := (columnDraws_band document column x (y - lineHeight document) lines draw member).1
    show draw.y < y
    omega

theorem rowDraws_band (width : ω → Double) (x y : Int) (columns : List (ω × List Line)) (height : Nat)
    (fits : ∀ column ∈ columns, column.2.length ≤ height) :
    ∀ draw ∈ rowDraws document width x y columns, draw.y ≤ y ∧ y - height * lineHeight document < draw.y := by
  have positive := lineHeight_pos document
  induction columns generalizing x with
  | nil => exact fun _ member => nomatch member
  | cons column columns ih =>
    intro draw member
    rcases List.mem_append.mp member with member | member
    · obtain ⟨above, below⟩ := columnDraws_band document column.1 x y column.2 draw member
      have short : (column.2.length : Int) ≤ height := by exact_mod_cast fits column List.mem_cons_self
      have scaled := Int.mul_le_mul_of_nonneg_right short (show 0 ≤ lineHeight document by omega)
      exact ⟨above, by omega⟩
    · exact ih _ (fun other inside => fits other (List.mem_cons_of_mem _ inside)) draw member

theorem rowsDraws_above (width : ω → Double) (y : Int) (rows : List (PageRow ω)) :
    ∀ draw ∈ rowsDraws document width y rows, draw.y ≤ y := by
  have positive := lineHeight_pos document
  induction rows generalizing y with
  | nil => exact fun _ member => nomatch member
  | cons row rows ih =>
    intro draw member
    rcases List.mem_append.mp member with member | member
    · exact (rowDraws_band document width _ y row.columns row.height row.length_le_height draw member).1
    · have below := ih _ draw member
      have grow : 0 ≤ (row.height : Int) * lineHeight document := Int.mul_nonneg (by omega) (by omega)
      omega

section Descend

variable {p : ω → Bool}

theorem rowDraws_descend (width : ω → Double) (x y : Int) (columns : List (ω × List Line))
    (single : Single p (columns.map (·.1))) :
    (drawsOf p (rowDraws document width x y columns)).Pairwise fun a b => b.y < a.y := by
  induction columns generalizing x with
  | nil => exact .nil
  | cons column columns ih =>
    obtain ⟨single, alone⟩ := single_cons single
    have others := ih (x + columnWidth document width column.1) single
    simp only [drawsOf, rowDraws, List.filter_append] at others ⊢
    refine List.pairwise_append.mpr ⟨(columnDraws_descend document column.1 x y column.2).filter _,
      others, ?_⟩
    intro a memberA b memberB
    obtain ⟨memberA, chosenA⟩ := List.mem_filter.mp memberA
    obtain ⟨memberB, chosenB⟩ := List.mem_filter.mp memberB
    rw [columnDraws_column document column.1 x y column.2 a memberA] at chosenA
    rw [alone chosenA b.column (rowDraws_column document width _ _ _ b memberB)] at chosenB
    cases chosenB

theorem rowsDraws_descend (width : ω → Double) (y : Int) (rows : List (PageRow ω))
    (single : ∀ row ∈ rows, Single p row.labels) :
    (drawsOf p (rowsDraws document width y rows)).Pairwise fun a b => b.y < a.y := by
  have positive := lineHeight_pos document
  induction rows generalizing y with
  | nil => exact .nil
  | cons row rows ih =>
    have first := rowDraws_descend document width (margin document) y row.columns
      (single row List.mem_cons_self)
    have others := ih (y - (row.height * lineHeight document + lineHeight document))
      fun other inside => single other (List.mem_cons_of_mem _ inside)
    simp only [drawsOf, rowsDraws, List.filter_append] at first others ⊢
    refine List.pairwise_append.mpr ⟨first, others, ?_⟩
    intro a memberA b memberB
    have low := (rowDraws_band document width _ y row.columns row.height row.length_le_height a
      (List.mem_filter.mp memberA).1).2
    have high := rowsDraws_above document width _ rows b (List.mem_filter.mp memberB).1
    omega

end Descend

end DrawLemmas

end ManifestCV.Render
