import ManifestCV.Foundation.PdfContent
import ManifestCV.Render.Overlaps
import ManifestCV.Render.StreamSize

namespace ManifestCV.Render

open Foundation Document Pdf

section Numbers

structure IsNumeral (s : Str) : Prop where
  digits : ∀ c ∈ s, c.isDigit = true ∨ c = '.'
  some_digit : ∃ c ∈ s, c.isDigit = true
  point : s.count '.' ≤ 1

theorem digit_byte {c : Char} (digit : c.isDigit = true) : isDigitByte c.toNat.toUInt8 = true := by
  simp only [Char.isDigit, Bool.and_eq_true, decide_eq_true_eq] at digit
  have low : 48 ≤ c.toNat := digit.1
  have high : c.toNat ≤ 57 := digit.2
  simp only [isDigitByte, Bool.and_eq_true, decide_eq_true_eq, UInt8.le_iff_toNat_le, Nat.toUInt8_eq,
    UInt8.toNat_ofNat']
  rw [Nat.mod_eq_of_lt (by omega)]
  exact ⟨low, high⟩

theorem encode_digits {s : Str} (digits : ∀ c ∈ s, c.isDigit = true ∨ c = '.') :
    encode s = s.map (fun c => c.toNat.toUInt8) ∧ (encode s).count 46 = s.count '.' := by
  induction s with
  | nil => exact ⟨rfl, rfl⟩
  | cons c s ih =>
    obtain ⟨bytes, count⟩ := ih fun other member => digits other (List.mem_cons_of_mem _ member)
    rcases digits c List.mem_cons_self with digit | rfl
    · have byte : String.utf8EncodeChar c = [c.toNat.toUInt8] := utf8EncodeChar_ascii (digit_regular digit).2
      have noByte : ¬ (c.toNat.toUInt8 == 46) = true := by
        intro same
        have digitByte := digit_byte digit
        rw [beq_iff_eq.mp same] at digitByte
        cases digitByte
      have noChar : ¬ (c == '.') = true := by
        intro same
        rw [beq_iff_eq.mp same] at digit
        cases digit
      rw [encode_cons, byte, bytes, List.singleton_append, ← bytes, List.count_cons, List.count_cons,
        if_neg noByte, if_neg noChar, count]
      exact ⟨by rw [List.map_cons, bytes], rfl⟩
    · have byte : String.utf8EncodeChar '.' = [46] := rfl
      rw [encode_cons, byte, List.singleton_append, List.map_cons, List.count_cons_self, List.count_cons_self,
        count, bytes]
      exact ⟨rfl, rfl⟩

theorem numeral_operand {s : Str} (numeral : IsNumeral s) :
    (Content.Token.number (encode s)).IsOperand ∧ (Content.Token.number (45 :: encode s)).IsOperand := by
  obtain ⟨bytes, count⟩ := encode_digits numeral.digits
  obtain ⟨c, member, digit⟩ := numeral.some_digit
  refine Content.number_operand ?_ ⟨c.toNat.toUInt8, ?_, digit_byte digit⟩ ?_
  · rw [bytes]
    intro b inside
    obtain ⟨d, inText, rfl⟩ := List.mem_map.mp inside
    rcases numeral.digits d inText with digit | rfl
    · rw [digit_byte digit]
      rfl
    · rfl
  · rw [bytes]
    exact List.mem_map_of_mem member
  · rw [count]
    exact numeral.point

theorem digits_no_point {s : Str} (digits : ∀ c ∈ s, c.isDigit = true) : s.count '.' = 0 := by
  rw [List.count_eq_zero]
  exact fun member => absurd (digits '.' member) (by decide)

theorem decimal_numeral (n : Nat) : IsNumeral (decimal n) := by
  have digits := decimal_digits n
  obtain ⟨c, rest, shape⟩ := List.exists_cons_of_ne_nil (decimal_ne_nil n)
  refine ⟨fun c member => .inl (digits c member), ⟨c, ?_, digits c ?_⟩, ?_⟩
  · rw [shape]
    exact List.mem_cons_self
  · rw [shape]
    exact List.mem_cons_self
  · rw [digits_no_point digits]
    exact Nat.zero_le 1

theorem decimalInt_operand (n : Int) : (Content.Token.number (encode (decimalInt n))).IsOperand := by
  cases n with
  | ofNat m => exact (numeral_operand (decimal_numeral m)).1
  | negSucc m => exact (numeral_operand (decimal_numeral (m + 1))).2

theorem fixed_shape (places : Nat) (x : Double) :
    ∃ n fraction, fixed places x = decimal n ++ '.' :: fraction ∧
    ∀ c ∈ fraction, c.isDigit = true := by
  refine ⟨_, _, List.append_assoc _ _ _, ?_⟩
  intro c member
  rcases List.mem_append.mp member with member | member
  · rw [(List.mem_replicate.mp member).2]
    rfl
  · exact decimal_digits _ c member

theorem numeral_between {n : Nat} {fraction s : Str} (digits : ∀ c ∈ fraction, c.isDigit = true)
    (whole : decimal n <+: s) (cut : s <+: decimal n ++ '.' :: fraction) : IsNumeral s := by
  have numeral := decimal_numeral n
  refine ⟨fun c member => ?_, ?_, ?_⟩
  · rcases List.mem_append.mp (cut.subset member) with member | member
    · exact numeral.digits c member
    · rcases List.mem_cons.mp member with rfl | member
      · exact .inr rfl
      · exact .inl (digits c member)
  · obtain ⟨c, member, digit⟩ := numeral.some_digit
    exact ⟨c, whole.subset member, digit⟩
  · refine le_trans (cut.sublist.count_le '.') ?_
    rw [List.count_append, digits_no_point (decimal_digits n), List.count_cons_self, digits_no_point digits]

theorem fixed_operand (places : Nat) (x : Double) :
    (Content.Token.number (encode (fixed places x))).IsOperand := by
  obtain ⟨n, fraction, shape, digits⟩ := fixed_shape places x
  rw [shape]
  exact (numeral_operand (numeral_between digits (List.prefix_append _ _) (List.prefix_refl _))).1

theorem dropWhile_stops {p : Char → Bool} {c : Char} (keeps : p c = false) (before after : Str) :
    c :: after <:+ (before ++ c :: after).dropWhile p := by
  induction before with
  | nil =>
    rw [List.nil_append, List.dropWhile_cons, keeps, if_neg Bool.false_ne_true]
  | cons d before ih =>
    rw [List.cons_append, List.dropWhile_cons]
    split
    · exact ih
    · exact ⟨d :: before, rfl⟩

theorem general_operand (x : Double) : (Content.Token.number (encode (general x))).IsOperand := by
  obtain ⟨n, fraction, shape, digits⟩ := fixed_shape (if x.val < 10 then 5 else 4) x
  refine (numeral_operand (numeral_between (n := n) digits ?_ ?_)).1
  · obtain ⟨last, whole, ends⟩ := List.exists_cons_of_ne_nil (List.reverse_ne_nil_iff.mpr (decimal_ne_nil n))
    have digit : last.isDigit = true :=
      decimal_digits n last (List.mem_reverse.mp (by rw [ends]; exact List.mem_cons_self))
    have noPoint : decide (last = '.') = false := by
      rw [decide_eq_false_iff_not]
      rintro rfl
      cases digit
    have reversed : (decimal n ++ '.' :: fraction).reverse = fraction.reverse ++ '.' :: (last :: whole) := by
      rw [List.reverse_append, List.reverse_cons, ends, List.append_assoc]
      rfl
    have noZero : decide ('.' = '0') = false := by decide
    obtain ⟨kept, stripped⟩ := dropWhile_stops (p := (· = '0')) noZero fraction.reverse (last :: whole)
    have stays := dropWhile_stops (p := (· = '.')) noPoint (kept ++ ['.']) whole
    rw [List.append_assoc, List.singleton_append, stripped, ← reversed, ← ends, ← shape] at stays
    rw [general, ← List.reverse_suffix, List.reverse_reverse]
    exact stays
  · rw [← shape, general, ← List.reverse_suffix, List.reverse_reverse]
    exact (List.dropWhile_suffix _).trans (List.dropWhile_suffix _)

end Numbers

section Streams

open Content (Operation)

def number (text : Str) : Content.Token := .number (encode text)

def drawOperations (document : ResumeDocument) (draw : Draw Double) (text : Bytes) : List Operation := [
  ⟨(if draw.line.heading then rgb document.style.accentColor else rgb document.style.textColor).map
    (number ∘ fixed 4), ascii "rg"⟩,
  ⟨["1".toList, "0".toList, "0".toList, "1".toList, decimalInt draw.x, decimalInt draw.y].map number,
    ascii "Tm"⟩,
  ⟨[.string text], ascii "Tj"⟩]

def openOperations (document : ResumeDocument) : List Operation := [
  ⟨[], ascii "BT"⟩,
  ⟨[.name (encode (fontResource document)), number (general document.style.fontSize.toDouble)], ascii "Tf"⟩]

theorem encode_escape (text : Str) : encode (escape text) = Content.escapeBytes (encode text) := by
  rw [escape_eq]
  induction text with
  | nil => rfl
  | cons c text ih =>
    have one : encode (escapeChar c) = Content.escapeBytes (String.utf8EncodeChar c) := by
      rw [Content.escapeBytes_utf8, escapeChar]
      split
      · exact congrArg (92 :: ·) (List.append_nil _)
      · exact List.append_nil _
    have split : Content.escapeBytes (encode (c :: text)) = Content.escapeBytes (String.utf8EncodeChar c) ++
        Content.escapeBytes (encode text) := by
      rw [encode_cons]
      exact List.flatMap_append
    rw [List.flatMap_cons, encode_append, ih, one, split]

theorem encode_lines (texts : List Str) (last : Str) :
    encode (joinWith ['\n'] (texts ++ [last])) = (texts.flatMap fun text => encode text ++ [10]) ++
      encode last := by
  induction texts with
  | nil => rfl
  | cons text texts ih =>
    obtain ⟨second, rest, shape⟩ : ∃ second rest, texts ++ [last] = second :: rest :=
      List.exists_cons_of_ne_nil (by simp)
    have joined : joinWith ['\n'] (text :: second :: rest) = text ++ ['\n'] ++ joinWith ['\n']
      (second :: rest) := rfl
    have newline : encode ['\n'] = [10] := rfl
    rw [List.cons_append, shape, joined, ← shape, encode_append, encode_append, ih, newline,
      List.flatMap_cons, List.append_assoc, List.append_assoc, List.append_assoc]

theorem number_spelling (text : Str) : (number text).spelling = encode text := rfl

theorem drawCommands_spelling (document : ResumeDocument) (draw : Draw Double) :
    ((drawCommands document draw).flatMap fun text => encode text ++ [10]) =
      (drawOperations document draw (encode draw.text)).flatMap Operation.spelling := by
  have color : ∀ value, encode (colorCommand (rgb value)) ++ [10] = Operation.spelling
      ⟨(rgb value).map (number ∘ fixed 4), ascii "rg"⟩ := by
    intro value
    have three := (rgb_shares value).1
    match rgb value, three with
    | [r, g, b], _ =>
      have space : encode [' '] = [32] := rfl
      have ending : encode " rg".toList = 32 :: ascii "rg" := by decide
      simp only [colorCommand, List.map_cons, List.map_nil, joinWith, encode_append, Operation.spelling,
        List.flatMap_cons, List.flatMap_nil, Function.comp_apply, number_spelling, space, ending]
      simp
  have place : encode ("1 0 0 1 ".toList ++ decimalInt draw.x ++ ' ' :: decimalInt draw.y ++ " Tm".toList) ++
    [10] =
      Operation.spelling ⟨["1".toList, "0".toList, "0".toList, "1".toList, decimalInt draw.x,
        decimalInt draw.y].map number, ascii "Tm"⟩ := by
    have opening : encode "1 0 0 1 ".toList = [49, 32, 48, 32, 48, 32, 49, 32] := by decide
    have one : encode "1".toList = [49] := by decide
    have zero : encode "0".toList = [48] := by decide
    have space : ∀ text : Str, encode (' ' :: text) = 32 :: encode text := fun text => encode_cons ' ' text
    have ending : encode " Tm".toList = 32 :: ascii "Tm" := by decide
    simp only [List.map_cons, List.map_nil, encode_append, Operation.spelling, List.flatMap_cons,
      List.flatMap_nil, number_spelling, opening, one, zero, space, ending]
    simp
  have shown : encode ('(' :: escape draw.text ++ ") Tj".toList) ++ [10] = Operation.spelling
      ⟨[.string (encode draw.text)], ascii "Tj"⟩ := by
    have opening : ∀ text : Str, encode ('(' :: text) = 40 :: encode text := fun text => encode_cons '(' text
    have ending : encode ") Tj".toList = [41, 32] ++ ascii "Tj" := by decide
    simp only [List.cons_append, encode_append, encode_escape, Operation.spelling, List.flatMap_cons,
      List.flatMap_nil, Content.Token.spelling, opening, ending]
    simp
  simp only [drawCommands, drawOperations, List.flatMap_cons, List.flatMap_nil, List.append_nil]
  rw [place, shown]
  split
  · rw [color]
  · rw [color]

theorem fontResource_word (document : ResumeDocument) :
    Content.isWord (encode (fontResource document)) = true := by
  unfold fontResource fontName
  cases document.style.fontFamily <;> decide

theorem operation_sound {operands : List Content.Token} {name : String}
    (named : (Content.isWord (ascii name) && !Content.isNumber (ascii name)) = true)
    (each : ∀ token ∈ operands, token.IsOperand) : Operation.Sound ⟨operands, ascii name⟩ :=
  ⟨each, by simpa using named⟩

theorem openOperations_sound (document : ResumeDocument) :
    ∀ operation ∈ openOperations document, operation.Sound := by
  intro operation member
  simp only [openOperations, List.mem_cons, List.not_mem_nil, or_false] at member
  rcases member with rfl | rfl
  · exact operation_sound (by decide) fun _ none => nomatch none
  · refine operation_sound (by decide) fun token operand => ?_
    simp only [List.mem_cons, List.not_mem_nil, or_false] at operand
    rcases operand with rfl | rfl
    · exact fontResource_word document
    · exact general_operand document.style.fontSize.toDouble

theorem drawOperations_sound (document : ResumeDocument) (draw : Draw Double) (text : Bytes) :
    ∀ operation ∈ drawOperations document draw text, operation.Sound := by
  intro operation member
  simp only [drawOperations, List.mem_cons, List.not_mem_nil, or_false] at member
  rcases member with rfl | rfl | rfl
  · refine operation_sound (by decide) fun token operand => ?_
    obtain ⟨share, _, rfl⟩ := List.mem_map.mp operand
    exact fixed_operand 4 share
  · refine operation_sound (by decide) fun token operand => ?_
    obtain ⟨text, inside, rfl⟩ := List.mem_map.mp operand
    simp only [List.mem_cons, List.not_mem_nil, or_false] at inside
    rcases inside with rfl | rfl | rfl | rfl | rfl | rfl
    · exact decimalInt_operand 1
    · exact decimalInt_operand 0
    · exact decimalInt_operand 0
    · exact decimalInt_operand 1
    · exact decimalInt_operand draw.x
    · exact decimalInt_operand draw.y
  · refine operation_sound (by decide) fun token operand => ?_
    rw [List.mem_singleton.mp operand]
    trivial

theorem drawOperations_asRead (document : ResumeDocument) (draw : Draw Double) (text : Bytes) :
    (drawOperations document draw text).map Operation.asRead = drawOperations document draw
    (Content.readBreaks text) := by
  have same : ∀ texts : List Str, (texts.map number).map Content.Token.asRead = texts.map number := by
    intro texts
    rw [List.map_map]
    rfl
  have shares : ∀ color : List Double, (color.map (number ∘ fixed 4)).map Content.Token.asRead =
      color.map (number ∘ fixed 4) := by
    intro color
    rw [List.map_map]
    rfl
  simp only [drawOperations, List.map_cons, List.map_nil, Operation.asRead, shares]
  rfl

theorem pageStream_read (document : ResumeDocument) (rows : List (PageRow Double)) :
    Content.readContent (pageStream document rows) = some (openOperations document ++
      ((pageDraws document id rows).flatMap fun draw =>
        drawOperations document draw (Content.readBreaks (encode draw.text))) ++
      [⟨[], ascii "ET"⟩]) := by
  have opened : ((["BT".toList, '/' :: fontResource document ++ ' ' :: general
    document.style.fontSize.toDouble ++ " Tf".toList] : List Str).flatMap
      fun text => encode text ++ [10]) = (openOperations document).flatMap Operation.spelling := by
    have slash : ∀ text : Str, encode ('/' :: text) = 47 :: encode text := fun text => encode_cons '/' text
    have space : ∀ text : Str, encode (' ' :: text) = 32 :: encode text := fun text => encode_cons ' ' text
    have ending : encode " Tf".toList = 32 :: ascii "Tf" := by decide
    have name : ∀ text : Bytes, (Content.Token.name text).spelling = 47 :: text := fun _ => rfl
    simp only [openOperations, List.flatMap_cons, List.flatMap_nil, Operation.spelling, number_spelling,
      name, List.cons_append, encode_append, slash, space, ending]
    simp [ascii]
  have drawn : (((pageDraws document id rows).flatMap (drawCommands document)).flatMap fun text =>
    encode text ++ [10]) =
      ((pageDraws document id rows).flatMap fun draw =>
          drawOperations document draw (encode draw.text)).flatMap Operation.spelling := by
    rw [List.flatMap_assoc, List.flatMap_assoc]
    exact List.flatMap_congr fun draw _ => drawCommands_spelling document draw
  have commands : pageCommands document rows =
      (["BT".toList, '/' :: fontResource document ++ ' ' :: general document.style.fontSize.toDouble ++
        " Tf".toList] ++
        (pageDraws document id rows).flatMap (drawCommands document)) ++ ["ET".toList] := rfl
  have stream : pageStream document rows = (openOperations document ++
      (pageDraws document id rows).flatMap fun draw =>
        drawOperations document draw (encode draw.text)).flatMap Operation.spelling ++
        ascii "ET" := by
    rw [pageStream, commands, encode_lines, List.flatMap_append, opened, drawn, List.flatMap_append]
    rfl
  have sound : ∀ operation ∈ openOperations document ++
      (pageDraws document id rows).flatMap fun draw => drawOperations document draw (encode draw.text),
          operation.Sound := by
    intro operation member
    rcases List.mem_append.mp member with member | member
    · exact openOperations_sound document operation member
    · obtain ⟨draw, _, member⟩ := List.mem_flatMap.mp member
      exact drawOperations_sound document draw _ operation member
  rw [stream, Content.readContent_spelling sound (by decide) (by decide), List.map_append, List.map_flatMap]
  simp only [drawOperations_asRead]
  rfl

theorem forall_drawn (rt : Runtime) (document : ResumeDocument) (good : Line → Prop) :
    (∀ page ∈ paginate (availableLines document (pageSize document).2) (sourcesOf rt document),
      ∀ draw ∈ pageDraws document id page, good draw.line) ↔
      ∀ page ∈ document.pages, ∀ row ∈ page.rows, ∀ column ∈ row.columns,
        ∀ line ∈ visibleLines rt document column, good line := by
  rw [forall_printed]
  apply forall₂_congr
  intro page _
  have drawn : ∀ printed : List (PageRow Double), (∀ draw ∈ pageDraws document id printed, good draw.line) ↔
      ∀ row ∈ printed, ∀ entry ∈ row.columns, ∀ line ∈ entry.2, good line := by
    intro printed
    rw [pageDraws_columns, List.forall_mem_flatMap]
    exact forall_pageColumns document id printed fun entry left top =>
      forall_draws document entry.1 left top entry.2 good
  have parts := PageRow.lines_parts fun (_ : Double) line => good line
  have each := paged_forall (sourcePages_paged document (page.rows.map (sourceRow rt document))) parts
  simp only [drawn]
  rw [each]
  simp only [List.not_mem_nil, false_imp_iff, implies_true, true_and, List.forall_mem_map, sourceRow]

theorem drawn_in_full {rt : Runtime} (wraps : WrapsWithin rt) {document : ResumeDocument}
    (valid : document.Valid rt) :
    ∀ page ∈ paginate (availableLines document (pageSize document).2) (sourcesOf rt document),
      ∀ draw ∈ pageDraws document id page, draw.text = draw.line.text := by
  have short := (forall_drawn rt document fun line => line.text.take 180 = line.text).mpr
    fun page _ row _ column _ => visibleLines_uncut wraps valid.style column
  exact short

theorem streams_read (rt : Runtime) (document : ResumeDocument) (accepted : Accepted rt document) :
    ∃ pages, paginateRows rt document (pageSize document).1 (pageSize document).2 = some pages ∧
      pageStreams rt document = some (pages.map (pageStream document)) ∧
      (∀ page ∈ pages, Content.readContent (pageStream document page) = some (openOperations document ++
        ((pageDraws document id page).flatMap fun draw =>
          drawOperations document draw (Content.readBreaks (encode draw.text))) ++
        [⟨[], ascii "ET"⟩])) ∧
      (WrapsWithin rt → ∀ page ∈ pages, ∀ draw ∈ pageDraws document id page, draw.text = draw.line.text) := by
  obtain ⟨payload, keyed, parsed⟩ := accepted
  obtain ⟨valid, _⟩ := validateDocument_sound keyed parsed
  refine ⟨_, paginateRows_accepted valid, ?_, fun page _ => pageStream_read document page, fun wraps =>
    drawn_in_full wraps valid⟩
  rw [pageStreams, paginateRows_accepted valid, Option.map_some]

theorem streams_read_onePager :
    ∃ pages, paginateRows plainRuntime (onePager "Engineer".toList) (pageSize (onePager "Engineer".toList)).1
        (pageSize (onePager "Engineer".toList)).2 = some pages ∧
      pageStreams plainRuntime (onePager "Engineer".toList) =
        some (pages.map (pageStream (onePager "Engineer".toList))) ∧
      (∀ page ∈ pages, Content.readContent (pageStream (onePager "Engineer".toList) page) =
        some (openOperations (onePager "Engineer".toList) ++
          ((pageDraws (onePager "Engineer".toList) id page).flatMap fun draw =>
            drawOperations (onePager "Engineer".toList) draw (Content.readBreaks (encode draw.text))) ++
          [⟨[], ascii "ET"⟩])) ∧
      (WrapsWithin plainRuntime → ∀ page ∈ pages, ∀ draw ∈ pageDraws (onePager "Engineer".toList) id page,
        draw.text = draw.line.text) :=
  streams_read plainRuntime _ onePager_accepted

end Streams

end ManifestCV.Render
