import ManifestCV.Foundation.PdfFile

namespace ManifestCV.Foundation.Pdf.Content

inductive Token where
  | name (text : Bytes)
  | number (text : Bytes)
  | keyword (text : Bytes)
  | string (text : Bytes)
  | delimiter (byte : UInt8)
  deriving DecidableEq

def isWhite (b : UInt8) : Bool := [0, 9, 10, 12, 13, 32].contains b

def isDelimiter (b : UInt8) : Bool := (ascii "()<>[]\x7b\x7d/%").contains b

def isRegular (b : UInt8) : Bool := !isWhite b && !isDelimiter b

def unsigned : Bytes → Bytes
  | 43 :: text => text
  | 45 :: text => text
  | text => text

def isNumber (text : Bytes) : Bool :=
  (unsigned text).all (fun b => isDigitByte b || b == 46) && (unsigned text).any isDigitByte &&
    decide ((unsigned text).count 46 ≤ 1)

inductive Pending where
  | none
  | escape
  | octal (digits value : Nat)
  | lineFeed

inductive Mode where
  | gap
  | comment
  | word (isName : Bool) (text : Bytes)
  | string (depth : Nat) (text : Bytes) (pending : Pending)

def wordToken (isName : Bool) (text : Bytes) : Token :=
  if isName then .name text else if isNumber text then .number text else .keyword text

def start (b : UInt8) : List Token × Mode :=
  if isWhite b then ([], .gap)
  else if b = 40 then ([], .string 0 [] .none)
  else if b = 47 then ([], .word true [])
  else if b = 37 then ([], .comment)
  else if isDelimiter b then ([.delimiter b], .gap)
  else ([], .word false [b])

def stringByte (depth : Nat) (text : Bytes) (b : UInt8) : List Token × Mode :=
  if b = 92 then ([], .string depth text .escape)
  else if b = 40 then ([], .string (depth + 1) (text ++ [b]) .none)
  else if b = 41 then if depth = 0 then ([.string text], .gap) else
    ([], .string (depth - 1) (text ++ [b]) .none)
  else if b = 13 then ([], .string depth (text ++ [10]) .lineFeed)
  else ([], .string depth (text ++ [b]) .none)

def isOctal (b : UInt8) : Bool := 48 ≤ b && b ≤ 55

def escaped (b : UInt8) : Bytes :=
  if b = 110 then [10]
  else if b = 114 then [13]
  else if b = 116 then [9]
  else if b = 98 then [8]
  else if b = 102 then [12]
  else if b = 10 ∨ b = 13 then []
  else [b]

def step : Mode → UInt8 → List Token × Mode
  | .gap, b => start b
  | .comment, b => if b = 10 ∨ b = 13 then ([], .gap) else ([], .comment)
  | .word isName text, b =>
    if isRegular b then ([], .word isName (text ++ [b])) else
      (wordToken isName text :: (start b).1, (start b).2)
  | .string depth text .none, b => stringByte depth text b
  | .string depth text .lineFeed, b => if b = 10 then ([], .string depth text .none) else
      stringByte depth text b
  | .string depth text .escape, b =>
    if isOctal b then ([], .string depth text (.octal 1 (b.toNat - 48)))
    else ([], .string depth (text ++ escaped b) (if b = 13 then .lineFeed else .none))
  | .string depth text (.octal digits value), b =>
    if isOctal b ∧ digits < 3 then ([], .string depth text (.octal (digits + 1) (8 * value + (b.toNat - 48))))
    else stringByte depth (text ++ [value.toUInt8]) b

def feed : Mode → Bytes → List Token × Mode
  | mode, [] => ([], mode)
  | mode, b :: rest => ((step mode b).1 ++ (feed (step mode b).2 rest).1, (feed (step mode b).2 rest).2)

def finish : Mode → Option (List Token)
  | .word isName text => some [wordToken isName text]
  | .string _ _ _ => none
  | _ => some []

def tokens (content : Bytes) : Option (List Token) :=
  (finish (feed .gap content).2).map ((feed .gap content).1 ++ ·)

structure Operation where
  operands : List Token
  operator : Bytes
  deriving DecidableEq

def operations (operands : List Token) : List Token → Option (List Operation)
  | [] => if operands.isEmpty then some [] else none
  | .keyword operator :: rest => (operations [] rest).map (⟨operands, operator⟩ :: ·)
  | .delimiter _ :: _ => none
  | token :: rest => operations (operands ++ [token]) rest

def readContent (content : Bytes) : Option (List Operation) := (tokens content).bind (operations [])

theorem feed_cons {mode next : Mode} {b : UInt8} (quiet : step mode b = ([], next)) (rest : Bytes) :
    feed mode (b :: rest) = feed next rest := by
  rw [feed, quiet]
  rfl

theorem feed_append (mode : Mode) (first second : Bytes) : feed mode (first ++ second) =
    ((feed mode first).1 ++ (feed (feed mode first).2 second).1, (feed (feed mode first).2 second).2) := by
  induction first generalizing mode with
  | nil => rfl
  | cons b first ih => rw [List.cons_append, feed, ih, feed, List.append_assoc]

section Words

theorem regular_not {b : UInt8} (regular : isRegular b = true) :
    isWhite b = false ∧ isDelimiter b = false := by
  simpa [isRegular] using regular

theorem start_regular {b : UInt8} (regular : isRegular b = true) : start b = ([], .word false [b]) := by
  obtain ⟨white, delimiter⟩ := regular_not regular
  have other : ∀ d : UInt8, isDelimiter d = true → b ≠ d := by
    rintro d delimits rfl
    rw [delimiter] at delimits
    cases delimits
  rw [start, white, delimiter, if_neg Bool.false_ne_true, if_neg (other 40 rfl), if_neg (other 47 rfl),
    if_neg (other 37 rfl), if_neg Bool.false_ne_true]

theorem feed_word {text : Bytes} (regular : ∀ b ∈ text, isRegular b = true) (isName : Bool) (before : Bytes) :
    feed (.word isName before) text = ([], .word isName (before ++ text)) := by
  induction text generalizing before with
  | nil => rw [List.append_nil, feed]
  | cons b text ih =>
    have first : step (.word isName before) b = ([], .word isName (before ++ [b])) := by
      rw [step, if_pos (regular b List.mem_cons_self)]
    rw [feed_cons first, ih fun other member => regular other (List.mem_cons_of_mem _ member),
      List.append_assoc]
    rfl

theorem feed_gap {text : Bytes} (regular : ∀ b ∈ text, isRegular b = true) (nonempty : text ≠ []) :
    feed .gap text = ([], .word false text) := by
  cases text with
  | nil => exact absurd rfl nonempty
  | cons b text =>
    have first : step .gap b = ([], .word false [b]) := start_regular (regular b List.mem_cons_self)
    rw [feed_cons first, feed_word fun other member => regular other (List.mem_cons_of_mem _ member)]
    rfl

theorem feed_white {sep : UInt8} (white : isWhite sep = true) (isName : Bool) (text : Bytes) :
    feed (.word isName text) [sep] = ([wordToken isName text], .gap) := by
  have ends : isRegular sep = false := by
    rw [isRegular, white]
    rfl
  have silent : start sep = ([], .gap) := by rw [start, white, if_pos rfl]
  rw [feed, feed, step, ends, if_neg Bool.false_ne_true, silent]
  rfl

end Words

section Strings

def escapeByte (b : UInt8) : Bytes := if b = 92 ∨ b = 40 ∨ b = 41 then [92, b] else [b]

def escapeBytes (text : Bytes) : Bytes := text.flatMap escapeByte

/-- What a reader makes of the ends of lines in a literal string: CR and CRLF are LF. -/
def readBreaks : Bytes → Bytes
  | 13 :: 10 :: rest => 10 :: readBreaks rest
  | 13 :: rest => 10 :: readBreaks rest
  | b :: rest => b :: readBreaks rest
  | [] => []

theorem feed_lineFeed {rest : Bytes} (other : rest.head? ≠ some 10) (depth : Nat) (text : Bytes)
    (nonempty : rest ≠ []) :
    feed (.string depth text .lineFeed) rest = feed (.string depth text .none) rest := by
  cases rest with
  | nil => exact absurd rfl nonempty
  | cons b rest =>
    have same : step (.string depth text .lineFeed) b = step (.string depth text .none) b := by
      rw [step, step, if_neg fun same => other (congrArg some same)]
    rw [feed, feed, same]

theorem feed_escapeByte {b : UInt8} (other : b ≠ 13) (depth : Nat) (text rest : Bytes) :
    feed (.string depth text .none) (escapeByte b ++ rest) =
      feed (.string depth (text ++ [b]) .none) rest := by
  unfold escapeByte
  split
  · rename_i special
    have slash : step (.string depth text .none) 92 = ([], .string depth text .escape) := rfl
    have second : step (.string depth text .escape) b = ([], .string depth (text ++ [b]) .none) := by
      rcases special with rfl | rfl | rfl <;> rfl
    rw [List.cons_append, List.cons_append, List.nil_append, feed_cons slash, feed_cons second]
  · rename_i plain
    rw [not_or, not_or] at plain
    have quiet : step (.string depth text .none) b = ([], .string depth (text ++ [b]) .none) := by
      rw [step, stringByte, if_neg plain.1, if_neg plain.2.1, if_neg plain.2.2, if_neg other]
    rw [List.cons_append, List.nil_append, feed_cons quiet]

theorem feed_string (text before : Bytes) :
    feed (.string 0 before .none) (escapeBytes text ++ [41]) =
      ([.string (before ++ readBreaks text)], .gap) := by
  induction text using readBreaks.induct generalizing before with
  | case1 rest ih =>
    have first : step (.string 0 before .none) 13 = ([], .string 0 (before ++ [10]) .lineFeed) := rfl
    have second : step (.string 0 (before ++ [10]) .lineFeed) 10 = ([], .string 0 (before ++ [10]) .none) :=
      rfl
    have shape : escapeBytes (13 :: 10 :: rest) ++ [41] = 13 :: 10 :: (escapeBytes rest ++ [41]) := rfl
    rw [shape, feed_cons first, feed_cons second, ih, readBreaks, List.append_assoc]
    rfl
  | case2 rest alone ih =>
    have first : step (.string 0 before .none) 13 = ([], .string 0 (before ++ [10]) .lineFeed) := rfl
    have shape : escapeBytes (13 :: rest) ++ [41] = 13 :: (escapeBytes rest ++ [41]) := rfl
    have other : (escapeBytes rest ++ [41]).head? ≠ some 10 := by
      cases rest with
      | nil => decide
      | cons b rest =>
        have head : b ≠ 10 := fun same => alone rest (by rw [same])
        rw [escapeBytes, List.flatMap_cons, escapeByte]
        split
        · exact fun same => absurd (Option.some.inj same) (by decide)
        · exact fun same => head (Option.some.inj same)
    rw [shape, feed_cons first, feed_lineFeed other 0 _ (by simp), ih, readBreaks, List.append_assoc]
    · rfl
    · exact alone
  | case3 b rest _ alone ih =>
    have other : b ≠ 13 := alone
    have read : readBreaks (b :: rest) = b :: readBreaks rest := by
      rw [readBreaks]
      · assumption
      · exact alone
    have shape : escapeBytes (b :: rest) ++ [41] = escapeByte b ++ (escapeBytes rest ++ [41]) := by
      rw [escapeBytes, List.flatMap_cons, List.append_assoc]
      rfl
    rw [shape, feed_escapeByte other, ih, read, List.append_assoc]
    rfl
  | case4 =>
    rw [readBreaks, List.append_nil]
    rfl

end Strings

section Characters

theorem utf8EncodeChar_high {c : Char} (high : 128 ≤ c.toNat) :
    ∀ b ∈ String.utf8EncodeChar c, 128 ≤ b.toNat := by
  have large : ¬ c.val.toNat ≤ 127 := by
    have same : c.val.toNat = c.toNat := rfl
    omega
  intro b member
  simp only [String.utf8EncodeChar, if_neg large] at member
  split at member
  · simp only [List.mem_cons, List.not_mem_nil, or_false] at member
    rcases member with rfl | rfl <;> simp only [UInt8.toNat_ofNat'] <;> omega
  · split at member
    · simp only [List.mem_cons, List.not_mem_nil, or_false] at member
      rcases member with rfl | rfl | rfl <;> simp only [UInt8.toNat_ofNat'] <;> omega
    · simp only [List.mem_cons, List.not_mem_nil, or_false] at member
      rcases member with rfl | rfl | rfl | rfl <;> simp only [UInt8.toNat_ofNat'] <;> omega

theorem escapeBytes_utf8 (c : Char) : escapeBytes (String.utf8EncodeChar c) =
    if c = '\\' ∨ c = '(' ∨ c = ')' then 92 :: String.utf8EncodeChar c else String.utf8EncodeChar c := by
  have keep : ∀ bytes : Bytes, (∀ b ∈ bytes, b ≠ 92 ∧ b ≠ 40 ∧ b ≠ 41) → escapeBytes bytes = bytes := by
    intro bytes plain
    induction bytes with
    | nil => rfl
    | cons b bytes ih =>
      obtain ⟨slash, left, right⟩ := plain b List.mem_cons_self
      rw [escapeBytes, List.flatMap_cons, escapeByte, if_neg (by simp [slash, left, right])]
      exact congrArg (b :: ·) (ih fun other member => plain other (List.mem_cons_of_mem _ member))
  split
  · rename_i special
    rcases special with rfl | rfl | rfl <;> rfl
  · rename_i plain
    refine keep _ fun b member => ?_
    by_cases small : c.toNat < 128
    · rw [utf8EncodeChar_ascii small, List.mem_singleton] at member
      have value : b.toNat = c.toNat := by
        rw [member, Nat.toUInt8_eq, UInt8.toNat_ofNat', Nat.mod_eq_of_lt (by omega)]
      have differs : ∀ d : Char, c ≠ d → b.toNat ≠ d.toNat := by
        intro d apart same
        exact apart (Char.ext (UInt32.toNat_inj.mp (value.symm.trans same)))
      rw [not_or, not_or] at plain
      refine ⟨?_, ?_, ?_⟩
      · rintro rfl
        exact differs _ plain.1 rfl
      · rintro rfl
        exact differs _ plain.2.1 rfl
      · rintro rfl
        exact differs _ plain.2.2 rfl
    · have high := utf8EncodeChar_high (not_lt.mp small) b member
      refine ⟨?_, ?_, ?_⟩ <;> (rintro rfl; exact absurd high (by decide))

end Characters

section Spelling

def Token.spelling : Token → Bytes
  | .name text => 47 :: text
  | .string text => 40 :: (escapeBytes text ++ [41])
  | .number text => text
  | .keyword text => text
  | .delimiter b => [b]

def isWord (text : Bytes) : Bool := !text.isEmpty && text.all isRegular

def Token.IsOperand : Token → Prop
  | .name text => isWord text = true
  | .number text => isWord text = true ∧ isNumber text = true
  | .string _ => True
  | .keyword _ => False
  | .delimiter _ => False

def Token.asRead : Token → Token
  | .string text => .string (readBreaks text)
  | token => token

def Operation.spelling (operation : Operation) : Bytes :=
  (operation.operands.flatMap fun token => token.spelling ++ [32]) ++ operation.operator ++ [10]

structure Operation.Sound (operation : Operation) : Prop where
  operands : ∀ token ∈ operation.operands, token.IsOperand
  operator : isWord operation.operator = true ∧ isNumber operation.operator = false

def Operation.asRead (operation : Operation) : Operation :=
  ⟨operation.operands.map Token.asRead, operation.operator⟩

theorem isWord_spec {text : Bytes} (word : isWord text = true) :
    text ≠ [] ∧ ∀ b ∈ text, isRegular b = true := by
  simpa [isWord, List.isEmpty_iff] using word

theorem regular_of_digit {b : UInt8} (digit : (isDigitByte b || b == 46) = true) : isRegular b = true := by
  have apart : ∀ d : UInt8, (isDigitByte d || d == 46) = false → b ≠ d := by
    rintro d other rfl
    rw [digit] at other
    cases other
  have white : isWhite b = false := by
    simp [isWhite, apart 0 rfl, apart 9 rfl, apart 10 rfl, apart 12 rfl, apart 13 rfl, apart 32 rfl]
  have delimiter : isDelimiter b = false := by
    have bytes : ascii "()<>[]\x7b\x7d/%" = [40, 41, 60, 62, 91, 93, 123, 125, 47, 37] := by decide
    rw [isDelimiter, bytes]
    simp [apart 40 rfl, apart 41 rfl, apart 60 rfl, apart 62 rfl, apart 91 rfl, apart 93 rfl, apart 123 rfl,
      apart 125 rfl, apart 47 rfl, apart 37 rfl]
  rw [isRegular, white, delimiter]
  rfl

theorem unsigned_digits {text : Bytes} (digits : ∀ b ∈ text, (isDigitByte b || b == 46) = true) :
    unsigned text = text := by
  unfold unsigned
  split
  · exact absurd (digits 43 List.mem_cons_self) (by decide)
  · exact absurd (digits 45 List.mem_cons_self) (by decide)
  · rfl

theorem number_operand {text : Bytes} (digits : ∀ b ∈ text, (isDigitByte b || b == 46) = true)
    (some_digit : ∃ b ∈ text, isDigitByte b = true) (point : text.count 46 ≤ 1) :
    (Token.number text).IsOperand ∧ (Token.number (45 :: text)).IsOperand := by
  have all : text.all (fun b => isDigitByte b || b == 46) = true := List.all_eq_true.mpr digits
  have any : text.any isDigitByte = true := List.any_eq_true.mpr some_digit
  have regular : text.all isRegular = true := List.all_eq_true.mpr fun b member =>
    regular_of_digit (digits b member)
  have nonempty : text.isEmpty = false := by
    obtain ⟨b, member, _⟩ := some_digit
    exact List.isEmpty_eq_false_iff_exists_mem.mpr ⟨b, member⟩
  have negative : unsigned (45 :: text) = text := rfl
  refine ⟨⟨?_, ?_⟩, ?_, ?_⟩
  · rw [isWord, nonempty, regular]
    rfl
  · rw [isNumber, unsigned_digits digits, all, any, decide_eq_true point]
    rfl
  · rw [isWord, List.all_cons, regular]
    rfl
  · rw [isNumber, negative, all, any, decide_eq_true point]
    rfl

theorem feed_line {text : Bytes} (word : isWord text = true) {sep : UInt8} (white : isWhite sep = true) :
    feed .gap (text ++ [sep]) = ([wordToken false text], .gap) := by
  obtain ⟨nonempty, regular⟩ := isWord_spec word
  rw [feed_append, feed_gap regular nonempty, feed_white white]
  rfl

theorem feed_operand {token : Token} (operand : token.IsOperand) :
    feed .gap (token.spelling ++ [32]) = ([token.asRead], .gap) := by
  cases token with
  | name text =>
    obtain ⟨_, regular⟩ := isWord_spec operand
    have opens : step .gap 47 = ([], .word true []) := rfl
    rw [Token.spelling, List.cons_append, feed_cons opens, feed_append, feed_word regular, feed_white rfl]
    rfl
  | number text =>
    obtain ⟨word, number⟩ := operand
    rw [Token.spelling, feed_line word rfl, wordToken, number]
    rfl
  | string text =>
    have opens : step .gap 40 = ([], .string 0 [] .none) := rfl
    have silent : feed .gap [32] = ([], .gap) := rfl
    rw [Token.spelling, List.cons_append, feed_cons opens, feed_append, feed_string, silent]
    rfl
  | keyword text => cases operand
  | delimiter b => cases operand

theorem feed_operands {operands : List Token} (sound : ∀ token ∈ operands, token.IsOperand) :
    feed .gap (operands.flatMap fun token => token.spelling ++ [32]) = (operands.map Token.asRead, .gap) := by
  induction operands with
  | nil => rfl
  | cons token operands ih =>
    rw [List.flatMap_cons, feed_append, feed_operand (sound token List.mem_cons_self)]
    dsimp only
    rw [ih fun other member => sound other (List.mem_cons_of_mem _ member)]
    rfl

theorem feed_operation {operation : Operation} (sound : operation.Sound) :
    feed .gap operation.spelling = (operation.operands.map Token.asRead ++ [.keyword operation.operator],
      .gap) := by
  obtain ⟨word, other⟩ := sound.operator
  have last : wordToken false operation.operator = .keyword operation.operator := by
    rw [wordToken, other]
    rfl
  rw [Operation.spelling, List.append_assoc, feed_append, feed_operands sound.operands]
  dsimp only
  rw [feed_line word rfl, last]

theorem operations_operands {operands : List Token} (sound : ∀ token ∈ operands, token.IsOperand)
    (before rest : List Token) :
    operations before (operands.map Token.asRead ++ rest) = operations (before ++ operands.map Token.asRead)
      rest := by
  induction operands generalizing before with
  | nil => rw [List.map_nil, List.append_nil, List.nil_append]
  | cons token operands ih =>
    have first : ∀ more, operations before (token.asRead :: more) =
        operations (before ++ [token.asRead]) more := by
      intro more
      have operand := sound token List.mem_cons_self
      cases token with
      | name text => rfl
      | number text => rfl
      | string text => rfl
      | keyword text => cases operand
      | delimiter b => cases operand
    rw [List.map_cons, List.cons_append, first, ih fun other member =>
      sound other (List.mem_cons_of_mem _ member), List.append_assoc]
    rfl

theorem operations_asRead {list : List Operation} (sound : ∀ operation ∈ list, operation.Sound)
    (rest : List Token) :
    operations [] ((list.flatMap fun operation =>
      operation.operands.map Token.asRead ++ [.keyword operation.operator]) ++ rest) =
      (operations [] rest).map (list.map Operation.asRead ++ ·) := by
  induction list with
  | nil =>
    simp
  | cons operation list ih =>
    rw [List.flatMap_cons, List.append_assoc, List.append_assoc,
      operations_operands (sound operation List.mem_cons_self).operands, List.singleton_append, operations,
      ih fun other member => sound other (List.mem_cons_of_mem _ member), Option.map_map]
    rfl

/-- A stream of operations is read back as these operations, also when no end of line follows the last
    operator. -/
theorem readContent_spelling {list : List Operation} (sound : ∀ operation ∈ list, operation.Sound)
    {last : Bytes} (word : isWord last = true) (other : isNumber last = false) :
    readContent (list.flatMap Operation.spelling ++ last) =
      some (list.map Operation.asRead ++ [⟨[], last⟩]) := by
  have fed : feed .gap (list.flatMap Operation.spelling) =
      (list.flatMap fun operation => operation.operands.map Token.asRead ++ [.keyword operation.operator],
          .gap) := by
    induction list with
    | nil => rfl
    | cons operation list ih =>
      rw [List.flatMap_cons, feed_append, feed_operation (sound operation List.mem_cons_self)]
      dsimp only
      rw [ih fun other member => sound other (List.mem_cons_of_mem _ member)]
      rfl
  obtain ⟨nonempty, regular⟩ := isWord_spec word
  have ends : finish (.word false last) = some [.keyword last] := by
    rw [finish, wordToken, other]
    rfl
  rw [readContent, tokens, feed_append, fed]
  dsimp only
  rw [feed_gap regular nonempty]
  dsimp only
  rw [ends, Option.map_some, Option.bind_some, List.append_nil, operations_asRead sound]
  rfl

example : readContent (ascii "(a\\)\\050\\\\(b)) Tj % end\n1 .5 rg") =
    some [⟨[.string (ascii "a)(\\(b)")], ascii "Tj"⟩,
      ⟨[.number (ascii "1"), .number (ascii ".5")], ascii "rg"⟩] := by decide

end Spelling

end ManifestCV.Foundation.Pdf.Content
