import ManifestCV.Foundation.PdfObject

namespace ManifestCV.Foundation.Pdf

abbrev Bytes := List UInt8

def ascii (s : String) : Bytes := encode s.toList

def latin1 (bytes : Bytes) : Str := bytes.map fun b => Char.ofNat b.toNat

inductive Indirect where
  | value (o : Object)
  | stream (entries : Entries) (data : Bytes)

def Indirect.body : Indirect → Bytes
  | .value o => encode o.print
  | .stream entries data =>
    encode (Object.dict entries).print ++ ascii "\nstream\n" ++ data ++ ascii "\nendstream"

def Indirect.Sound : Indirect → Prop
  | .value o => o.Regular
  | .stream entries data => (Object.dict entries).Regular ∧
      ∃ n, entries.lookup "Length".toList = some (.int n) ∧ n = data.length

def block (number : Nat) (body : Bytes) : Bytes :=
  encode (decimal number) ++ ascii " 0 obj\n" ++ body ++ ascii "\nendobj\n"

def layout (number : Nat) (output : Bytes) : List Bytes → Bytes × List Nat
  | [] => (output, [])
  | body :: bodies =>
    let rest := layout (number + 1) (output ++ block number body) bodies
    (rest.1, output.length :: rest.2)

def pad10 (n : Nat) : Str := List.replicate (10 - (decimal n).length) '0' ++ decimal n

def entryLine (offset : Nat) : Str := pad10 offset ++ " 00000 n ".toList

def freeLine : Str := "0000000000 65535 f ".toList

def line (s : Str) : Bytes := encode s ++ [10]

def trailerDict (size root : Nat) : Entries := [("Size".toList, .int size), ("Root".toList, .ref root)]

def writeFile (bodies : List Bytes) (root : Nat) : Bytes :=
  let laid := layout 1 (ascii "%PDF-1.4\n") bodies
  laid.1 ++ ascii "xref\n0 " ++ line (decimal (bodies.length + 1)) ++ line freeLine ++
    laid.2.flatMap (fun offset => line (entryLine offset)) ++ ascii "trailer\n" ++
    line (Object.dict (trailerDict (bodies.length + 1) root)).print ++
    ascii "startxref\n" ++ encode (decimal laid.1.length) ++ ascii "\n%%EOF\n"

def stripPrefix (pre bytes : Bytes) : Option Bytes :=
  if pre.isPrefixOf bytes then some (bytes.drop pre.length) else none

def splitLine (bytes : Bytes) : Bytes × Bytes :=
  (bytes.takeWhile (· ≠ 10), (bytes.dropWhile (· ≠ 10)).drop 1)

def readNat (text : Str) : Nat := Nat.ofDigitChars 10 (text.takeWhile Char.isDigit) 0

def isDigitByte (b : UInt8) : Bool := 48 ≤ b && b ≤ 57

def startxref (file : Bytes) : Option Nat := do
  let rest ← stripPrefix (ascii "\n%%EOF\n").reverse file.reverse
  let digits := rest.takeWhile isDigitByte
  let _ ← stripPrefix (ascii "startxref\n").reverse (rest.drop digits.length)
  some (readNat (latin1 digits.reverse))

def readLines : Nat → Bytes → List Bytes × Bytes
  | 0, bytes => ([], bytes)
  | n + 1, bytes =>
    let rest := readLines n (splitLine bytes).2
    ((splitLine bytes).1 :: rest.1, rest.2)

def readEntry (text : Str) : Option Nat := if text.contains 'n' then some (readNat text) else none

structure Directory where
  offsets : List (Option Nat)
  trailer : Entries

def readDirectory (file : Bytes) : Option Directory := do
  let start ← startxref file
  let rest ← stripPrefix (ascii "xref\n0 ") (file.drop start)
  let lines := readLines (readNat (latin1 (splitLine rest).1)) (splitLine rest).2
  let rest ← stripPrefix (ascii "trailer\n") lines.2
  let trailer ← readObject (latin1 (splitLine rest).1)
  some ⟨lines.1.map fun entry => readEntry (latin1 entry), trailer.entries⟩

def readIndirect (number : Nat) (bytes : Bytes) : Option Indirect := do
  let rest ← stripPrefix (encode (decimal number) ++ ascii " 0 obj\n") bytes
  let object ← readObject (latin1 (splitLine rest).1)
  match stripPrefix (ascii "stream\n") (splitLine rest).2 with
  | none =>
    let _ ← stripPrefix (ascii "endobj\n") (splitLine rest).2
    some (.value object)
  | some rest =>
    match object.entries.lookup "Length".toList with
    | some (.int length) =>
      let _ ← stripPrefix (ascii "\nendstream\nendobj\n") (rest.drop length)
      some (.stream object.entries (rest.take length))
    | _ => none

def lookup (file : Bytes) (number : Nat) : Option Indirect := do
  let directory ← readDirectory file
  let offset ← directory.offsets[number]?.join
  readIndirect number (file.drop offset)

def root (file : Bytes) : Option Nat := do
  let directory ← readDirectory file
  match directory.trailer.lookup "Root".toList with
  | some (.ref number) => some number
  | _ => none

theorem utf8EncodeChar_ascii {c : Char} (plain : c.toNat < 128) :
    String.utf8EncodeChar c = [c.toNat.toUInt8] := by
  have small : c.val.toNat ≤ 127 := by
    have same : c.val.toNat = c.toNat := rfl
    omega
  simp only [String.utf8EncodeChar, if_pos small]
  rfl

theorem latin1_encode {s : Str} (plain : Plain s) : latin1 (encode s) = s := by
  induction s with
  | nil => rfl
  | cons c s ih =>
    obtain ⟨small, _⟩ := plain c List.mem_cons_self
    rw [encode_cons, utf8EncodeChar_ascii small]
    have head : Char.ofNat (c.toNat.toUInt8).toNat = c := by
      rw [Nat.toUInt8_eq, UInt8.toNat_ofNat', Nat.mod_eq_of_lt (by omega), Char.ofNat_toNat]
    have tail := ih fun d member => plain d (List.mem_cons_of_mem _ member)
    simp only [latin1, List.singleton_append, List.map_cons, head] at tail ⊢
    rw [tail]

theorem encode_no_break {s : Str} (plain : Plain s) : ∀ b ∈ encode s, (b ≠ 10) = true := by
  intro b member
  obtain ⟨c, inside, member⟩ := List.mem_flatMap.mp member
  obtain ⟨small, regular⟩ := plain c inside
  rw [utf8EncodeChar_ascii small, List.mem_singleton] at member
  simp only [ne_eq, eq_iff_iff, iff_true]
  rintro rfl
  refine regular (Char.ext (UInt32.toNat_inj.mp ?_))
  have value := congrArg UInt8.toNat member
  rw [Nat.toUInt8_eq, UInt8.toNat_ofNat', Nat.mod_eq_of_lt (by omega)] at value
  exact value.symm

theorem stripPrefix_append (pre rest : Bytes) : stripPrefix pre (pre ++ rest) = some rest := by
  rw [stripPrefix, if_pos (by simp), List.drop_left]

theorem splitLine_line {s : Str} (plain : Plain s) (rest : Bytes) :
    splitLine (line s ++ rest) = (encode s, rest) := by
  have regular : ∀ b ∈ encode s, decide (b ≠ 10) = true := by
    intro b member
    simpa using encode_no_break plain b member
  unfold splitLine line
  rw [List.append_assoc, List.takeWhile_append_of_pos regular, List.dropWhile_append_of_pos regular]
  simp

theorem readNat_decimal (n : Nat) (rest : Str) (stop : ∀ c, rest.head? = some c → c.isDigit = false) :
    readNat (decimal n ++ rest) = n := by
  have nothing : rest.takeWhile Char.isDigit = [] := by
    cases rest with
    | nil => rfl
    | cons c rest => rw [List.takeWhile_cons, stop c rfl]; rfl
  rw [readNat, List.takeWhile_append_of_pos (decimal_digits n), nothing, List.append_nil]
  exact Nat.ofDigitChars_ten_toDigits

theorem readNat_pad10 (n : Nat) (rest : Str) (stop : ∀ c, rest.head? = some c → c.isDigit = false) :
    readNat (pad10 n ++ rest) = n := by
  have zeros : ∀ c ∈ List.replicate (10 - (decimal n).length) '0', c.isDigit = true := by
    intro c member
    rw [(List.mem_replicate.mp member).2]
    decide
  have value := readNat_decimal n rest stop
  rw [readNat] at value
  rw [readNat, pad10, List.append_assoc, List.takeWhile_append_of_pos zeros, Nat.ofDigitChars_append,
    Nat.ofDigitChars_replicate_zero, Nat.mul_zero]
  exact value

theorem readEntry_line (offset : Nat) : readEntry (entryLine offset) = some offset := by
  have inUse : (entryLine offset).contains 'n' = true := by simp [entryLine]
  rw [readEntry, if_pos inUse, entryLine, readNat_pad10]
  intro c head
  obtain rfl : ' ' = c := Option.some.inj head
  rfl

theorem entryLine_plain (offset : Nat) : Plain (entryLine offset) := by
  refine Plain.append (Plain.append ?_ (decimal_plain offset)) (by decide)
  intro c member
  rw [(List.mem_replicate.mp member).2]
  decide

theorem readLines_offsets (offsets : List Nat) (rest : Bytes) :
    readLines offsets.length (offsets.flatMap (fun offset => line (entryLine offset)) ++ rest) =
      (offsets.map fun offset => encode (entryLine offset), rest) := by
  induction offsets with
  | nil => rfl
  | cons offset offsets ih =>
    rw [List.length_cons, List.flatMap_cons, List.append_assoc, readLines,
      splitLine_line (entryLine_plain offset), ih]
    rfl

theorem decimal_digitBytes (n : Nat) : ∀ b ∈ encode (decimal n), isDigitByte b = true := by
  intro b member
  obtain ⟨c, inside, member⟩ := List.mem_flatMap.mp member
  have digit := decimal_digits n c inside
  rw [utf8EncodeChar_ascii (digit_regular digit).2, List.mem_singleton] at member
  simp only [Char.isDigit, Bool.and_eq_true, decide_eq_true_eq] at digit
  have low : 48 ≤ c.toNat := digit.1
  have high : c.toNat ≤ 57 := digit.2
  subst member
  simp only [isDigitByte, Bool.and_eq_true, decide_eq_true_eq, UInt8.le_iff_toNat_le, Nat.toUInt8_eq,
    UInt8.toNat_ofNat']
  rw [Nat.mod_eq_of_lt (by omega)]
  exact ⟨low, high⟩

theorem startxref_found (before : Bytes) (start : Nat) :
    startxref (before ++ ascii "startxref\n" ++ encode (decimal start) ++ ascii "\n%%EOF\n") =
      some start := by
  have digits : ∀ b ∈ (encode (decimal start)).reverse, isDigitByte b = true :=
    fun b member => decimal_digitBytes start b (List.mem_reverse.mp member)
  have marker : (ascii "startxref\n").reverse = 10 :: (ascii "startxref").reverse := by decide
  unfold startxref
  rw [List.reverse_append, stripPrefix_append, Option.bind_eq_bind, Option.bind_some]
  rw [List.reverse_append, List.reverse_append, marker, List.takeWhile_append_of_pos digits]
  have stop : (10 :: (ascii "startxref").reverse ++ before.reverse).takeWhile isDigitByte = [] := rfl
  rw [stop, List.append_nil]
  dsimp only
  rw [List.drop_left, ← marker, stripPrefix_append]
  have value := readNat_decimal start [] (by simp)
  rw [List.append_nil] at value
  simp [latin1_encode (decimal_plain start), value]

theorem layout_length (number : Nat) (output : Bytes) (bodies : List Bytes) :
    (layout number output bodies).2.length = bodies.length := by
  induction bodies generalizing number output with
  | nil => rfl
  | cons body bodies ih => simp [layout, ih]

theorem layout_extends (number : Nat) (output : Bytes) (bodies : List Bytes) :
    ∃ after, (layout number output bodies).1 = output ++ after := by
  induction bodies generalizing number output with
  | nil => exact ⟨[], (List.append_nil _).symm⟩
  | cons body bodies ih =>
    obtain ⟨after, same⟩ := ih (number + 1) (output ++ block number body)
    exact ⟨block number body ++ after, by rw [layout, same, List.append_assoc]⟩

theorem layout_block (number : Nat) (output : Bytes) (bodies : List Bytes) (i : Nat) (body : Bytes)
    (member : bodies[i]? = some body) :
    ∃ before after, (layout number output bodies).1 = before ++ block (number + i) body ++ after ∧
      (layout number output bodies).2[i]? = some before.length := by
  induction bodies generalizing number output i with
  | nil => simp at member
  | cons first bodies ih =>
    cases i with
    | zero =>
      obtain rfl : first = body := by simpa using member
      obtain ⟨after, same⟩ := layout_extends (number + 1) (output ++ block number first) bodies
      exact ⟨output, after, same, rfl⟩
    | succ i =>
      obtain ⟨before, after, same, offset⟩ :=
        ih (number + 1) (output ++ block number first) i (by simpa using member)
      refine ⟨before, after, ?_, by simpa [layout] using offset⟩
      rw [layout, same]
      congr 3
      omega

theorem trailerDict_regular (size root : Nat) : (Object.dict (trailerDict size root)).Regular := by
  refine ⟨?_, trivial, ?_, trivial, trivial⟩ <;> decide

theorem readDirectory_writeFile (bodies : List Bytes) (root : Nat) :
    readDirectory (writeFile bodies root) = some
      ⟨none :: (layout 1 (ascii "%PDF-1.4\n") bodies).2.map some, trailerDict (bodies.length + 1) root⟩ := by
  have lengths := layout_length 1 (ascii "%PDF-1.4\n") bodies
  have trailer := trailerDict_regular (bodies.length + 1) root
  unfold writeFile
  generalize layout 1 (ascii "%PDF-1.4\n") bodies = laid at lengths ⊢
  unfold readDirectory
  dsimp only
  rw [startxref_found, Option.bind_eq_bind, Option.bind_some]
  simp only [List.append_assoc]
  rw [List.drop_left, stripPrefix_append, Option.bind_eq_bind, Option.bind_some,
    splitLine_line (decimal_plain _)]
  dsimp only
  have count := readNat_decimal (bodies.length + 1) [] (by simp)
  rw [List.append_nil] at count
  rw [latin1_encode (decimal_plain _), count, readLines, splitLine_line (by decide), ← lengths,
    readLines_offsets]
  dsimp only
  rw [stripPrefix_append, Option.bind_eq_bind, Option.bind_some,
    splitLine_line (print_plain _ (lengths ▸ trailer)), latin1_encode (print_plain _ (lengths ▸ trailer)),
    readObject_print (lengths ▸ trailer)]
  have free : readEntry (latin1 (encode freeLine)) = none := by decide
  have used : ∀ offset, readEntry (latin1 (encode (entryLine offset))) = some offset := by
    intro offset
    rw [latin1_encode (entryLine_plain offset), readEntry_line]
  simp [free, used, Object.entries]

theorem root_writeFile (bodies : List Bytes) (number : Nat) :
    root (writeFile bodies number) = some number := by
  rw [root, readDirectory_writeFile]
  rfl

theorem readIndirect_block (number : Nat) {object : Indirect} (sound : object.Sound) (rest : Bytes) :
    readIndirect number (block number object.body ++ rest) = some object := by
  unfold block readIndirect
  simp only [List.append_assoc]
  rw [← List.append_assoc (encode (decimal number)), stripPrefix_append, Option.bind_eq_bind,
    Option.bind_some]
  cases object with
  | value o =>
    have ending : ascii "\nendobj\n" = [10] ++ ascii "endobj\n" := by decide
    have shape : Indirect.body (.value o) ++ (ascii "\nendobj\n" ++ rest) =
        line o.print ++ (ascii "endobj\n" ++ rest) := by
      simp [Indirect.body, line, ending]
    have plain := print_plain o sound
    have notStream : stripPrefix (ascii "stream\n") (ascii "endobj\n" ++ rest) = none := by
      have different : (ascii "stream\n").isPrefixOf (ascii "endobj\n" ++ rest) = false := rfl
      rw [stripPrefix, different]
      rfl
    rw [shape, splitLine_line plain, latin1_encode plain, readObject_print sound]
    simp [notStream, stripPrefix_append]
  | stream entries data =>
    obtain ⟨regular, n, length, rfl⟩ := sound
    have start : ascii "\nstream\n" = [10] ++ ascii "stream\n" := by decide
    have ending : ascii "\nendstream" ++ ascii "\nendobj\n" = ascii "\nendstream\nendobj\n" := by decide
    have shape : Indirect.body (.stream entries data) ++ (ascii "\nendobj\n" ++ rest) =
        line (Object.dict entries).print ++
            (ascii "stream\n" ++ (data ++ (ascii "\nendstream\nendobj\n" ++ rest))) := by
      simp only [Indirect.body, line, start, ← ending, List.append_assoc]
    have plain := print_plain (.dict entries) regular
    rw [shape, splitLine_line plain, latin1_encode plain, readObject_print regular]
    simp only [Option.bind_eq_bind, Option.bind_some, stripPrefix_append, Object.entries,
      length, List.drop_left, List.take_left]

theorem lookup_writeFile (objects : List Indirect) (root number : Nat)
    (sound : ∀ object ∈ objects, object.Sound) :
    lookup (writeFile (objects.map Indirect.body) root) number = if number = 0 then none else
      objects[number - 1]? := by
  rw [lookup, readDirectory_writeFile, Option.bind_eq_bind, Option.bind_some]
  cases number with
  | zero => rfl
  | succ number =>
    simp only [List.getElem?_cons_succ, List.getElem?_map, Nat.add_sub_cancel, Nat.succ_ne_zero, if_false]
    cases member : objects[number]? with
    | none =>
      have beyond : (layout 1 (ascii "%PDF-1.4\n") (objects.map Indirect.body)).2[number]? = none := by
        rw [List.getElem?_eq_none_iff, layout_length, List.length_map]
        exact List.getElem?_eq_none_iff.mp member
      rw [beyond]
      rfl
    | some object =>
      obtain ⟨before, after, same, offset⟩ :=
        layout_block 1 (ascii "%PDF-1.4\n") (objects.map Indirect.body) number
        object.body (by rw [List.getElem?_map, member]; rfl)
      rw [offset]
      simp only [Option.map_some, Option.join_some, Option.bind_eq_bind, Option.bind_some]
      unfold writeFile
      simp only [same, List.append_assoc]
      rw [List.drop_left, Nat.add_comm 1 number]
      exact readIndirect_block (number + 1) (sound object (List.mem_of_getElem? member)) _

end ManifestCV.Foundation.Pdf
