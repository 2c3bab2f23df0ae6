import ManifestCV.Foundation.JsonRoundTrip

namespace ManifestCV.Foundation.Pdf

/-- The direct objects of a PDF file that a resume needs; a reference is to generation 0. -/
inductive Object where
  | int (n : Nat)
  | name (s : Str)
  | ref (number : Nat)
  | array (items : List Object)
  | dict (entries : List (Str × Object))

abbrev Entries := List (Str × Object)

namespace Object

mutual
def print : Object → Str
  | .int n => decimal n
  | .name s => '/' :: s
  | .ref number => decimal number ++ " 0 R".toList
  | .array items => '[' :: joinWith [' '] (printItems items) ++ [']']
  | .dict entries => "<<".toList ++ printEntries entries ++ " >>".toList

def printItems : List Object → List Str
  | [] => []
  | item :: items => print item :: printItems items

def printEntries : List (Str × Object) → Str
  | [] => []
  | (key, value) :: entries => " /".toList ++ key ++ [' '] ++ print value ++ printEntries entries
end

def entries : Object → Entries
  | .dict entries => entries
  | _ => []

end Object

inductive Token where
  | int (n : Nat)
  | name (s : Str)
  | openArray
  | closeArray
  | openDict
  | closeDict
  | reference
  | unknown (s : Str)

def isDelimiter (c : Char) : Bool := "[]<>/ \n".toList.contains c

def wordToken (word : Str) : Token :=
  match word with
  | ['R'] => .reference
  | '/' :: s => .name s
  | word => if word.all Char.isDigit then .int (Nat.ofDigitChars 10 word 0) else .unknown word

def flush (word : Str) : List Token := if word.isEmpty then [] else [wordToken word]

def lex (word : Str) : Str → List Token
  | [] => flush word
  | '<' :: '<' :: rest => flush word ++ .openDict :: lex [] rest
  | '>' :: '>' :: rest => flush word ++ .closeDict :: lex [] rest
  | '[' :: rest => flush word ++ .openArray :: lex [] rest
  | ']' :: rest => flush word ++ .closeArray :: lex [] rest
  | ' ' :: rest => flush word ++ lex [] rest
  | '/' :: rest => flush word ++ lex ['/'] rest
  | c :: rest => lex (word ++ [c]) rest

structure Frame where
  isDict : Bool
  items : List Object

def pairs : List Object → Option Entries
  | [] => some []
  | .name key :: value :: rest => (pairs rest).map ((key, value) :: ·)
  | _ => none

/-- Objects are read with a stack of open containers; `R` takes its two numbers back off the top. -/
def push (stack : List Frame) (token : Token) : Option (List Frame) :=
  match stack, token with
  | top :: below, .int n => some ({ top with items := .int n :: top.items } :: below)
  | top :: below, .name s => some ({ top with items := .name s :: top.items } :: below)
  | ⟨isDict, .int 0 :: .int number :: items⟩ :: below, .reference =>
      some (⟨isDict, .ref number :: items⟩ :: below)
  | stack, .openArray => some (⟨false, []⟩ :: stack)
  | stack, .openDict => some (⟨true, []⟩ :: stack)
  | ⟨false, items⟩ :: top :: below, .closeArray =>
      some ({ top with items := .array items.reverse :: top.items } :: below)
  | ⟨true, items⟩ :: top :: below, .closeDict =>
    (pairs items.reverse).map fun entries => { top with items := .dict entries :: top.items } :: below
  | _, _ => none

def read (stack : List Frame) : List Token → Option (List Frame)
  | [] => some stack
  | token :: tokens => (push stack token).bind fun stack => read stack tokens

def readObject (text : Str) : Option Object :=
  match read [⟨false, []⟩] (lex [] text) with
  | some [⟨false, [object]⟩] => some object
  | _ => none

mutual
def Object.tokens : Object → List Token
  | .int n => [.int n]
  | .name s => [.name s]
  | .ref number => [.int number, .int 0, .reference]
  | .array items => .openArray :: itemTokens items ++ [.closeArray]
  | .dict entries => .openDict :: entryTokens entries ++ [.closeDict]

def itemTokens : List Object → List Token
  | [] => []
  | item :: items => item.tokens ++ itemTokens items

def entryTokens : List (Str × Object) → List Token
  | [] => []
  | (key, value) :: entries => .name key :: value.tokens ++ entryTokens entries
end

def RegularName (s : Str) : Prop := ∀ c ∈ s, isDelimiter c = false ∧ c.toNat < 128

instance (s : Str) : Decidable (RegularName s) :=
  List.decidableBAll (fun c : Char => isDelimiter c = false ∧ c.toNat < 128) s

mutual
def Object.Regular : Object → Prop
  | .name s => RegularName s
  | .array items => RegularItems items
  | .dict entries => RegularEntries entries
  | _ => True

def RegularItems : List Object → Prop
  | [] => True
  | item :: items => item.Regular ∧ RegularItems items

def RegularEntries : List (Str × Object) → Prop
  | [] => True
  | (key, value) :: entries => RegularName key ∧ value.Regular ∧ RegularEntries entries
end

def Stops (rest : Str) : Prop := rest = [] ∨ rest.head? = some ' ' ∨ rest.head? = some ']' ∨
    rest.take 2 = ['>', '>']

theorem lex_stop {rest : Str} (stops : Stops rest) (word : Str) :
    lex word rest = flush word ++ lex [] rest := by
  cases rest with
  | nil => simp [lex, flush]
  | cons c rest =>
    rcases stops with none | space | close | pair
    · cases none
    · obtain rfl : c = ' ' := by simpa using space
      simp [lex, flush]
    · obtain rfl : c = ']' := by simpa using close
      simp [lex, flush]
    · cases rest with
      | nil => cases pair
      | cons d rest =>
        obtain ⟨rfl, rfl⟩ : c = '>' ∧ d = '>' := by simpa using pair
        simp [lex, flush]

theorem lex_regular {c : Char} (regular : isDelimiter c = false) (word rest : Str) :
    lex word (c :: rest) = lex (word ++ [c]) rest := by
  have other : ∀ d, isDelimiter d = true → c ≠ d := by
    rintro d special rfl
    rw [regular] at special
    cases special
  rw [lex]
  all_goals intros
  all_goals exact absurd ‹c = _› (other _ (by decide))

theorem lex_word {text : Str} (regular : ∀ c ∈ text, isDelimiter c = false) (word rest : Str) :
    lex word (text ++ rest) = lex (word ++ text) rest := by
  induction text generalizing word with
  | nil => simp
  | cons c text ih =>
    rw [List.cons_append, lex_regular (regular c List.mem_cons_self),
      ih (fun d member => regular d (List.mem_cons_of_mem _ member)), List.append_assoc,
        List.singleton_append]

theorem digit_regular {c : Char} (digit : c.isDigit = true) : isDelimiter c = false ∧ c.toNat < 128 := by
  simp only [Char.isDigit, Bool.and_eq_true, decide_eq_true_eq] at digit
  have low : 48 ≤ c.toNat := digit.1
  have high : c.toNat ≤ 57 := digit.2
  constructor
  · have other : ∀ d : Char, d.toNat < 48 ∨ 57 < d.toNat → c ≠ d := by
      rintro d outside rfl
      omega
    simp [isDelimiter, other]
  · omega

theorem lex_number (n : Nat) {rest : Str} (stops : Stops rest) :
    lex [] (decimal n ++ rest) = .int n :: lex [] rest := by
  rw [lex_word fun c member => (digit_regular (decimal_digits n c member)).1, lex_stop stops, List.nil_append]
  have digits : (decimal n).all Char.isDigit = true := List.all_eq_true.mpr (decimal_digits n)
  have value : Nat.ofDigitChars 10 (decimal n) 0 = n := Nat.ofDigitChars_ten_toDigits
  have token : wordToken (decimal n) = .int n := by
    unfold wordToken
    split
    · rename_i same
      rw [same] at digits
      cases digits
    · rename_i same
      rw [same] at digits
      exact absurd digits (by simp)
    · rw [if_pos digits, value]
  simp [flush, decimal_ne_nil, token]

theorem lex_name {s : Str} (regular : RegularName s) {rest : Str} (stops : Stops rest) :
    lex [] ('/' :: s ++ rest) = .name s :: lex [] rest := by
  have start : lex [] ('/' :: s ++ rest) = lex ['/'] (s ++ rest) := by simp [lex, flush]
  rw [start, lex_word fun c member => (regular c member).1, lex_stop stops]
  simp [flush, wordToken]

theorem stops_space (rest : Str) : Stops (' ' :: rest) := .inr (.inl rfl)

theorem stops_close (rest : Str) : Stops (']' :: rest) := .inr (.inr (.inl rfl))

mutual
theorem lex_print : ∀ (o : Object) {rest : Str}, o.Regular → Stops rest →
    lex [] (o.print ++ rest) = o.tokens ++ lex [] rest
  | .int n, _, _, stops => lex_number n stops
  | .name _, _, regular, stops => lex_name regular stops
  | .ref number, rest, _, stops => by
    have text : Object.print (.ref number) ++ rest = decimal number ++ ' ' ::
        (decimal 0 ++ ' ' :: 'R' :: rest) := by
      simp [Object.print, decimal]
    have last : lex [] ('R' :: rest) = .reference :: lex [] rest := by
      rw [lex_regular (by decide), lex_stop stops]
      rfl
    rw [text, lex_number number (stops_space _), lex, flush, List.isEmpty_nil, if_pos rfl, List.nil_append,
      lex_number 0 (stops_space _), lex, flush, List.isEmpty_nil, if_pos rfl, List.nil_append, last]
    rfl
  | .array items, rest, regular, _ => by
    have text : Object.print (.array items) ++ rest =
        '[' :: (joinWith [' '] (Object.printItems items) ++ ']' :: rest) := by
      simp [Object.print]
    rw [text, lex, flush, List.isEmpty_nil, if_pos rfl, List.nil_append]
    rw [lex_printItems items regular (stops_close rest)]
    simp [Object.tokens, lex, flush]
  | .dict entries, rest, regular, _ => by
    have text : Object.print (.dict entries) ++ rest =
        '<' :: '<' :: (Object.printEntries entries ++ ' ' :: '>' :: '>' :: rest) := by
      simp [Object.print]
    rw [text, lex, flush, List.isEmpty_nil, if_pos rfl, List.nil_append]
    rw [lex_printEntries entries regular (stops_space _)]
    simp [Object.tokens, lex, flush]

theorem lex_printItems : ∀ (items : List Object) {rest : Str}, RegularItems items → Stops rest →
    lex [] (joinWith [' '] (Object.printItems items) ++ rest) = itemTokens items ++ lex [] rest
  | [], _, _, _ => rfl
  | [item], rest, regular, stops => by
    have single := lex_print item regular.1 stops
    simpa [Object.printItems, joinWith, itemTokens] using single
  | item :: second :: items, rest, regular, stops => by
    have text : joinWith [' '] (Object.printItems (item :: second :: items)) ++ rest =
        item.print ++ ' ' :: (joinWith [' '] (Object.printItems (second :: items)) ++ rest) := by
      simp [Object.printItems, joinWith]
    rw [text, lex_print item regular.1 (stops_space _), lex, flush, List.isEmpty_nil, if_pos rfl,
      List.nil_append, lex_printItems (second :: items) regular.2 stops]
    simp [itemTokens]

theorem lex_printEntries : ∀ (entries : List (Str × Object)) {rest : Str}, RegularEntries entries →
    Stops rest →
    lex [] (Object.printEntries entries ++ rest) = entryTokens entries ++ lex [] rest
  | [], _, _, _ => rfl
  | (key, value) :: entries, rest, regular, stops => by
    have text : Object.printEntries ((key, value) :: entries) ++ rest =
        ' ' :: ('/' :: key ++ ' ' :: (value.print ++ (Object.printEntries entries ++ rest))) := by
      simp [Object.printEntries]
    have after : Stops (Object.printEntries entries ++ rest) := by
      cases entries with
      | nil => exact stops
      | cons entry entries => exact .inr (.inl rfl)
    rw [text, lex, flush, List.isEmpty_nil, if_pos rfl, List.nil_append, lex_name regular.1 (stops_space _),
      lex, flush, List.isEmpty_nil, if_pos rfl, List.nil_append, lex_print value regular.2.1 after,
      lex_printEntries entries regular.2.2 stops]
    simp [entryTokens]
end

def flatEntries (entries : Entries) : List Object := entries.flatMap fun entry => [.name entry.1, entry.2]

theorem pairs_flatEntries (entries : Entries) : pairs (flatEntries entries) = some entries := by
  induction entries with
  | nil => rfl
  | cons entry entries ih =>
    have unfolded : flatEntries (entry :: entries) = .name entry.1 :: entry.2 :: flatEntries entries := rfl
    rw [unfolded, pairs, ih]
    rfl

mutual
theorem read_tokens :
    ∀ (o : Object) (isDict : Bool) (items : List Object) (below : List Frame) (rest : List Token),
    read (⟨isDict, items⟩ :: below) (o.tokens ++ rest) = read (⟨isDict, o :: items⟩ :: below) rest
  | .int _, _, _, _, _ => rfl
  | .name _, _, _, _, _ => rfl
  | .ref _, _, _, _, _ => rfl
  | .array inner, isDict, items, below, rest => by
    have filled := read_itemTokens inner false [] (⟨isDict, items⟩ :: below) (.closeArray :: rest)
    rw [List.append_nil] at filled
    have shape : (Object.array inner).tokens ++ rest =
        .openArray :: (itemTokens inner ++ .closeArray :: rest) := by
      simp [Object.tokens]
    rw [shape, read, push, Option.bind_some, filled, read, push, Option.bind_some, List.reverse_reverse]
  | .dict entries, isDict, items, below, rest => by
    have filled := read_entryTokens entries true [] (⟨isDict, items⟩ :: below) (.closeDict :: rest)
    rw [List.append_nil] at filled
    have shape : (Object.dict entries).tokens ++ rest =
        .openDict :: (entryTokens entries ++ .closeDict :: rest) := by
      simp [Object.tokens]
    rw [shape, read, push, Option.bind_some, filled, read, push, List.reverse_reverse, pairs_flatEntries]
    rfl

theorem read_itemTokens : ∀ (inner : List Object) (isDict : Bool) (items : List Object) (below : List Frame)
    (rest : List Token),
    read (⟨isDict, items⟩ :: below) (itemTokens inner ++ rest) =
      read (⟨isDict, inner.reverse ++ items⟩ :: below) rest
  | [], _, _, _, _ => rfl
  | item :: inner, isDict, items, below, rest => by
    rw [itemTokens, List.append_assoc, read_tokens item, read_itemTokens inner]
    simp

theorem read_entryTokens :
    ∀ (entries : List (Str × Object)) (isDict : Bool) (items : List Object) (below : List Frame)
    (rest : List Token),
    read (⟨isDict, items⟩ :: below) (entryTokens entries ++ rest) =
      read (⟨isDict, (flatEntries entries).reverse ++ items⟩ :: below) rest
  | [], _, _, _, _ => rfl
  | (key, value) :: entries, isDict, items, below, rest => by
    have shape : entryTokens ((key, value) :: entries) ++ rest =
        .name key :: (value.tokens ++ (entryTokens entries ++ rest)) := by
      simp [entryTokens]
    rw [shape, read, push, Option.bind_some, read_tokens value, read_entryTokens entries]
    simp [flatEntries]
end

theorem readObject_print {o : Object} (regular : o.Regular) : readObject o.print = some o := by
  have lexed : lex [] (o.print ++ []) = o.tokens ++ lex [] [] := lex_print o regular (.inl rfl)
  have done := read_tokens o false [] [] []
  simp only [List.append_nil, lex, flush, List.isEmpty_nil, if_true] at lexed done
  rw [readObject, lexed, done]
  rfl

def Plain (s : Str) : Prop := ∀ c ∈ s, c.toNat < 128 ∧ c ≠ '\n'

instance (s : Str) : Decidable (Plain s) := List.decidableBAll (fun c : Char => c.toNat < 128 ∧ c ≠ '\n') s

theorem Plain.append {s t : Str} (first : Plain s) (second : Plain t) : Plain (s ++ t) := by
  intro c member
  rcases List.mem_append.mp member with member | member
  · exact first c member
  · exact second c member

theorem regular_plain {s : Str} (regular : RegularName s) : Plain s := by
  intro c member
  obtain ⟨plain, ascii⟩ := regular c member
  refine ⟨ascii, ?_⟩
  rintro rfl
  exact absurd plain (by decide)

theorem decimal_plain (n : Nat) : Plain (decimal n) :=
  regular_plain fun c member => digit_regular (decimal_digits n c member)

theorem joinWith_plain {sep : Str} {texts : List Str} (between : Plain sep)
    (each : ∀ text ∈ texts, Plain text) :
    Plain (joinWith sep texts) := by
  cases texts with
  | nil => exact fun _ member => nomatch member
  | cons text texts =>
    rw [joinWith_cons]
    refine (each text List.mem_cons_self).append ?_
    intro c member
    obtain ⟨other, inside, member⟩ := List.mem_flatMap.mp member
    exact between.append (each other (List.mem_cons_of_mem _ inside)) c member

mutual
theorem print_plain : ∀ (o : Object), o.Regular → Plain o.print
  | .int n, _ => decimal_plain n
  | .name s, regular => Plain.append (s := ['/']) (by decide) (regular_plain regular)
  | .ref number, _ => (decimal_plain number).append (by decide)
  | .array items, regular =>
    Plain.append (s := ['[']) (by decide)
      ((joinWith_plain (by decide) (printItems_plain items regular)).append (by decide))
  | .dict entries, regular => (Plain.append (by decide) (printEntries_plain entries regular)).append
      (by decide)

theorem printItems_plain : ∀ (items : List Object), RegularItems items → ∀ text ∈ Object.printItems items,
    Plain text
  | [], _ => fun _ member => nomatch member
  | item :: items, regular => fun text member => by
    rcases List.mem_cons.mp member with rfl | member
    · exact print_plain item regular.1
    · exact printItems_plain items regular.2 text member

theorem printEntries_plain : ∀ (entries : List (Str × Object)), RegularEntries entries →
    Plain (Object.printEntries entries)
  | [], _ => fun _ member => nomatch member
  | (_, value) :: entries, regular =>
    ((((Plain.append (by decide) (regular_plain regular.1)).append (by decide)).append
      (print_plain value regular.2.1)).append (printEntries_plain entries regular.2.2))
end

end ManifestCV.Foundation.Pdf
