import Mathlib.Tactic.IntervalCases
import ManifestCV.Foundation.Json

namespace ManifestCV.Foundation

/-- `-?(0|[1-9][0-9]*)`, the integer part of a JSON number. -/
def isIntDigits (token : Str) : Bool :=
  token = ['0'] || (!token.isEmpty && token.all Char.isDigit && token.head? != some '0')

def isIntToken (token : Str) : Bool :=
  match token with
  | '-' :: digits => isIntDigits digits
  | digits => isIntDigits digits

def isFraction (token : Str) : Bool :=
  match token with
  | '.' :: digits => !digits.isEmpty && digits.all Char.isDigit
  | _ => false

def isExponent (token : Str) : Bool :=
  match token with
  | e :: rest =>
    let digits := match rest with
      | '+' :: digits => digits
      | '-' :: digits => digits
      | digits => digits
    (e = 'e' || e = 'E') && !digits.isEmpty && digits.all Char.isDigit
  | [] => false

/-- A JSON number with a fraction or an exponent, which `json.loads` reads with `float`. -/
def isFloatToken (token : Str) : Bool :=
  let whole := token.takeWhile fun c => c ≠ '.' && c ≠ 'e' && c ≠ 'E'
  let rest := token.dropWhile fun c => c ≠ '.' && c ≠ 'e' && c ≠ 'E'
  let fraction := rest.takeWhile fun c => c ≠ 'e' && c ≠ 'E'
  let exponent := rest.dropWhile fun c => c ≠ 'e' && c ≠ 'E'
  isIntToken whole && !rest.isEmpty && (fraction.isEmpty || isFraction fraction) &&
    (exponent.isEmpty || isExponent exponent)

def isNumberChar (c : Char) : Bool := c.isDigit || "+-.eE".toList.contains c

/-- `repr` and `float` on finite floats: what is printed is a JSON number and reads back exactly. -/
structure FloatText where
  repr : Double → Str
  parse : Str → Option Double
  parse_repr : ∀ x, parse (repr x) = some x
  repr_token : ∀ x, isFloatToken (repr x) = true
  repr_chars : ∀ x, ∀ c ∈ repr x, isNumberChar c = true

def hexDigit (n : Nat) : Char := Nat.digitChar (n % 16)

def hex4 (n : Nat) : Str := [hexDigit (n / 4096), hexDigit (n / 256), hexDigit (n / 16), hexDigit n]

def unicodeEscape (n : Nat) : Str := '\\' :: 'u' :: hex4 n

def escapeChar (c : Char) : Str :=
  if c = '"' then ['\\', '"']
  else if c = '\\' then ['\\', '\\']
  else if c = '\n' then ['\\', 'n']
  else if c = '\r' then ['\\', 'r']
  else if c = '\t' then ['\\', 't']
  else if c = '\x0c' then ['\\', 'f']
  else if c = '\x08' then ['\\', 'b']
  else if 0x20 ≤ c.toNat ∧ c.toNat ≤ 0x7e then [c]
  else if c.toNat < 0x10000 then unicodeEscape c.toNat
  else
    let offset := c.toNat - 0x10000
    unicodeEscape (0xd800 + offset / 0x400) ++ unicodeEscape (0xdc00 + offset % 0x400)

def quote (s : Str) : Str := '"' :: s.flatMap escapeChar ++ ['"']

namespace Json

mutual
/-- `json.dumps(value, separators=(",", ":"))`. -/
def write (floats : FloatText) : Json → Str
  | .null => "null".toList
  | .bool true => "true".toList
  | .bool false => "false".toList
  | .int value => decimalInt value
  | .float value => floats.repr value
  | .str value => quote value
  | .arr items => '[' :: joinWith [','] (writeItems floats items) ++ [']']
  | .obj fields => '{' :: joinWith [','] (writeFields floats fields) ++ ['}']

def writeItems (floats : FloatText) : List Json → List Str
  | [] => []
  | item :: items => write floats item :: writeItems floats items

def writeFields (floats : FloatText) : List (Str × Json) → List Str
  | [] => []
  | (key, value) :: fields => (quote key ++ ':' :: write floats value) :: writeFields floats fields
end

end Json

/-- `json.dumps(value, sort_keys=True, separators=(",", ":"))`. -/
def dumps (floats : FloatText) (value : Json) : Str := value.normalize.write floats

def isJsonSpace (c : Char) : Bool := c = ' ' || c = '\t' || c = '\n' || c = '\r'

def skipSpace (s : Str) : Str := s.dropWhile isJsonSpace

def hexValue (c : Char) : Option Nat :=
  if '0' ≤ c ∧ c ≤ '9' then some (c.toNat - 48)
  else if 'a' ≤ c ∧ c ≤ 'f' then some (c.toNat - 87)
  else if 'A' ≤ c ∧ c ≤ 'F' then some (c.toNat - 55)
  else none

def readHex4 : Str → Option (Nat × Str)
  | a :: b :: c :: d :: rest => do
    let a ← hexValue a
    let b ← hexValue b
    let c ← hexValue c
    let d ← hexValue d
    some (4096 * a + 256 * b + 16 * c + d, rest)
  | _ => none

def isHighSurrogate (n : Nat) : Bool := 0xd800 ≤ n && n ≤ 0xdbff

def isLowSurrogate (n : Nat) : Bool := 0xdc00 ≤ n && n ≤ 0xdfff

def scalar (n : Nat) : Option Char := if n.isValidChar then some (Char.ofNat n) else none

/-- What follows `\u`: a second escape is read with the first when the two are a surrogate pair.
    A lone surrogate has no scalar value and is refused. -/
def readUnicode (s : Str) : Option (Char × Str) := do
  let (first, rest) ← readHex4 s
  if isHighSurrogate first then
    match rest with
    | '\\' :: 'u' :: after =>
      let (second, rest) ← readHex4 after
      if isLowSurrogate second then
        let c ← scalar (0x10000 + (first - 0xd800) * 0x400 + (second - 0xdc00))
        some (c, rest)
      else none
    | _ => none
  else
    let c ← scalar first
    some (c, rest)

def simpleEscape (c : Char) : Option Char :=
  if c = '"' then some '"'
  else if c = '\\' then some '\\'
  else if c = '/' then some '/'
  else if c = 'b' then some '\x08'
  else if c = 'f' then some '\x0c'
  else if c = 'n' then some '\n'
  else if c = 'r' then some '\r'
  else if c = 't' then some '\t'
  else none

/-- `scanstring` from just after the opening quote, in strict mode. -/
def readString : Nat → Str → Option (Str × Str)
  | 0, _ => none
  | _ + 1, [] => none
  | fuel + 1, c :: rest =>
    if c = '"' then some ([], rest)
    else if c = '\\' then
      match rest with
      | [] => none
      | 'u' :: after => do
        let (first, rest) ← readUnicode after
        let (more, rest) ← readString fuel rest
        some (first :: more, rest)
      | escape :: after => do
        let first ← simpleEscape escape
        let (more, rest) ← readString fuel after
        some (first :: more, rest)
    else if c.toNat < 0x20 then none
    else do
      let (more, rest) ← readString fuel rest
      some (c :: more, rest)

def readInt (token : Str) : Int :=
  match token with
  | '-' :: digits => -(Nat.ofDigitChars 10 digits 0 : Nat)
  | digits => (Nat.ofDigitChars 10 digits 0 : Nat)

def readNumber (floats : FloatText) (s : Str) : Option (Json × Str) :=
  let token := s.takeWhile isNumberChar
  let rest := s.dropWhile isNumberChar
  if isIntToken token then some (.int (readInt token), rest)
  else if isFloatToken token then (floats.parse token).map fun x => (.float x, rest)
  else none

def dictOf (fields : Dict) : Dict := fields.foldl (fun dict field => dictInsert dict field.1 field.2) []

def readKeyword (word : Str) (value : Json) (s : Str) : Option (Json × Str) :=
  if word.isPrefixOf s then some (value, s.drop word.length) else none

mutual
def readValue (floats : FloatText) : Nat → Str → Option (Json × Str)
  | 0, _ => none
  | fuel + 1, s =>
    match skipSpace s with
    | [] => none
    | c :: rest =>
      if c = '"' then (readString (rest.length + 1) rest).map fun (value, rest) => (.str value, rest)
      else if c = '[' then
        if (skipSpace rest).head? = some ']' then some (.arr [], (skipSpace rest).tail)
        else do
          let (first, rest) ← readValue floats fuel (skipSpace rest)
          let (items, rest) ← readItems floats fuel rest
          some (.arr (first :: items), rest)
      else if c = '{' then
        if (skipSpace rest).head? = some '}' then some (.obj [], (skipSpace rest).tail)
        else do
          let (first, rest) ← readField floats fuel (skipSpace rest)
          let (fields, rest) ← readFields floats fuel rest
          some (.obj (dictOf (first :: fields)), rest)
      else if c = 'n' then readKeyword "ull".toList .null rest
      else if c = 't' then readKeyword "rue".toList (.bool true) rest
      else if c = 'f' then readKeyword "alse".toList (.bool false) rest
      else readNumber floats (c :: rest)

def readItems (floats : FloatText) : Nat → Str → Option (List Json × Str)
  | 0, _ => none
  | fuel + 1, s =>
    match skipSpace s with
    | ']' :: rest => some ([], rest)
    | ',' :: rest => do
      let (item, rest) ← readValue floats fuel rest
      let (items, rest) ← readItems floats fuel rest
      some (item :: items, rest)
    | _ => none

def readField (floats : FloatText) : Nat → Str → Option ((Str × Json) × Str)
  | 0, _ => none
  | fuel + 1, s =>
    match s with
    | '"' :: rest => do
      let (key, rest) ← readString (rest.length + 1) rest
      match skipSpace rest with
      | ':' :: rest =>
        let (value, rest) ← readValue floats fuel rest
        some ((key, value), rest)
      | _ => none
    | _ => none

def readFields (floats : FloatText) : Nat → Str → Option (List (Str × Json) × Str)
  | 0, _ => none
  | fuel + 1, s =>
    match skipSpace s with
    | '}' :: rest => some ([], rest)
    | ',' :: rest => do
      let (field, rest) ← readField floats fuel (skipSpace rest)
      let (fields, rest) ← readFields floats fuel rest
      some (field :: fields, rest)
    | _ => none
end

/-- `json.loads`; every nested call consumes a character, so the text's length is fuel enough. -/
def loads (floats : FloatText) (s : Str) : Option Json :=
  match readValue floats (s.length + 1) s with
  | some (value, rest) => if skipSpace rest = [] then some value else none
  | none => none

end ManifestCV.Foundation
