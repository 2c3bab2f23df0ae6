import Mathlib.Data.Bool.AllAny
import Mathlib.Data.List.Infix

namespace ManifestCV.Foundation

/-- A Python `str` without lone surrogates: its Unicode scalar values in order. -/
abbrev Str := List Char

/-- The characters `str.isspace`, `str.strip` and the `re` class `\s` agree on. -/
def isSpace (c : Char) : Bool :=
  let n := c.toNat
  (9 ≤ n ∧ n ≤ 13) ∨ (28 ≤ n ∧ n ≤ 32) ∨ n = 0x85 ∨ n = 0xA0 ∨ n = 0x1680 ∨
    (0x2000 ≤ n ∧ n ≤ 0x200A) ∨ n = 0x2028 ∨ n = 0x2029 ∨ n = 0x202F ∨ n = 0x205F ∨ n = 0x3000

/-- The line boundaries of `str.splitlines`. -/
def isLineBreak (c : Char) : Bool :=
  let n := c.toNat
  (10 ≤ n ∧ n ≤ 13) ∨ (28 ≤ n ∧ n ≤ 30) ∨ n = 0x85 ∨ n = 0x2028 ∨ n = 0x2029

def lstrip (s : Str) : Str := s.dropWhile isSpace

def rstrip (s : Str) : Str := (s.reverse.dropWhile isSpace).reverse

def strip (s : Str) : Str := rstrip (lstrip s)

def lstripChars (chars s : Str) : Str := s.dropWhile (chars.contains ·)

def occursIn (needle hay : Str) : Bool := hay.tails.any (needle.isPrefixOf ·)

def joinWith (sep : Str) : List Str → Str
  | [] => []
  | [s] => s
  | s :: rest => s ++ sep ++ joinWith sep rest

/-- `str.replace(old, new)` for a single character `old`. -/
def replaceChar (old : Char) (new s : Str) : Str := s.flatMap fun c => if c = old then new else [c]

def splitlinesFrom (current : Str) : Str → List Str
  | [] => if current.isEmpty then [] else [current.reverse]
  | '\r' :: '\n' :: rest => current.reverse :: splitlinesFrom [] rest
  | c :: rest =>
    if isLineBreak c then current.reverse :: splitlinesFrom [] rest
    else splitlinesFrom (c :: current) rest

def splitlines (s : Str) : List Str := splitlinesFrom [] s

def decimal (n : Nat) : Str := Nat.toDigits 10 n

def decimalInt : Int → Str
  | .ofNat n => decimal n
  | .negSucc n => '-' :: decimal (n + 1)

def encode (s : Str) : List UInt8 := s.flatMap String.utf8EncodeChar

@[simp] theorem encode_nil : encode [] = [] := rfl

@[simp] theorem encode_append (s t : Str) : encode (s ++ t) = encode s ++ encode t := by
  simp [encode]

@[simp] theorem encode_cons (c : Char) (s : Str) : encode (c :: s) = String.utf8EncodeChar c ++ encode s := by
  simp [encode]

theorem joinWith_cons (sep first : Str) (rest : List Str) :
    joinWith sep (first :: rest) = first ++ rest.flatMap (sep ++ ·) := by
  induction rest generalizing first with
  | nil => simp [joinWith]
  | cons second rest ih => simp [joinWith, ih second]

example : splitlines "a\r\nb\n\nc\n".toList = ["a".toList, "b".toList, [], "c".toList] := by decide

end ManifestCV.Foundation
