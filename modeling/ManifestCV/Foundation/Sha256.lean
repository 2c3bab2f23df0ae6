import ManifestCV.Foundation.Text

namespace ManifestCV.Foundation.Sha256

def roundConstants : List UInt32 := [
  0x428a2f98, 0x71374491, 0xb5c0fbcf, 0xe9b5dba5, 0x3956c25b, 0x59f111f1, 0x923f82a4, 0xab1c5ed5,
  0xd807aa98, 0x12835b01, 0x243185be, 0x550c7dc3, 0x72be5d74, 0x80deb1fe, 0x9bdc06a7, 0xc19bf174,
  0xe49b69c1, 0xefbe4786, 0x0fc19dc6, 0x240ca1cc, 0x2de92c6f, 0x4a7484aa, 0x5cb0a9dc, 0x76f988da,
  0x983e5152, 0xa831c66d, 0xb00327c8, 0xbf597fc7, 0xc6e00bf3, 0xd5a79147, 0x06ca6351, 0x14292967,
  0x27b70a85, 0x2e1b2138, 0x4d2c6dfc, 0x53380d13, 0x650a7354, 0x766a0abb, 0x81c2c92e, 0x92722c85,
  0xa2bfe8a1, 0xa81a664b, 0xc24b8b70, 0xc76c51a3, 0xd192e819, 0xd6990624, 0xf40e3585, 0x106aa070,
  0x19a4c116, 0x1e376c08, 0x2748774c, 0x34b0bcb5, 0x391c0cb3, 0x4ed8aa4a, 0x5b9cca4f, 0x682e6ff3,
  0x748f82ee, 0x78a5636f, 0x84c87814, 0x8cc70208, 0x90befffa, 0xa4506ceb, 0xbef9a3f7, 0xc67178f2]

structure State where
  a : UInt32
  b : UInt32
  c : UInt32
  d : UInt32
  e : UInt32
  f : UInt32
  g : UInt32
  h : UInt32

def initial : State :=
  ⟨0x6a09e667, 0xbb67ae85, 0x3c6ef372, 0xa54ff53a, 0x510e527f, 0x9b05688c, 0x1f83d9ab, 0x5be0cd19⟩

def rotr (n x : UInt32) : UInt32 := (x >>> n) ||| (x <<< (32 - n))

def round (s : State) (constant word : UInt32) : State :=
  let s1 := rotr 6 s.e ^^^ rotr 11 s.e ^^^ rotr 25 s.e
  let choice := (s.e &&& s.f) ^^^ (~~~s.e &&& s.g)
  let temp1 := s.h + s1 + choice + constant + word
  let s0 := rotr 2 s.a ^^^ rotr 13 s.a ^^^ rotr 22 s.a
  let majority := (s.a &&& s.b) ^^^ (s.a &&& s.c) ^^^ (s.b &&& s.c)
  ⟨temp1 + (s0 + majority), s.a, s.b, s.c, s.d + temp1, s.e, s.f, s.g⟩

def extend : Nat → List UInt32 → List UInt32
  | 0, words => words
  | count + 1, words =>
    let w2 := words.getD 1 0
    let w15 := words.getD 14 0
    let s1 := rotr 17 w2 ^^^ rotr 19 w2 ^^^ (w2 >>> 10)
    let s0 := rotr 7 w15 ^^^ rotr 18 w15 ^^^ (w15 >>> 3)
    extend count ((words.getD 15 0 + s0 + words.getD 6 0 + s1) :: words)

def wordsOf : List UInt8 → List UInt32
  | a :: b :: c :: d :: rest =>
    ((a.toUInt32 <<< 24) ||| (b.toUInt32 <<< 16) ||| (c.toUInt32 <<< 8) ||| d.toUInt32) :: wordsOf rest
  | _ => []

def compress (s : State) (block : List UInt32) : State :=
  let t := (roundConstants.zip (extend 48 block.reverse).reverse).foldl (fun s item =>
    round s item.1 item.2) s
  ⟨s.a + t.a, s.b + t.b, s.c + t.c, s.d + t.d, s.e + t.e, s.f + t.f, s.g + t.g, s.h + t.h⟩

def bigEndian (width n : Nat) : List UInt8 :=
  match width with
  | 0 => []
  | width + 1 => bigEndian width (n / 256) ++ [UInt8.ofNat n]

def pad (message : List UInt8) : List UInt8 :=
  message ++ [0x80] ++ List.replicate ((119 - message.length % 64) % 64) 0 ++ bigEndian 8 (8 * message.length)

def compressAll (s : State) : Nat → List UInt32 → State
  | 0, _ => s
  | blocks + 1, words => compressAll (compress s (words.take 16)) blocks (words.drop 16)

def hexByte (b : UInt8) : Str := [Nat.digitChar (b.toNat / 16), Nat.digitChar (b.toNat % 16)]

end ManifestCV.Foundation.Sha256

namespace ManifestCV.Foundation

def sha256 (message : List UInt8) : Str :=
  let words := Sha256.wordsOf (Sha256.pad message)
  let s := Sha256.compressAll Sha256.initial (words.length / 16) words
  [s.a, s.b, s.c, s.d, s.e, s.f, s.g, s.h].flatMap fun word =>
    (Sha256.bigEndian 4 word.toNat).flatMap Sha256.hexByte

set_option maxRecDepth 20000 in
example : sha256 (encode "abc".toList) =
    "ba7816bf8f01cfea414140de5dae2223b00361a396177a9cb410ff61f20015ad".toList := by decide

end ManifestCV.Foundation
