/-!
# Digests

The SHA-256 digest of a text, which names a kept program by its content. The text is taken as
UTF-8, padded to whole blocks of sixteen words, and folded block by block into eight words.
-/

namespace ProofScript.Digest

/-- The eight words of a digest. -/
structure Words where
  /-- The first word. -/
  a : UInt32
  /-- The second word. -/
  b : UInt32
  /-- The third word. -/
  c : UInt32
  /-- The fourth word. -/
  d : UInt32
  /-- The fifth word. -/
  e : UInt32
  /-- The sixth word. -/
  f : UInt32
  /-- The seventh word. -/
  g : UInt32
  /-- The eighth word. -/
  h : UInt32
  deriving DecidableEq, Repr

/-- The words of a digest, in order. -/
def Words.toList (s : Words) : List UInt32 := [s.a, s.b, s.c, s.d, s.e, s.f, s.g, s.h]

/-- Adds the words of two digests. -/
def Words.add (s t : Words) : Words :=
  ⟨s.a + t.a, s.b + t.b, s.c + t.c, s.d + t.d, s.e + t.e, s.f + t.f, s.g + t.g, s.h + t.h⟩

/-- The words before the first block: the fractional parts of the square roots of the first eight
primes. -/
def initial : Words :=
  ⟨0x6a09e667, 0xbb67ae85, 0x3c6ef372, 0xa54ff53a, 0x510e527f, 0x9b05688c, 0x1f83d9ab, 0x5be0cd19⟩

/-- The constants of the rounds: the fractional parts of the cube roots of the first 64 primes. -/
def roundConstants : List UInt32 :=
  [0x428a2f98, 0x71374491, 0xb5c0fbcf, 0xe9b5dba5, 0x3956c25b, 0x59f111f1, 0x923f82a4, 0xab1c5ed5,
    0xd807aa98, 0x12835b01, 0x243185be, 0x550c7dc3, 0x72be5d74, 0x80deb1fe, 0x9bdc06a7, 0xc19bf174,
    0xe49b69c1, 0xefbe4786, 0x0fc19dc6, 0x240ca1cc, 0x2de92c6f, 0x4a7484aa, 0x5cb0a9dc, 0x76f988da,
    0x983e5152, 0xa831c66d, 0xb00327c8, 0xbf597fc7, 0xc6e00bf3, 0xd5a79147, 0x06ca6351, 0x14292967,
    0x27b70a85, 0x2e1b2138, 0x4d2c6dfc, 0x53380d13, 0x650a7354, 0x766a0abb, 0x81c2c92e, 0x92722c85,
    0xa2bfe8a1, 0xa81a664b, 0xc24b8b70, 0xc76c51a3, 0xd192e819, 0xd6990624, 0xf40e3585, 0x106aa070,
    0x19a4c116, 0x1e376c08, 0x2748774c, 0x34b0bcb5, 0x391c0cb3, 0x4ed8aa4a, 0x5b9cca4f, 0x682e6ff3,
    0x748f82ee, 0x78a5636f, 0x84c87814, 0x8cc70208, 0x90befffa, 0xa4506ceb, 0xbef9a3f7, 0xc67178f2]

/-- Rotates a word to the right. -/
def rotate (x n : UInt32) : UInt32 := (x >>> n) ||| (x <<< (32 - n))

/-! ## Blocks -/

/-- The eight bytes of a number below `2 ^ 64`, most significant byte first. -/
def lengthBytes (n : Nat) : List UInt8 :=
  (List.range 8).map fun i => (n >>> (8 * (7 - i))).toUInt8

/-- The bytes of a message with the bit, the zeros and the length that fill its last block. -/
def padded (bytes : List UInt8) : List UInt8 :=
  let zeros := (119 - bytes.length % 64) % 64
  bytes ++ 0x80 :: List.replicate zeros 0 ++ lengthBytes (8 * bytes.length)

/-- Reads bytes as words, most significant byte first. -/
def words : List UInt8 → List UInt32
  | p :: q :: r :: s :: bytes =>
    (p.toUInt32 <<< 24 ||| q.toUInt32 <<< 16 ||| r.toUInt32 <<< 8 ||| s.toUInt32) :: words bytes
  | _ => []

/-- The blocks of sixteen words that a list of words consists of. -/
def blocks (ws : List UInt32) : List (List UInt32) :=
  (List.range (ws.length / 16)).map fun i => (ws.drop (16 * i)).take 16

/-! ## Rounds -/

/-- The word that follows in the schedule of a block, from the words so far, last one first. -/
def nextWord (back : List UInt32) : UInt32 :=
  let at? (i : Nat) := back[i]?.getD 0
  let x := at? 14
  let y := at? 1
  (rotate x 7 ^^^ rotate x 18 ^^^ x >>> 3) + (rotate y 17 ^^^ rotate y 19 ^^^ y >>> 10) + at? 6
    + at? 15

/-- The schedule of a block: its sixteen words and the `n` that follow from them. -/
def schedule (block : List UInt32) (n : Nat) : List UInt32 :=
  (n.fold (fun _ _ back => nextWord back :: back) block.reverse).reverse

/-- One round, with the constant `k` and the word `w` of the schedule. -/
def round (s : Words) (k w : UInt32) : Words :=
  let choice := (s.e &&& s.f) ^^^ (~~~s.e &&& s.g)
  let majority := (s.a &&& s.b) ^^^ (s.a &&& s.c) ^^^ (s.b &&& s.c)
  let t := s.h + (rotate s.e 6 ^^^ rotate s.e 11 ^^^ rotate s.e 25) + choice + k + w
  let u := (rotate s.a 2 ^^^ rotate s.a 13 ^^^ rotate s.a 22) + majority
  ⟨t + u, s.a, s.b, s.c, s.d + t, s.e, s.f, s.g⟩

/-- Folds a block into the words so far. -/
def absorb (s : Words) (block : List UInt32) : Words :=
  s.add ((roundConstants.zip (schedule block 48)).foldl (fun s kw => round s kw.1 kw.2) s)

/-- The SHA-256 digest of a list of bytes. -/
def sha256 (bytes : List UInt8) : Words := (blocks (words (padded bytes))).foldl absorb initial

/-! ## Text -/

/-- A hexadecimal digit. -/
def hexDigit (n : UInt32) : Char :=
  Char.ofNat (if n < 10 then '0'.toNat + n.toNat else 'a'.toNat + (n.toNat - 10))

/-- The eight hexadecimal digits of a word. -/
def hexWord (w : UInt32) : List Char :=
  ([28, 24, 20, 16, 12, 8, 4, 0] : List UInt32).map fun shift => hexDigit (w >>> shift &&& 15)

/-- The hexadecimal text of the digest of some bytes. -/
def ofBytes (bytes : List UInt8) : String :=
  String.ofList ((sha256 bytes).toList.flatMap hexWord)

/-- The hexadecimal text of the digest of a text. -/
def ofText (text : String) : String := ofBytes text.toUTF8.toList

end ProofScript.Digest
