/-!
Contract: the SHA-256 digest of a list of bytes.

Owns:
- padding a message to whole blocks of sixty-four bytes;
- the schedule of sixty-four words of a block;
- the compression rounds and the chaining of eight words;
- the digest as text, sixty-four hexadecimal digits in lower case.
-/

namespace Sitewright.Digest

abbrev Word := UInt32

/-- The eight words carried from block to block. -/
structure Chain where
  a : Word
  b : Word
  c : Word
  d : Word
  e : Word
  f : Word
  g : Word
  h : Word
deriving DecidableEq, Repr

/-- The words that the first block starts from. -/
def Chain.initial : Chain :=
  { a := 0x6a09e667, b := 0xbb67ae85, c := 0x3c6ef372, d := 0xa54ff53a
    e := 0x510e527f, f := 0x9b05688c, g := 0x1f83d9ab, h := 0x5be0cd19 }

/-- The words of two chains added position by position. -/
def Chain.add (left right : Chain) : Chain :=
  { a := left.a + right.a, b := left.b + right.b, c := left.c + right.c, d := left.d + right.d
    e := left.e + right.e, f := left.f + right.f, g := left.g + right.g, h := left.h + right.h }

def Chain.words (chain : Chain) : List Word :=
  [chain.a, chain.b, chain.c, chain.d, chain.e, chain.f, chain.g, chain.h]

/-- One constant for each of the sixty-four rounds. -/
def roundConstants : List Word :=
  [0x428a2f98, 0x71374491, 0xb5c0fbcf, 0xe9b5dba5, 0x3956c25b, 0x59f111f1, 0x923f82a4, 0xab1c5ed5,
   0xd807aa98, 0x12835b01, 0x243185be, 0x550c7dc3, 0x72be5d74, 0x80deb1fe, 0x9bdc06a7, 0xc19bf174,
   0xe49b69c1, 0xefbe4786, 0x0fc19dc6, 0x240ca1cc, 0x2de92c6f, 0x4a7484aa, 0x5cb0a9dc, 0x76f988da,
   0x983e5152, 0xa831c66d, 0xb00327c8, 0xbf597fc7, 0xc6e00bf3, 0xd5a79147, 0x06ca6351, 0x14292967,
   0x27b70a85, 0x2e1b2138, 0x4d2c6dfc, 0x53380d13, 0x650a7354, 0x766a0abb, 0x81c2c92e, 0x92722c85,
   0xa2bfe8a1, 0xa81a664b, 0xc24b8b70, 0xc76c51a3, 0xd192e819, 0xd6990624, 0xf40e3585, 0x106aa070,
   0x19a4c116, 0x1e376c08, 0x2748774c, 0x34b0bcb5, 0x391c0cb3, 0x4ed8aa4a, 0x5b9cca4f, 0x682e6ff3,
   0x748f82ee, 0x78a5636f, 0x84c87814, 0x8cc70208, 0x90befffa, 0xa4506ceb, 0xbef9a3f7, 0xc67178f2]

/-- The word turned right by `count` bits, `0 < count < 32`. -/
def rotateRight (word count : Word) : Word :=
  (word >>> count) ||| (word <<< (32 - count))

def smallSigma0 (word : Word) : Word :=
  rotateRight word 7 ^^^ rotateRight word 18 ^^^ (word >>> 3)

def smallSigma1 (word : Word) : Word :=
  rotateRight word 17 ^^^ rotateRight word 19 ^^^ (word >>> 10)

def bigSigma0 (word : Word) : Word :=
  rotateRight word 2 ^^^ rotateRight word 13 ^^^ rotateRight word 22

def bigSigma1 (word : Word) : Word :=
  rotateRight word 6 ^^^ rotateRight word 11 ^^^ rotateRight word 25

/-- One round, with the constant and the scheduled word of that round. -/
def Chain.round (chain : Chain) (constant word : Word) : Chain :=
  let choice := (chain.e &&& chain.f) ^^^ (~~~chain.e &&& chain.g)
  let majority := (chain.a &&& chain.b) ^^^ (chain.a &&& chain.c) ^^^ (chain.b &&& chain.c)
  let first := chain.h + bigSigma1 chain.e + choice + constant + word
  let second := bigSigma0 chain.a + majority
  { a := first + second, b := chain.a, c := chain.b, d := chain.c
    e := chain.d + first, f := chain.e, g := chain.f, h := chain.g }

/-- The next `count` words of a schedule whose last sixteen words are `window`. -/
def schedule : (count : Nat) → (window : List Word) → List Word
  | 0, _ => []
  | _, [] => []
  | count + 1, oldest :: window =>
      let next := oldest + smallSigma0 (window.getD 0 0) + window.getD 8 0 +
        smallSigma1 (window.getD 13 0)
      oldest :: schedule count (window ++ [next])

/-- Four bytes as one word, the most significant first. -/
def wordOfBytes (bytes : List UInt8) : Word :=
  bytes.foldl (fun word byte => (word <<< 8) ||| byte.toUInt32) 0

/-- One word as four bytes, the most significant first. -/
def bytesOfWord (word : Word) : List UInt8 :=
  [(word >>> 24).toUInt8, (word >>> 16).toUInt8, (word >>> 8).toUInt8, word.toUInt8]

/-- `count` words from the front of `bytes`. -/
def wordsOfBytes : (count : Nat) → List UInt8 → List Word
  | 0, _ => []
  | count + 1, bytes => wordOfBytes (bytes.take 4) :: wordsOfBytes count (bytes.drop 4)

def Chain.compress (chain : Chain) (block : List UInt8) : Chain :=
  let rounds := roundConstants.zip (schedule 64 (wordsOfBytes 16 block))
  chain.add (rounds.foldl (fun running round => running.round round.1 round.2) chain)

/-- The length of a message in bits, as the eight bytes that end its padding. -/
def lengthBytes (size : Nat) : List UInt8 :=
  (List.range 8).reverse.map fun place => UInt8.ofNat ((8 * size) >>> (8 * place))

/-- The message, a single one bit, the fewest zeros that fill whole blocks, and
the length in bits. -/
def padded (message : List UInt8) : List UInt8 :=
  let size := message.length
  message ++ 0x80 :: List.replicate ((119 - size % 64) % 64) 0 ++ lengthBytes size

/-- The chain after `count` blocks from the front of `bytes`. -/
def Chain.absorb (chain : Chain) : (count : Nat) → List UInt8 → Chain
  | 0, _ => chain
  | count + 1, bytes => absorb (chain.compress (bytes.take 64)) count (bytes.drop 64)

def sha256 (message : List UInt8) : List UInt8 :=
  let whole := padded message
  (Chain.initial.absorb (whole.length / 64) whole).words.flatMap bytesOfWord

/-- A byte as two hexadecimal digits in lower case. -/
def hexOfByte (byte : UInt8) : List Char :=
  [Nat.digitChar (byte.toNat / 16), Nat.digitChar (byte.toNat % 16)]

theorem length_padded_mod (message : List UInt8) : (padded message).length % 64 = 0 := by
  simp only [padded, lengthBytes, List.length_append, List.length_cons, List.length_replicate,
    List.length_map, List.length_reverse, List.length_range]
  omega

theorem length_sha256 (message : List UInt8) : (sha256 message).length = 32 := by
  simp [sha256, Chain.words, bytesOfWord]

end Sitewright.Digest
