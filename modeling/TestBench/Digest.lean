import TestBench.Text.Utf8
/-
  The MD5 digest of bytes.

  1. The message is filled up with one set bit, clear bits and its length in bits to whole blocks of
     64 bytes, each read as sixteen words with the least significant byte first (`blocks`).
  2. A block changes four words in 64 steps.  A step mixes three of them by a function that changes
     every sixteen steps, adds a word of the block and a constant, turns the sum left and adds it to
     the next word (`step`).
  3. The digest is the four words after the last block, written byte by byte.
-/
namespace TestBench.Digest

open TestBench.Text.Utf8 (Bytes byte)

/-! ## The message as words -/

/-- A number in so many bytes, the least significant one first. -/
def littleEndian : Nat → Nat → Bytes
  | 0, _ => []
  | width + 1, n => byte (n % 256) :: littleEndian width (n / 256)

/-- The message with what fills its last block. -/
def padded (message : Bytes) : Bytes :=
  let zeros := (64 - (message.length + 9) % 64) % 64
  message ++ 0x80 :: List.replicate zeros 0 ++ littleEndian 8 (8 * message.length)

/-- Bytes as words of four. -/
def wordsOf : Bytes → List UInt32
  | a :: b :: c :: d :: rest =>
    (a.toUInt32 ||| b.toUInt32 <<< 8 ||| c.toUInt32 <<< 16 ||| d.toUInt32 <<< 24) :: wordsOf rest
  | _ => []

/-- Words in groups of sixteen. -/
def groups : Nat → List UInt32 → List (List UInt32)
  | 0, _ => []
  | n + 1, words => words.take 16 :: groups n (words.drop 16)

def blocks (message : Bytes) : List (List UInt32) :=
  let words := wordsOf (padded message)
  groups (words.length / 16) words

/-! ## Steps -/

/-- The four words that the digest is made of. -/
structure Words where
  a : UInt32
  b : UInt32
  c : UInt32
  d : UInt32
  deriving Repr, DecidableEq, Inhabited

def start : Words := ⟨0x67452301, 0xefcdab89, 0x98badcfe, 0x10325476⟩

/-- The constants of the steps: the first 32 bits behind the point of the sines of 1, 2, 3 and so
    on, without their signs. -/
def sines : List UInt32 :=
  [0xd76aa478, 0xe8c7b756, 0x242070db, 0xc1bdceee, 0xf57c0faf, 0x4787c62a,
   0xa8304613, 0xfd469501, 0x698098d8, 0x8b44f7af, 0xffff5bb1, 0x895cd7be,
   0x6b901122, 0xfd987193, 0xa679438e, 0x49b40821, 0xf61e2562, 0xc040b340,
   0x265e5a51, 0xe9b6c7aa, 0xd62f105d, 0x02441453, 0xd8a1e681, 0xe7d3fbc8,
   0x21e1cde6, 0xc33707d6, 0xf4d50d87, 0x455a14ed, 0xa9e3e905, 0xfcefa3f8,
   0x676f02d9, 0x8d2a4c8a, 0xfffa3942, 0x8771f681, 0x6d9d6122, 0xfde5380c,
   0xa4beea44, 0x4bdecfa9, 0xf6bb4b60, 0xbebfbc70, 0x289b7ec6, 0xeaa127fa,
   0xd4ef3085, 0x04881d05, 0xd9d4d039, 0xe6db99e5, 0x1fa27cf8, 0xc4ac5665,
   0xf4292244, 0x432aff97, 0xab9423a7, 0xfc93a039, 0x655b59c3, 0x8f0ccc92,
   0xffeff47d, 0x85845dd1, 0x6fa87e4f, 0xfe2ce6e0, 0xa3014314, 0x4e0811a1,
   0xf7537e82, 0xbd3af235, 0x2ad7d2bb, 0xeb86d391]

/-- By how much each step of a round turns. -/
def turns : List (List UInt32) := [[7, 12, 17, 22], [5, 9, 14, 20], [4, 11, 16, 23], [6, 10, 15, 21]]

def turnLeft (x amount : UInt32) : UInt32 := x <<< amount ||| x >>> (32 - amount)

/-- The function of a round. -/
def mix (round : Nat) (b c d : UInt32) : UInt32 :=
  match round with
  | 0 => (b &&& c) ||| (~~~b &&& d)
  | 1 => (d &&& b) ||| (~~~d &&& c)
  | 2 => b ^^^ c ^^^ d
  | _ => c ^^^ (b ||| ~~~d)

/-- Which word of the block a step adds. -/
def wordIndex (i : Nat) : Nat :=
  match i / 16 with
  | 0 => i % 16
  | 1 => (5 * i + 1) % 16
  | 2 => (3 * i + 5) % 16
  | _ => 7 * i % 16

def step (block : List UInt32) (w : Words) (i : Nat) (sine : UInt32) : Words :=
  let sum := w.a + mix (i / 16) w.b w.c w.d + sine + (block[wordIndex i]?).getD 0
  let turn := (((turns[i / 16]?).getD [])[i % 4]?).getD 0
  ⟨w.d, w.b + turnLeft sum turn, w.b, w.c⟩

def steps (block : List UInt32) : Nat → List UInt32 → Words → Words
  | _, [], w => w
  | i, sine :: rest, w => steps block (i + 1) rest (step block w i sine)

/-- What a block makes of the words. -/
def addBlock (w : Words) (block : List UInt32) : Words :=
  let v := steps block 0 sines w
  ⟨w.a + v.a, w.b + v.b, w.c + v.c, w.d + v.d⟩

/-! ## The digest -/

def wordBytes (w : UInt32) : Bytes := littleEndian 4 w.toNat

def md5 (message : Bytes) : Bytes :=
  let w := (blocks message).foldl addBlock start
  [w.a, w.b, w.c, w.d].flatMap wordBytes

/-- A byte as two hexadecimal digits. -/
def hexByte (b : UInt8) : List Char :=
  [Nat.digitChar (b.toNat / 16), Nat.digitChar (b.toNat % 16)]

/-- The digest as text. -/
def md5Text (message : Bytes) : String := String.ofList ((md5 message).flatMap hexByte)

end TestBench.Digest
