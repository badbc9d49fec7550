import RowStore.Text.Utf8

/-!
# The digest XXH3 of 64 bits

A digest of a byte sequence to 64 bits, without a seed.  Short inputs are mixed in one step that
depends on their length class, inputs of up to 240 bytes by folding products of 16-byte blocks, and
longer ones in eight lanes that take stripes of 64 bytes.  Every step mixes in a part of a fixed
table of 192 bytes.

All arithmetic is modulo 2^64, and words are read with the least significant byte first.
-/

namespace RowStore.Xxh3

/-! ## Constants -/

def prime32A : UInt64 := 0x9E3779B1
def prime32B : UInt64 := 0x85EBCA77
def prime32C : UInt64 := 0xC2B2AE3D
def prime64A : UInt64 := 0x9E3779B185EBCA87
def prime64B : UInt64 := 0xC2B2AE3D27D4EB4F
def prime64C : UInt64 := 0x165667B19E3779F9
def prime64D : UInt64 := 0x85EBCA77C2B2AE63
def prime64E : UInt64 := 0x27D4EB2F165667C5
def primeMixA : UInt64 := 0x165667919E3779F9
def primeMixB : UInt64 := 0x9FB21C651E98DF25

/-- The table that is mixed in, in words. -/
def tableWords : List UInt64 :=
  [0xbe4ba423396cfeb8, 0x1cad21f72c81017c, 0xdb979083e96dd4de, 0x1f67b3b7a4a44072,
   0x78e5c0cc4ee679cb, 0x2172ffcc7dd05a82, 0x8e2443f7744608b8, 0x4c263a81e69035e0,
   0xcb00c391bb52283c, 0xa32e531b8b65d088, 0x4ef90da297486471, 0xd8acdea946ef1938,
   0x3f349ce33f76faa8, 0x1d4f0bc7c7bbdcf9, 0x3159b4cd4be0518a, 0x647378d9c97e9fc8,
   0xc3ebd33483acc5ea, 0xeb6313faffa081c5, 0x49daf0b751dd0d17, 0x9e68d429265516d3,
   0xfca1477d58be162b, 0xce31d07ad1b8f88f, 0x280416958f3acb45, 0x7e404bbbcafbd7af]

/-- The bytes of a word, the least significant first. -/
def wordBytes (w : UInt64) : Bytes :=
  (List.range 8).map fun i => (w >>> (8 * i).toUInt64).toUInt8

/-- The table that is mixed in, in bytes. -/
def table : Bytes := tableWords.flatMap wordBytes

/-! ## Words -/

/-- The number formed by bytes, the least significant first. -/
def number (bs : Bytes) : Nat := bs.foldr (fun b n => b.toNat + 256 * n) 0

/-- The 64-bit word at an offset. -/
def word64 (bs : Bytes) (offset : Nat) : UInt64 :=
  UInt64.ofNat (number ((bs.drop offset).take 8))

/-- The 32-bit word at an offset. -/
def word32 (bs : Bytes) (offset : Nat) : UInt64 :=
  UInt64.ofNat (number ((bs.drop offset).take 4))

/-- A word with its bytes in the other order. -/
def reverseBytes (w : UInt64) : UInt64 := UInt64.ofNat (number (wordBytes w).reverse)

/-- A word rotated to the left. -/
def rotate (w : UInt64) (count : UInt64) : UInt64 := (w <<< count) ||| (w >>> (64 - count))

/-- The two halves of the product of two words, folded into one. -/
def foldProduct (a b : UInt64) : UInt64 :=
  let product := a.toNat * b.toNat
  UInt64.ofNat product ^^^ UInt64.ofNat (product / 18446744073709551616)

/-! ## Final mixing -/

/-- Spreads the last differences of the shortest inputs. -/
def spreadShort (h : UInt64) : UInt64 :=
  let h := (h ^^^ (h >>> 33)) * prime64B
  let h := (h ^^^ (h >>> 29)) * prime64C
  h ^^^ (h >>> 32)

/-- Spreads the last differences of the longer inputs. -/
def spread (h : UInt64) : UInt64 :=
  let h := (h ^^^ (h >>> 37)) * primeMixA
  h ^^^ (h >>> 32)

/-- Spreads the last differences of inputs of four to eight bytes. -/
def spreadRotated (h length : UInt64) : UInt64 :=
  let h := h ^^^ rotate h 49 ^^^ rotate h 24
  let h := h * primeMixB
  let h := (h ^^^ ((h >>> 35) + length)) * primeMixB
  h ^^^ (h >>> 28)

/-! ## Up to 16 bytes -/

/-- The digest of no bytes. -/
def ofEmpty : UInt64 := spreadShort (word64 table 56 ^^^ word64 table 64)

/-- The digest of one to three bytes. -/
def ofUpTo3 (bs : Bytes) : UInt64 :=
  let length := bs.length
  let byte (i : Nat) : UInt64 := (bs[i]?.getD 0).toUInt64
  let combined := (byte 0 <<< 16) ||| (byte (length / 2) <<< 24) ||| byte (length - 1)
    ||| (UInt64.ofNat length <<< 8)
  spreadShort (combined ^^^ (word32 table 0 ^^^ word32 table 4))

/-- The digest of four to eight bytes. -/
def ofUpTo8 (bs : Bytes) : UInt64 :=
  let length := bs.length
  let joined := word32 bs (length - 4) + (word32 bs 0 <<< 32)
  spreadRotated (joined ^^^ (word64 table 8 ^^^ word64 table 16)) (UInt64.ofNat length)

/-- The digest of nine to sixteen bytes. -/
def ofUpTo16 (bs : Bytes) : UInt64 :=
  let length := bs.length
  let low := word64 bs 0 ^^^ (word64 table 24 ^^^ word64 table 32)
  let high := word64 bs (length - 8) ^^^ (word64 table 40 ^^^ word64 table 48)
  spread (UInt64.ofNat length + reverseBytes low + high + foldProduct low high)

/-! ## Up to 240 bytes -/

/-- The contribution of the block of 16 bytes at an offset, with the table at another. -/
def block (bs : Bytes) (offset tableOffset : Nat) : UInt64 :=
  foldProduct (word64 bs offset ^^^ word64 table tableOffset)
    (word64 bs (offset + 8) ^^^ word64 table (tableOffset + 8))

/-- The digest of 17 to 128 bytes: blocks from both ends towards the middle. -/
def ofUpTo128 (bs : Bytes) : UInt64 :=
  let length := bs.length
  let pairs := (length - 1) / 32 + 1
  let ends (i : Nat) : UInt64 :=
    block bs (16 * i) (32 * i) + block bs (length - 16 * (i + 1)) (32 * i + 16)
  spread ((List.range pairs).foldl (fun acc i => acc + ends i) (UInt64.ofNat length * prime64A))

/-- The digest of 129 to 240 bytes: blocks in order, of which the first eight are spread before the
others are added. -/
def ofUpTo240 (bs : Bytes) : UInt64 :=
  let length := bs.length
  let first := (List.range 8).foldl (fun acc i => acc + block bs (16 * i) (16 * i))
    (UInt64.ofNat length * prime64A)
  let others := (List.range (length / 16 - 8)).foldl
    (fun acc i => acc + block bs (16 * (i + 8)) (16 * i + 3)) (block bs (length - 16) 119)
  spread (spread first + others)

/-! ## Longer inputs -/

/-- The lanes before the first stripe. -/
def initialLanes : List UInt64 :=
  [prime32C, prime64A, prime64B, prime64C, prime64D, prime32B, prime64E, prime32A]

/-- Takes the stripe at the head of `bs` into the lanes.  A lane gets the product of the halves of
its keyed word, and the plain word goes to its neighbour. -/
def takeStripe (lanes : List UInt64) (bs : Bytes) (tableOffset : Nat) : List UInt64 :=
  lanes.mapIdx fun (i : Nat) (lane : UInt64) =>
    let keyed : UInt64 := word64 bs (8 * i) ^^^ word64 table (tableOffset + 8 * i)
    let neighbour := if i % 2 = 0 then i + 1 else i - 1
    let product : UInt64 := (keyed &&& (0xFFFFFFFF : UInt64)) * (keyed >>> (32 : UInt64))
    lane + word64 bs (8 * neighbour) + product

/-- Takes consecutive stripes, each with the table eight bytes further on. -/
def takeStripes : Nat → List UInt64 → Bytes → Nat → List UInt64
  | 0, lanes, _, _ => lanes
  | count + 1, lanes, bs, tableOffset =>
    takeStripes count (takeStripe lanes bs tableOffset) (bs.drop 64) (tableOffset + 8)

/-- Stirs the lanes after a block of 16 stripes. -/
def stir (lanes : List UInt64) : List UInt64 :=
  lanes.mapIdx fun (i : Nat) (lane : UInt64) =>
    (lane ^^^ (lane >>> (47 : UInt64)) ^^^ word64 table (128 + 8 * i)) * prime32A

/-- Takes full blocks of 16 stripes. -/
def takeBlocks : Nat → List UInt64 → Bytes → List UInt64
  | 0, lanes, _ => lanes
  | count + 1, lanes, bs => takeBlocks count (stir (takeStripes 16 lanes bs 0)) (bs.drop 1024)

/-- Merges the lanes in pairs. -/
def merge (lanes : List UInt64) (start : UInt64) : UInt64 :=
  let lane (i : Nat) : UInt64 := lanes[i]?.getD 0
  spread ((List.range 4).foldl
    (fun acc i => acc + foldProduct (lane (2 * i) ^^^ word64 table (11 + 16 * i))
      (lane (2 * i + 1) ^^^ word64 table (19 + 16 * i))) start)

/-- The digest of more than 240 bytes.  The last 64 bytes are taken once more as a stripe of their
own. -/
def ofLong (bs : Bytes) : UInt64 :=
  let length := bs.length
  let blocks := (length - 1) / 1024
  let stripes := (length - 1 - 1024 * blocks) / 64
  let lanes := takeBlocks blocks initialLanes bs
  let lanes := takeStripes stripes lanes (bs.drop (1024 * blocks)) 0
  let lanes := takeStripe lanes (bs.drop (length - 64)) 121
  merge lanes (UInt64.ofNat length * prime64A)

/-- The digest of a byte sequence. -/
def digest (bs : Bytes) : UInt64 :=
  let length := bs.length
  if length = 0 then ofEmpty
  else if length ≤ 3 then ofUpTo3 bs
  else if length ≤ 8 then ofUpTo8 bs
  else if length ≤ 16 then ofUpTo16 bs
  else if length ≤ 128 then ofUpTo128 bs
  else if length ≤ 240 then ofUpTo240 bs
  else ofLong bs

end RowStore.Xxh3
