import Seams.Text.Bytes

/-! # Fingerprints
The 64-bit hash XXH3 with seed zero, by which large texts, contents of files and configurations are
compared. Words are little-endian.
Main definitions:
* **`Xxh3.hash`** — the hash of a byte string;
* **`Fingerprint`** — the hash and the length of a content. -/

namespace Seams

namespace Xxh3

/-! ## Words and constants -/

/-- The key that is mixed into the input. -/
def key : Bytes := ⟨#[
  0xb8, 0xfe, 0x6c, 0x39, 0x23, 0xa4, 0x4b, 0xbe, 0x7c, 0x01, 0x81, 0x2c, 0xf7, 0x21, 0xad, 0x1c,
  0xde, 0xd4, 0x6d, 0xe9, 0x83, 0x90, 0x97, 0xdb, 0x72, 0x40, 0xa4, 0xa4, 0xb7, 0xb3, 0x67, 0x1f,
  0xcb, 0x79, 0xe6, 0x4e, 0xcc, 0xc0, 0xe5, 0x78, 0x82, 0x5a, 0xd0, 0x7d, 0xcc, 0xff, 0x72, 0x21,
  0xb8, 0x08, 0x46, 0x74, 0xf7, 0x43, 0x24, 0x8e, 0xe0, 0x35, 0x90, 0xe6, 0x81, 0x3a, 0x26, 0x4c,
  0x3c, 0x28, 0x52, 0xbb, 0x91, 0xc3, 0x00, 0xcb, 0x88, 0xd0, 0x65, 0x8b, 0x1b, 0x53, 0x2e, 0xa3,
  0x71, 0x64, 0x48, 0x97, 0xa2, 0x0d, 0xf9, 0x4e, 0x38, 0x19, 0xef, 0x46, 0xa9, 0xde, 0xac, 0xd8,
  0xa8, 0xfa, 0x76, 0x3f, 0xe3, 0x9c, 0x34, 0x3f, 0xf9, 0xdc, 0xbb, 0xc7, 0xc7, 0x0b, 0x4f, 0x1d,
  0x8a, 0x51, 0xe0, 0x4b, 0xcd, 0xb4, 0x59, 0x31, 0xc8, 0x9f, 0x7e, 0xc9, 0xd9, 0x78, 0x73, 0x64,
  0xea, 0xc5, 0xac, 0x83, 0x34, 0xd3, 0xeb, 0xc3, 0xc5, 0x81, 0xa0, 0xff, 0xfa, 0x13, 0x63, 0xeb,
  0x17, 0x0d, 0xdd, 0x51, 0xb7, 0xf0, 0xda, 0x49, 0xd3, 0x16, 0x55, 0x26, 0x29, 0xd4, 0x68, 0x9e,
  0x2b, 0x16, 0xbe, 0x58, 0x7d, 0x47, 0xa1, 0xfc, 0x8f, 0xf8, 0xb8, 0xd1, 0x7a, 0xd0, 0x31, 0xce,
  0x45, 0xcb, 0x3a, 0x8f, 0x95, 0x16, 0x04, 0x28, 0xaf, 0xd7, 0xfb, 0xca, 0xbb, 0x4b, 0x40, 0x7e]⟩

/-- The word of `n` bytes at index `i`, the lowest byte first. -/
def wordAt (b : Bytes) (i : Nat) : Nat → UInt64
  | 0 => 0
  | n + 1 => wordAt b i n ||| ((b.byteAt (i + n)).toUInt64 <<< (8 * n).toUInt64)

/-- The 64-bit word at index `i`. -/
def word64 (b : Bytes) (i : Nat) : UInt64 := wordAt b i 8

/-- The 32-bit word at index `i`. -/
def word32 (b : Bytes) (i : Nat) : UInt64 := wordAt b i 4

/-- The first prime of 32 bits. -/
def prime32a : UInt64 := 0x9E3779B1

/-- The second prime of 32 bits. -/
def prime32b : UInt64 := 0x85EBCA77

/-- The third prime of 32 bits. -/
def prime32c : UInt64 := 0xC2B2AE3D

/-- The first prime of 64 bits. -/
def prime64a : UInt64 := 0x9E3779B185EBCA87

/-- The second prime of 64 bits. -/
def prime64b : UInt64 := 0xC2B2AE3D27D4EB4F

/-- The third prime of 64 bits. -/
def prime64c : UInt64 := 0x165667B19E3779F9

/-- The fourth prime of 64 bits. -/
def prime64d : UInt64 := 0x85EBCA77C2B2AE63

/-- The fifth prime of 64 bits. -/
def prime64e : UInt64 := 0x27D4EB2F165667C5

/-- The first multiplier of the final mixing. -/
def mixer : UInt64 := 0x165667919E3779F9

/-- The multiplier of the final mixing of short inputs. -/
def shortMixer : UInt64 := 0x9FB21C651E98DF25

/-! ## Mixing -/

/-- Rotate the bits of a word to the left. -/
def rotate (x : UInt64) (n : UInt64) : UInt64 := (x <<< n) ||| (x >>> (64 - n))

/-- The bytes of a word in the opposite order. -/
def swap (x : UInt64) : UInt64 :=
  (List.range 8).foldl (fun (acc : UInt64) i =>
    (acc <<< 8) ||| ((x >>> (8 * i).toUInt64) &&& 0xff)) 0

/-- The two halves of the product of two words, combined. -/
def foldProduct (x y : UInt64) : UInt64 :=
  let p := x.toNat * y.toNat
  (p % UInt64.size).toUInt64 ^^^ (p / UInt64.size).toUInt64

/-- Mix the bits of a word into each other. -/
def avalanche (h : UInt64) : UInt64 :=
  let h := (h ^^^ (h >>> 37)) * mixer
  h ^^^ (h >>> 32)

/-- Mix the bits of a word into each other, for the shortest inputs. -/
def shortAvalanche (h : UInt64) : UInt64 :=
  let h := (h ^^^ (h >>> 33)) * prime64b
  let h := (h ^^^ (h >>> 29)) * prime64c
  h ^^^ (h >>> 32)

/-- Mix the bits of a word and a length into each other. -/
def lengthAvalanche (h length : UInt64) : UInt64 :=
  let h := h ^^^ rotate h 49 ^^^ rotate h 24
  let h := h * shortMixer
  let h := h ^^^ ((h >>> 35) + length)
  let h := h * shortMixer
  h ^^^ (h >>> 28)

/-- Mix sixteen bytes of the input with the key at index `k`. -/
def mix16 (b : Bytes) (i k : Nat) : UInt64 :=
  foldProduct (word64 b i ^^^ word64 key k) (word64 b (i + 8) ^^^ word64 key (k + 8))

/-! ## Inputs by length -/

/-- The hash of at most sixteen bytes. -/
def hashShort (b : Bytes) : UInt64 :=
  let n := b.size
  if n == 0 then shortAvalanche (word64 key 56 ^^^ word64 key 64)
  else if n ≤ 3 then
    let combined := ((b.byteAt 0).toUInt64 <<< 16) ||| ((b.byteAt (n / 2)).toUInt64 <<< 24)
      ||| (b.byteAt (n - 1)).toUInt64 ||| (n.toUInt64 <<< 8)
    shortAvalanche (combined ^^^ (word32 key 0 ^^^ word32 key 4))
  else if n ≤ 8 then
    let x := word32 b (n - 4) + (word32 b 0 <<< 32)
    lengthAvalanche (x ^^^ (word64 key 8 ^^^ word64 key 16)) n.toUInt64
  else
    let lo := word64 b 0 ^^^ (word64 key 24 ^^^ word64 key 32)
    let hi := word64 b (n - 8) ^^^ (word64 key 40 ^^^ word64 key 48)
    avalanche (n.toUInt64 + swap lo + hi + foldProduct lo hi)

/-- The hash of seventeen to 128 bytes: pairs of chunks from both ends. -/
def hashMedium (b : Bytes) : UInt64 :=
  let n := b.size
  avalanche <| (List.range ((n - 1) / 32 + 1)).foldl
    (fun (acc : UInt64) i =>
      acc + mix16 b (16 * i) (32 * i) + mix16 b (n - 16 * (i + 1)) (32 * i + 16))
    (n.toUInt64 * prime64a)

/-- The hash of 129 to 240 bytes. -/
def hashLong (b : Bytes) : UInt64 :=
  let n := b.size
  let first := avalanche <| (List.range 8).foldl
    (fun (acc : UInt64) i => acc + mix16 b (16 * i) (16 * i)) (n.toUInt64 * prime64a)
  let rest := (List.range (n / 16 - 8)).foldl
    (fun (acc : UInt64) i => acc + mix16 b (16 * (i + 8)) (16 * i + 3)) first
  avalanche (rest + mix16 b (n - 16) 119)

/-- Eight lanes with the stripe of 64 bytes at index `i` added, under the key at index `k`. -/
def addStripe (b : Bytes) (lanes : Array UInt64) (i k : Nat) : Array UInt64 :=
  (List.range 8).foldl (fun (lanes : Array UInt64) j =>
    let x : UInt64 := word64 b (i + 8 * j)
    let y : UInt64 := x ^^^ word64 key (k + 8 * j)
    let product : UInt64 := (y &&& (0xffffffff : UInt64)) * (y >>> 32)
    let lanes := lanes.modify (if j % 2 == 0 then j + 1 else j - 1) (· + x)
    lanes.modify j (· + product)) lanes

/-- Eight lanes, scrambled at the end of a block. -/
def scramble (lanes : Array UInt64) : Array UInt64 :=
  lanes.mapIdx fun j (x : UInt64) =>
    (x ^^^ (x >>> (47 : UInt64)) ^^^ word64 key (128 + 8 * j)) * prime32a

/-- Eight lanes with the given number of stripes of a block added. -/
def addStripes (b : Bytes) (lanes : Array UInt64) (i count : Nat) : Array UInt64 :=
  (List.range count).foldl (fun lanes s => addStripe b lanes (i + 64 * s) (8 * s)) lanes

/-- The hash of more than 240 bytes: blocks of sixteen stripes, and the last stripe once more. -/
def hashBlocks (b : Bytes) : UInt64 :=
  let n := b.size
  let blocks := (n - 1) / 1024
  let lanes := (List.range blocks).foldl
    (fun lanes i => scramble (addStripes b lanes (1024 * i) 16))
    #[prime32c, prime64a, prime64b, prime64c, prime64d, prime32b, prime64e, prime32a]
  let lanes := addStripes b lanes (1024 * blocks) ((n - 1 - 1024 * blocks) / 64)
  let lanes := addStripe b lanes (n - 64) 121
  avalanche <| (List.range 4).foldl
    (fun (acc : UInt64) i => acc + foldProduct (lanes.getD (2 * i) 0 ^^^ word64 key (11 + 16 * i))
      (lanes.getD (2 * i + 1) 0 ^^^ word64 key (19 + 16 * i)))
    (n.toUInt64 * prime64a)

/-- The hash of a byte string. -/
def hash (b : Bytes) : UInt64 :=
  if b.size ≤ 16 then hashShort b
  else if b.size ≤ 128 then hashMedium b
  else if b.size ≤ 240 then hashLong b
  else hashBlocks b

end Xxh3

/-! ## Contents -/

/-- What identifies a content: its hash and its length. -/
structure Fingerprint where
  /-- The hash of the content. -/
  hash : UInt64
  /-- The length of the content in bytes. -/
  length : Nat
  deriving DecidableEq, Repr

/-- The fingerprint of a content. -/
def Fingerprint.of (b : Bytes) : Fingerprint := ⟨Xxh3.hash b, b.size⟩

end Seams
