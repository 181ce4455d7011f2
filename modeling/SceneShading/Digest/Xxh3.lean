/-!
# The XXH3 digest of 128 bits

A program source is named by the XXH3 digest of its UTF-8 bytes, with seed zero and the standard
secret. Texts of up to 16, up to 128 and up to 240 bytes each have a formula of their own; longer
texts are folded, stripe by stripe, into eight lanes that are merged at the end. All arithmetic is
modulo `2 ^ 64`.
-/

namespace SceneShading.Digest

/-- The standard secret. -/
def secret : ByteArray := ⟨#[
  0xb8, 0xfe, 0x6c, 0x39, 0x23, 0xa4, 0x4b, 0xbe, 0x7c, 0x01, 0x81, 0x2c, 0xf7, 0x21, 0xad, 0x1c,
  0xde, 0xd4, 0x6d, 0xe9, 0x83, 0x90, 0x97, 0xdb, 0x72, 0x40, 0xa4, 0xa4, 0xb7, 0xb3, 0x67, 0x1f,
  0xcb, 0x79, 0xe6, 0x4e, 0xcc, 0xc0, 0xe5, 0x78, 0x82, 0x5a, 0xd0, 0x7d, 0xcc, 0xff, 0x72, 0x21,
  0xb8, 0x08, 0x46, 0x74, 0xf7, 0x43, 0x24, 0x8e, 0xe0, 0x35, 0x90, 0xe6, 0x81, 0x3a, 0x26, 0x4c,
  0x3c, 0x28, 0x52, 0xbb, 0x91, 0xc3, 0x00, 0xcb, 0x88, 0xd0, 0x65, 0x8b, 0x1b, 0x53, 0x2e, 0xa3,
  0x71, 0x64, 0x48, 0x97, 0xa2, 0x0d, 0xf9, 0x4e, 0x38, 0x19, 0xef, 0x46, 0xa9, 0xde, 0xac, 0xd8,
  0xa8, 0xfa, 0x76, 0x3f, 0xe3, 0x9c, 0x34, 0x3f, 0xf9, 0xdc, 0xbb, 0xc7, 0xc7, 0x0b, 0x4f, 0x1d,
  0x8a, 0x51, 0xe0, 0x4b, 0xcd, 0xb4, 0x59, 0x31, 0xc8, 0x9f, 0x7e, 0xc9, 0xd9, 0x78, 0x73, 0x64,
  0xea, 0xc5, 0xac, 0x83, 0x34, 0xd3, 0xeb, 0xc3, 0xc5, 0x81, 0xa0, 0xff, 0xfa, 0x13, 0x63, 0xeb,
  0x17, 0x0d, 0xdd, 0x51, 0xb7, 0xf0, 0xda, 0x49, 0xd3, 0x16, 0x55, 0x26, 0x29, 0xd4, 0x68, 0x9e,
  0x2b, 0x16, 0xbe, 0x58, 0x7d, 0x47, 0xa1, 0xfc, 0x8f, 0xf8, 0xb8, 0xd1, 0x7a, 0xd0, 0x31, 0xce,
  0x45, 0xcb, 0x3a, 0x8f, 0x95, 0x16, 0x04, 0x28, 0xaf, 0xd7, 0xfb, 0xca, 0xbb, 0x4b, 0x40, 0x7e]⟩

/-- A number of 128 bits, by halves. -/
structure Wide where
  high : UInt64
  low : UInt64
deriving Repr, DecidableEq, Inhabited

/-- The value of a wide number. -/
def Wide.toNat (w : Wide) : Nat := w.high.toNat * 0x10000000000000000 + w.low.toNat

/-- The full product of two words. -/
def Wide.product (a b : UInt64) : Wide :=
  let p := a.toNat * b.toNat
  ⟨UInt64.ofNat (p >>> 64), UInt64.ofNat p⟩

/-- The two halves of the full product, combined by exclusive or. -/
def foldProduct (a b : UInt64) : UInt64 :=
  let p := Wide.product a b
  p.high ^^^ p.low

/-- A byte; zero past the end. -/
def byteAt (b : ByteArray) (i : Nat) : UInt64 := if h : i < b.size then b[i].toUInt64 else 0

/-- The little-endian number in the four bytes from a place. -/
def word32 (b : ByteArray) (i : Nat) : UInt64 :=
  byteAt b i ||| byteAt b (i + 1) <<< 8 ||| byteAt b (i + 2) <<< 16 ||| byteAt b (i + 3) <<< 24

/-- The little-endian number in the eight bytes from a place. -/
def word64 (b : ByteArray) (i : Nat) : UInt64 := word32 b i ||| word32 b (i + 4) <<< 32

/-- The bytes of a word in reverse order. -/
def reverseBytes (x : UInt64) : UInt64 :=
  (List.range 8).foldl (fun r i => r <<< 8 ||| (x >>> (8 * UInt64.ofNat i) &&& 0xff)) 0

def prime32A : UInt64 := 0x9e3779b1
def prime32B : UInt64 := 0x85ebca77
def prime32C : UInt64 := 0xc2b2ae3d
def prime64A : UInt64 := 0x9e3779b185ebca87
def prime64B : UInt64 := 0xc2b2ae3d27d4eb4f
def prime64C : UInt64 := 0x165667b19e3779f9
def prime64D : UInt64 := 0x85ebca77c2b2ae63
def prime64E : UInt64 := 0x27d4eb2f165667c5

/-- The lower half of a word. -/
def lowHalf : UInt64 := 0xffffffff

/-- The word combined with itself, shifted right. -/
def xorShift (x : UInt64) (n : UInt64) : UInt64 := x ^^^ (x >>> n)

/-- The final mixing of short texts. -/
def avalancheShort (h : UInt64) : UInt64 :=
  xorShift (xorShift (xorShift h 33 * prime64B) 29 * prime64C) 32

/-- The final mixing of all other texts. -/
def avalanche (h : UInt64) : UInt64 := xorShift (xorShift h 37 * 0x165667919e3779f9) 32

/-- The secret words at two places, combined. -/
def secretPair (i : Nat) : UInt64 := word64 secret i ^^^ word64 secret (i + 8)

/-- The digest of the empty text. -/
def ofEmpty : Wide := ⟨avalancheShort (secretPair 80), avalancheShort (secretPair 64)⟩

/-- The digest of one to three bytes. -/
def ofTiny (b : ByteArray) : Wide :=
  let n := b.size
  let low := byteAt b 0 <<< 16 ||| byteAt b (n / 2) <<< 24 ||| byteAt b (n - 1) |||
    UInt64.ofNat n <<< 8
  let swapped := reverseBytes low >>> 32
  let high := (swapped <<< 13 ||| swapped >>> 19) &&& lowHalf
  ⟨avalancheShort (high ^^^ (word32 secret 8 ^^^ word32 secret 12)),
   avalancheShort (low ^^^ (word32 secret 0 ^^^ word32 secret 4))⟩

/-- The digest of four to eight bytes. -/
def ofSmall (b : ByteArray) : Wide :=
  let n := b.size
  let keyed := (word32 b 0 + word32 b (n - 4) <<< 32) ^^^ secretPair 16
  let m := Wide.product keyed (prime64A + UInt64.ofNat (4 * n))
  let high := m.high + m.low <<< 1
  let low := m.low ^^^ high >>> 3
  ⟨avalanche high, xorShift (xorShift low 35 * 0x9fb21c651e98df25) 28⟩

/-- The digest of nine to sixteen bytes. -/
def ofMedium (b : ByteArray) : Wide :=
  let n := b.size
  let low := word64 b 0
  let high := word64 b (n - 8)
  let m := Wide.product (low ^^^ high ^^^ secretPair 32) prime64A
  let mLow := m.low + UInt64.ofNat (n - 1) <<< 54
  let keyed := high ^^^ secretPair 48
  let mHigh := m.high + (keyed + (keyed &&& lowHalf) * (prime32B - 1))
  let h := Wide.product (mLow ^^^ reverseBytes mHigh) prime64B
  ⟨avalanche (h.high + mHigh * prime64B), avalanche h.low⟩

/-- Sixteen bytes mixed with sixteen bytes of the secret. -/
def mixHalf (b : ByteArray) (i s : Nat) : UInt64 :=
  foldProduct (word64 b i ^^^ word64 secret s) (word64 b (i + 8) ^^^ word64 secret (s + 8))

/-- Two runs of sixteen bytes mixed into an accumulator. -/
def mixPair (b : ByteArray) (acc : Wide) (i j s : Nat) : Wide :=
  ⟨(acc.high + mixHalf b j (s + 16)) ^^^ (word64 b i + word64 b (i + 8)),
   (acc.low + mixHalf b i s) ^^^ (word64 b j + word64 b (j + 8))⟩

/-- The end of the digests of up to 240 bytes. -/
def finish (n : Nat) (acc : Wide) : Wide :=
  ⟨0 - avalanche (acc.low * prime64A + acc.high * prime64D + UInt64.ofNat n * prime64B),
   avalanche (acc.low + acc.high)⟩

/-- The digest of seventeen to 128 bytes: pairs are taken from both ends, innermost first. -/
def ofLong (b : ByteArray) : Wide :=
  let n := b.size
  let pairs := ([3, 2, 1, 0] : List Nat).filter fun k => 32 * k < n
  finish n (pairs.foldl (fun acc k => mixPair b acc (16 * k) (n - 16 * (k + 1)) (32 * k))
    ⟨0, UInt64.ofNat n * prime64A⟩)

/-- The digest of 129 to 240 bytes. -/
def ofLonger (b : ByteArray) : Wide :=
  let n := b.size
  let acc := (List.range 4).foldl (fun acc k => mixPair b acc (32 * k) (32 * k + 16) (32 * k))
    ⟨0, UInt64.ofNat n * prime64A⟩
  let acc : Wide := ⟨avalanche acc.high, avalanche acc.low⟩
  let acc := (List.range (n / 32 - 4)).foldl
    (fun acc k => mixPair b acc (32 * (k + 4)) (32 * (k + 4) + 16) (32 * k + 3)) acc
  finish n (mixPair b acc (n - 16) (n - 32) 103)

/-- The lanes that long texts start with. -/
def startLanes : Array UInt64 :=
  #[prime32C, prime64A, prime64B, prime64C, prime64D, prime32B, prime64E, prime32A]

/-- A stripe of 64 bytes folded into the lanes. Each lane takes the product of the halves of its
own word and the word of its neighbour. -/
def stripe (b : ByteArray) (lanes : Array UInt64) (i s : Nat) : Array UInt64 :=
  lanes.mapIdx fun k lane =>
    let word (k : Nat) : UInt64 := word64 b (i + 8 * k)
    let key : UInt64 := word k ^^^ word64 secret (s + 8 * k)
    lane + word (k ^^^ 1) + (key &&& lowHalf) * (key >>> 32)

/-- The lanes after a full block. -/
def scramble (lanes : Array UInt64) : Array UInt64 :=
  lanes.mapIdx fun k lane =>
    (xorShift lane 47 ^^^ word64 secret (128 + 8 * k)) * prime32A

/-- A run of stripes that starts at a place. -/
def stripes (b : ByteArray) (lanes : Array UInt64) (i count : Nat) : Array UInt64 :=
  (List.range count).foldl (fun lanes k => stripe b lanes (i + 64 * k) (8 * k)) lanes

/-- The lanes merged into one word. -/
def mergeLanes (lanes : Array UInt64) (s : Nat) (start : UInt64) : UInt64 :=
  avalanche ((List.range 4).foldl (fun r k =>
    r + foldProduct (lanes.getD (2 * k) 0 ^^^ word64 secret (s + 16 * k))
      (lanes.getD (2 * k + 1) 0 ^^^ word64 secret (s + 16 * k + 8))) start)

/-- The digest of more than 240 bytes. -/
def ofBulk (b : ByteArray) : Wide :=
  let n := b.size
  let blocks := (n - 1) / 1024
  let lanes := (List.range blocks).foldl
    (fun lanes k => scramble (stripes b lanes (1024 * k) 16)) startLanes
  let lanes := stripes b lanes (1024 * blocks) ((n - 1 - 1024 * blocks) / 64)
  let lanes := stripe b lanes (n - 64) 121
  let size := UInt64.ofNat n
  ⟨mergeLanes lanes 117 (~~~(size * prime64B)), mergeLanes lanes 11 (size * prime64A)⟩

/-- The digest of bytes. -/
def ofBytes (b : ByteArray) : Wide :=
  let n := b.size
  if n = 0 then ofEmpty
  else if n ≤ 3 then ofTiny b
  else if n ≤ 8 then ofSmall b
  else if n ≤ 16 then ofMedium b
  else if n ≤ 128 then ofLong b
  else if n ≤ 240 then ofLonger b
  else ofBulk b

/-- The digest of the UTF-8 bytes of a text. -/
def ofText (s : String) : Wide := ofBytes s.toUTF8

/-- Sixteen hexadecimal digits. -/
def hexWord (x : UInt64) : String :=
  String.ofList ((List.range 16).map fun i =>
    Nat.digitChar ((x >>> (4 * UInt64.ofNat (15 - i))).toNat % 16))

/-- The digits of a wide number, from the highest. -/
def Wide.hex (w : Wide) : String := hexWord w.high ++ hexWord w.low

end SceneShading.Digest
