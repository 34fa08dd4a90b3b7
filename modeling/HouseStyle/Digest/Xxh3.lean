import HouseStyle.Word

/-!
# XXH3 digests

The 64-bit XXH3 digest with seed 0, which names patterns and recognises unchanged
files. Inputs up to 16, 128 and 240 bytes are mixed as a whole; longer ones are
folded in stripes of 64 bytes into eight lanes.
-/

namespace HouseStyle.Digest

private def prime32a : UInt64 := 0x9E3779B1
private def prime32b : UInt64 := 0x85EBCA77
private def prime32c : UInt64 := 0xC2B2AE3D
private def prime64a : UInt64 := 0x9E3779B185EBCA87
private def prime64b : UInt64 := 0xC2B2AE3D27D4EB4F
private def prime64c : UInt64 := 0x165667B19E3779F9
private def prime64d : UInt64 := 0x85EBCA77C2B2AE63
private def prime64e : UInt64 := 0x27D4EB2F165667C5
private def mixFactor : UInt64 := 0x165667919E3779F9
private def shortFactor : UInt64 := 0x9FB21C651E98DF25

/-- The 192 bytes every input is mixed with. -/
private def secret : ByteArray := ⟨#[
  0xb8, 0xfe, 0x6c, 0x39, 0x23, 0xa4, 0x4b, 0xbe, 0x7c, 0x01, 0x81, 0x2c, 0xf7, 0x21, 0xad, 0x1c,
  0xde, 0xd4, 0x6d, 0xe9, 0x83, 0x90, 0x97, 0xdb, 0x72, 0x40, 0xa4, 0xa4, 0xb7, 0xb3, 0x67, 0x1f,
  0xcb, 0x79, 0xe6, 0x4e, 0xcc, 0xc0, 0xe5, 0x78, 0x82, 0x5a, 0xd0, 0x7d, 0xcc, 0xff, 0x72, 0x21,
  0xb8, 0x08, 0x46, 0x74, 0xf7, 0x43, 0x24, 0x8e, 0xe0, 0x35, 0x90, 0xe6, 0x81, 0x3a, 0x26, 0x4c,
  0x3c, 0x28, 0x52, 0xbb, 0x91, 0xc3, 0x00, 0xcb, 0x88, 0xd0, 0x65, 0x8b, 0x1b, 0x53, 0x2e, 0xa3,
  0x71, 0x64, 0x48, 0x97, 0xa2, 0x0d, 0xf9, 0x4e, 0x38, 0x19, 0xef, 0x46, 0xa9, 0xde, 0xac, 0xd8,
  0xa8, 0xfa, 0x76, 0x3f, 0xe3, 0x9c, 0x34, 0x3f, 0xf9, 0xdc, 0xbb, 0xc7, 0xc7, 0x0b, 0x4f, 0x1d,
  0x8a, 0x51, 0xe0, 0x4b, 0xcd, 0xb4, 0x59, 0x31, 0xc8, 0x9f, 0x7e, 0xc9, 0xd9, 0x78, 0x73, 0x64,
  0xea, 0xc5, 0xac, 0x83, 0x34, 0xd3, 0xeb, 0xc3, 0xc5, 0x81, 0xa0, 0xff, 0xfa, 0x13, 0x63, 0xeb,
  0x17, 0x0d, 0xdd, 0x51, 0xb7, 0xf0, 0xda, 0x49, 0xd3, 0x16, 0x55, 0x26, 0x29, 0xd4, 0x68, 0x9e,
  0x2b, 0x16, 0xbe, 0x58, 0x7d, 0x47, 0xa1, 0xfc, 0x8f, 0xf8, 0xb8, 0xd1, 0x7a, 0xd0, 0x31, 0xce,
  0x45, 0xcb, 0x3a, 0x8f, 0x95, 0x16, 0x04, 0x28, 0xaf, 0xd7, 0xfb, 0xca, 0xbb, 0x4b, 0x40, 0x7e]⟩

private def byteAt (data : ByteArray) (i : Nat) : UInt64 := (data.get! i).toUInt64

/-- Four bytes from position `i` on, the least significant first. -/
private def word32 (data : ByteArray) (i : Nat) : UInt64 :=
  byteAt data i ||| (byteAt data (i + 1) <<< 8) ||| (byteAt data (i + 2) <<< 16) |||
    (byteAt data (i + 3) <<< 24)

/-- Eight bytes from position `i` on, the least significant first. -/
private def word64 (data : ByteArray) (i : Nat) : UInt64 :=
  word32 data i ||| (word32 data (i + 4) <<< 32)

private def rotateLeft (x count : UInt64) : UInt64 :=
  (x <<< count) ||| (x >>> (64 - count))

private def reverseBytes (x : UInt64) : UInt64 :=
  (List.range 8).foldl
    (fun out i => (out <<< 8) ||| ((x >>> (8 * i).toUInt64) &&& 0xFF)) 0

/-- The full product of two words, its upper half folded onto the lower one. -/
private def foldProduct (a b : UInt64) : UInt64 :=
  let product := a.toNat * b.toNat
  (product % Word.bound).toUInt64 ^^^ (product / Word.bound).toUInt64

private def avalanche (h : UInt64) : UInt64 :=
  let h := (h ^^^ (h >>> 37)) * mixFactor
  h ^^^ (h >>> 32)

private def tinyAvalanche (h : UInt64) : UInt64 :=
  let h := (h ^^^ (h >>> 33)) * prime64b
  let h := (h ^^^ (h >>> 29)) * prime64c
  h ^^^ (h >>> 32)

private def mix16 (data : ByteArray) (i s : Nat) : UInt64 :=
  foldProduct (word64 data i ^^^ word64 secret s) (word64 data (i + 8) ^^^ word64 secret (s + 8))

private def upTo3 (data : ByteArray) : UInt64 :=
  let n := data.size
  let joined := (byteAt data 0 <<< 16) ||| (byteAt data (n / 2) <<< 24) |||
    byteAt data (n - 1) ||| (n.toUInt64 <<< 8)
  tinyAvalanche (joined ^^^ (word32 secret 0 ^^^ word32 secret 4))

private def upTo8 (data : ByteArray) : UInt64 :=
  let n := data.size
  let joined := word32 data (n - 4) + (word32 data 0 <<< 32)
  let h := joined ^^^ (word64 secret 8 ^^^ word64 secret 16)
  let h := (h ^^^ rotateLeft h 49 ^^^ rotateLeft h 24) * shortFactor
  let h := (h ^^^ ((h >>> 35) + n.toUInt64)) * shortFactor
  h ^^^ (h >>> 28)

private def upTo16 (data : ByteArray) : UInt64 :=
  let n := data.size
  let low := word64 data 0 ^^^ (word64 secret 24 ^^^ word64 secret 32)
  let high := word64 data (n - 8) ^^^ (word64 secret 40 ^^^ word64 secret 48)
  avalanche (n.toUInt64 + reverseBytes low + high + foldProduct low high)

/-- Pairs of blocks from both ends, as many as the length asks for. -/
private def upTo128 (data : ByteArray) : UInt64 :=
  let n := data.size
  let pairs := (n - 1) / 32 + 1
  avalanche <| (List.range pairs).foldl
    (fun acc k => acc + mix16 data (16 * k) (32 * k) + mix16 data (n - 16 * (k + 1)) (32 * k + 16))
    (n.toUInt64 * prime64a)

private def upTo240 (data : ByteArray) : UInt64 :=
  let n := data.size
  let first := (List.range 8).foldl
    (fun acc k => acc + mix16 data (16 * k) (16 * k)) (n.toUInt64 * prime64a)
  let rest := (List.range (n / 16 - 8)).foldl
    (fun acc k => acc + mix16 data (16 * (k + 8)) (16 * k + 3)) (avalanche first)
  avalanche (rest + mix16 data (n - 16) 119)

/-- Eight running sums. -/
private structure Lanes where
  a : UInt64
  b : UInt64
  c : UInt64
  d : UInt64
  e : UInt64
  f : UInt64
  g : UInt64
  h : UInt64

private def startLanes : Lanes :=
  ⟨prime32c, prime64a, prime64b, prime64c, prime64d, prime32b, prime64e, prime32a⟩

private def halves (key : UInt64) : UInt64 := (key &&& (0xFFFFFFFF : UInt64)) * (key >>> 32)

/-- Add the stripe at `i`, keyed with the secret from `s` on. Neighbouring lanes swap their data. -/
private def Lanes.accumulate (acc : Lanes) (data : ByteArray) (i s : Nat) : Lanes :=
  let v (k : Nat) : UInt64 := word64 data (i + 8 * k)
  let m (k : Nat) : UInt64 := halves (v k ^^^ word64 secret (s + 8 * k))
  ⟨acc.a + v 1 + m 0, acc.b + v 0 + m 1, acc.c + v 3 + m 2, acc.d + v 2 + m 3,
    acc.e + v 5 + m 4, acc.f + v 4 + m 5, acc.g + v 7 + m 6, acc.h + v 6 + m 7⟩

private def Lanes.scramble (acc : Lanes) : Lanes :=
  let s (x : UInt64) (k : Nat) : UInt64 :=
    (x ^^^ (x >>> 47) ^^^ word64 secret (128 + 8 * k)) * prime32a
  ⟨s acc.a 0, s acc.b 1, s acc.c 2, s acc.d 3, s acc.e 4, s acc.f 5, s acc.g 6, s acc.h 7⟩

private def Lanes.merge (acc : Lanes) (n : Nat) : UInt64 :=
  let p (x y : UInt64) (k : Nat) : UInt64 :=
    foldProduct (x ^^^ word64 secret (11 + 16 * k)) (y ^^^ word64 secret (19 + 16 * k))
  avalanche (n.toUInt64 * prime64a + p acc.a acc.b 0 + p acc.c acc.d 1 + p acc.e acc.f 2 +
    p acc.g acc.h 3)

private def stripes (data : ByteArray) (start count : Nat) (acc : Lanes) : Lanes :=
  (List.range count).foldl (fun acc k => acc.accumulate data (start + 64 * k) (8 * k)) acc

/-- Blocks of sixteen stripes, each followed by a scramble; the stripes left over; the last
64 bytes once more. -/
private def long (data : ByteArray) : UInt64 :=
  let n := data.size
  let blocks := (n - 1) / 1024
  let acc := (List.range blocks).foldl
    (fun acc k => (stripes data (1024 * k) 16 acc).scramble) startLanes
  let acc := stripes data (1024 * blocks) ((n - 1 - 1024 * blocks) / 64) acc
  (acc.accumulate data (n - 64) 121).merge n

/-- The digest of a byte string. -/
def xxh3 (data : ByteArray) : UInt64 :=
  let n := data.size
  if n = 0 then tinyAvalanche (word64 secret 56 ^^^ word64 secret 64)
  else if n ≤ 3 then upTo3 data
  else if n ≤ 8 then upTo8 data
  else if n ≤ 16 then upTo16 data
  else if n ≤ 128 then upTo128 data
  else if n ≤ 240 then upTo240 data
  else long data

/-- Sixteen lower case hexadecimal digits. -/
def hex64 (x : UInt64) : String :=
  let digits := Nat.toDigits 16 x.toNat
  String.ofList (List.replicate (16 - digits.length) '0' ++ digits)

/-- The digest of a text's UTF-8 bytes, in hexadecimal. -/
def ofText (text : String) : String := hex64 (xxh3 text.toUTF8)

end HouseStyle.Digest
