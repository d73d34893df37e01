/-!
# The hash of a name

The 64-bit XXH3 hash with seed zero. Five regimes by length, all of them folding 128-bit
products of the input, keyed by a fixed secret of 192 bytes:

* up to 16 bytes, one or two overlapping words;
* up to 128 bytes, pairs of 16-byte blocks from both ends towards the middle;
* up to 240 bytes, all blocks in order, in two passes;
* longer, eight running lanes over 64-byte stripes, scrambled after every 16 stripes.

All arithmetic is modulo `2 ^ 64`.
-/

namespace ActorSystem.NameHash

/-! ## Reading words -/

def secret : Array UInt8 := #[
  0xb8, 0xfe, 0x6c, 0x39, 0x23, 0xa4, 0x4b, 0xbe, 0x7c, 0x01, 0x81, 0x2c,
  0xf7, 0x21, 0xad, 0x1c, 0xde, 0xd4, 0x6d, 0xe9, 0x83, 0x90, 0x97, 0xdb,
  0x72, 0x40, 0xa4, 0xa4, 0xb7, 0xb3, 0x67, 0x1f, 0xcb, 0x79, 0xe6, 0x4e,
  0xcc, 0xc0, 0xe5, 0x78, 0x82, 0x5a, 0xd0, 0x7d, 0xcc, 0xff, 0x72, 0x21,
  0xb8, 0x08, 0x46, 0x74, 0xf7, 0x43, 0x24, 0x8e, 0xe0, 0x35, 0x90, 0xe6,
  0x81, 0x3a, 0x26, 0x4c, 0x3c, 0x28, 0x52, 0xbb, 0x91, 0xc3, 0x00, 0xcb,
  0x88, 0xd0, 0x65, 0x8b, 0x1b, 0x53, 0x2e, 0xa3, 0x71, 0x64, 0x48, 0x97,
  0xa2, 0x0d, 0xf9, 0x4e, 0x38, 0x19, 0xef, 0x46, 0xa9, 0xde, 0xac, 0xd8,
  0xa8, 0xfa, 0x76, 0x3f, 0xe3, 0x9c, 0x34, 0x3f, 0xf9, 0xdc, 0xbb, 0xc7,
  0xc7, 0x0b, 0x4f, 0x1d, 0x8a, 0x51, 0xe0, 0x4b, 0xcd, 0xb4, 0x59, 0x31,
  0xc8, 0x9f, 0x7e, 0xc9, 0xd9, 0x78, 0x73, 0x64, 0xea, 0xc5, 0xac, 0x83,
  0x34, 0xd3, 0xeb, 0xc3, 0xc5, 0x81, 0xa0, 0xff, 0xfa, 0x13, 0x63, 0xeb,
  0x17, 0x0d, 0xdd, 0x51, 0xb7, 0xf0, 0xda, 0x49, 0xd3, 0x16, 0x55, 0x26,
  0x29, 0xd4, 0x68, 0x9e, 0x2b, 0x16, 0xbe, 0x58, 0x7d, 0x47, 0xa1, 0xfc,
  0x8f, 0xf8, 0xb8, 0xd1, 0x7a, 0xd0, 0x31, 0xce, 0x45, 0xcb, 0x3a, 0x8f,
  0x95, 0x16, 0x04, 0x28, 0xaf, 0xd7, 0xfb, 0xca, 0xbb, 0x4b, 0x40, 0x7e]

/-- The byte at `i`, zero past the end. -/
def byteAt (b : Array UInt8) (i : Nat) : UInt64 := (b[i]?.getD 0).toUInt64

/-- The 32-bit word at `i`, low byte first. -/
def word32 (b : Array UInt8) (i : Nat) : UInt64 :=
  byteAt b i ||| byteAt b (i + 1) <<< 8 ||| byteAt b (i + 2) <<< 16 ||| byteAt b (i + 3) <<< 24

/-- The 64-bit word at `i`, low byte first. -/
def word64 (b : Array UInt8) (i : Nat) : UInt64 :=
  word32 b i ||| word32 b (i + 4) <<< 32

/-! ## Mixing -/

def prime32A : UInt64 := 0x9E3779B1
def prime32B : UInt64 := 0x85EBCA77
def prime32C : UInt64 := 0xC2B2AE3D
def primeA : UInt64 := 0x9E3779B185EBCA87
def primeB : UInt64 := 0xC2B2AE3D27D4EB4F
def primeC : UInt64 := 0x165667B19E3779F9
def primeD : UInt64 := 0x85EBCA77C2B2AE63
def primeE : UInt64 := 0x27D4EB2F165667C5
def primeShort : UInt64 := 0x9FB21C651E98DF25
def primeFinal : UInt64 := 0x165667919E3779F9

def rotateLeft (x k : UInt64) : UInt64 := (x <<< k) ||| (x >>> (64 - k))

/-- The two halves of the 128-bit product, combined by exclusive or. -/
def mulFold (a b : UInt64) : UInt64 :=
  let p := a.toNat * b.toNat
  UInt64.ofNat p ^^^ UInt64.ofNat (p / Nat.pow 2 64)

def reverseBytes (x : UInt64) : UInt64 :=
  (List.range 8).foldl
    (fun acc i => (acc <<< 8) ||| ((x >>> (8 * UInt64.ofNat i)) &&& 0xff)) 0

/-- Spreads the bits of a finished accumulator. -/
def finish (h : UInt64) : UInt64 :=
  let h := (h ^^^ (h >>> 37)) * primeFinal
  h ^^^ (h >>> 32)

/-- Spreads the bits of the word that stands for at most three bytes. -/
def finishTiny (h : UInt64) : UInt64 :=
  let h := (h ^^^ (h >>> 33)) * primeB
  let h := (h ^^^ (h >>> 29)) * primeC
  h ^^^ (h >>> 32)

/-- One 16-byte block of the input under 16 bytes of the secret. -/
def mixBlock (b : Array UInt8) (at_ key : Nat) : UInt64 :=
  mulFold (word64 b at_ ^^^ word64 secret key) (word64 b (at_ + 8) ^^^ word64 secret (key + 8))

def sum (xs : List UInt64) : UInt64 := xs.foldl (· + ·) 0

/-! ## The regimes -/

def ofEmpty : UInt64 := finishTiny (word64 secret 56 ^^^ word64 secret 64)

/-- One to three bytes. -/
def ofTiny (b : Array UInt8) : UInt64 :=
  let n := b.size
  let packed := (byteAt b 0 <<< 16) ||| (byteAt b (n / 2) <<< 24) ||| byteAt b (n - 1)
    ||| (UInt64.ofNat n <<< 8)
  finishTiny (packed ^^^ (word32 secret 0 ^^^ word32 secret 4))

/-- Four to eight bytes. -/
def ofShort (b : Array UInt8) : UInt64 :=
  let n := b.size
  let x := (word32 b (n - 4) + (word32 b 0 <<< 32)) ^^^ (word64 secret 8 ^^^ word64 secret 16)
  let x := (x ^^^ rotateLeft x 49 ^^^ rotateLeft x 24) * primeShort
  let x := (x ^^^ ((x >>> 35) + UInt64.ofNat n)) * primeShort
  x ^^^ (x >>> 28)

/-- Nine to sixteen bytes. -/
def ofMedium (b : Array UInt8) : UInt64 :=
  let n := b.size
  let low := word64 b 0 ^^^ (word64 secret 24 ^^^ word64 secret 32)
  let high := word64 b (n - 8) ^^^ (word64 secret 40 ^^^ word64 secret 48)
  finish (UInt64.ofNat n + reverseBytes low + high + mulFold low high)

/-- 17 to 128 bytes: block `i` from the front and block `i` from the back, for as many `i` as
the length has started 32-byte spans. -/
def ofSpans (b : Array UInt8) : UInt64 :=
  let n := b.size
  let pairs := (List.range ((n + 31) / 32)).map fun i =>
    mixBlock b (16 * i) (32 * i) + mixBlock b (n - 16 * (i + 1)) (32 * i + 16)
  finish (UInt64.ofNat n * primeA + sum pairs)

/-- 129 to 240 bytes: the first eight blocks, then the others under a shifted key. -/
def ofBlocks (b : Array UInt8) : UInt64 :=
  let n := b.size
  let first := (List.range 8).map fun i => mixBlock b (16 * i) (16 * i)
  let rest := (List.range (n / 16 - 8)).map fun i => mixBlock b (16 * (i + 8)) (16 * i + 3)
  finish (finish (UInt64.ofNat n * primeA + sum first) + sum rest + mixBlock b (n - 16) 119)

/-- The eight running lanes of a long input. -/
abbrev Lanes := List UInt64

def startLanes : Lanes :=
  [prime32C, primeA, primeB, primeC, primeD, prime32B, primeE, prime32A]

/-- Adds one 64-byte stripe: each lane takes the product of the halves of its keyed word and
the plain word of its neighbour. -/
def addStripe (b : Array UInt8) (at_ key : Nat) (lanes : Lanes) : Lanes :=
  lanes.zipIdx.map fun (lane, i) =>
    let neighbour := word64 b (at_ + 8 * (i ^^^ 1))
    let keyed := word64 b (at_ + 8 * i) ^^^ word64 secret (key + 8 * i)
    lane + neighbour + (keyed &&& (0xffffffff : UInt64)) * (keyed >>> (32 : UInt64))

/-- Stripes `0`, `1`, … of the block that starts at `at_`, the key moving on by one word. -/
def addStripes (b : Array UInt8) (at_ count : Nat) (lanes : Lanes) : Lanes :=
  (List.range count).foldl (fun lanes s => addStripe b (at_ + 64 * s) (8 * s) lanes) lanes

def scramble (lanes : Lanes) : Lanes :=
  lanes.zipIdx.map fun (lane, i) =>
    (lane ^^^ (lane >>> 47) ^^^ word64 secret (128 + 8 * i)) * prime32A

/-- Combines the lanes two by two under the secret. -/
def mergeLanes (n : Nat) (lanes : Lanes) : UInt64 :=
  let lane (i : Nat) : UInt64 := lanes[i]?.getD 0
  let folded := (List.range 4).map fun i =>
    mulFold (lane (2 * i) ^^^ word64 secret (11 + 16 * i))
      (lane (2 * i + 1) ^^^ word64 secret (19 + 16 * i))
  finish (UInt64.ofNat n * primeA + sum folded)

/-- More than 240 bytes: full blocks of 16 stripes, the stripes begun after them, and the last
64 bytes once more. -/
def ofLong (b : Array UInt8) : UInt64 :=
  let n := b.size
  let blocks := (n - 1) / 1024
  let lanes := (List.range blocks).foldl
    (fun lanes k => scramble (addStripes b (1024 * k) 16 lanes)) startLanes
  let lanes := addStripes b (1024 * blocks) ((n - 1 - 1024 * blocks) / 64) lanes
  mergeLanes n (addStripe b (n - 64) 121 lanes)

def ofBytes (b : Array UInt8) : UInt64 :=
  let n := b.size
  if n = 0 then ofEmpty
  else if n ≤ 3 then ofTiny b
  else if n ≤ 8 then ofShort b
  else if n ≤ 16 then ofMedium b
  else if n ≤ 128 then ofSpans b
  else if n ≤ 240 then ofBlocks b
  else ofLong b

/-- The hash of a name, taken over its UTF-8 bytes. -/
def ofName (name : String) : UInt64 := ofBytes name.toUTF8.data

end ActorSystem.NameHash
