import ChainLedger.Bytes

/-!
# SHA-256 and SHA-512

The two hash functions share one construction over words of four or eight bytes:
the message is padded to whole blocks of sixteen words, each block is expanded to
one word per round, and the rounds are added to the state. They differ in the word,
the number of rounds and the shift distances; the constants of the shorter words are
the high halves of those of the longer.
-/

namespace ChainLedger.Digest

/-! ## The construction -/

/-- The eight working words. -/
structure Sha2.State (W : Type) where
  a : W
  b : W
  c : W
  d : W
  e : W
  f : W
  g : W
  h : W

/-- What one member of the family fixes. -/
structure Sha2 (W : Type) where
  /-- Bytes in a word. -/
  wordSize : Nat
  ofNat : Nat → W
  toNat : W → Nat
  initial : Sha2.State W
  /-- One constant per round. -/
  constants : List W
  /-- Mixing functions of the rounds, of the first and the fifth working word. -/
  bigSigma0 : W → W
  bigSigma1 : W → W
  /-- Mixing functions of the message expansion. -/
  smallSigma0 : W → W
  smallSigma1 : W → W

namespace Sha2

variable {W : Type} [Add W] [AndOp W] [XorOp W] [Complement W]

/-- One round, with the sum of its constant and its message word. -/
@[specialize] def round (sha : Sha2 W) (s : State W) (input : W) : State W :=
  let choice := (s.e &&& s.f) ^^^ (~~~s.e &&& s.g)
  let majority := (s.a &&& s.b) ^^^ (s.a &&& s.c) ^^^ (s.b &&& s.c)
  let t1 := s.h + sha.bigSigma1 s.e + choice + input
  let t2 := sha.bigSigma0 s.a + majority
  ⟨t1 + t2, s.a, s.b, s.c, s.d + t1, s.e, s.f, s.g⟩

/-- The next word of the message expansion, from the last sixteen, oldest first. -/
@[specialize] def nextWord (sha : Sha2 W) (window : Vector W 16) : W :=
  sha.smallSigma1 (window.get ⟨14, Nat.le_of_ble_eq_true rfl⟩) +
    window.get ⟨9, Nat.le_of_ble_eq_true rfl⟩ +
    sha.smallSigma0 (window.get ⟨1, Nat.le_of_ble_eq_true rfl⟩) +
    window.get ⟨0, Nat.le_of_ble_eq_true rfl⟩

/-- The last sixteen words after one more. -/
def slide (window : Vector W 16) (word : W) : Vector W 16 :=
  Vector.ofFn fun i => if h : i.val < 15 then window[i.val + 1] else word

/-- The rounds of one block. -/
@[specialize] def rounds (sha : Sha2 W) : List W → Vector W 16 → State W → State W
  | [], _, s => s
  | k :: ks, window, s =>
    rounds sha ks (slide window (nextWord sha window)) (round sha s (window[0] + k))

/-- The state after one more block. -/
@[specialize] def compress (sha : Sha2 W) (s : State W) (block : Bytes) : State W :=
  let words := ((chunks sha.wordSize block).map fun b => sha.ofNat (ofBigEndian b)).toArray
  let r := rounds sha sha.constants (Vector.ofFn fun i => words.getD i.val (sha.ofNat 0)) s
  ⟨s.a + r.a, s.b + r.b, s.c + r.c, s.d + r.d, s.e + r.e, s.f + r.f, s.g + r.g, s.h + r.h⟩

/-- The message followed by one set bit, zeros to the end of a block, and the length
in bits in the last two words. -/
def padded (sha : Sha2 W) (message : Bytes) : Bytes :=
  let blockSize := 16 * sha.wordSize
  let lengthSize := 2 * sha.wordSize
  let used := (message.length + 1 + lengthSize) % blockSize
  message ++ 0x80 :: List.replicate ((blockSize - used) % blockSize) 0 ++
    bigEndian lengthSize (8 * message.length)

/-- The words of a state in order, most significant byte first. -/
def digestBytes (sha : Sha2 W) (s : State W) : Bytes :=
  [s.a, s.b, s.c, s.d, s.e, s.f, s.g, s.h].flatMap fun w => bigEndian sha.wordSize (sha.toNat w)

omit [Add W] [AndOp W] [XorOp W] [Complement W] in
theorem length_digestBytes (sha : Sha2 W) (s : State W) :
    (sha.digestBytes s).length = 8 * sha.wordSize := by
  simp [digestBytes]
  omega

@[specialize] def hash (sha : Sha2 W) (message : Bytes) : Bytes :=
  sha.digestBytes ((chunks (16 * sha.wordSize) (sha.padded message)).foldl sha.compress sha.initial)

end Sha2

/-! ## The two members -/

/-- The first 64 bits of the fractional parts of the cube roots of the first eighty primes. -/
def cubeRootWords : List UInt64 := [
  0x428a2f98d728ae22, 0x7137449123ef65cd, 0xb5c0fbcfec4d3b2f, 0xe9b5dba58189dbbc,
  0x3956c25bf348b538, 0x59f111f1b605d019, 0x923f82a4af194f9b, 0xab1c5ed5da6d8118,
  0xd807aa98a3030242, 0x12835b0145706fbe, 0x243185be4ee4b28c, 0x550c7dc3d5ffb4e2,
  0x72be5d74f27b896f, 0x80deb1fe3b1696b1, 0x9bdc06a725c71235, 0xc19bf174cf692694,
  0xe49b69c19ef14ad2, 0xefbe4786384f25e3, 0x0fc19dc68b8cd5b5, 0x240ca1cc77ac9c65,
  0x2de92c6f592b0275, 0x4a7484aa6ea6e483, 0x5cb0a9dcbd41fbd4, 0x76f988da831153b5,
  0x983e5152ee66dfab, 0xa831c66d2db43210, 0xb00327c898fb213f, 0xbf597fc7beef0ee4,
  0xc6e00bf33da88fc2, 0xd5a79147930aa725, 0x06ca6351e003826f, 0x142929670a0e6e70,
  0x27b70a8546d22ffc, 0x2e1b21385c26c926, 0x4d2c6dfc5ac42aed, 0x53380d139d95b3df,
  0x650a73548baf63de, 0x766a0abb3c77b2a8, 0x81c2c92e47edaee6, 0x92722c851482353b,
  0xa2bfe8a14cf10364, 0xa81a664bbc423001, 0xc24b8b70d0f89791, 0xc76c51a30654be30,
  0xd192e819d6ef5218, 0xd69906245565a910, 0xf40e35855771202a, 0x106aa07032bbd1b8,
  0x19a4c116b8d2d0c8, 0x1e376c085141ab53, 0x2748774cdf8eeb99, 0x34b0bcb5e19b48a8,
  0x391c0cb3c5c95a63, 0x4ed8aa4ae3418acb, 0x5b9cca4f7763e373, 0x682e6ff3d6b2b8a3,
  0x748f82ee5defb2fc, 0x78a5636f43172f60, 0x84c87814a1f0ab72, 0x8cc702081a6439ec,
  0x90befffa23631e28, 0xa4506cebde82bde9, 0xbef9a3f7b2c67915, 0xc67178f2e372532b,
  0xca273eceea26619c, 0xd186b8c721c0c207, 0xeada7dd6cde0eb1e, 0xf57d4f7fee6ed178,
  0x06f067aa72176fba, 0x0a637dc5a2c898a6, 0x113f9804bef90dae, 0x1b710b35131c471b,
  0x28db77f523047d84, 0x32caab7b40c72493, 0x3c9ebe0a15c9bebc, 0x431d67c49c100d4c,
  0x4cc5d4becb3e42b6, 0x597f299cfc657e2a, 0x5fcb6fab3ad6faec, 0x6c44198c4a475817]

/-- The first 64 bits of the fractional parts of the square roots of the first eight primes. -/
def squareRootWords : Sha2.State UInt64 where
  a := 0x6a09e667f3bcc908
  b := 0xbb67ae8584caa73b
  c := 0x3c6ef372fe94f82b
  d := 0xa54ff53a5f1d36f1
  e := 0x510e527fade682d1
  f := 0x9b05688c2b3e6c1f
  g := 0x1f83d9abfb41bd6b
  h := 0x5be0cd19137e2179

/-- The high half of a word. -/
def highHalf (w : UInt64) : UInt32 := (w >>> 32).toUInt32

def rotateRight32 (w : UInt32) (n : UInt32) : UInt32 := (w >>> n) ||| (w <<< (32 - n))

def rotateRight64 (w : UInt64) (n : UInt64) : UInt64 := (w >>> n) ||| (w <<< (64 - n))

/-- SHA-256: words of four bytes, sixty-four rounds. -/
def sha256Family : Sha2 UInt32 where
  wordSize := 4
  ofNat := UInt32.ofNat
  toNat := UInt32.toNat
  initial :=
    let s := squareRootWords
    ⟨highHalf s.a, highHalf s.b, highHalf s.c, highHalf s.d,
      highHalf s.e, highHalf s.f, highHalf s.g, highHalf s.h⟩
  constants := (cubeRootWords.take 64).map highHalf
  bigSigma0 w := rotateRight32 w 2 ^^^ rotateRight32 w 13 ^^^ rotateRight32 w 22
  bigSigma1 w := rotateRight32 w 6 ^^^ rotateRight32 w 11 ^^^ rotateRight32 w 25
  smallSigma0 w := rotateRight32 w 7 ^^^ rotateRight32 w 18 ^^^ (w >>> 3)
  smallSigma1 w := rotateRight32 w 17 ^^^ rotateRight32 w 19 ^^^ (w >>> 10)

/-- SHA-512: words of eight bytes, eighty rounds. -/
def sha512Family : Sha2 UInt64 where
  wordSize := 8
  ofNat := UInt64.ofNat
  toNat := UInt64.toNat
  initial := squareRootWords
  constants := cubeRootWords
  bigSigma0 w := rotateRight64 w 28 ^^^ rotateRight64 w 34 ^^^ rotateRight64 w 39
  bigSigma1 w := rotateRight64 w 14 ^^^ rotateRight64 w 18 ^^^ rotateRight64 w 41
  smallSigma0 w := rotateRight64 w 1 ^^^ rotateRight64 w 8 ^^^ (w >>> 7)
  smallSigma1 w := rotateRight64 w 19 ^^^ rotateRight64 w 61 ^^^ (w >>> 6)

/-- The SHA-256 hash of a message. -/
def sha256 (message : Bytes) : FixedBytes 32 :=
  ⟨sha256Family.hash message, Sha2.length_digestBytes ..⟩

/-- The SHA-512 hash of a message. -/
def sha512 (message : Bytes) : FixedBytes 64 :=
  ⟨sha512Family.hash message, Sha2.length_digestBytes ..⟩

/-- The SHA-256 hash of the SHA-256 hash. -/
def doubleSha256 (message : Bytes) : FixedBytes 32 := sha256 (sha256 message).bytes

end ChainLedger.Digest
