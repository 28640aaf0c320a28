import Mathlib.Data.List.Basic
import Mathlib.Data.Nat.Prime.Basic
import Mathlib.Tactic.NormNum

/-! SHA-256 as FIPS 180-4 defines it, of messages of whole bytes, and how the hash of the complete
blocks of a message changes when the message grows. -/
namespace StyioPlatform.Sha2

abbrev Word := BitVec 32

/-- The working variables, and the words of a hash value. -/
@[ext] structure Registers where
  a : Word
  b : Word
  c : Word
  d : Word
  e : Word
  f : Word
  g : Word
  h : Word
  deriving DecidableEq

def ch (x y z : Word) : Word := (x &&& y) ^^^ (~~~x &&& z)

def maj (x y z : Word) : Word := (x &&& y) ^^^ (x &&& z) ^^^ (y &&& z)

def bigSigma0 (x : Word) : Word := x.rotateRight 2 ^^^ x.rotateRight 13 ^^^ x.rotateRight 22

def bigSigma1 (x : Word) : Word := x.rotateRight 6 ^^^ x.rotateRight 11 ^^^ x.rotateRight 25

def smallSigma0 (x : Word) : Word := x.rotateRight 7 ^^^ x.rotateRight 18 ^^^ x >>> 3

def smallSigma1 (x : Word) : Word := x.rotateRight 17 ^^^ x.rotateRight 19 ^^^ x >>> 10

/-- The first 64 primes. -/
def primes : List ℕ := (List.range 312).filter Nat.Prime

/-- The constants `K`. -/
def roundConstants : List Word :=
  [0x428a2f98, 0x71374491, 0xb5c0fbcf, 0xe9b5dba5, 0x3956c25b, 0x59f111f1, 0x923f82a4, 0xab1c5ed5,
   0xd807aa98, 0x12835b01, 0x243185be, 0x550c7dc3, 0x72be5d74, 0x80deb1fe, 0x9bdc06a7, 0xc19bf174,
   0xe49b69c1, 0xefbe4786, 0x0fc19dc6, 0x240ca1cc, 0x2de92c6f, 0x4a7484aa, 0x5cb0a9dc, 0x76f988da,
   0x983e5152, 0xa831c66d, 0xb00327c8, 0xbf597fc7, 0xc6e00bf3, 0xd5a79147, 0x06ca6351, 0x14292967,
   0x27b70a85, 0x2e1b2138, 0x4d2c6dfc, 0x53380d13, 0x650a7354, 0x766a0abb, 0x81c2c92e, 0x92722c85,
   0xa2bfe8a1, 0xa81a664b, 0xc24b8b70, 0xc76c51a3, 0xd192e819, 0xd6990624, 0xf40e3585, 0x106aa070,
   0x19a4c116, 0x1e376c08, 0x2748774c, 0x34b0bcb5, 0x391c0cb3, 0x4ed8aa4a, 0x5b9cca4f, 0x682e6ff3,
   0x748f82ee, 0x78a5636f, 0x84c87814, 0x8cc70208, 0x90befffa, 0xa4506ceb, 0xbef9a3f7, 0xc67178f2]

def initialHash : Registers where
  a := 0x6a09e667
  b := 0xbb67ae85
  c := 0x3c6ef372
  d := 0xa54ff53a
  e := 0x510e527f
  f := 0x9b05688c
  g := 0x1f83d9ab
  h := 0x5be0cd19

def Registers.words (r : Registers) : List Word := [r.a, r.b, r.c, r.d, r.e, r.f, r.g, r.h]

/-- The word holds the first 32 bits of the fractional part of the `k`-th root of `p`, whose integer
part is one of those given. -/
def IsRootFraction (integerParts : List ℕ) (k p : ℕ) (w : Word) : Prop :=
  ∃ i ∈ integerParts, (i * 2 ^ 32 + w.toNat) ^ k ≤ p * 2 ^ (32 * k) ∧
    p * 2 ^ (32 * k) < (i * 2 ^ 32 + w.toNat + 1) ^ k

instance (integerParts : List ℕ) (k p : ℕ) (w : Word) : Decidable (IsRootFraction integerParts k p w) :=
  inferInstanceAs (Decidable (∃ i ∈ integerParts, _ ∧ _))

/-- The constants come from the cube roots of the primes. -/
theorem roundConstants_roots :
    List.Forall₂ (IsRootFraction (List.range 8) 3) primes roundConstants := by
  decide +kernel

/-- The initial hash value comes from the square roots of the first primes. -/
theorem initialHash_roots :
    List.Forall₂ (IsRootFraction (List.range 8) 2) (primes.take 8) initialHash.words := by
  decide +kernel

/-- The word of the block that starts at a byte. -/
def wordAt (block : List UInt8) (start : ℕ) : Word :=
  (block.getD start 0).toBitVec ++ (block.getD (start + 1) 0).toBitVec ++
    (block.getD (start + 2) 0).toBitVec ++ (block.getD (start + 3) 0).toBitVec

/-- The message schedule. -/
def schedule (block : List UInt8) (t : ℕ) : Word :=
  if t < 16 then wordAt block (4 * t)
  else smallSigma1 (schedule block (t - 2)) + schedule block (t - 7) +
    smallSigma0 (schedule block (t - 15)) + schedule block (t - 16)

/-- One of the 64 rounds. -/
def round (r : Registers) (k w : Word) : Registers :=
  let t1 := r.h + bigSigma1 r.e + ch r.e r.f r.g + k + w
  let t2 := bigSigma0 r.a + maj r.a r.b r.c
  { a := t1 + t2, b := r.a, c := r.b, d := r.c, e := r.d + t1, f := r.e, g := r.f, h := r.g }

def Registers.add (r s : Registers) : Registers where
  a := r.a + s.a
  b := r.b + s.b
  c := r.c + s.c
  d := r.d + s.d
  e := r.e + s.e
  f := r.f + s.f
  g := r.g + s.g
  h := r.h + s.h

/-- The hash value after a block of 64 bytes. -/
def compress (hash : Registers) (block : List UInt8) : Registers :=
  ((List.range 64).foldl
    (fun r t => round r (roundConstants.getD t 0) (schedule block t)) hash).add hash

def blockAt (message : List UInt8) (i : ℕ) : List UInt8 := (message.drop (64 * i)).take 64

/-- The hash value after the complete blocks of a message. -/
def hashBlocks (message : List UInt8) : Registers :=
  (List.range (message.length / 64)).foldl (fun hash i => compress hash (blockAt message i))
    initialHash

/-- How many zero bytes the padding has. -/
def zeroCount (length : ℕ) : ℕ := (119 - length % 64) % 64

/-- The length in bits as a number of 64 bits, the most significant byte first. -/
def lengthBytes (bits : ℕ) : List UInt8 := (List.range 8).map fun i => UInt8.ofNat (bits / 256 ^ (7 - i))

def pad (message : List UInt8) : List UInt8 :=
  message ++ 0x80 :: (List.replicate (zeroCount message.length) 0 ++ lengthBytes (8 * message.length))

/-- The bytes of a word, the most significant one first. -/
def bytesOf (w : Word) : List UInt8 :=
  [⟨w.extractLsb' 24 8⟩, ⟨w.extractLsb' 16 8⟩, ⟨w.extractLsb' 8 8⟩, ⟨w.extractLsb' 0 8⟩]

/-- The digest of a message shorter than 2 ^ 64 bits. -/
def digest (message : List UInt8) : List UInt8 := (hashBlocks (pad message)).words.flatMap bytesOf

/-- Bytes in lowercase hexadecimal. -/
def hex (bytes : List UInt8) : List Char :=
  bytes.flatMap fun byte => [Nat.digitChar (byte.toNat / 16), Nat.digitChar (byte.toNat % 16)]

variable {message block : List UInt8} {t : ℕ}

theorem schedule_of_lt (h : t < 16) : schedule block t = wordAt block (4 * t) := by
  rw [schedule, if_pos h]

theorem schedule_of_le (h : 16 ≤ t) : schedule block t =
    smallSigma1 (schedule block (t - 2)) + schedule block (t - 7) +
      smallSigma0 (schedule block (t - 15)) + schedule block (t - 16) := by
  rw [schedule, if_neg (by omega)]

/-- The padding is the shortest one that leaves room for the length in the last block. -/
theorem zeroCount_spec (length : ℕ) : (length + 1 + zeroCount length) % 64 = 56 ∧
    ∀ zeros, (length + 1 + zeros) % 64 = 56 → zeroCount length ≤ zeros := by
  unfold zeroCount
  refine ⟨by omega, fun zeros h => ?_⟩
  omega

theorem blockAt_append {i : ℕ} (h : 64 * i + 64 ≤ message.length) :
    blockAt (message ++ block) i = blockAt message i := by
  rw [blockAt, blockAt, List.drop_append_of_le_length (by omega),
    List.take_append_of_le_length (by rw [List.length_drop]; omega)]

/-- Another block is hashed after the blocks before it. -/
theorem hashBlocks_append (hmessage : 64 ∣ message.length) (hblock : block.length = 64) :
    hashBlocks (message ++ block) = compress (hashBlocks message) block := by
  obtain ⟨n, hn⟩ := hmessage
  have hcount : (message ++ block).length / 64 = n + 1 := by
    rw [List.length_append]
    omega
  have hlast : blockAt (message ++ block) n = block := by
    rw [blockAt, List.drop_append_of_le_length (by omega), List.drop_of_length_le (by omega),
      List.nil_append, List.take_of_length_le (by omega)]
  have hbefore : hashBlocks message = (List.range n).foldl
      (fun hash i => compress hash (blockAt (message ++ block) i)) initialHash := by
    rw [hashBlocks, show message.length / 64 = n by omega]
    refine List.foldl_ext _ _ _ fun hash i hi => ?_
    have := List.mem_range.mp hi
    rw [blockAt_append (by omega)]
  rw [hashBlocks, hcount, List.range_succ, List.foldl_append, ← hbefore, List.foldl_cons,
    List.foldl_nil, hlast]

theorem hashBlocks_nil : hashBlocks [] = initialHash := rfl

end StyioPlatform.Sha2
