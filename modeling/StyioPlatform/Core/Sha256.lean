import StyioPlatform.Lib.Sha2

/-! The built-in SHA-256 (`Core/Sha256.cpp`). -/
namespace StyioPlatform.Core

open Sha2 (Word Registers)

def kConstants : List Word :=
  [0x428a2f98, 0x71374491, 0xb5c0fbcf, 0xe9b5dba5, 0x3956c25b, 0x59f111f1, 0x923f82a4, 0xab1c5ed5,
   0xd807aa98, 0x12835b01, 0x243185be, 0x550c7dc3, 0x72be5d74, 0x80deb1fe, 0x9bdc06a7, 0xc19bf174,
   0xe49b69c1, 0xefbe4786, 0x0fc19dc6, 0x240ca1cc, 0x2de92c6f, 0x4a7484aa, 0x5cb0a9dc, 0x76f988da,
   0x983e5152, 0xa831c66d, 0xb00327c8, 0xbf597fc7, 0xc6e00bf3, 0xd5a79147, 0x06ca6351, 0x14292967,
   0x27b70a85, 0x2e1b2138, 0x4d2c6dfc, 0x53380d13, 0x650a7354, 0x766a0abb, 0x81c2c92e, 0x92722c85,
   0xa2bfe8a1, 0xa81a664b, 0xc24b8b70, 0xc76c51a3, 0xd192e819, 0xd6990624, 0xf40e3585, 0x106aa070,
   0x19a4c116, 0x1e376c08, 0x2748774c, 0x34b0bcb5, 0x391c0cb3, 0x4ed8aa4a, 0x5b9cca4f, 0x682e6ff3,
   0x748f82ee, 0x78a5636f, 0x84c87814, 0x8cc70208, 0x90befffa, 0xa4506ceb, 0xbef9a3f7, 0xc67178f2]

def rotateRight (value : Word) (bits : ℕ) : Word := (value >>> bits) ||| (value <<< (32 - bits))

def ch (x y z : Word) : Word := (x &&& y) ^^^ (~~~x &&& z)

def maj (x y z : Word) : Word := (x &&& y) ^^^ (x &&& z) ^^^ (y &&& z)

def bigSigma0 (value : Word) : Word :=
  rotateRight value 2 ^^^ rotateRight value 13 ^^^ rotateRight value 22

def bigSigma1 (value : Word) : Word :=
  rotateRight value 6 ^^^ rotateRight value 11 ^^^ rotateRight value 25

def smallSigma0 (value : Word) : Word :=
  rotateRight value 7 ^^^ rotateRight value 18 ^^^ (value >>> 3)

def smallSigma1 (value : Word) : Word :=
  rotateRight value 17 ^^^ rotateRight value 19 ^^^ (value >>> 10)

/-- A byte of the chunk as a word. -/
def byteOf (chunk : List UInt8) (i : ℕ) : Word := (chunk.getD i 0).toBitVec.setWidth 32

/-- The first loop of `Transform`. -/
def firstWords (chunk : List UInt8) : List Word :=
  (List.range 16).foldl
    (fun schedule index =>
      let base := index * 4
      schedule.set index ((byteOf chunk base <<< 24) ||| (byteOf chunk (base + 1) <<< 16) |||
        (byteOf chunk (base + 2) <<< 8) ||| byteOf chunk (base + 3)))
    (List.replicate 64 0)

/-- The second loop of `Transform`. -/
def laterWords (schedule : List Word) : List Word :=
  (List.range' 16 48).foldl
    (fun schedule index =>
      schedule.set index (smallSigma1 (schedule.getD (index - 2) 0) + schedule.getD (index - 7) 0 +
        smallSigma0 (schedule.getD (index - 15) 0) + schedule.getD (index - 16) 0))
    schedule

/-- The third loop of `Transform`, on `a` to `h`. -/
def rounds (schedule : List Word) (state : Registers) : Registers :=
  (List.range 64).foldl
    (fun r index =>
      let t1 := r.h + bigSigma1 r.e + ch r.e r.f r.g + kConstants.getD index 0 +
        schedule.getD index 0
      let t2 := bigSigma0 r.a + maj r.a r.b r.c
      { h := r.g, g := r.f, f := r.e, e := r.d + t1, d := r.c, c := r.b, b := r.a, a := t1 + t2 })
    state

/-- `Transform`, on `state_`. -/
def transform (state : Registers) (chunk : List UInt8) : Registers :=
  let r := rounds (laterWords (firstWords chunk)) state
  { a := state.a + r.a, b := state.b + r.b, c := state.c + r.c, d := state.d + r.d,
    e := state.e + r.e, f := state.f + r.f, g := state.g + r.g, h := state.h + r.h }

/-- The members of the class; between two calls the buffer is never full. -/
structure Sha256 where
  state : Registers
  buffer : List UInt8
  bufferSize : ℕ
  totalSize : ℕ
  length_buffer : buffer.length = 64
  bufferSize_lt : bufferSize < 64

def Sha256.new : Sha256 where
  state :=
    { a := 0x6a09e667, b := 0xbb67ae85, c := 0x3c6ef372, d := 0xa54ff53a,
      e := 0x510e527f, f := 0x9b05688c, g := 0x1f83d9ab, h := 0x5be0cd19 }
  buffer := List.replicate 64 0
  bufferSize := 0
  totalSize := 0
  length_buffer := by decide
  bufferSize_lt := by decide

/-- How much one round of the loop in `Update` takes of the data that is left. -/
def Sha256.taken (s : Sha256) (data : List UInt8) : ℕ := min (64 - s.bufferSize) data.length

/-- `std::copy_n` to the buffer. -/
def Sha256.filled (s : Sha256) (data : List UInt8) : List UInt8 :=
  s.buffer.take s.bufferSize ++ data.take (s.taken data) ++
    s.buffer.drop (s.bufferSize + s.taken data)

theorem Sha256.length_filled (s : Sha256) (data : List UInt8) : (s.filled data).length = 64 := by
  have hbuffer := s.length_buffer
  have hsize := s.bufferSize_lt
  simp only [filled, taken, List.length_append, List.length_take, List.length_drop]
  omega

/-- One round of the loop in `Update`. -/
def Sha256.fill (s : Sha256) (data : List UInt8) : Sha256 :=
  if h : s.bufferSize + s.taken data = 64 then
    { s with
      state := transform s.state (s.filled data)
      buffer := s.filled data
      bufferSize := 0
      length_buffer := s.length_filled data
      bufferSize_lt := by decide }
  else
    { s with
      buffer := s.filled data
      bufferSize := s.bufferSize + s.taken data
      length_buffer := s.length_filled data
      bufferSize_lt := by
        have := s.bufferSize_lt
        unfold taken at h ⊢
        omega }

/-- The loop of `Update`; the first argument bounds the number of rounds, each of which takes a
byte. -/
def Sha256.fillAll : ℕ → Sha256 → List UInt8 → Sha256
  | 0, s, _ => s
  | bound + 1, s, data =>
    if data = [] then s else (s.fill data).fillAll bound (data.drop (s.taken data))

/-- `Update`. -/
def Sha256.update (s : Sha256) (data : List UInt8) : Sha256 :=
  fillAll data.length { s with totalSize := (s.totalSize + data.length) % 2 ^ 64 } data

/-- The loop that writes `total_bits` at the end of the last block. -/
def putLength (block : List UInt8) (totalBits : ℕ) : List UInt8 :=
  (List.range 8).foldl
    (fun block index => block.set (63 - index) (UInt8.ofNat ((totalBits >>> (index * 8)) &&& 0xff)))
    block

/-- A word as `std::setw(8)` and `std::hex` write it, filled with `0`. -/
def hexWord (word : Word) : List Char :=
  let digits := Nat.toDigits 16 word.toNat
  List.replicate (8 - digits.length) '0' ++ digits

/-- The hash value that `FinalHex` prints. -/
def Sha256.finalState (s : Sha256) : Registers :=
  let block := s.buffer.set s.bufferSize 0x80
  let size := s.bufferSize + 1
  if 56 < size then
    let state := transform s.state (block.take size ++ List.replicate (64 - size) 0)
    transform state (putLength (List.replicate 64 0) (s.totalSize * 8 % 2 ^ 64))
  else
    let block := block.take size ++ List.replicate (56 - size) 0 ++ block.drop 56
    transform s.state (putLength block (s.totalSize * 8 % 2 ^ 64))

def Sha256.finalHex (s : Sha256) : List Char := s.finalState.words.flatMap hexWord

example : (Sha256.new.update "abc".toUTF8.toList).finalHex =
    "ba7816bf8f01cfea414140de5dae2223b00361a396177a9cb410ff61f20015ad".toList := by decide +kernel

/-- A file, and how many of its bytes can be read. -/
structure InputFile where
  opens : Bool
  content : List UInt8
  readable : ℕ

/-- The loop of `Sha256File`, on the bytes that can be read and are left; a read that ends with less
than a buffer is the last one. The first argument bounds the number of rounds. -/
def readLoop : ℕ → Sha256 → List UInt8 → Sha256
  | 0, s, _ => s
  | bound + 1, s, left =>
    let s := if left = [] then s else s.update (left.take 8192)
    if left.length < 8192 then s else readLoop bound s (left.drop 8192)

/-- `Sha256File`; reading stops before the end where the device fails. -/
def sha256File (path : String) (file : InputFile) : Except String (List Char) :=
  if !file.opens then .error ("failed to open file for sha256: " ++ path)
  else
    let available := file.content.take file.readable
    let s := readLoop (available.length + 1) Sha256.new available
    if file.readable < file.content.length then
      .error ("failed while reading file for sha256: " ++ path)
    else .ok s.finalHex

end StyioPlatform.Core
