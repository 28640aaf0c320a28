import StyioPlatform.Core.Sha256

/-! The built-in SHA-256 is that of the standard, however the message is divided. -/
namespace StyioPlatform.Core

open Sha2 (Word Registers)

section Transform

variable {chunk : List UInt8} {state : Registers}

theorem kConstants_eq : kConstants = Sha2.roundConstants := rfl

theorem rotateRight_eq (x : Word) {bits : ℕ} (h : bits < 32) :
    rotateRight x bits = x.rotateRight bits := by
  rw [BitVec.rotateRight_def, Nat.mod_eq_of_lt h]
  rfl

theorem bigSigma0_eq (x : Word) : bigSigma0 x = Sha2.bigSigma0 x := by
  simp only [bigSigma0, Sha2.bigSigma0, rotateRight_eq x (show 2 < 32 by decide),
    rotateRight_eq x (show 13 < 32 by decide), rotateRight_eq x (show 22 < 32 by decide)]

theorem bigSigma1_eq (x : Word) : bigSigma1 x = Sha2.bigSigma1 x := by
  simp only [bigSigma1, Sha2.bigSigma1, rotateRight_eq x (show 6 < 32 by decide),
    rotateRight_eq x (show 11 < 32 by decide), rotateRight_eq x (show 25 < 32 by decide)]

theorem smallSigma0_eq (x : Word) : smallSigma0 x = Sha2.smallSigma0 x := by
  simp only [smallSigma0, Sha2.smallSigma0, rotateRight_eq x (show 7 < 32 by decide),
    rotateRight_eq x (show 18 < 32 by decide)]

theorem smallSigma1_eq (x : Word) : smallSigma1 x = Sha2.smallSigma1 x := by
  simp only [smallSigma1, Sha2.smallSigma1, rotateRight_eq x (show 17 < 32 by decide),
    rotateRight_eq x (show 19 < 32 by decide)]

/-- Four bytes that are shifted into place are the bytes of a word. -/
theorem shiftedBytes_eq (x y z w : BitVec 8) :
    (x.setWidth 32 <<< 24) ||| (y.setWidth 32 <<< 16) ||| (z.setWidth 32 <<< 8) ||| w.setWidth 32 =
      (x ++ y ++ z ++ w : BitVec 32) := by
  have hhigh : ∀ (v : BitVec 8) (k : ℕ), 8 ≤ k → v.getLsbD k = false :=
    fun v k hk => BitVec.getLsbD_of_ge v k hk
  apply BitVec.eq_of_getLsbD_eq
  intro i hi
  simp only [BitVec.getLsbD_or, BitVec.getLsbD_shiftLeft, BitVec.getLsbD_setWidth,
    BitVec.getLsbD_append]
  rcases (by omega : i < 8 ∨ (8 ≤ i ∧ i < 16) ∨ (16 ≤ i ∧ i < 24) ∨ 24 ≤ i) with
    h | ⟨h, h'⟩ | ⟨h, h'⟩ | h
  · simp [h, hi, show i < 16 by omega, show i < 24 by omega]
  · simp [h', hi, hhigh w i h, show ¬ i < 8 by omega, show i < 24 by omega, show i - 8 < 8 by omega,
      show i - 8 < 32 by omega]
  · simp [h', hi, hhigh w i (by omega), hhigh z (i - 8) (by omega), show ¬ i < 8 by omega,
      show ¬ i < 16 by omega, show ¬ i - 8 < 8 by omega, show i - 16 < 8 by omega, show i - 16 < 32 by omega, Nat.sub_sub]
  · simp [hi, hhigh w i (by omega), hhigh z (i - 8) (by omega), hhigh y (i - 16) (by omega),
      show ¬ i < 8 by omega, show ¬ i < 16 by omega, show ¬ i < 24 by omega,
      show ¬ i - 8 < 8 by omega, show ¬ i - 16 < 8 by omega, show i - 24 < 32 by omega,
      Nat.sub_sub]

/-- Writing one entry after the other, each from the entries before it. -/
theorem getD_foldl_set {α : Type} {d : α} (value : List α → ℕ → α) (wanted : ℕ → α)
    {start count size : ℕ} {l : List α} (hlength : l.length = size) (hfits : start + count ≤ size)
    (hstart : ∀ t < start, l.getD t d = wanted t)
    (hvalue : ∀ (l' : List α) (i : ℕ), start ≤ i → (∀ t < i, l'.getD t d = wanted t) →
      value l' i = wanted i) :
    ((List.range' start count).foldl (fun l i => l.set i (value l i)) l).length = size ∧
      ∀ t < start + count, ((List.range' start count).foldl (fun l i => l.set i (value l i)) l).getD t
        d = wanted t := by
  induction count with
  | zero => exact ⟨hlength, hstart⟩
  | succ count ih =>
    obtain ⟨hsize, hbefore⟩ := ih (by omega)
    rw [List.range'_concat, List.foldl_append, Nat.one_mul, List.foldl_cons, List.foldl_nil]
    refine ⟨by rw [List.length_set, hsize], fun t ht => ?_⟩
    rcases eq_or_ne t (start + count) with rfl | hne
    · rw [List.getD_eq_getElem?_getD, List.getElem?_set_self (by omega), Option.getD_some]
      exact hvalue _ _ (by omega) hbefore
    · rw [List.getD_eq_getElem?_getD, List.getElem?_set_ne (Ne.symm hne), ← List.getD_eq_getElem?_getD]
      exact hbefore t (by omega)

/-- The word that the first loop reads. -/
def firstWord (chunk : List UInt8) (index : ℕ) : Word :=
  (byteOf chunk (index * 4) <<< 24) ||| (byteOf chunk (index * 4 + 1) <<< 16) |||
    (byteOf chunk (index * 4 + 2) <<< 8) ||| byteOf chunk (index * 4 + 3)

theorem firstWord_eq (t : ℕ) : firstWord chunk t = Sha2.wordAt chunk (4 * t) := by
  rw [Nat.mul_comm]
  exact shiftedBytes_eq _ _ _ _

theorem firstWords_spec : (firstWords chunk).length = 64 ∧
    ∀ t < 16, (firstWords chunk).getD t 0 = Sha2.wordAt chunk (4 * t) := by
  have hfirst : firstWords chunk = (List.range' 0 16).foldl
      (fun l i => l.set i (firstWord chunk i)) (List.replicate 64 0) := by
    rw [firstWords, List.range_eq_range']
    rfl
  have hwritten := getD_foldl_set (d := (0 : Word)) (fun _ => firstWord chunk)
    (fun t => Sha2.wordAt chunk (4 * t)) (List.length_replicate (n := 64) (a := (0 : Word)))
    (show 0 + 16 ≤ 64 by omega) (fun t ht => absurd ht (Nat.not_lt_zero t))
    (fun _ i _ _ => firstWord_eq i)
  rw [hfirst]
  exact ⟨hwritten.1, fun t ht => hwritten.2 t (by omega)⟩

/-- The schedule of the code is that of the standard. -/
theorem laterWords_spec {t : ℕ} (h : t < 64) :
    (laterWords (firstWords chunk)).getD t 0 = Sha2.schedule chunk t := by
  obtain ⟨hlength, hfirst⟩ := @firstWords_spec chunk
  refine (getD_foldl_set _ (Sha2.schedule chunk) hlength (by omega) (fun t ht => ?_)
    (fun l i hi hbefore => ?_)).2 t (by omega)
  · rw [hfirst t ht, Sha2.schedule_of_lt ht]
  · rw [Sha2.schedule_of_le hi, hbefore _ (by omega), hbefore _ (by omega), hbefore _ (by omega),
      hbefore _ (by omega), smallSigma0_eq, smallSigma1_eq]

/-- `Transform` is the compression of the standard. -/
theorem transform_eq : transform state chunk = Sha2.compress state chunk := by
  have hrounds : rounds (laterWords (firstWords chunk)) state = (List.range 64).foldl
      (fun r t => Sha2.round r (Sha2.roundConstants.getD t 0) (Sha2.schedule chunk t)) state := by
    refine List.foldl_ext _ _ _ fun r t ht => ?_
    dsimp only
    rw [laterWords_spec (List.mem_range.mp ht), bigSigma0_eq, bigSigma1_eq, kConstants_eq]
    rfl
  rw [transform, hrounds, Sha2.compress]
  simp only [Registers.add, BitVec.add_comm]

end Transform

section Blocks

variable {s : Sha256} {message data : List UInt8}

/-- The message is the blocks that were hashed and the bytes that wait in the buffer. -/
def Absorbed (s : Sha256) (message : List UInt8) : Prop :=
  ∃ hashed, 64 ∣ hashed.length ∧ message = hashed ++ s.buffer.take s.bufferSize ∧
    s.state = Sha2.hashBlocks hashed

theorem absorbed_new : Absorbed Sha256.new [] := ⟨[], by decide, rfl, rfl⟩

theorem length_take_buffer : (s.buffer.take s.bufferSize).length = s.bufferSize := by
  have hlength := s.length_buffer
  have hlt := s.bufferSize_lt
  rw [List.length_take]
  omega

/-- One round of the loop adds what it takes. -/
theorem absorbed_fill (h : Absorbed s message) :
    Absorbed (s.fill data) (message ++ data.take (s.taken data)) := by
  obtain ⟨hashed, hdivides, rfl, hstate⟩ := h
  have hbuffer := s.length_buffer
  have htake := length_take_buffer (s := s)
  have htaken : (data.take (s.taken data)).length = s.taken data := by
    rw [List.length_take, Sha256.taken]
    omega
  unfold Sha256.fill
  split
  · next hfull =>
    -- the buffer is full, and its block is hashed
    have hblock : s.filled data = s.buffer.take s.bufferSize ++ data.take (s.taken data) := by
      rw [Sha256.filled, hfull, List.drop_of_length_le (by omega), List.append_nil]
    refine ⟨hashed ++ s.filled data, ?_, ?_, ?_⟩
    · rw [List.length_append, s.length_filled data]
      omega
    · simp only [List.take_zero, List.append_nil, hblock, List.append_assoc]
    · rw [Sha2.hashBlocks_append hdivides (s.length_filled data), ← hstate]
      exact transform_eq
  · refine ⟨hashed, hdivides, ?_, hstate⟩
    change hashed ++ _ ++ _ = hashed ++ (s.filled data).take (s.bufferSize + s.taken data)
    have hfilled : (s.buffer.take s.bufferSize ++ data.take (s.taken data)).length =
        s.bufferSize + s.taken data := by rw [List.length_append, htake, htaken]
    unfold Sha256.filled
    rw [List.append_assoc, List.take_append_of_le_length hfilled.ge,
      List.take_of_length_le hfilled.le]

theorem absorbed_fillAll {bound : ℕ} (hbound : data.length ≤ bound) (h : Absorbed s message) :
    Absorbed (s.fillAll bound data) (message ++ data) := by
  induction bound generalizing s message data with
  | zero =>
    obtain rfl : data = [] := List.length_eq_zero_iff.mp (by omega)
    rwa [List.append_nil]
  | succ bound ih =>
    rw [Sha256.fillAll]
    split
    · next hnil => rwa [hnil, List.append_nil]
    · next hne =>
      have hpos : 0 < s.taken data := by
        have := s.bufferSize_lt
        have := List.length_pos_of_ne_nil hne
        unfold Sha256.taken
        omega
      have hleft : (data.drop (s.taken data)).length ≤ bound := by
        rw [List.length_drop]
        omega
      have hround : Absorbed (s.fill data) (message ++ data.take (s.taken data)) := absorbed_fill h
      have hrest := ih hleft hround
      rwa [List.append_assoc, List.take_append_drop] at hrest

theorem totalSize_fillAll {bound : ℕ} : (s.fillAll bound data).totalSize = s.totalSize := by
  induction bound generalizing s data with
  | zero => rfl
  | succ bound ih =>
    rw [Sha256.fillAll]
    split
    · rfl
    · rw [ih, Sha256.fill]
      split <;> rfl

/-- What the object knows of the message so far. -/
def Holds (s : Sha256) (message : List UInt8) : Prop :=
  Absorbed s message ∧ s.totalSize = message.length % 2 ^ 64

theorem holds_update (h : Holds s message) : Holds (s.update data) (message ++ data) := by
  refine ⟨absorbed_fillAll le_rfl h.1, ?_⟩
  rw [Sha256.update, totalSize_fillAll, List.length_append]
  change (s.totalSize + data.length) % 2 ^ 64 = _
  rw [h.2, Nat.mod_add_mod]

/-- Any number of calls add up to the message they were given. -/
theorem holds_foldl {divisions : List (List UInt8)} (h : Holds s message) :
    Holds (divisions.foldl Sha256.update s) (message ++ divisions.flatten) := by
  induction divisions generalizing s message with
  | nil => rwa [List.flatten_nil, List.append_nil]
  | cons data divisions ih =>
    rw [List.flatten_cons, ← List.append_assoc]
    exact ih (holds_update h)

end Blocks

section Padding

variable {s : Sha256} {message : List UInt8}

/-- A byte of the length, cut out by shifts. -/
theorem lengthByte_eq (bits i : ℕ) :
    UInt8.ofNat ((bits >>> (i * 8)) &&& 0xff) = UInt8.ofNat (bits / 256 ^ i) := by
  have hpow : 2 ^ (i * 8) = 256 ^ i := by rw [Nat.mul_comm, Nat.pow_mul]
  have hmask : ∀ n, n &&& 0xff = n % 256 := fun n => Nat.and_two_pow_sub_one_eq_mod n 8
  rw [Nat.shiftRight_eq_div_pow, hpow, hmask]
  exact UInt8.ofNat_mod_size

/-- The length goes to the last eight bytes of the block. -/
theorem putLength_eq {block rest : List UInt8} {bits : ℕ} (hblock : block.length = 56)
    (hrest : rest.length = 8) : putLength (block ++ rest) bits = block ++ Sha2.lengthBytes bits := by
  have hset : ∀ (tail : List UInt8) (i : ℕ) (v : UInt8), i < 8 →
      (block ++ tail).set (63 - i) v = block ++ tail.set (7 - i) v := by
    intro tail i v hi
    rw [List.set_append_right _ _ (by omega), show 63 - i - block.length = 7 - i by omega]
  obtain ⟨a, b, c, d, e, f, g, h, rfl⟩ : ∃ a b c d e f g h, rest = [a, b, c, d, e, f, g, h] := by
    match rest, hrest with
    | [a, b, c, d, e, f, g, h], _ => exact ⟨a, b, c, d, e, f, g, h, rfl⟩
  simp only [putLength, lengthByte_eq, show List.range 8 = [0, 1, 2, 3, 4, 5, 6, 7] from rfl,
    List.foldl_cons, List.foldl_nil]
  rw [hset _ 0 _ (by omega), hset _ 1 _ (by omega), hset _ 2 _ (by omega), hset _ 3 _ (by omega),
    hset _ 4 _ (by omega), hset _ 5 _ (by omega), hset _ 6 _ (by omega), hset _ 7 _ (by omega)]
  rfl

/-- The last blocks are those of the padded message. -/
theorem finalState_eq (h : Holds s message) (hlength : message.length < 2 ^ 61) :
    s.finalState = Sha2.hashBlocks (Sha2.pad message) := by
  obtain ⟨⟨hashed, hdivides, hmessage, hstate⟩, htotal⟩ := h
  have hbits : s.totalSize * 8 % 2 ^ 64 = 8 * message.length := by
    rw [htotal]
    omega
  have hbuffer := s.length_buffer
  have hlt := s.bufferSize_lt
  have htake := length_take_buffer (s := s)
  have hmark : (s.buffer.set s.bufferSize 0x80).take (s.bufferSize + 1) =
      s.buffer.take s.bufferSize ++ [0x80] := by
    rw [List.take_add_one, List.take_set_of_le (le_refl _), List.getElem?_set_self (by omega)]
    rfl
  have hcount : message.length = hashed.length + s.bufferSize := by
    rw [hmessage, List.length_append, htake]
  obtain ⟨n, hn⟩ := hdivides
  have hbytes : ∀ bits, (Sha2.lengthBytes bits).length = 8 := fun _ => by
    rw [Sha2.lengthBytes, List.length_map, List.length_range]
  unfold Sha256.finalState
  dsimp only
  rw [hmark, hbits]
  split
  · next hlarge =>
    -- the length needs a block of its own
    have hzeros : Sha2.zeroCount message.length = 64 - (s.bufferSize + 1) + 56 := by
      unfold Sha2.zeroCount
      omega
    have hpadded : Sha2.pad message = hashed ++
        (s.buffer.take s.bufferSize ++ [0x80] ++ List.replicate (64 - (s.bufferSize + 1)) 0) ++
        (List.replicate 56 0 ++ Sha2.lengthBytes (8 * message.length)) := by
      rw [Sha2.pad, hzeros, List.replicate_add]
      nth_rewrite 1 [hmessage]
      simp only [List.append_assoc, List.cons_append, List.nil_append]
    have hlast : putLength (List.replicate 64 0) (8 * message.length) =
        List.replicate 56 0 ++ Sha2.lengthBytes (8 * message.length) := by
      rw [show List.replicate 64 (0 : UInt8) = List.replicate 56 0 ++ List.replicate 8 0 from rfl]
      exact putLength_eq List.length_replicate List.length_replicate
    rw [transform_eq, transform_eq, hlast, hpadded, hstate,
      Sha2.hashBlocks_append, Sha2.hashBlocks_append ⟨n, hn⟩]
    all_goals simp only [List.length_append, htake, hbytes, List.length_replicate, List.length_cons,
      List.length_nil]
    all_goals omega
  · next hsmall =>
    have hzeros : Sha2.zeroCount message.length = 56 - (s.bufferSize + 1) := by
      unfold Sha2.zeroCount
      omega
    have hpadded : Sha2.pad message = hashed ++
        (s.buffer.take s.bufferSize ++ [0x80] ++ List.replicate (56 - (s.bufferSize + 1)) 0 ++
          Sha2.lengthBytes (8 * message.length)) := by
      rw [Sha2.pad, hzeros]
      nth_rewrite 1 [hmessage]
      simp only [List.append_assoc, List.cons_append, List.nil_append]
    rw [putLength_eq _ (by rw [List.length_drop, List.length_set]; omega), transform_eq, hpadded,
      hstate, Sha2.hashBlocks_append ⟨n, hn⟩]
    all_goals simp only [List.length_append, htake, hbytes, List.length_replicate, List.length_cons,
      List.length_nil]
    all_goals omega

end Padding

section Digits

/-- A number of at most that many hexadecimal digits, filled with zeros. -/
def paddedHex (width n : ℕ) : List Char :=
  List.replicate (width - (Nat.toDigits 16 n).length) '0' ++ Nat.toDigits 16 n

theorem paddedHex_one {n : ℕ} (h : n < 16) : paddedHex 1 n = [Nat.digitChar n] := by
  rw [paddedHex, Nat.toDigits_of_lt_base h]
  rfl

/-- The last digit comes off. -/
theorem paddedHex_succ {width n : ℕ} (hpos : 0 < width) :
    paddedHex (width + 1) n = paddedHex width (n / 16) ++ [Nat.digitChar (n % 16)] := by
  unfold paddedHex
  rcases Nat.lt_or_ge n 16 with hsmall | hlarge
  · rw [Nat.toDigits_of_lt_base hsmall, Nat.div_eq_of_lt hsmall, Nat.mod_eq_of_lt hsmall,
      Nat.toDigits_zero]
    simp only [List.length_singleton, Nat.add_sub_cancel]
    rw [← List.replicate_succ', Nat.sub_add_cancel hpos]
  · rw [Nat.toDigits_of_base_le (by decide) hlarge, List.length_append, List.length_singleton,
      Nat.add_sub_add_right, List.append_assoc]

/-- A word is written like its bytes. -/
theorem hexWord_eq (w : Word) : hexWord w = Sha2.hex (Sha2.bytesOf w) := by
  have hw := w.isLt
  change paddedHex 8 w.toNat = _
  rw [paddedHex_succ (by decide), paddedHex_succ (by decide), paddedHex_succ (by decide),
    paddedHex_succ (by decide), paddedHex_succ (by decide), paddedHex_succ (by decide),
    paddedHex_succ (by decide), paddedHex_one (by omega)]
  have hbyte : ∀ start, (UInt8.ofBitVec (w.extractLsb' start 8)).toNat = w.toNat / 2 ^ start % 256 := by
    intro start
    rw [UInt8.toNat_ofBitVec, BitVec.extractLsb'_toNat, Nat.shiftRight_eq_div_pow]
  simp only [Sha2.hex, Sha2.bytesOf, List.flatMap_cons, List.flatMap_nil, hbyte, List.cons_append,
    List.nil_append]
  have hdigit : ∀ {m n : ℕ} {l l' : List Char}, m = n → l = l' →
      Nat.digitChar m :: l = Nat.digitChar n :: l' := by
    rintro m n l l' rfl rfl
    rfl
  refine hdigit ?_ (hdigit ?_ (hdigit ?_ (hdigit ?_ (hdigit ?_ (hdigit ?_ (hdigit ?_
    (hdigit ?_ rfl)))))))
  all_goals omega

end Digits

section Messages

variable {s : Sha256} {message : List UInt8}

theorem finalHex_eq (h : Holds s message) (hlength : message.length < 2 ^ 61) :
    s.finalHex = Sha2.hex (Sha2.digest message) := by
  rw [Sha256.finalHex, finalState_eq h hlength, Sha2.digest, Sha2.hex, List.flatMap_assoc]
  exact List.flatMap_congr fun w _ => hexWord_eq w

/-- The loop of `Sha256File` gives what it reads to `Update`. -/
theorem holds_readLoop {bound : ℕ} {left : List UInt8} (hbound : left.length < bound)
    (h : Holds s message) : Holds (readLoop bound s left) (message ++ left) := by
  induction bound generalizing s message left with
  | zero => omega
  | succ bound ih =>
    have hread : Holds (if left = [] then s else s.update (left.take 8192))
        (message ++ left.take 8192) := by
      split
      · next hnil => rwa [hnil, List.take_nil, List.append_nil]
      · exact holds_update h
    rw [readLoop]
    split
    · next hshort =>
      have hall : left.take 8192 = left := List.take_of_length_le hshort.le
      rw [hall] at hread ⊢
      exact hread
    · next hlong =>
      have hrest : (left.drop 8192).length < bound := by
        rw [List.length_drop]
        omega
      have := ih hrest hread
      rwa [List.append_assoc, List.take_append_drop] at this

/-- A readable file has the digest of its content. -/
theorem sha256File_eq {path : String} {file : InputFile} (hopens : file.opens = true)
    (hreadable : file.content.length ≤ file.readable) (hlength : file.content.length < 2 ^ 61) :
    sha256File path file = .ok (Sha2.hex (Sha2.digest file.content)) := by
  have hholds : Holds Sha256.new [] := ⟨absorbed_new, rfl⟩
  have hread := holds_readLoop (Nat.lt_succ_self file.content.length) hholds
  rw [List.nil_append] at hread
  rw [sha256File, hopens, List.take_of_length_le hreadable]
  simp only [Bool.not_true, Bool.false_eq_true, if_false, Nat.not_lt.mpr hreadable]
  rw [finalHex_eq hread hlength]

/-- The digest of the code is that of the standard, for every division of the message and for every
file that holds it. -/
theorem finalHex_foldl_update (divisions : List (List UInt8))
    (h : divisions.flatten.length < 2 ^ 61) :
    (divisions.foldl Sha256.update Sha256.new).finalHex =
        Sha2.hex (Sha2.digest divisions.flatten) ∧
      ∀ path file, file.opens = true → file.content.length ≤ file.readable →
        file.content = divisions.flatten →
        sha256File path file = .ok (Sha2.hex (Sha2.digest divisions.flatten)) := by
  have hholds : Holds Sha256.new [] := ⟨absorbed_new, rfl⟩
  constructor
  · have hdivided : Holds (divisions.foldl Sha256.update Sha256.new) ([] ++ divisions.flatten) :=
      holds_foldl hholds
    exact finalHex_eq hdivided h
  · intro path file hopens hreadable hcontent
    rw [← hcontent] at h ⊢
    exact sha256File_eq hopens hreadable h

/-- `"ab"`, nothing and `"c"`. -/
theorem finalHex_foldl_update_abc :
    [[97, 98], [], [(99 : UInt8)]].flatten.length < 2 ^ 61 ∧
      ([[97, 98], [], [99]].foldl Sha256.update Sha256.new).finalHex =
        Sha2.hex (Sha2.digest [97, 98, 99]) :=
  ⟨by decide, (finalHex_foldl_update [[97, 98], [], [99]] (by decide)).1⟩

end Messages

end StyioPlatform.Core
