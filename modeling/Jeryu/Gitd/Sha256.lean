import Jeryu.Library.Bytes
import Jeryu.Library.Fips180

/-!
The SHA-256 that hashes tokens, keys and objects, and that it is the standard's.
-/

namespace Jeryu.Gitd.Sha256

open Bytes Fips180

def H0 : List Word :=
  [0x6a09e667, 0xbb67ae85, 0x3c6ef372, 0xa54ff53a, 0x510e527f, 0x9b05688c, 0x1f83d9ab, 0x5be0cd19]

def K : List Word :=
  [0x428a2f98, 0x71374491, 0xb5c0fbcf, 0xe9b5dba5, 0x3956c25b, 0x59f111f1, 0x923f82a4, 0xab1c5ed5,
    0xd807aa98, 0x12835b01, 0x243185be, 0x550c7dc3, 0x72be5d74, 0x80deb1fe, 0x9bdc06a7, 0xc19bf174,
    0xe49b69c1, 0xefbe4786, 0x0fc19dc6, 0x240ca1cc, 0x2de92c6f, 0x4a7484aa, 0x5cb0a9dc, 0x76f988da,
    0x983e5152, 0xa831c66d, 0xb00327c8, 0xbf597fc7, 0xc6e00bf3, 0xd5a79147, 0x06ca6351, 0x14292967,
    0x27b70a85, 0x2e1b2138, 0x4d2c6dfc, 0x53380d13, 0x650a7354, 0x766a0abb, 0x81c2c92e, 0x92722c85,
    0xa2bfe8a1, 0xa81a664b, 0xc24b8b70, 0xc76c51a3, 0xd192e819, 0xd6990624, 0xf40e3585, 0x106aa070,
    0x19a4c116, 0x1e376c08, 0x2748774c, 0x34b0bcb5, 0x391c0cb3, 0x4ed8aa4a, 0x5b9cca4f, 0x682e6ff3,
    0x748f82ee, 0x78a5636f, 0x84c87814, 0x8cc70208, 0x90befffa, 0xa4506ceb, 0xbef9a3f7, 0xc67178f2]

section Code

/-- `u32::from_be_bytes` -/
def fromBeBytes (b0 b1 b2 b3 : UInt8) : Word :=
  BitVec.ofNat 32 (((b0.toNat * 256 + b1.toNat) * 256 + b2.toNat) * 256 + b3.toNat)

/-- The loop that pushes zeros until the length has its place. -/
def pushZeros (data : List UInt8) : List UInt8 :=
  if data.length % 64 ≠ 56 then pushZeros (data ++ [0]) else data
termination_by (120 - data.length % 64) % 64
decreasing_by
  rw [List.length_append, List.length_singleton]
  omega

/-- The length in bits is a `u64`. -/
def padded (input : List UInt8) : List UInt8 :=
  let bitLen := UInt64.ofNat input.length * 8
  pushZeros (input ++ [0x80]) ++ beBytes 8 bitLen.toNat

/-- `chunks(64)` -/
def chunks (data : List UInt8) : List (List UInt8) :=
  if data.isEmpty then [] else data.take 64 :: chunks (data.drop 64)
termination_by data.length
decreasing_by
  rename_i some_
  have long := List.length_pos_iff.2 (by simpa using some_ : data ≠ [])
  rw [List.length_drop]
  omega

def firstWords (chunk : List UInt8) : List Word :=
  Nat.fold 16 (fun i _ w =>
    let j := i * 4
    w.set i (fromBeBytes (chunk.getD j 0) (chunk.getD (j + 1) 0) (chunk.getD (j + 2) 0) (chunk.getD (j + 3) 0)))
    (List.replicate 64 0)

/-- The loop over `16..64`. -/
def allWords (w : List Word) : List Word :=
  Nat.fold 48 (fun n _ w =>
    let i := 16 + n
    let s0 := (w.getD (i - 15) 0).rotateRight 7 ^^^ (w.getD (i - 15) 0).rotateRight 18 ^^^ (w.getD (i - 15) 0) >>> 3
    let s1 := (w.getD (i - 2) 0).rotateRight 17 ^^^ (w.getD (i - 2) 0).rotateRight 19 ^^^ (w.getD (i - 2) 0) >>> 10
    w.set i (w.getD (i - 16) 0 + s0 + w.getD (i - 7) 0 + s1)) w

def turn (w : List Word) (i : Nat) (x : Vars) : Vars :=
  let s1 := x.e.rotateRight 6 ^^^ x.e.rotateRight 11 ^^^ x.e.rotateRight 25
  let ch := (x.e &&& x.f) ^^^ (~~~x.e &&& x.g)
  let temp1 := x.h + s1 + ch + K.getD i 0 + w.getD i 0
  let s0 := x.a.rotateRight 2 ^^^ x.a.rotateRight 13 ^^^ x.a.rotateRight 22
  let maj := (x.a &&& x.b) ^^^ (x.a &&& x.c) ^^^ (x.b &&& x.c)
  let temp2 := s0 + maj
  ⟨temp1 + temp2, x.a, x.b, x.c, x.d + temp1, x.e, x.f, x.g⟩

def absorb (h : Vars) (chunk : List UInt8) : Vars :=
  let w := allWords (firstWords chunk)
  let x := Nat.fold 64 (fun i _ x => turn w i x) h
  ⟨h.a + x.a, h.b + x.b, h.c + x.c, h.d + x.d, h.e + x.e, h.f + x.f, h.g + x.g, h.h + x.h⟩

def startingHash : Vars :=
  ⟨H0.getD 0 0, H0.getD 1 0, H0.getD 2 0, H0.getD 3 0, H0.getD 4 0, H0.getD 5 0, H0.getD 6 0, H0.getD 7 0⟩

def sha256 (input : List UInt8) : List UInt8 :=
  let h := (chunks (padded input)).foldl absorb startingHash
  [h.a, h.b, h.c, h.d, h.e, h.f, h.g, h.h].flatMap fun word => beBytes 4 word.toNat

def sha256Hex (input : List UInt8) : String := Text.hexEncode (sha256 input)

end Code

section Constants

/-- The whole part of a root that is below 20. -/
def wholeRoot (k n : Nat) : Nat := ((List.range 20).filter fun r => r ^ k ≤ n).length - 1

/-- The word stands for the fraction of a root. -/
def IsFraction (k n : Nat) (x : Word) : Prop :=
  (wholeRoot k n * 2 ^ 32 + x.toNat) ^ k ≤ n * (2 ^ 32) ^ k ∧ n * (2 ^ 32) ^ k < (wholeRoot k n * 2 ^ 32 + x.toNat + 1) ^ k

instance (k n : Nat) (x : Word) : Decidable (IsFraction k n x) := inferInstanceAs (Decidable (_ ∧ _))

theorem initial_eq {j : Nat} (few : j < 8) : H0.getD j 0 = initial j := by
  have all : ∀ j < 8, IsFraction 2 (firstPrimes.getD j 0) (H0.getD j 0) := by decide +kernel
  obtain ⟨low, high⟩ := all j few
  rw [initial, primes_eq, fractionWord_eq _ (by decide) low high]

theorem constant_eq {t : Nat} (few : t < 64) : K.getD t 0 = constant t := by
  have all : ∀ t < 64, IsFraction 3 (firstPrimes.getD t 0) (K.getD t 0) := by decide +kernel
  obtain ⟨low, high⟩ := all t few
  rw [constant, primes_eq, fractionWord_eq _ (by decide) low high]

end Constants

section Bits

/-- A string of bytes as one of bits, the highest bit of a byte first. -/
def bits (bytes : List UInt8) : List Bool := bytes.flatMap fun byte => numBits 8 byte.toNat

variable {bytes bytes' : List UInt8}

theorem bits_append : bits (bytes ++ bytes') = bits bytes ++ bits bytes' := List.flatMap_append

theorem bits_cons (byte : UInt8) : bits (byte :: bytes) = numBits 8 byte.toNat ++ bits bytes := rfl

theorem length_bits : (bits bytes).length = 8 * bytes.length := by
  induction bytes with
  | nil => rfl
  | cons byte rest ih =>
    rw [bits_cons, List.length_append, length_numBits, ih, List.length_cons]
    omega

theorem bits_drop (n : Nat) : (bits bytes).drop (8 * n) = bits (bytes.drop n) := by
  induction n generalizing bytes with
  | zero => rfl
  | succ n ih =>
    cases bytes with
    | nil => rfl
    | cons byte rest =>
      have later : 8 * (n + 1) = (numBits 8 byte.toNat).length + 8 * n := by
        rw [length_numBits]
        omega
      rw [bits_cons, later, List.drop_length_add_append, ih, List.drop_succ_cons]

theorem bits_take (n : Nat) : (bits bytes).take (8 * n) = bits (bytes.take n) := by
  induction n generalizing bytes with
  | zero => rfl
  | succ n ih =>
    cases bytes with
    | nil => rfl
    | cons byte rest =>
      have later : 8 * (n + 1) = (numBits 8 byte.toNat).length + 8 * n := by
        rw [length_numBits]
        omega
      rw [bits_cons, later, List.take_length_add_append, ih, List.take_succ_cons, bits_cons]

theorem bits_beBytes (width n : Nat) : bits (beBytes width n) = numBits (8 * width) n := by
  induction width generalizing n with
  | zero => rfl
  | succ width ih =>
    have low : bits [UInt8.ofNat n] = numBits 8 n := by
      show numBits 8 (UInt8.ofNat n).toNat ++ [] = _
      rw [List.append_nil, UInt8.toNat_ofNat']
      exact numBits_mod (Nat.le_refl 8)
    rw [beBytes, bits_append, ih, low, Nat.mul_succ, numBits_add]
    rfl

theorem bits_zeros (n : Nat) : bits (List.replicate n 0) = List.replicate (8 * n) false := by
  induction n with
  | zero => rfl
  | succ n ih =>
    rw [List.replicate_succ, bits_cons, ih, Nat.mul_succ, Nat.add_comm, List.replicate_add]
    rfl

end Bits

section Padding

theorem pushZeros_eq (data : List UInt8) :
    pushZeros data = data ++ List.replicate ((120 - data.length % 64) % 64) 0 := by
  induction data using pushZeros.induct with
  | case1 data short ih =>
    have one : (120 - data.length % 64) % 64 = (120 - (data.length + 1) % 64) % 64 + 1 := by omega
    rw [pushZeros, if_pos short, ih, List.length_append, List.length_singleton, one, List.replicate_succ, List.append_assoc]
    rfl
  | case2 data full =>
    have none_ : (120 - data.length % 64) % 64 = 0 := by omega
    rw [pushZeros, if_neg full, none_]
    exact (List.append_nil data).symm

variable {input : List UInt8}

theorem length_padded : (padded input).length % 64 = 0 := by
  simp only [padded, pushZeros_eq, List.length_append, List.length_replicate, length_beBytes, List.length_singleton]
  omega

theorem bits_padded (short : input.length < 2 ^ 61) : bits (padded input) = bits input ++ padding (bits input).length := by
  have length : (UInt64.ofNat input.length * 8).toNat = 8 * input.length := by
    have eight : (8 : UInt64).toNat = 8 := rfl
    rw [UInt64.toNat_mul, UInt64.toNat_ofNat', eight]
    omega
  have count : zeros (8 * input.length) = 7 + 8 * ((120 - (input.length + 1) % 64) % 64) := by
    unfold zeros
    omega
  simp only [padded, pushZeros_eq, bits_append, length, bits_beBytes, bits_zeros, length_bits, padding, count,
    List.length_append, List.length_singleton, List.replicate_add, List.append_assoc]
  rfl

end Padding

section Blocks

theorem blocks_bits (data : List UInt8) (whole : data.length % 64 = 0) : blocks (bits data) = (chunks data).map bits := by
  induction data using chunks.induct with
  | case1 data none_ =>
    obtain rfl : data = [] := List.isEmpty_iff.1 none_
    rw [chunks]
    rfl
  | case2 data some_ ih =>
    have long : 0 < data.length := List.length_pos_iff.2 (by simpa using some_)
    have first : (bits (data.take 64)).length = 512 := by
      rw [length_bits, List.length_take]
      omega
    have rest : (data.drop 64).length % 64 = 0 := by
      rw [List.length_drop]
      omega
    rw [chunks, if_neg some_, List.map_cons, ← ih rest, ← blocks_append first, ← bits_append, List.take_append_drop]

theorem length_chunk (data : List UInt8) (whole : data.length % 64 = 0) : ∀ chunk ∈ chunks data, chunk.length = 64 := by
  induction data using chunks.induct with
  | case1 data none_ =>
    rw [chunks, if_pos none_]
    exact fun _ among => absurd among List.not_mem_nil
  | case2 data some_ ih =>
    have long : 0 < data.length := List.length_pos_iff.2 (by simpa using some_)
    have rest : (data.drop 64).length % 64 = 0 := by
      rw [List.length_drop]
      omega
    intro chunk among
    rw [chunks, if_neg some_] at among
    rcases List.mem_cons.1 among with rfl | later
    · rw [List.length_take]
      omega
    · exact ih rest chunk later

end Blocks

section Words

/-- What holds at the start and is kept by every turn of a loop holds at its end. -/
theorem fold_induction {σ : Type} {n : Nat} {turn : (i : Nat) → i < n → σ → σ} {start : σ} (P : Nat → σ → Prop)
    (begins : P 0 start) (keeps : ∀ i (inside : i < n) x, P i x → P (i + 1) (turn i inside x)) : P n (Nat.fold n turn start) := by
  induction n with
  | zero => exact begins
  | succ n ih =>
    rw [Nat.fold_succ]
    exact keeps n (Nat.lt_succ_self n) _ (ih fun i inside x holds => keeps i (Nat.lt_succ_of_lt inside) x holds)

theorem getD_set {w : List Word} (i t : Nat) (x : Word) (inside : i < w.length) :
    (w.set i x).getD t 0 = if t = i then x else w.getD t 0 := by
  rw [List.getD_eq_getElem?_getD, List.getElem?_set]
  by_cases same : i = t
  · subst same
    rw [if_pos rfl, if_pos inside, if_pos rfl]
    rfl
  · rw [if_neg same, if_neg (Ne.symm same), List.getD_eq_getElem?_getD]

theorem value_bits (b0 b1 b2 b3 : UInt8) : value (bits [b0, b1, b2, b3]) =
    ((b0.toNat * 256 + b1.toNat) * 256 + b2.toNat) * 256 + b3.toNat := by
  have byte (b : UInt8) : b.toNat % 2 ^ 8 = b.toNat := Nat.mod_eq_of_lt b.toNat_lt
  have nothing : bits [] = [] := rfl
  unfold value
  simp only [bits_cons, nothing, List.foldl_append, foldl_numBits, byte, List.foldl_nil]
  omega

theorem messageWord_eq (chunk : List UInt8) (t : Nat) (inside : 4 * t + 3 < chunk.length) : messageWord (bits chunk) t =
    fromBeBytes (chunk.getD (t * 4) 0) (chunk.getD (t * 4 + 1) 0) (chunk.getD (t * 4 + 2) 0) (chunk.getD (t * 4 + 3) 0) := by
  have shift (k : Nat) : chunk.getD (t * 4 + k) 0 = (chunk.drop (4 * t)).getD k 0 := by
    rw [List.getD_eq_getElem?_getD, List.getD_eq_getElem?_getD, List.getElem?_drop, Nat.mul_comm]
  have four : (bits chunk).drop (32 * t) = bits (chunk.drop (4 * t)) := by
    rw [← bits_drop]
    congr 1
    omega
  have long : 4 ≤ (chunk.drop (4 * t)).length := by
    rw [List.length_drop]
    omega
  have first := shift 0
  rw [Nat.add_zero] at first
  unfold messageWord wordOf fromBeBytes
  rw [four, first, shift 1, shift 2, shift 3, ← value_bits]
  have taken : (bits (chunk.drop (4 * t))).take (8 * 4) = bits ((chunk.drop (4 * t)).take 4) := bits_take 4
  match chunk.drop (4 * t), long, taken with
  | b0 :: b1 :: b2 :: b3 :: rest, _, taken => exact congrArg (fun bits => BitVec.ofNat 32 (value bits)) taken

theorem rotateRight_eq (x : Word) {n : Nat} (few : n < 32) : x.rotateRight n = rotr n x := by
  rw [BitVec.rotateRight, Nat.mod_eq_of_lt few]
  rfl

/-- The words so far are those of the schedule. -/
structure Scheduled (block : List Bool) (n : Nat) (w : List Word) : Prop where
  length : w.length = 64
  word : ∀ t < n, w.getD t 0 = schedule block t

variable {chunk : List UInt8}

theorem firstWords_scheduled (whole : chunk.length = 64) : Scheduled (bits chunk) 16 (firstWords chunk) := by
  apply fold_induction (Scheduled (bits chunk))
  · exact ⟨rfl, fun _ none_ => absurd none_ (Nat.not_lt_zero _)⟩
  · intro i inside w so
    constructor
    · rw [List.length_set, so.length]
    · intro t few
      rw [getD_set _ _ _ (by rw [so.length]; omega)]
      split
      next same =>
        subst same
        rw [schedule, if_pos inside, messageWord_eq chunk t (by omega)]
      next other => exact so.word t (by omega)

theorem allWords_scheduled {block : List Bool} {w : List Word} (first : Scheduled block 16 w) :
    Scheduled block 64 (allWords w) := by
  show Scheduled block (16 + 48) (Nat.fold 48 _ w)
  apply fold_induction (fun n => Scheduled block (16 + n)) first
  intro n inside w so
  constructor
  · rw [List.length_set, so.length]
  · intro t few
    rw [getD_set _ _ _ (by rw [so.length]; omega)]
    split
    next same =>
      subst same
      have word2 := so.word (16 + n - 2) (by omega)
      have word7 := so.word (16 + n - 7) (by omega)
      have word15 := so.word (16 + n - 15) (by omega)
      have word16 := so.word (16 + n - 16) (by omega)
      rw [schedule, if_neg (by omega), ← word2, ← word7, ← word15, ← word16]
      simp (disch := decide) only [smallSigma0, smallSigma1, shr, rotateRight_eq]
      ac_rfl
    next other => exact so.word t (by omega)

end Words

section Rounds

theorem turn_eq {block : List Bool} {w : List Word} (all : Scheduled block 64 w) {i : Nat} (few : i < 64) (x : Vars) :
    turn w i x = roundStep (constant i) (schedule block i) x := by
  unfold turn roundStep
  rw [constant_eq few, all.word i few]
  simp (disch := decide) only [bigSigma0, bigSigma1, rotateRight_eq]
  rfl

theorem fold_congr {σ : Type} {n : Nat} {turn turn' : (i : Nat) → i < n → σ → σ} (start : σ)
    (same : ∀ i inside x, turn i inside x = turn' i inside x) : Nat.fold n turn start = Nat.fold n turn' start := by
  have equal : turn = turn' := by
    funext i inside x
    exact same i inside x
  rw [equal]

theorem absorb_eq {chunk : List UInt8} (whole : chunk.length = 64) (h : Vars) : absorb h chunk = compress h (bits chunk) := by
  have all := allWords_scheduled (firstWords_scheduled whole)
  have rounds : Nat.fold 64 (fun i _ x => turn (allWords (firstWords chunk)) i x) h =
      Nat.fold 64 (fun t _ x => roundStep (constant t) (schedule (bits chunk) t) x) h :=
    fold_congr h fun i few x => turn_eq all few x
  simp only [absorb, compress, rounds]
  simp only [BitVec.add_comm]

theorem startingHash_eq : startingHash = initialHash := by
  unfold startingHash initialHash
  rw [initial_eq (by decide), initial_eq (by decide), initial_eq (by decide), initial_eq (by decide), initial_eq (by decide),
    initial_eq (by decide), initial_eq (by decide), initial_eq (by decide)]

theorem bits_digest (h : Vars) :
    bits ([h.a, h.b, h.c, h.d, h.e, h.f, h.g, h.h].flatMap fun word => beBytes 4 word.toNat) = digest h := by
  have word (x : Word) : bits (beBytes 4 x.toNat) = wordBits x := bits_beBytes 4 x.toNat
  simp only [List.flatMap_cons, List.flatMap_nil, bits_append, word, digest, List.append_assoc]
  rfl

end Rounds

section Hex

/-- The lowercase hexadecimal digits of a string of bits. -/
def hexOf : List Bool → List Char
  | b3 :: b2 :: b1 :: b0 :: rest => "0123456789abcdef".toList.getD (value [b3, b2, b1, b0]) '?' :: hexOf rest
  | _ => []

theorem hexOf_bits (bytes : List UInt8) : hexOf (bits bytes) = (Text.hexEncode bytes).toList := by
  have nibbles : ∀ n < 256, hexOf (numBits 8 n) = [Nat.digitChar (n / 16), Nat.digitChar (n % 16)] := by decide +kernel
  unfold Text.hexEncode
  rw [String.toList_ofList]
  induction bytes with
  | nil => rfl
  | cons byte rest ih =>
    have here := nibbles byte.toNat byte.toNat_lt
    rw [bits_cons, List.flatMap_cons, ← ih, ← here]
    rfl

end Hex

/-- The hash is that of FIPS 180-4, and its text is lowercase hexadecimal. -/
theorem sha256_standard (input : List UInt8) (short : input.length < 2 ^ 61) :
    bits (sha256 input) = Fips180.sha256 (bits input) ∧
      (sha256Hex input).toList = hexOf (Fips180.sha256 (bits input)) := by
  have chunked : ∀ (chunks : List (List UInt8)) h, (∀ chunk ∈ chunks, chunk.length = 64) →
      chunks.foldl absorb h = (chunks.map bits).foldl compress h := by
    intro chunks
    induction chunks with
    | nil => exact fun _ _ => rfl
    | cons chunk rest ih =>
      intro h whole
      rw [List.foldl_cons, List.map_cons, List.foldl_cons, absorb_eq (whole chunk List.mem_cons_self)]
      exact ih _ fun chunk later => whole chunk (List.mem_cons_of_mem _ later)
  have hashed : bits (sha256 input) = Fips180.sha256 (bits input) := by
    unfold sha256 Fips180.sha256
    rw [← bits_padded short, blocks_bits _ length_padded, ← startingHash_eq, bits_digest,
      chunked _ _ (length_chunk _ length_padded)]
  refine ⟨hashed, ?_⟩
  rw [← hashed, hexOf_bits]
  rfl

theorem sha256_abc : bits (sha256 [97, 98, 99]) = Fips180.sha256 (bits [97, 98, 99]) ∧
    (sha256Hex [97, 98, 99]).toList = hexOf (Fips180.sha256 (bits [97, 98, 99])) :=
  sha256_standard [97, 98, 99] (by decide)

example : sha256Hex [97, 98, 99] = "ba7816bf8f01cfea414140de5dae2223b00361a396177a9cb410ff61f20015ad" := by
  decide +kernel

end Jeryu.Gitd.Sha256
