import Mathlib.Data.Nat.Find
import Mathlib.Data.Nat.Prime.Basic
import Mathlib.Tactic.Ring

/-!
SHA-256 as FIPS 180-4 has it, on strings of bits: the padding, the constants from the roots of the
primes, the message schedule and the rounds.
-/

namespace Fips180

abbrev Word := BitVec 32

section Bits

/-- The lowest `width` bits of a number, the highest first. -/
def numBits : Nat → Nat → List Bool
  | 0, _ => []
  | width + 1, n => n.testBit width :: numBits width n

/-- The number that a string of bits stands for. -/
def value (bits : List Bool) : Nat := bits.foldl (fun n bit => 2 * n + bit.toNat) 0

def wordBits (x : Word) : List Bool := numBits 32 x.toNat

def wordOf (bits : List Bool) : Word := BitVec.ofNat 32 (value bits)

variable {v width n : Nat}

@[simp] theorem length_numBits : (numBits width n).length = width := by
  induction width with
  | zero => rfl
  | succ width ih => rw [numBits, List.length_cons, ih]

theorem numBits_add : numBits (v + width) n = numBits v (n / 2 ^ width) ++ numBits width n := by
  induction v with
  | zero => simp [numBits]
  | succ v ih =>
    rw [Nat.succ_add, numBits, numBits, ih, Nat.testBit_div_two_pow, List.cons_append]

theorem numBits_mod (le : width ≤ v) : numBits width (n % 2 ^ v) = numBits width n := by
  induction width with
  | zero => rfl
  | succ width ih =>
    have bit : width < v := le
    rw [numBits, numBits, ih (Nat.le_of_succ_le le), Nat.testBit_mod_two_pow, decide_eq_true bit, Bool.true_and]

theorem foldl_numBits (start : Nat) :
    (numBits width n).foldl (fun n bit => 2 * n + bit.toNat) start = start * 2 ^ width + n % 2 ^ width := by
  induction width generalizing start with
  | zero => simp [numBits, Nat.mod_one]
  | succ width ih =>
    rw [numBits, List.foldl_cons, ih, Nat.mod_pow_succ, Nat.toNat_testBit, Nat.pow_succ, Nat.add_mul]
    ring

end Bits

section Functions

def rotr (n : Nat) (x : Word) : Word := (x >>> n) ||| (x <<< (32 - n))

def shr (n : Nat) (x : Word) : Word := x >>> n

def ch (x y z : Word) : Word := (x &&& y) ^^^ (~~~x &&& z)

def maj (x y z : Word) : Word := (x &&& y) ^^^ (x &&& z) ^^^ (y &&& z)

def bigSigma0 (x : Word) : Word := rotr 2 x ^^^ rotr 13 x ^^^ rotr 22 x

def bigSigma1 (x : Word) : Word := rotr 6 x ^^^ rotr 11 x ^^^ rotr 25 x

def smallSigma0 (x : Word) : Word := rotr 7 x ^^^ rotr 18 x ^^^ shr 3 x

def smallSigma1 (x : Word) : Word := rotr 17 x ^^^ rotr 19 x ^^^ shr 10 x

end Functions

section Constants

/-- The first sixty-four primes. -/
def primes : List Nat := (List.range 312).filter fun p => p.Prime

/-- The `k`-th root, rounded down. -/
def root (k n : Nat) : Nat := Nat.findGreatest (fun r => r ^ k ≤ n) n

/-- The first thirty-two bits of the fractional part of the `k`-th root of a number. -/
def fractionWord (k n : Nat) : Word := BitVec.ofNat 32 (root k (n * (2 ^ 32) ^ k))

/-- From the cube roots of the first sixty-four primes. -/
def constant (t : Nat) : Word := fractionWord 3 (primes.getD t 0)

/-- From the square roots of the first eight primes. -/
def initial (j : Nat) : Word := fractionWord 2 (primes.getD j 0)

theorem root_eq {k n r : Nat} (some_ : k ≠ 0) (low : r ^ k ≤ n) (high : n < (r + 1) ^ k) : root k n = r := by
  unfold root
  rw [Nat.findGreatest_eq_iff]
  refine ⟨(Nat.le_self_pow some_ r).trans low, fun _ => low, fun m more _ => ?_⟩
  exact Nat.not_le.2 (high.trans_le (Nat.pow_le_pow_left more k))

/-- A word is such a fraction if it is one for some whole part. -/
theorem fractionWord_eq {k n : Nat} (whole : Nat) {x : Word} (some_ : k ≠ 0)
    (low : (whole * 2 ^ 32 + x.toNat) ^ k ≤ n * (2 ^ 32) ^ k)
    (high : n * (2 ^ 32) ^ k < (whole * 2 ^ 32 + x.toNat + 1) ^ k) : fractionWord k n = x := by
  unfold fractionWord
  rw [root_eq some_ low high]
  apply BitVec.eq_of_toNat_eq
  rw [BitVec.toNat_ofNat, Nat.mul_add_mod_of_lt x.isLt]

/-- A test of primality that computes. -/
def isPrime (p : Nat) : Bool := decide (2 ≤ p) && (List.range p).all fun d => decide (d < 2) || p % d != 0

theorem isPrime_iff (p : Nat) : isPrime p = true ↔ p.Prime := by
  rw [Nat.prime_def_lt']
  simp only [isPrime, Bool.and_eq_true, decide_eq_true_eq, List.all_eq_true, List.mem_range, Bool.or_eq_true, bne_iff_ne, ne_eq]
  constructor
  · rintro ⟨large, none_⟩
    refine ⟨large, fun d two less divides => ?_⟩
    rcases none_ d less with small | left
    · omega
    · exact left (Nat.mod_eq_zero_of_dvd divides)
  · rintro ⟨large, none_⟩
    refine ⟨large, fun d less => ?_⟩
    by_cases small : d < 2
    · exact .inl small
    · exact .inr fun left => none_ d (by omega) less (Nat.dvd_of_mod_eq_zero left)

def firstPrimes : List Nat := [2, 3, 5, 7, 11, 13, 17, 19, 23, 29, 31, 37, 41, 43, 47, 53, 59, 61, 67, 71, 73, 79, 83, 89,
  97, 101, 103, 107, 109, 113, 127, 131, 137, 139, 149, 151, 157, 163, 167, 173, 179, 181, 191, 193, 197, 199, 211, 223,
  227, 229, 233, 239, 241, 251, 257, 263, 269, 271, 277, 281, 283, 293, 307, 311]

theorem primes_eq : primes = firstPrimes := by
  have tested : primes = (List.range 312).filter isPrime := by
    unfold primes
    apply List.filter_congr
    intro p _
    rw [Bool.eq_iff_iff, decide_eq_true_eq, isPrime_iff]
  rw [tested]
  decide +kernel

end Constants

/-- The working variables, and the hash value after a block. -/
structure Vars where
  a : Word
  b : Word
  c : Word
  d : Word
  e : Word
  f : Word
  g : Word
  h : Word

section Padding

/-- The zeros between the one and the length. -/
def zeros (length : Nat) : Nat := (959 - length % 512) % 512

/-- The fewest that leave room for the length and no more. -/
theorem zeros_least (length : Nat) : (length + 1 + zeros length) % 512 = 448 ∧
    ∀ k, (length + 1 + k) % 512 = 448 → zeros length ≤ k := by
  unfold zeros
  constructor
  · omega
  · intro k fills
    omega

def padding (length : Nat) : List Bool := true :: (List.replicate (zeros length) false ++ numBits 64 length)

/-- The blocks of 512 bits. -/
def blocks (bits : List Bool) : List (List Bool) :=
  (List.range (bits.length / 512)).map fun i => (bits.drop (512 * i)).take 512

variable {block rest : List Bool}

theorem blocks_append (whole : block.length = 512) : blocks (block ++ rest) = block :: blocks rest := by
  have count : (block ++ rest).length / 512 = rest.length / 512 + 1 := by
    rw [List.length_append]
    omega
  unfold blocks
  rw [count, List.range_succ_eq_map, List.map_cons, List.map_map]
  congr 1
  · rw [Nat.mul_zero, List.drop_zero, ← whole, List.take_left]
  · apply List.map_congr_left
    intro i _
    have later : 512 * (i + 1) = block.length + 512 * i := by omega
    show ((block ++ rest).drop (512 * (i + 1))).take 512 = _
    rw [later, List.drop_length_add_append]

end Padding

section Hash

/-- The words of a block. -/
def messageWord (block : List Bool) (t : Nat) : Word := wordOf ((block.drop (32 * t)).take 32)

def schedule (block : List Bool) (t : Nat) : Word :=
  if t < 16 then messageWord block t
  else smallSigma1 (schedule block (t - 2)) + schedule block (t - 7) + smallSigma0 (schedule block (t - 15)) +
    schedule block (t - 16)

def roundStep (k w : Word) (x : Vars) : Vars :=
  let t1 := x.h + bigSigma1 x.e + ch x.e x.f x.g + k + w
  let t2 := bigSigma0 x.a + maj x.a x.b x.c
  ⟨t1 + t2, x.a, x.b, x.c, x.d + t1, x.e, x.f, x.g⟩

def compress (hash : Vars) (block : List Bool) : Vars :=
  let x := Nat.fold 64 (fun t _ x => roundStep (constant t) (schedule block t) x) hash
  ⟨x.a + hash.a, x.b + hash.b, x.c + hash.c, x.d + hash.d, x.e + hash.e, x.f + hash.f, x.g + hash.g, x.h + hash.h⟩

def initialHash : Vars :=
  ⟨initial 0, initial 1, initial 2, initial 3, initial 4, initial 5, initial 6, initial 7⟩

def digest (hash : Vars) : List Bool :=
  wordBits hash.a ++ wordBits hash.b ++ wordBits hash.c ++ wordBits hash.d ++ wordBits hash.e ++ wordBits hash.f ++
    wordBits hash.g ++ wordBits hash.h

/-- The hash of a message of fewer than `2 ^ 64` bits. -/
def sha256 (message : List Bool) : List Bool :=
  digest ((blocks (message ++ padding message.length)).foldl compress initialHash)

end Hash

end Fips180
