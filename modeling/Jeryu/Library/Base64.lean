import Mathlib.Algebra.Group.Nat.Defs
import Mathlib.Data.List.Basic
import Mathlib.Data.Nat.Basic

/-!
The standard base64 of RFC 4648, padded or not.
-/

namespace Base64

def alphabet : List Char :=
  ['A', 'B', 'C', 'D', 'E', 'F', 'G', 'H', 'I', 'J', 'K', 'L', 'M', 'N', 'O', 'P', 'Q', 'R', 'S', 'T', 'U', 'V', 'W',
    'X', 'Y', 'Z', 'a', 'b', 'c', 'd', 'e', 'f', 'g', 'h', 'i', 'j', 'k', 'l', 'm', 'n', 'o', 'p', 'q', 'r', 's', 't',
    'u', 'v', 'w', 'x', 'y', 'z', '0', '1', '2', '3', '4', '5', '6', '7', '8', '9', '+', '/']

def digit (n : Nat) : Char := alphabet.getD (n % 64) '='

/-- Groups of twenty-four bits, and what is left of sixteen or of eight. -/
def encode (padded : Bool) : List UInt8 → List Char
  | a :: b :: c :: rest =>
    let n := (a.toNat * 256 + b.toNat) * 256 + c.toNat
    digit (n / 2 ^ 18) :: digit (n / 2 ^ 12) :: digit (n / 2 ^ 6) :: digit n :: encode padded rest
  | [a, b] =>
    let n := (a.toNat * 256 + b.toNat) * 4
    digit (n / 2 ^ 12) :: digit (n / 2 ^ 6) :: digit n :: if padded then ['='] else []
  | [a] =>
    let n := a.toNat * 16
    digit (n / 2 ^ 6) :: digit n :: if padded then ['=', '='] else []
  | [] => []

theorem digit_mem (n : Nat) : digit n ∈ alphabet := by
  have all : ∀ n < 64, digit n ∈ alphabet := by decide
  have small := Nat.mod_lt n (show 0 < 64 by decide)
  have same : digit n = digit (n % 64) := by rw [digit, digit, Nat.mod_mod]
  rw [same]
  exact all _ small

variable {padded : Bool} {bytes : List UInt8}

theorem mem_encode {c : Char} (among : c ∈ encode padded bytes) : c ∈ alphabet ∨ c = '=' := by
  induction bytes using encode.induct with
  | case1 a b d rest ih =>
    simp only [encode, List.mem_cons] at among
    rcases among with rfl | rfl | rfl | rfl | later
    · exact .inl (digit_mem _)
    · exact .inl (digit_mem _)
    · exact .inl (digit_mem _)
    · exact .inl (digit_mem _)
    · exact ih later
  | case2 a b =>
    simp only [encode, List.mem_cons] at among
    rcases among with rfl | rfl | rfl | later
    · exact .inl (digit_mem _)
    · exact .inl (digit_mem _)
    · exact .inl (digit_mem _)
    · cases padded <;> simp_all
  | case3 a =>
    simp only [encode, List.mem_cons] at among
    rcases among with rfl | rfl | later
    · exact .inl (digit_mem _)
    · exact .inl (digit_mem _)
    · cases padded <;> simp_all
  | case4 => cases among

theorem encode_ne_nil (some_ : bytes ≠ []) : encode padded bytes ≠ [] := by
  match bytes with
  | [] => exact absurd rfl some_
  | [a] => simp [encode]
  | [a, b] => simp [encode]
  | a :: b :: c :: rest => simp [encode]

end Base64
