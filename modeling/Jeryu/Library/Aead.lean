import Mathlib.Data.List.TakeDrop

/-!
Authenticated encryption with associated data, as what it lets be opened.
-/

namespace Aead

structure Cipher where
  encrypt : (key nonce aad plaintext : List UInt8) → Option (List UInt8)
  decrypt : (key nonce aad ciphertext : List UInt8) → Option (List UInt8)

/-- A ciphertext opens as it was made, and under no other key or associated data. -/
structure Cipher.Authentic (cipher : Cipher) : Prop where
  opens : ∀ {key nonce aad plaintext ciphertext}, cipher.encrypt key nonce aad plaintext = some ciphertext →
    cipher.decrypt key nonce aad ciphertext = some plaintext
  only : ∀ {key nonce aad plaintext ciphertext key' nonce' aad' opened},
    cipher.encrypt key nonce aad plaintext = some ciphertext →
    cipher.decrypt key' nonce' aad' ciphertext = some opened → key' = key ∧ aad' = aad

theorem Cipher.Authentic.refused {cipher : Cipher} (authentic : cipher.Authentic)
    {key nonce aad plaintext ciphertext key' nonce' aad' : List UInt8}
    (made : cipher.encrypt key nonce aad plaintext = some ciphertext) (other : aad' ≠ aad) :
    cipher.decrypt key' nonce' aad' ciphertext = none := by
  cases opened : cipher.decrypt key' nonce' aad' ciphertext with
  | none => rfl
  | some plain => exact absurd (authentic.only made opened).2 other

section Ideal

/-- Bytes that show where they end. -/
def mark (bytes : List UInt8) : List UInt8 := bytes.flatMap (fun byte => [1, byte]) ++ [0]

theorem mark_inj {bytes bytes' rest rest' : List UInt8} (same : mark bytes ++ rest = mark bytes' ++ rest') :
    bytes = bytes' ∧ rest = rest' := by
  induction bytes generalizing bytes' with
  | nil =>
    cases bytes' with
    | nil => exact ⟨rfl, (List.cons.inj same).2⟩
    | cons byte bytes' => exact absurd (List.cons.inj same).1 (by decide)
  | cons byte bytes ih =>
    cases bytes' with
    | nil => exact absurd (List.cons.inj same).1 (by decide)
    | cons byte' bytes' =>
      have tail := (List.cons.inj same).2
      obtain ⟨first, more⟩ := List.cons.inj tail
      obtain ⟨others, after⟩ := ih more
      exact ⟨by rw [first, others], after⟩

/-- The cipher that writes down what it was made under. -/
def ideal : Cipher where
  encrypt key nonce aad plaintext := some (mark key ++ (mark nonce ++ (mark aad ++ plaintext)))
  decrypt key nonce aad ciphertext :=
    let front := mark key ++ (mark nonce ++ mark aad)
    if front.isPrefixOf ciphertext then some (ciphertext.drop front.length) else none

theorem ideal_authentic : ideal.Authentic := by
  constructor
  · intro key nonce aad plaintext ciphertext made
    cases made
    have whole : mark key ++ (mark nonce ++ (mark aad ++ plaintext)) =
        (mark key ++ (mark nonce ++ mark aad)) ++ plaintext := by simp only [List.append_assoc]
    unfold ideal
    dsimp only
    rw [whole, if_pos (List.isPrefixOf_iff_prefix.mpr (List.prefix_append _ _)), List.drop_left]
  · intro key nonce aad plaintext ciphertext key' nonce' aad' opened made decrypted
    cases made
    unfold ideal at decrypted
    dsimp only at decrypted
    split at decrypted
    · next front =>
      obtain ⟨rest, same⟩ := List.isPrefixOf_iff_prefix.mp front
      rw [List.append_assoc, List.append_assoc] at same
      obtain ⟨keys, more⟩ := mark_inj same
      obtain ⟨-, last⟩ := mark_inj more
      exact ⟨keys, (mark_inj last).1⟩
    · cases decrypted

end Ideal

end Aead
