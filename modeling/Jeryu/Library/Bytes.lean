import Jeryu.Library.Text

/-!
Texts and numbers as bytes: UTF-8, hexadecimal, fixed-width integers, and fields that end at a mark
none of them holds.
-/

namespace Bytes

/-- `str::as_bytes` -/
def utf8 (s : String) : List UInt8 := s.toList.flatMap String.utf8EncodeChar

/-- `to_be_bytes` of an integer `width` bytes wide. -/
def beBytes : Nat → Nat → List UInt8
  | 0, _ => []
  | width + 1, n => beBytes width (n / 256) ++ [UInt8.ofNat n]

def hexValue (c : Char) : Option Nat :=
  if Text.isAsciiDigit c then some (c.toNat - 48)
  else if 'a' ≤ c && c ≤ 'f' then some (c.toNat - 87)
  else if 'A' ≤ c && c ≤ 'F' then some (c.toNat - 55)
  else none

def hexPairs : List Char → Option (List UInt8)
  | [] => some []
  | [_] => none
  | high :: low :: rest => do
    let high ← hexValue high
    let low ← hexValue low
    let more ← hexPairs rest
    return UInt8.ofNat (16 * high + low) :: more

/-- `hex::decode` -/
def hexDecode (s : String) : Option (List UInt8) := hexPairs s.toList

section Fields

variable {α : Type}

/-- The fields one after the other, each with the mark behind it. -/
def ended (stop : α) (fields : List (List α)) : List α := fields.flatMap (· ++ [stop])

variable {stop : α} {field field' rest rest' : List α} {fields fields' : List (List α)}

theorem field_inj (clean : stop ∉ field) (clean' : stop ∉ field')
    (same : field ++ stop :: rest = field' ++ stop :: rest') : field = field' ∧ rest = rest' := by
  induction field generalizing field' with
  | nil =>
    cases field' with
    | nil => exact ⟨rfl, (List.cons.inj same).2⟩
    | cons c field' =>
      have first : stop = c := (List.cons.inj same).1
      rw [first] at clean'
      exact absurd List.mem_cons_self clean'
  | cons c field ih =>
    cases field' with
    | nil =>
      have first : c = stop := (List.cons.inj same).1
      rw [← first] at clean
      exact absurd List.mem_cons_self clean
    | cons d field' =>
      obtain ⟨head, tail⟩ := List.cons.inj same
      have both := ih (fun member => clean (List.mem_cons_of_mem _ member))
        (fun member => clean' (List.mem_cons_of_mem _ member)) tail
      exact ⟨by rw [head, both.1], both.2⟩

/-- As many fields, none of which holds the mark, are told apart with whatever follows them. -/
theorem ended_inj (counted : fields.length = fields'.length) (clean : ∀ field ∈ fields, stop ∉ field)
    (clean' : ∀ field ∈ fields', stop ∉ field)
    (same : ended stop fields ++ rest = ended stop fields' ++ rest') : fields = fields' ∧ rest = rest' := by
  induction fields generalizing fields' with
  | nil =>
    obtain rfl : fields' = [] := List.length_eq_zero_iff.mp counted.symm
    exact ⟨rfl, same⟩
  | cons field fields ih =>
    cases fields' with
    | nil => cases counted
    | cons field' fields' =>
      unfold ended at same
      simp only [List.flatMap_cons, List.append_assoc, List.singleton_append] at same
      obtain ⟨head, tail⟩ := field_inj (clean field List.mem_cons_self) (clean' field' List.mem_cons_self) same
      have more := ih (Nat.succ.inj counted) (fun other member => clean other (List.mem_cons_of_mem _ member))
        (fun other member => clean' other (List.mem_cons_of_mem _ member)) tail
      exact ⟨by rw [head, more.1], more.2⟩

end Fields

section Integers

variable {width n m : Nat} {rest rest' : List UInt8}

@[simp] theorem length_beBytes : (beBytes width n).length = width := by
  induction width generalizing n with
  | zero => rfl
  | succ width ih => simp [beBytes, ih]

theorem beBytes_inj (bound : n < 256 ^ width) (bound' : m < 256 ^ width)
    (same : beBytes width n = beBytes width m) : n = m := by
  induction width generalizing n m with
  | zero => omega
  | succ width ih =>
    obtain ⟨front, last⟩ := List.append_inj' same rfl
    have shrink (k : Nat) (below : k < 256 ^ (width + 1)) : k / 256 < 256 ^ width := by
      apply Nat.div_lt_of_lt_mul
      rwa [Nat.pow_succ, Nat.mul_comm] at below
    have high := ih (shrink n bound) (shrink m bound') front
    have low : n % 256 = m % 256 := by
      have bytes := congrArg UInt8.toNat (List.singleton_inj.mp last)
      simpa using bytes
    omega

theorem beBytes_append_inj (bound : n < 256 ^ width) (bound' : m < 256 ^ width)
    (same : beBytes width n ++ rest = beBytes width m ++ rest') : n = m ∧ rest = rest' := by
  obtain ⟨front, back⟩ := List.append_inj same (by simp)
  exact ⟨beBytes_inj bound bound' front, back⟩

end Integers

section Texts

/-- Of ASCII, and without a NUL. -/
def Plain (s : String) : Prop := ∀ c ∈ s.toList, 0 < c.toNat ∧ c.toNat < 128

instance (s : String) : Decidable (Plain s) :=
  decidable_of_iff ((s.toList.all fun c => 0 < c.toNat && c.toNat < 128) = true) (by
    unfold Plain
    simp only [List.all_eq_true, Bool.and_eq_true, decide_eq_true_eq])

variable {s t : String}

theorem utf8_inj : utf8 s = utf8 t ↔ s = t := by
  constructor
  · intro same
    apply String.toByteArray_inj.mp
    rw [← String.utf8Encode_toList, ← String.utf8Encode_toList]
    exact congrArg List.toByteArray same
  · exact congrArg utf8

theorem Plain.clean (plain : Plain s) : 0 ∉ utf8 s := by
  intro member
  obtain ⟨c, listed, byte⟩ := List.mem_flatMap.mp member
  obtain ⟨positive, small⟩ := plain c listed
  have one : c.utf8Size = 1 := by
    apply Char.utf8Size_eq_one_iff.mpr
    apply UInt32.le_iff_toNat_le.mpr
    have same : c.val.toNat = c.toNat := rfl
    have limit : (127 : UInt32).toNat = 127 := rfl
    omega
  rw [String.utf8EncodeChar_eq_singleton one] at byte
  have zero := congrArg UInt8.toNat (List.mem_singleton.mp byte)
  have same : c.val.toNat = c.toNat := rfl
  have value : c.val.toUInt8.toNat = c.val.toNat % 256 := UInt32.toNat_toUInt8 _
  have nothing : (0 : UInt8).toNat = 0 := rfl
  omega

theorem Plain.append (left : Plain s) (right : Plain t) : Plain (s ++ t) := by
  intro c member
  rw [String.toList_append] at member
  rcases List.mem_append.mp member with member | member
  · exact left c member
  · exact right c member

theorem digitChar_cases (n : Nat) (small : n < 16) :
    (0 < (Nat.digitChar n).toNat ∧ (Nat.digitChar n).toNat < 128) ∧ hexValue (Nat.digitChar n) = some n := by
  have every : ∀ n < 16, (0 < (Nat.digitChar n).toNat ∧ (Nat.digitChar n).toNat < 128) ∧
      hexValue (Nat.digitChar n) = some n := by decide
  exact every n small

theorem plain_hexEncode (bytes : List UInt8) : Plain (Text.hexEncode bytes) := by
  intro c member
  unfold Text.hexEncode at member
  rw [String.toList_ofList] at member
  obtain ⟨byte, -, digit⟩ := List.mem_flatMap.mp member
  have bound := byte.toNat_lt
  rcases List.mem_cons.mp digit with rfl | last
  · exact (digitChar_cases _ (by omega)).1
  · rw [List.mem_singleton.mp last]
    exact (digitChar_cases _ (by omega)).1

theorem hexDecode_hexEncode (bytes : List UInt8) : hexDecode (Text.hexEncode bytes) = some bytes := by
  unfold hexDecode Text.hexEncode
  rw [String.toList_ofList]
  induction bytes with
  | nil => rfl
  | cons byte bytes ih =>
    have bound := byte.toNat_lt
    rw [List.flatMap_cons, List.cons_append, List.cons_append, List.nil_append]
    unfold hexPairs
    rw [(digitChar_cases _ (by omega)).2, (digitChar_cases _ (by omega)).2, ih]
    have whole : UInt8.ofNat (16 * (byte.toNat / 16) + byte.toNat % 16) = byte := by
      rw [Nat.div_add_mod]
      exact UInt8.ofNat_toNat
    show some (_ :: bytes) = _
    rw [whole]

end Texts

end Bytes
