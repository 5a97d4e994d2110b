import Jeryu.Library.Bytes

/-!
Bytes read as UTF-8 where they are not: what is no character is replaced, the bytes that still
could have started one all at once.
-/

namespace Bytes

/-- The character the bytes start with. -/
def firstChar (bytes : List UInt8) : Option Char := bytes.toByteArray.utf8DecodeChar? 0

def isContinuation (byte : UInt8) : Bool := 0x80 ≤ byte && byte ≤ 0xBF

/-- A second byte that may stand behind the first of three or four. -/
def leads (first second : UInt8) : Bool :=
  first = 0xE0 && 0xA0 ≤ second && second ≤ 0xBF ||
    0xE1 ≤ first && first ≤ 0xEC && isContinuation second ||
    first = 0xED && 0x80 ≤ second && second ≤ 0x9F ||
    0xEE ≤ first && first ≤ 0xEF && isContinuation second ||
    first = 0xF0 && 0x90 ≤ second && second ≤ 0xBF ||
    0xF1 ≤ first && first ≤ 0xF3 && isContinuation second ||
    first = 0xF4 && 0x80 ≤ second && second ≤ 0x8F

/-- How many bytes are replaced at once, where no character starts. -/
def malformed : List UInt8 → Nat
  | first :: second :: third :: _ =>
    if leads first second then if 0xF0 ≤ first && isContinuation third then 3 else 2 else 1
  | [first, second] => if leads first second then 2 else 1
  | _ => 1

theorem malformed_pos (bytes : List UInt8) : 0 < malformed bytes := by
  fun_cases malformed bytes <;> omega

def lossyChars (bytes : List UInt8) : List Char :=
  if bytes = [] then []
  else match firstChar bytes with
    | some c => c :: lossyChars (bytes.drop c.utf8Size)
    | none => '\uFFFD' :: lossyChars (bytes.drop (malformed bytes))
termination_by bytes.length
decreasing_by
  · have some_ := List.length_pos_iff.mpr ‹_›
    have size := c.utf8Size_pos
    rw [List.length_drop]
    omega
  · have some_ := List.length_pos_iff.mpr ‹_›
    have size := malformed_pos bytes
    rw [List.length_drop]
    omega

/-- `String::from_utf8_lossy` -/
def fromUtf8Lossy (bytes : List UInt8) : String := String.ofList (lossyChars bytes)

section Lossy

variable {bytes : List UInt8} {c : Char} {byte : UInt8}

theorem firstChar_encoded (c : Char) (rest : List UInt8) :
    firstChar (String.utf8EncodeChar c ++ rest) = some c := by
  unfold firstChar
  rw [List.toByteArray_append]
  exact ByteArray.utf8DecodeChar?_utf8EncodeChar_append

theorem firstChar_eq_some : firstChar bytes = some c ↔ ∃ rest, bytes = String.utf8EncodeChar c ++ rest := by
  constructor
  · intro found
    obtain ⟨rest, whole⟩ := ByteArray.exists_of_utf8DecodeChar?_eq_some found
    have list : rest.data.toList.toByteArray = rest := by
      apply ByteArray.ext
      rw [List.data_toByteArray]
    rw [← list, ← List.toByteArray_append] at whole
    exact ⟨_, List.toByteArray_inj.mp whole⟩
  · rintro ⟨rest, rfl⟩
    exact firstChar_encoded c rest

theorem lossyChars_encoded (c : Char) (rest : List UInt8) :
    lossyChars (String.utf8EncodeChar c ++ rest) = c :: lossyChars rest := by
  have size := String.length_utf8EncodeChar c
  have some_ : String.utf8EncodeChar c ++ rest ≠ [] := by
    have more := c.utf8Size_pos
    intro none
    rw [(List.append_eq_nil_iff.mp none).1] at size
    exact absurd size.symm (Nat.ne_of_gt more)
  rw [lossyChars, if_neg some_, firstChar_encoded]
  dsimp only
  rw [← size, List.drop_left]

theorem fromUtf8Lossy_utf8 (s : String) : fromUtf8Lossy (utf8 s) = s := by
  have chars (text : List Char) : lossyChars (text.flatMap String.utf8EncodeChar) = text := by
    induction text with
    | nil =>
      rw [List.flatMap_nil, lossyChars]
      rfl
    | cons c rest ih => rw [List.flatMap_cons, lossyChars_encoded, ih]
  rw [fromUtf8Lossy, utf8, chars, String.ofList_toList]

/-- A byte of ASCII is a character of its own. -/
theorem mem_utf8EncodeChar (member : byte ∈ String.utf8EncodeChar c) (ascii : byte.toNat < 128) :
    String.utf8EncodeChar c = [byte] ∧ c.toNat = byte.toNat := by
  have same : c.val.toNat = c.toNat := rfl
  unfold String.utf8EncodeChar at member ⊢
  dsimp only at member ⊢
  rw [same] at member ⊢
  by_cases small : c.toNat ≤ 127
  · rw [if_pos small] at member ⊢
    rw [List.mem_singleton.mp member, UInt8.toNat_ofNat']
    exact ⟨rfl, by omega⟩
  · -- The bytes of the longer characters have their high bit set.
    exfalso
    rw [if_neg small] at member
    split at member
    · simp only [List.mem_cons, List.not_mem_nil, or_false] at member
      rcases member with rfl | rfl <;> rw [UInt8.toNat_ofNat'] at ascii <;> omega
    split at member
    · simp only [List.mem_cons, List.not_mem_nil, or_false] at member
      rcases member with rfl | rfl | rfl <;> rw [UInt8.toNat_ofNat'] at ascii <;> omega
    · simp only [List.mem_cons, List.not_mem_nil, or_false] at member
      rcases member with rfl | rfl | rfl | rfl <;> rw [UInt8.toNat_ofNat'] at ascii <;> omega

theorem utf8EncodeChar_ascii (ascii : byte.toNat < 128) :
    String.utf8EncodeChar (Char.ofNat byte.toNat) = [byte] := by
  have code : (Char.ofNat byte.toNat).toNat = byte.toNat := by
    have plain : ∀ n < 128, (Char.ofNat n).toNat = n := by decide
    exact plain _ ascii
  have same : (Char.ofNat byte.toNat).val.toNat = byte.toNat := code
  unfold String.utf8EncodeChar
  dsimp only
  rw [same, if_pos (by omega), UInt8.ofNat_toNat]

theorem count_utf8EncodeChar (ascii : byte.toNat < 128) (c : Char) :
    (String.utf8EncodeChar c).count byte = if c = Char.ofNat byte.toNat then 1 else 0 := by
  by_cases member : byte ∈ String.utf8EncodeChar c
  · obtain ⟨encoded, code⟩ := mem_utf8EncodeChar member ascii
    rw [← code, Char.ofNat_toNat, if_pos rfl, encoded, List.count_singleton_self]
  · have other : c ≠ Char.ofNat byte.toNat := by
      rintro rfl
      rw [utf8EncodeChar_ascii ascii] at member
      exact member (List.mem_singleton_self byte)
    rw [if_neg other, List.count_eq_zero_of_not_mem member]

theorem leads_high {first second : UInt8} (follows : leads first second = true) : 0x80 ≤ second.toNat := by
  unfold leads isContinuation at follows
  simp only [Bool.or_eq_true, Bool.and_eq_true, decide_eq_true_eq, UInt8.le_iff_toNat_le] at follows
  have bounds : (0xA0 : UInt8).toNat = 0xA0 ∧ (0x80 : UInt8).toNat = 0x80 ∧ (0x90 : UInt8).toNat = 0x90 :=
    ⟨rfl, rfl, rfl⟩
  omega

/-- What is replaced at once has no byte of ASCII. -/
theorem not_mem_malformed (ascii : byte.toNat < 128) (none : firstChar bytes = none) :
    byte ∉ bytes.take (malformed bytes) := by
  have high {first : UInt8} {rest : List UInt8} (whole : bytes = first :: rest) : 0x80 ≤ first.toNat := by
    by_contra low
    have encoded := utf8EncodeChar_ascii (show first.toNat < 128 by omega)
    have found : firstChar bytes = some (Char.ofNat first.toNat) :=
      firstChar_eq_some.mpr ⟨rest, by rw [whole, encoded]; rfl⟩
    rw [none] at found
    cases found
  have continues {third : UInt8} (cont : isContinuation third = true) : 0x80 ≤ third.toNat := by
    unfold isContinuation at cont
    simp only [Bool.and_eq_true, decide_eq_true_eq, UInt8.le_iff_toNat_le] at cont
    exact cont.1
  intro member
  fun_cases malformed bytes with
  | case1 first second third rest follows last =>
    have lead := high rfl
    have next := leads_high follows
    have more := continues (Bool.and_eq_true_iff.mp last).2
    simp only [malformed, follows, last, if_true, List.take_succ_cons, List.take_zero, List.mem_cons,
      List.not_mem_nil, or_false] at member
    rcases member with rfl | rfl | rfl <;> omega
  | case2 first second third rest follows last =>
    have lead := high rfl
    have next := leads_high follows
    simp only [malformed, follows, last, if_true, if_false, Bool.false_eq_true, List.take_succ_cons,
      List.take_zero, List.mem_cons, List.not_mem_nil, or_false] at member
    rcases member with rfl | rfl <;> omega
  | case3 first second third rest follows =>
    have lead := high rfl
    simp only [malformed, follows, if_false, Bool.false_eq_true, List.take_succ_cons, List.take_zero,
      List.mem_cons, List.not_mem_nil, or_false] at member
    rw [member] at ascii
    omega
  | case4 first second follows =>
    have lead := high rfl
    have next := leads_high follows
    simp only [malformed, follows, if_true, List.take_succ_cons, List.take_zero, List.mem_cons,
      List.not_mem_nil, or_false] at member
    rcases member with rfl | rfl <;> omega
  | case5 first second follows =>
    have lead := high rfl
    simp only [malformed, follows, if_false, Bool.false_eq_true, List.take_succ_cons, List.take_zero,
      List.mem_cons, List.not_mem_nil, or_false] at member
    rw [member] at ascii
    omega
  | case6 _ longer pair =>
    rcases bytes with _ | ⟨first, _ | ⟨second, _ | ⟨third, rest⟩⟩⟩
    · cases member
    · have lead := high rfl
      rw [List.mem_singleton.mp member] at ascii
      omega
    · exact absurd rfl (pair first second)
    · exact absurd rfl (longer first second third rest)

/-- A character of ASCII stands in the text as often as its byte among the bytes. -/
theorem count_lossyChars (ascii : byte.toNat < 128) (bytes : List UInt8) :
    (lossyChars bytes).count (Char.ofNat byte.toNat) = bytes.count byte := by
  fun_induction lossyChars bytes with
  | case1 => rfl
  | case2 bytes some_ c found ih =>
    obtain ⟨rest, rfl⟩ := firstChar_eq_some.mp found
    rw [← String.length_utf8EncodeChar, List.drop_left] at ih
    rw [← String.length_utf8EncodeChar, List.drop_left, List.count_append, count_utf8EncodeChar ascii,
      List.count_cons, ih, Nat.add_comm]
    simp only [beq_iff_eq]
  | case3 bytes some_ none ih =>
    have replaced : ¬ '\uFFFD' = Char.ofNat byte.toNat := by
      intro same
      have plain : ∀ n < 128, ¬ '\uFFFD' = Char.ofNat n := by decide
      exact plain _ ascii same
    have clean := List.count_eq_zero_of_not_mem (not_mem_malformed ascii none)
    have whole := List.take_append_drop (malformed bytes) bytes
    calc (('\uFFFD' :: lossyChars (bytes.drop (malformed bytes))).count (Char.ofNat byte.toNat))
        = (bytes.drop (malformed bytes)).count byte := by
          rw [List.count_cons_of_ne replaced, ih]
      _ = (bytes.take (malformed bytes) ++ bytes.drop (malformed bytes)).count byte := by
          rw [List.count_append, clean, Nat.zero_add]
      _ = bytes.count byte := by rw [whole]

end Lossy

theorem toList_loop (bytes : ByteArray) (i : Nat) (seen : List UInt8) :
    ByteArray.toList.loop bytes i seen = seen.reverse ++ bytes.data.toList.drop i := by
  fun_induction ByteArray.toList.loop bytes i seen with
  | case1 i seen inside ih =>
    have there : i < bytes.data.toList.length := inside
    have byte : bytes.get! i = bytes.data.toList[i] := getElem!_pos bytes.data i inside
    rw [ih, List.drop_eq_getElem_cons there, List.reverse_cons, byte, List.append_assoc]
    rfl
  | case2 i seen outside =>
    have past : bytes.data.toList.length ≤ i := Nat.le_of_not_lt outside
    rw [List.drop_of_length_le past, List.append_nil]

theorem toUTF8_toList (s : String) : s.toUTF8.toList = utf8 s := by
  have bytes : s.toUTF8 = (utf8 s).toByteArray := String.utf8Encode_toList.symm
  rw [bytes, ByteArray.toList, toList_loop, List.data_toByteArray]
  rfl

end Bytes
