import Jeryu.Library.Base64
import Jeryu.Library.Lossy
import Jeryu.Gitd.Registry
import Jeryu.Gitd.Sha256

/-!
Fingerprints of SSH keys. The registers of the base64 loops keep the bits of the whole input; what is
given out is cut from their low end.
-/

namespace Jeryu.Gitd

open Text Bytes

section Table

theorem base64Table_eq : base64Table = Base64.alphabet.map fun c => UInt8.ofNat c.toNat := by
  rw [base64Table, toUTF8_toList]
  decide +kernel

theorem base64Digit_eq (value : UInt32) : base64Digit value = Base64.digit value.toNat := by
  have all : ∀ n < 64, Char.ofNat ((Base64.alphabet.map fun c => UInt8.ofNat c.toNat).getD n 0).toNat =
      Base64.alphabet.getD n '=' := by decide
  have low : (value &&& 0x3f).toNat = value.toNat % 64 := by
    rw [UInt32.toNat_and]
    exact Nat.and_two_pow_sub_one_eq_mod value.toNat 6
  rw [base64Digit, base64Table_eq, low, Base64.digit]
  exact all _ (Nat.mod_lt _ (by decide))

/-- A character as a byte. -/
def byteOf (c : Char) : UInt8 := UInt8.ofNat c.toNat

theorem digit_mod (n : Nat) : Base64.digit n = Base64.digit (n % 64) := by
  rw [Base64.digit, Base64.digit, Nat.mod_mod]

theorem findIdx_digit (n : Nat) : base64Table.findIdx? (· = byteOf (Base64.digit n)) = some (n % 64) := by
  have all : ∀ n < 64, (Base64.alphabet.map fun c => UInt8.ofNat c.toNat).findIdx? (· = byteOf (Base64.digit n)) = some n := by
    decide +kernel
  rw [base64Table_eq, digit_mod]
  exact all _ (Nat.mod_lt _ (by decide))

theorem not_filler (n : Nat) : isBase64Filler (byteOf (Base64.digit n)) = false := by
  have all : ∀ n < 64, isBase64Filler (byteOf (Base64.digit n)) = false := by decide +kernel
  rw [digit_mod]
  exact all _ (Nat.mod_lt _ (by decide))

end Table

section Registers

/-- Six bits more at the low end. -/
theorem push6 (bits : UInt32) {v : Nat} (few : v < 64) :
    ((bits <<< 6) ||| UInt32.ofNat v).toNat = bits.toNat % 2 ^ 26 * 64 + v := by
  have six : (6 : UInt32).toNat % 32 = 6 := rfl
  have cut : bits.toNat * 2 ^ 6 % 2 ^ 32 = 2 ^ 6 * (bits.toNat % 2 ^ 26) := by omega
  have small : v % 2 ^ 32 = v := Nat.mod_eq_of_lt (by omega)
  rw [UInt32.toNat_or, UInt32.toNat_shiftLeft, six, Nat.shiftLeft_eq, cut, UInt32.toNat_ofNat', small,
    ← Nat.two_pow_add_eq_or_of_lt few]
  omega

/-- Eight bits more at the low end. -/
theorem push8 (bits : UInt32) (byte : UInt8) :
    ((bits <<< 8) ||| UInt32.ofNat byte.toNat).toNat = bits.toNat % 2 ^ 24 * 256 + byte.toNat := by
  have eight : (8 : UInt32).toNat % 32 = 8 := rfl
  have cut : bits.toNat * 2 ^ 8 % 2 ^ 32 = 2 ^ 8 * (bits.toNat % 2 ^ 24) := by omega
  have few : byte.toNat < 2 ^ 8 := byte.toNat_lt
  have small : byte.toNat % 2 ^ 32 = byte.toNat := Nat.mod_eq_of_lt (by omega)
  rw [UInt32.toNat_or, UInt32.toNat_shiftLeft, eight, Nat.shiftLeft_eq, cut, UInt32.toNat_ofNat', small,
    ← Nat.two_pow_add_eq_or_of_lt few]
  omega

theorem shifted (bits : UInt32) {n : Nat} (few : n < 32) : (bits >>> UInt32.ofNat n).toNat = bits.toNat / 2 ^ n := by
  have small : n % 2 ^ 32 % 32 = n := by omega
  rw [UInt32.toNat_shiftRight, UInt32.toNat_ofNat', small, Nat.shiftRight_eq_div_pow]

end Registers

section Decode

variable (bits : UInt32) (rest : List UInt8)

/-- One digit where no byte is full yet. -/
theorem base64Step_short (n : Nat) : base64Step bits 0 (byteOf (Base64.digit n) :: rest) =
    base64Step ((bits <<< 6) ||| UInt32.ofNat (n % 64)) 6 rest := by
  rw [base64Step, not_filler, findIdx_digit]
  rfl

theorem base64Step_full {nbits : Nat} (enough : 2 ≤ nbits) (n : Nat) :
    base64Step bits nbits (byteOf (Base64.digit n) :: rest) =
      (base64Step ((bits <<< 6) ||| UInt32.ofNat (n % 64)) (nbits - 2) rest).map fun out =>
        (((bits <<< 6) ||| UInt32.ofNat (n % 64)) >>> UInt32.ofNat (nbits - 2)).toUInt8 :: out := by
  rw [base64Step, not_filler, findIdx_digit]
  show (if nbits + 6 ≥ 8 then _ else _) = _
  rw [if_pos (by omega)]

/-- What comes out of the register, and what stays below it. -/
theorem cut_eq {bits : UInt32} {n : Nat} {byte : UInt8} (few : n < 32) (same : bits.toNat / 2 ^ n % 256 = byte.toNat) :
    (bits >>> UInt32.ofNat n).toUInt8 = byte := by
  apply UInt8.toNat_inj.1
  rw [UInt32.toNat_toUInt8, shifted bits few]
  exact same

/-- A group of four digits, whatever the register held before. -/
theorem base64Step_group (a b c : UInt8) : ∃ bits', base64Step bits 0
    (byteOf (Base64.digit (((a.toNat * 256 + b.toNat) * 256 + c.toNat) / 2 ^ 18)) ::
      byteOf (Base64.digit (((a.toNat * 256 + b.toNat) * 256 + c.toNat) / 2 ^ 12)) ::
      byteOf (Base64.digit (((a.toNat * 256 + b.toNat) * 256 + c.toNat) / 2 ^ 6)) ::
      byteOf (Base64.digit ((a.toNat * 256 + b.toNat) * 256 + c.toNat)) :: rest) =
      (base64Step bits' 0 rest).map fun out => a :: b :: c :: out := by
  have ha := a.toNat_lt
  have hb := b.toNat_lt
  have hc := c.toNat_lt
  rw [base64Step_short, base64Step_full _ _ (by omega), base64Step_full _ _ (by omega), base64Step_full _ _ (by omega)]
  generalize group : (a.toNat * 256 + b.toNat) * 256 + c.toNat = n
  have held1 := push6 bits (Nat.mod_lt (n / 2 ^ 18) (show 0 < 64 by decide))
  generalize (bits <<< 6 ||| UInt32.ofNat (n / 2 ^ 18 % 64)) = bits1 at held1 ⊢
  have held2 := push6 bits1 (Nat.mod_lt (n / 2 ^ 12) (show 0 < 64 by decide))
  generalize (bits1 <<< 6 ||| UInt32.ofNat (n / 2 ^ 12 % 64)) = bits2 at held2 ⊢
  have held3 := push6 bits2 (Nat.mod_lt (n / 2 ^ 6) (show 0 < 64 by decide))
  generalize (bits2 <<< 6 ||| UInt32.ofNat (n / 2 ^ 6 % 64)) = bits3 at held3 ⊢
  have held4 := push6 bits3 (Nat.mod_lt n (show 0 < 64 by decide))
  generalize (bits3 <<< 6 ||| UInt32.ofNat (n % 64)) = bits4 at held4 ⊢
  have first : (bits2 >>> UInt32.ofNat (6 - 2)).toUInt8 = a := cut_eq (by omega) (by omega)
  have second : (bits3 >>> UInt32.ofNat (6 - 2 - 2)).toUInt8 = b := cut_eq (by omega) (by omega)
  have third : (bits4 >>> UInt32.ofNat (6 - 2 - 2 - 2)).toUInt8 = c := cut_eq (by omega) (by omega)
  rw [first, second, third, Option.map_map, Option.map_map]
  exact ⟨bits4, rfl⟩

/-- Padding is passed over. -/
theorem base64Step_padding {nbits : Nat} (padding : List UInt8) (only : ∀ byte ∈ padding, byte = 61) :
    base64Step bits nbits padding = some [] := by
  induction padding with
  | nil => rfl
  | cons byte rest ih =>
    obtain rfl := only byte List.mem_cons_self
    exact ih fun byte later => only byte (List.mem_cons_of_mem _ later)

theorem base64Step_encode (padded : Bool) (bytes : List UInt8) :
    ∀ bits, base64Step bits 0 ((Base64.encode padded bytes).map byteOf) = some bytes := by
  induction bytes using Base64.encode.induct with
  | case1 a b c rest ih =>
    intro bits
    obtain ⟨bits', grouped⟩ := base64Step_group bits ((Base64.encode padded rest).map byteOf) a b c
    rw [ih bits'] at grouped
    exact grouped
  | case2 a b =>
    intro bits
    have ha := a.toNat_lt
    have hb := b.toNat_lt
    simp only [Base64.encode, List.map_cons]
    rw [base64Step_short, base64Step_full _ _ (by omega), base64Step_full _ _ (by omega)]
    generalize group : (a.toNat * 256 + b.toNat) * 4 = n
    have held1 := push6 bits (Nat.mod_lt (n / 2 ^ 12) (show 0 < 64 by decide))
    generalize (bits <<< 6 ||| UInt32.ofNat (n / 2 ^ 12 % 64)) = bits1 at held1 ⊢
    have held2 := push6 bits1 (Nat.mod_lt (n / 2 ^ 6) (show 0 < 64 by decide))
    generalize (bits1 <<< 6 ||| UInt32.ofNat (n / 2 ^ 6 % 64)) = bits2 at held2 ⊢
    have held3 := push6 bits2 (Nat.mod_lt n (show 0 < 64 by decide))
    generalize (bits2 <<< 6 ||| UInt32.ofNat (n % 64)) = bits3 at held3 ⊢
    have first : (bits2 >>> UInt32.ofNat (6 - 2)).toUInt8 = a := cut_eq (by omega) (by omega)
    have second : (bits3 >>> UInt32.ofNat (6 - 2 - 2)).toUInt8 = b := cut_eq (by omega) (by omega)
    rw [first, second, base64Step_padding]
    · rfl
    · cases padded <;> simp [byteOf]
  | case3 a =>
    intro bits
    have ha := a.toNat_lt
    simp only [Base64.encode, List.map_cons]
    rw [base64Step_short, base64Step_full _ _ (by omega)]
    generalize group : a.toNat * 16 = n
    have held1 := push6 bits (Nat.mod_lt (n / 2 ^ 6) (show 0 < 64 by decide))
    generalize (bits <<< 6 ||| UInt32.ofNat (n / 2 ^ 6 % 64)) = bits1 at held1 ⊢
    have held2 := push6 bits1 (Nat.mod_lt n (show 0 < 64 by decide))
    generalize (bits1 <<< 6 ||| UInt32.ofNat (n % 64)) = bits2 at held2 ⊢
    have first : (bits2 >>> UInt32.ofNat (6 - 2)).toUInt8 = a := cut_eq (by omega) (by omega)
    rw [first, base64Step_padding]
    · rfl
    · cases padded <;> simp [byteOf]
  | case4 => exact fun _ => rfl

theorem flatMap_ascii {text : List Char} (ascii : ∀ c ∈ text, String.utf8EncodeChar c = [byteOf c]) :
    text.flatMap String.utf8EncodeChar = text.map byteOf := by
  induction text with
  | nil => rfl
  | cons c rest ih =>
    rw [List.flatMap_cons, List.map_cons, ascii c List.mem_cons_self, ih fun d later => ascii d (List.mem_cons_of_mem _ later)]
    rfl

theorem base64Decode_encode (padded : Bool) (bytes : List UInt8) :
    base64Decode (String.ofList (Base64.encode padded bytes)) = some bytes := by
  have ascii : ('=' :: Base64.alphabet).all (fun c => String.utf8EncodeChar c == [byteOf c]) = true := by decide +kernel
  have text : (String.ofList (Base64.encode padded bytes)).toUTF8.toList = (Base64.encode padded bytes).map byteOf := by
    rw [toUTF8_toList, utf8, String.toList_ofList]
    apply flatMap_ascii
    intro c among
    have inside : c ∈ '=' :: Base64.alphabet := List.mem_cons.2 (Base64.mem_encode among).symm
    exact eq_of_beq (List.all_eq_true.1 ascii c inside)
  rw [base64Decode, text, base64Step_encode]

end Decode

section Encode

section Steps

variable (bits : UInt32) (byte : UInt8) (rest : List UInt8)

def pushed : UInt32 := (bits <<< 8) ||| UInt32.ofNat byte.toNat

theorem encodeStep_first : base64EncodeStep bits 0 (byte :: rest) =
    base64Digit (pushed bits byte >>> UInt32.ofNat 2) :: base64EncodeStep (pushed bits byte) 2 rest := rfl

theorem encodeStep_second : base64EncodeStep bits 2 (byte :: rest) =
    base64Digit (pushed bits byte >>> UInt32.ofNat 4) :: base64EncodeStep (pushed bits byte) 4 rest := rfl

theorem encodeStep_third : base64EncodeStep bits 4 (byte :: rest) =
    base64Digit (pushed bits byte >>> UInt32.ofNat 6) :: base64Digit (pushed bits byte >>> UInt32.ofNat 0) ::
      base64EncodeStep (pushed bits byte) 0 rest := rfl

theorem encodeStep_rest {nbits : Nat} (some_ : 0 < nbits) :
    base64EncodeStep bits nbits [] = [base64Digit (bits <<< UInt32.ofNat (6 - nbits))] := if_pos some_

end Steps

/-- A digit given out of the low end. -/
theorem digit_shifted {bits : UInt32} {n m : Nat} (few : n < 32) (same : bits.toNat / 2 ^ n % 64 = m % 64) :
    base64Digit (bits >>> UInt32.ofNat n) = Base64.digit m := by
  rw [base64Digit_eq, shifted bits few, Base64.digit, Base64.digit, same]

/-- The last digit, filled up with zeros. -/
theorem digit_filled {bits : UInt32} {n m : Nat} (few : n < 32) (same : bits.toNat * 2 ^ n % 64 = m % 64) :
    base64Digit (bits <<< UInt32.ofNat n) = Base64.digit m := by
  have small : n % 2 ^ 32 % 32 = n := by omega
  have low : bits.toNat * 2 ^ n % 2 ^ 32 % 64 = bits.toNat * 2 ^ n % 64 := Nat.mod_mod_of_dvd _ (by decide)
  rw [base64Digit_eq, UInt32.toNat_shiftLeft, UInt32.toNat_ofNat', small, Nat.shiftLeft_eq, Base64.digit, Base64.digit, low, same]

theorem base64EncodeStep_encode (bytes : List UInt8) :
    ∀ bits, base64EncodeStep bits 0 bytes = Base64.encode false bytes := by
  induction bytes using Base64.encode.induct with
  | case1 a b c rest ih =>
    intro bits
    have held1 : (pushed bits a).toNat = _ := push8 bits a
    rw [encodeStep_first, encodeStep_second, encodeStep_third, ih]
    generalize pushed bits a = bits1 at held1 ⊢
    have held2 : (pushed bits1 b).toNat = _ := push8 bits1 b
    generalize pushed bits1 b = bits2 at held2 ⊢
    have held3 : (pushed bits2 c).toNat = _ := push8 bits2 c
    generalize pushed bits2 c = bits3 at held3 ⊢
    have ha := a.toNat_lt
    have hb := b.toNat_lt
    have hc := c.toNat_lt
    rw [digit_shifted (m := ((a.toNat * 256 + b.toNat) * 256 + c.toNat) / 2 ^ 18) (by omega) (by omega),
      digit_shifted (m := ((a.toNat * 256 + b.toNat) * 256 + c.toNat) / 2 ^ 12) (by omega) (by omega),
      digit_shifted (m := ((a.toNat * 256 + b.toNat) * 256 + c.toNat) / 2 ^ 6) (by omega) (by omega),
      digit_shifted (m := (a.toNat * 256 + b.toNat) * 256 + c.toNat) (by omega) (by omega)]
    rfl
  | case2 a b =>
    intro bits
    have held1 : (pushed bits a).toNat = _ := push8 bits a
    rw [encodeStep_first, encodeStep_second, encodeStep_rest _ (by decide)]
    generalize pushed bits a = bits1 at held1 ⊢
    have held2 : (pushed bits1 b).toNat = _ := push8 bits1 b
    generalize pushed bits1 b = bits2 at held2 ⊢
    have ha := a.toNat_lt
    have hb := b.toNat_lt
    rw [digit_shifted (m := (a.toNat * 256 + b.toNat) * 4 / 2 ^ 12) (by omega) (by omega),
      digit_shifted (m := (a.toNat * 256 + b.toNat) * 4 / 2 ^ 6) (by omega) (by omega),
      digit_filled (m := (a.toNat * 256 + b.toNat) * 4) (by omega) (by omega)]
    rfl
  | case3 a =>
    intro bits
    have held1 : (pushed bits a).toNat = _ := push8 bits a
    rw [encodeStep_first, encodeStep_rest _ (by decide)]
    generalize pushed bits a = bits1 at held1 ⊢
    have ha := a.toNat_lt
    rw [digit_shifted (m := a.toNat * 16 / 2 ^ 6) (by omega) (by omega), digit_filled (m := a.toNat * 16) (by omega) (by omega)]
    rfl
  | case4 => exact fun _ => rfl

theorem base64EncodeNopad_eq (bytes : List UInt8) : base64EncodeNopad bytes = String.ofList (Base64.encode false bytes) := by
  rw [base64EncodeNopad, base64EncodeStep_encode]

end Encode

section Lines

/-- Every key type that OpenSSH writes starts so. -/
def KeyType (token : List Char) : Prop :=
  (∀ c ∈ token, isWhitespace c = false) ∧ ("ssh-".toList <+: token ∨ "ecdsa-".toList <+: token ∨ "sk-".toList <+: token)

def Blank (spaces : List Char) : Prop := ∀ c ∈ spaces, isWhitespace c = true

/-- The end of a line, or white space and whatever comes after it. -/
def Ends (after : List Char) : Prop := after = [] ∨ ∃ space comment, after = space :: comment ∧ isWhitespace space = true

/-- A line of `authorized_keys` that carries the base64 of a key. -/
inductive CarriesKey (key : List UInt8) : String → Prop where
  | bare (padded : Bool) (before after : List Char) (blank : Blank before) (ends : Ends after) :
      CarriesKey key (String.ofList (before ++ (Base64.encode padded key ++ after)))
  | named (padded : Bool) (before token gap after : List Char) (blank : Blank before) (algorithm : KeyType token)
      (apart : gap ≠ [] ∧ Blank gap) (ends : Ends after) :
      CarriesKey key (String.ofList (before ++ (token ++ (gap ++ (Base64.encode padded key ++ after)))))

theorem words_spaces {spaces text : List Char} (blank : Blank spaces) : words (spaces ++ text) = words text := by
  induction spaces with
  | nil => rfl
  | cons c rest ih =>
    have skipped : words ([] ++ c :: (rest ++ text)) = words [] ++ words (rest ++ text) :=
      words_append (blank c List.mem_cons_self)
    rw [List.nil_append] at skipped
    rw [List.cons_append, skipped, words_nil, List.nil_append]
    exact ih fun d later => blank d (List.mem_cons_of_mem _ later)

theorem words_word {word after : List Char} (solid : ∀ c ∈ word, isWhitespace c = false) (some_ : word ≠ [])
    (ends : Ends after) : words (word ++ after) = word :: words after := by
  rcases ends with rfl | ⟨space, comment, rfl, blank⟩
  · rw [List.append_nil, words_of_solid solid some_, words_nil]
  · have skipped : words ([] ++ space :: comment) = words [] ++ words comment := words_append blank
    rw [List.nil_append, words_nil, List.nil_append] at skipped
    rw [words_append blank, words_of_solid solid some_, skipped]
    rfl

theorem encode_solid {padded : Bool} {key : List UInt8} :
    ∀ c ∈ Base64.encode padded key, isWhitespace c = false ∧ c ≠ '-' := by
  have all : ('=' :: Base64.alphabet).all (fun c => !isWhitespace c && c != '-') = true := by decide +kernel
  intro c among
  have inside : c ∈ '=' :: Base64.alphabet := List.mem_cons.2 (Base64.mem_encode among).symm
  have checked := List.all_eq_true.1 all c inside
  simpa using checked

/-- The base64 is the first word that does not start like a key type. -/
theorem carries_words {key : List UInt8} {line : String} (some_ : key ≠ []) (carries : CarriesKey key line) :
    ∃ padded token after, words line.toList = token ++ Base64.encode padded key :: after ∧
      (token = [] ∨ ∃ algorithm, token = [algorithm] ∧ KeyType algorithm) := by
  cases carries with
  | bare padded before after blank ends =>
    refine ⟨padded, [], words after, ?_, .inl rfl⟩
    rw [String.toList_ofList, words_spaces blank, words_word (fun c among => (encode_solid c among).1)
      (Base64.encode_ne_nil some_) ends]
    rfl
  | named padded before token gap after blank algorithm apart ends =>
    refine ⟨padded, [token], words after, ?_, .inr ⟨token, rfl, algorithm⟩⟩
    have solid : token ≠ [] := by
      rintro rfl
      rcases algorithm.2 with begins | begins | begins <;> simp at begins
    have gapped : Ends (gap ++ (Base64.encode padded key ++ after)) := by
      rcases gap with _ | ⟨space, more⟩
      · exact absurd rfl apart.1
      · exact .inr ⟨space, more ++ (Base64.encode padded key ++ after), rfl, apart.2 space List.mem_cons_self⟩
    rw [String.toList_ofList, words_spaces blank, words_word algorithm.1 solid gapped, words_spaces apart.2,
      words_word (fun c among => (encode_solid c among).1) (Base64.encode_ne_nil some_) ends]
    rfl

/-- What the search of `ssh_fingerprint` passes over. -/
theorem startsWith_ofList {token : List Char} {pre : String} :
    startsWith (String.ofList token) pre = true ↔ pre.toList <+: token := by
  rw [startsWith, String.toList_ofList, List.isPrefixOf_iff_prefix]

theorem encode_kept {padded : Bool} {key : List UInt8} {pre : String} (dashed : '-' ∈ pre.toList) :
    startsWith (String.ofList (Base64.encode padded key)) pre = false := by
  rw [← Bool.not_eq_true, startsWith_ofList]
  rintro begins
  exact (encode_solid '-' (begins.subset dashed)).2 rfl

theorem keyBlob_carries {key : List UInt8} {line : String} (some_ : key ≠ []) (carries : CarriesKey key line) :
    ∃ padded, keyBlob (trim line) = String.ofList (Base64.encode padded key) := by
  obtain ⟨padded, token, after, split, typed⟩ := carries_words some_ carries
  have kept : (!startsWith (String.ofList (Base64.encode padded key)) "ssh-" &&
      !startsWith (String.ofList (Base64.encode padded key)) "ecdsa-" &&
      !startsWith (String.ofList (Base64.encode padded key)) "sk-") = true := by
    rw [encode_kept (by decide), encode_kept (by decide), encode_kept (by decide)]
    rfl
  refine ⟨padded, ?_⟩
  rw [keyBlob, splitWhitespace_trim, splitWhitespace_eq, split, List.map_append, List.map_cons]
  rcases typed with rfl | ⟨algorithm, rfl, -, begins⟩
  · rw [List.map_nil, List.nil_append, List.find?_cons, kept]
    rfl
  · have skipped : (!startsWith (String.ofList algorithm) "ssh-" && !startsWith (String.ofList algorithm) "ecdsa-" &&
        !startsWith (String.ofList algorithm) "sk-") = false := by
      rcases begins with begins | begins | begins <;> simp [startsWith_ofList.2 begins]
    rw [List.map_cons, List.map_nil, List.singleton_append, List.find?_cons, skipped, List.find?_cons, kept]
    rfl

theorem trim_carries {key : List UInt8} {line : String} (some_ : key ≠ []) (carries : CarriesKey key line) : trim line ≠ "" := by
  obtain ⟨padded, token, after, split, -⟩ := carries_words some_ carries
  intro blank
  have none_ : splitWhitespace (trim line) = [] := by rw [blank, splitWhitespace_eq, String.toList_empty, words_nil, List.map_nil]
  rw [splitWhitespace_trim, splitWhitespace_eq, split, List.map_append, List.append_eq_nil_iff] at none_
  exact List.cons_ne_nil _ _ none_.2

theorem sshFingerprint_carries (sha256 : List UInt8 → List UInt8) {key : List UInt8} {line : String} (some_ : key ≠ [])
    (carries : CarriesKey key line) : sshFingerprint sha256 line = .ok ("SHA256:" ++ base64EncodeNopad (sha256 key)) := by
  obtain ⟨padded, found⟩ := keyBlob_carries some_ carries
  rw [sshFingerprint, if_neg (trim_carries some_ carries), found, base64Decode_encode]

end Lines

theorem base64Decode_nopad (bytes : List UInt8) : base64Decode (base64EncodeNopad bytes) = some bytes := by
  rw [base64EncodeNopad_eq, base64Decode_encode]

theorem base64EncodeNopad_injective : Function.Injective base64EncodeNopad := by
  intro bytes bytes' same
  have decoded := base64Decode_nopad bytes
  rw [same, base64Decode_nopad] at decoded
  exact (Option.some.inj decoded).symm

/-- Base64 comes back, and two lines have one fingerprint exactly when they carry one key, for any hash that tells the
two keys apart. -/
theorem fingerprints_identify :
    (∀ padded bytes, base64Decode (String.ofList (Base64.encode padded bytes)) = some bytes) ∧
    (∀ bytes, base64Decode (base64EncodeNopad bytes) = some bytes) ∧
    ∀ (sha256 : List UInt8 → List UInt8) (key key' : List UInt8) (line line' : String), key ≠ [] → key' ≠ [] →
      (sha256 key = sha256 key' → key = key') → CarriesKey key line → CarriesKey key' line' →
      (∃ fingerprint, sshFingerprint sha256 line = .ok fingerprint) ∧
      (sshFingerprint sha256 line = sshFingerprint sha256 line' ↔ key = key') := by
  have lines : ∀ (sha256 : List UInt8 → List UInt8) (key key' : List UInt8) (line line' : String), key ≠ [] → key' ≠ [] →
      (sha256 key = sha256 key' → key = key') → CarriesKey key line → CarriesKey key' line' →
      (∃ fingerprint, sshFingerprint sha256 line = .ok fingerprint) ∧
      (sshFingerprint sha256 line = sshFingerprint sha256 line' ↔ key = key') := by
    intro sha256 key key' line line' some_ some_' apart carries carries'
    rw [sshFingerprint_carries sha256 some_ carries, sshFingerprint_carries sha256 some_' carries']
    refine ⟨⟨_, rfl⟩, ?_, ?_⟩
    · intro same
      have texts := (String.append_right_inj _).1 (Except.ok.inj same)
      exact apart (base64EncodeNopad_injective texts)
    · rintro rfl
      rfl
  exact ⟨base64Decode_encode, base64Decode_nopad, lines⟩

def laptopKey : List UInt8 := [0, 0, 0, 7, 115, 115, 104, 45, 114, 115, 97, 0, 0, 0, 3, 1, 0, 1, 0, 0, 0, 3, 90, 5, 7]

def serverKey : List UInt8 := [0, 0, 0, 7, 115, 115, 104, 45, 114, 115, 97, 0, 0, 0, 3, 1, 0, 1, 0, 0, 0, 3, 90, 5, 9]

def laptopLine : String := "ssh-rsa AAAAB3NzaC1yc2EAAAADAQABAAAAA1oFBw== laptop"

def serverLine : String := "  AAAAB3NzaC1yc2EAAAADAQABAAAAA1oFCQ"

theorem two_keys : ((∃ fingerprint, sshFingerprint Sha256.sha256 laptopLine = .ok fingerprint) ∧
    (sshFingerprint Sha256.sha256 laptopLine = sshFingerprint Sha256.sha256 serverLine ↔ laptopKey = serverKey)) ∧
    laptopKey ≠ serverKey := by
  have named : laptopLine = String.ofList ([] ++
      ("ssh-rsa".toList ++ ([' '] ++ (Base64.encode true laptopKey ++ " laptop".toList)))) := by decide +kernel
  have bare : serverLine = String.ofList ([ ' ', ' '] ++ (Base64.encode false serverKey ++ [])) := by decide +kernel
  have solid : "ssh-rsa".toList.all (fun c => !isWhitespace c) = true := by decide +kernel
  have algorithm : KeyType "ssh-rsa".toList :=
    ⟨fun c among => by simpa using List.all_eq_true.1 solid c among, .inl ⟨"rsa".toList, by decide⟩⟩
  have space : isWhitespace ' ' = true := by decide
  have carries : CarriesKey laptopKey laptopLine := by
    rw [named]
    exact .named true [] _ [' '] _ (by simp [Blank]) algorithm ⟨by simp, by simp [Blank, space]⟩
      (.inr ⟨' ', "laptop".toList, rfl, space⟩)
  have carries' : CarriesKey serverKey serverLine := by
    rw [bare]
    exact .bare false [ ' ', ' '] [] (by simp [Blank, space]) (.inl rfl)
  have apart : Sha256.sha256 laptopKey ≠ Sha256.sha256 serverKey := by decide +kernel
  have other : laptopKey ≠ serverKey := by decide +kernel
  exact ⟨fingerprints_identify.2.2 Sha256.sha256 laptopKey serverKey _ _ (by simp [laptopKey]) (by simp [serverKey])
    (fun same => absurd same apart) carries carries', other⟩

end Jeryu.Gitd
