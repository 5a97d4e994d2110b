import Jeryu.Library.Bytes
import Jeryu.Gitd.PushPrelude

/-!
The pkt-line format, and the records of a push in it. A length is four hexadecimal digits; the
number parser that reads it also takes a sign and three digits.
-/

namespace Jeryu.Gitd

open KeyedMap Text Bytes

theorem fromUtf8_iff {bytes : List UInt8} {text : String} :
    fromUtf8 bytes = some text ↔ utf8 text = bytes := by
  have encoded : text.toByteArray = (utf8 text).toByteArray := String.utf8Encode_toList.symm
  have array : (⟨bytes.toArray⟩ : ByteArray) = bytes.toByteArray := by
    apply ByteArray.ext
    rw [List.data_toByteArray]
  unfold fromUtf8 String.fromUTF8?
  rw [array]
  constructor
  · intro read
    split at read
    · next valid =>
      have same : text.toByteArray = bytes.toByteArray := by
        rw [← Option.some.inj read]
        rfl
      exact List.toByteArray_inj.mp (encoded.symm.trans same)
    · cases read
  · rintro rfl
    have valid : (utf8 text).toByteArray.IsValidUTF8 := by
      rw [← encoded]
      exact text.isValidUTF8
    rw [dif_pos valid]
    congr 1
    apply String.toByteArray_inj.mp
    exact encoded.symm

/-- A hexadecimal digit, in either case. -/
def Digit (byte : UInt8) (value : Nat) : Prop :=
  (48 ≤ byte.toNat ∧ byte.toNat ≤ 57 ∧ value + 48 = byte.toNat) ∨
    (97 ≤ byte.toNat ∧ byte.toNat ≤ 102 ∧ value + 87 = byte.toNat) ∨
      (65 ≤ byte.toNat ∧ byte.toNat ≤ 70 ∧ value + 55 = byte.toNat)

/-- The length of a packet in four hexadecimal digits. -/
def HexHeader (header : List UInt8) (length : Nat) : Prop :=
  ∃ a b c d i j k l, header = [a, b, c, d] ∧ Digit a i ∧ Digit b j ∧ Digit c k ∧ Digit d l ∧
    length = ((i * 16 + j) * 16 + k) * 16 + l

/-- The length of a packet in three hexadecimal digits behind a plus sign. -/
def SignedHeader (header : List UInt8) (length : Nat) : Prop :=
  ∃ b c d j k l, header = [43, b, c, d] ∧ Digit b j ∧ Digit c k ∧ Digit d l ∧
    length = (j * 16 + k) * 16 + l

/-- What the number parser takes for a length. -/
def AnyHeader (header : List UInt8) (length : Nat) : Prop :=
  HexHeader header length ∨ SignedHeader header length

theorem AnyHeader.four {header : List UInt8} {length : Nat} (any : AnyHeader header length) :
    header.length = 4 := by
  rcases any with ⟨_, _, _, _, _, _, _, _, rfl, -⟩ | ⟨_, _, _, _, _, _, rfl, -⟩
  · rfl
  · rfl

section Headers

variable {c : Char} {byte : UInt8} {value length : Nat} {header : List UInt8}

theorem hexdigit_iff : isAsciiHexdigit c = true ↔ 48 ≤ c.toNat ∧ c.toNat ≤ 57 ∨
    97 ≤ c.toNat ∧ c.toNat ≤ 102 ∨ 65 ≤ c.toNat ∧ c.toNat ≤ 70 := by
  unfold isAsciiHexdigit isAsciiDigit
  simp only [Bool.or_eq_true, Bool.and_eq_true, decide_eq_true_eq, Char.le_def, UInt32.le_iff_toNat_le,
    or_assoc]
  rfl

theorem encode_hexdigit (hex : isAsciiHexdigit c = true) :
    ∃ byte, String.utf8EncodeChar c = [byte] ∧ byte.toNat = c.toNat := by
  have range := hexdigit_iff.mp hex
  have same : c.val.toNat = c.toNat := rfl
  have one : c.utf8Size = 1 := by
    apply Char.utf8Size_eq_one_iff.mpr
    apply UInt32.le_iff_toNat_le.mpr
    have limit : (127 : UInt32).toNat = 127 := rfl
    omega
  refine ⟨_, String.utf8EncodeChar_eq_singleton one, ?_⟩
  rw [UInt32.toNat_toUInt8, same]
  omega

theorem digit_hexValue (hex : isAsciiHexdigit c = true) (same : byte.toNat = c.toNat) :
    Digit byte (hexValue c) := by
  have values : ∀ n < 103, isAsciiHexdigit (Char.ofNat n) = true →
      (48 ≤ n ∧ n ≤ 57 ∧ hexValue (Char.ofNat n) + 48 = n) ∨
        (97 ≤ n ∧ n ≤ 102 ∧ hexValue (Char.ofNat n) + 87 = n) ∨
          (65 ≤ n ∧ n ≤ 70 ∧ hexValue (Char.ofNat n) + 55 = n) := by decide
  have range := hexdigit_iff.mp hex
  have whole := values c.toNat (by omega) (by rwa [Char.ofNat_toNat])
  rw [Char.ofNat_toNat] at whole
  unfold Digit
  rw [same]
  exact whole

/-- Every digit is the one byte of a hexadecimal digit. -/
theorem exists_hexdigit (digit : Digit byte value) :
    ∃ c, String.utf8EncodeChar c = [byte] ∧ isAsciiHexdigit c = true ∧ hexValue c = value := by
  have small : byte.toNat < 103 := by
    unfold Digit at digit
    omega
  have plain : ∀ n < 103, (Char.ofNat n).toNat = n := by decide
  have same := plain byte.toNat small
  have hex : isAsciiHexdigit (Char.ofNat byte.toNat) = true := by
    apply hexdigit_iff.mpr
    rw [same]
    unfold Digit at digit
    omega
  obtain ⟨byte', encoded, code⟩ := encode_hexdigit hex
  have bytes : byte' = byte := UInt8.toNat_inj.mp (code.trans same)
  refine ⟨_, by rw [encoded, bytes], hex, ?_⟩
  have own := digit_hexValue hex same.symm
  unfold Digit at digit own
  omega

theorem fromStrRadix16_iff {text : String} : fromStrRadix16 text = some value ↔
    ∃ digits, (text.toList = digits ∨ text.toList = '+' :: digits) ∧ digits ≠ [] ∧
      (∀ c ∈ digits, isAsciiHexdigit c = true) ∧
        value = digits.foldl (fun value c => value * 16 + hexValue c) 0 := by
  have read (digits : List Char) : (if digits.isEmpty || !digits.all isAsciiHexdigit then none
      else some (digits.foldl (fun value c => value * 16 + hexValue c) 0)) = some value ↔
      digits ≠ [] ∧ (∀ c ∈ digits, isAsciiHexdigit c = true) ∧
        value = digits.foldl (fun value c => value * 16 + hexValue c) 0 := by
    split
    · next bad =>
      simp only [Bool.or_eq_true, List.isEmpty_iff, Bool.not_eq_true', List.all_eq_false] at bad
      constructor
      · exact fun none => nomatch none
      · intro ⟨some_, hex, _⟩
        rcases bad with rfl | ⟨c, member, other⟩
        · exact absurd rfl some_
        · exact absurd (hex c member) other
    · next good =>
      simp only [Bool.or_eq_true, List.isEmpty_iff, Bool.not_eq_true', List.all_eq_false, not_or] at good
      rw [Option.some.injEq]
      constructor
      · rintro rfl
        refine ⟨good.1, fun c member => ?_, rfl⟩
        by_contra other
        exact good.2 ⟨c, member, other⟩
      · exact fun ⟨_, _, same⟩ => same.symm
  unfold fromStrRadix16
  dsimp only
  split
  · next rest signed =>
    rw [read]
    constructor
    · exact fun number => ⟨rest, .inr signed, number⟩
    · rintro ⟨digits, same | same, some_, hex, number⟩
      · have plus := hex '+' (by rw [← same, signed]; exact List.mem_cons_self)
        exact absurd plus (by decide)
      · cases signed.symm.trans same
        exact ⟨some_, hex, number⟩
  · next unsigned =>
    rw [read]
    constructor
    · exact fun number => ⟨_, .inl rfl, number⟩
    · rintro ⟨digits, same | same, number⟩
      · rw [same]
        exact number
      · exact absurd same (unsigned digits)

/-- The digits of a text are its bytes. -/
theorem forall_hexdigit {digits : List Char} {values : List Nat} :
    (∀ c ∈ digits, isAsciiHexdigit c = true) ∧ values = digits.map hexValue →
      List.Forall₂ Digit (digits.flatMap String.utf8EncodeChar) values := by
  rintro ⟨hex, rfl⟩
  induction digits with
  | nil => exact .nil
  | cons c rest ih =>
    obtain ⟨byte, encoded, same⟩ := encode_hexdigit (hex c List.mem_cons_self)
    have first := digit_hexValue (hex c List.mem_cons_self) same
    have below := ih fun d member => hex d (List.mem_cons_of_mem c member)
    rw [List.flatMap_cons, encoded]
    exact .cons first below

theorem exists_hexdigits {bytes : List UInt8} {values : List Nat} (digits : List.Forall₂ Digit bytes values) :
    ∃ chars : List Char, chars.flatMap String.utf8EncodeChar = bytes ∧
      (∀ c ∈ chars, isAsciiHexdigit c = true) ∧ chars.map hexValue = values := by
  induction digits with
  | nil => exact ⟨[], rfl, fun _ member => (nomatch member), rfl⟩
  | cons digit _ ih =>
    obtain ⟨c, encoded, hex, rfl⟩ := exists_hexdigit digit
    obtain ⟨chars, rfl, rest, rfl⟩ := ih
    exact ⟨c :: chars, by rw [List.flatMap_cons, encoded]; rfl, List.forall_mem_cons.mpr ⟨hex, rest⟩, rfl⟩

/-- The bytes the number parser takes: hexadecimal digits, with a plus sign or without. -/
theorem radix_iff {bytes : List UInt8} : (∃ text, utf8 text = bytes ∧ fromStrRadix16 text = some value) ↔
    ∃ digits values, (bytes = digits ∨ bytes = 43 :: digits) ∧ digits ≠ [] ∧
      List.Forall₂ Digit digits values ∧ value = values.foldl (fun value digit => value * 16 + digit) 0 := by
  have plus : String.utf8EncodeChar '+' = [43] := rfl
  constructor
  · rintro ⟨text, rfl, number⟩
    obtain ⟨chars, shape, some_, hex, rfl⟩ := fromStrRadix16_iff.mp number
    have digits := forall_hexdigit ⟨hex, rfl⟩
    refine ⟨_, _, ?_, ?_, digits, by rw [List.foldl_map]⟩
    · unfold utf8
      rcases shape with plain | signed
      · rw [plain]
        exact .inl rfl
      · rw [signed, List.flatMap_cons, plus]
        exact .inr rfl
    · intro none
      rw [none] at digits
      cases chars with
      | nil => exact some_ rfl
      | cons => cases digits
  · rintro ⟨digits, values, shape, some_, each, rfl⟩
    obtain ⟨chars, rfl, hex, rfl⟩ := exists_hexdigits each
    have there : chars ≠ [] := by
      rintro rfl
      exact some_ rfl
    rcases shape with rfl | rfl
    · refine ⟨String.ofList chars, ?_, fromStrRadix16_iff.mpr ⟨chars, .inl ?_, there, hex, ?_⟩⟩
      · rw [utf8, String.toList_ofList]
      · rw [String.toList_ofList]
      · rw [List.foldl_map]
    · refine ⟨String.ofList ('+' :: chars), ?_, fromStrRadix16_iff.mpr ⟨chars, .inr ?_, there, hex, ?_⟩⟩
      · rw [utf8, String.toList_ofList, List.flatMap_cons, plus]
        rfl
      · rw [String.toList_ofList]
      · rw [List.foldl_map]

/-- What the parser takes for the length of a packet. -/
theorem pktLength_iff (four : header.length = 4) :
    pktLength header = .ok length ↔ AnyHeader header length := by
  have read : pktLength header = .ok length ↔
      ∃ text, utf8 text = header ∧ fromStrRadix16 text = some length := by
    unfold pktLength
    cases text : fromUtf8 header with
    | none =>
      simp only [reduceCtorEq, false_iff]
      intro ⟨text', same, _⟩
      rw [fromUtf8_iff.mpr same] at text
      cases text
    | some text' =>
      have own := fromUtf8_iff.mp text
      dsimp only
      cases number : fromStrRadix16 text' with
      | none =>
        simp only [reduceCtorEq, false_iff]
        intro ⟨other, same, reads⟩
        rw [utf8_inj.mp (same.trans own.symm), number] at reads
        cases reads
      | some value =>
        simp only [Except.ok.injEq]
        constructor
        · rintro rfl
          exact ⟨text', own, number⟩
        · intro ⟨other, same, reads⟩
          rw [utf8_inj.mp (same.trans own.symm), number] at reads
          exact Option.some.inj reads
  rw [read, radix_iff]
  constructor
  · rintro ⟨digits, values, rfl | rfl, -, each, rfl⟩
    · obtain ⟨a, b, c, d, rfl⟩ := List.length_eq_four.mp four
      rcases each with _ | ⟨first, _ | ⟨second, _ | ⟨third, _ | ⟨fourth, _ | _⟩⟩⟩⟩
      exact .inl ⟨a, b, c, d, _, _, _, _, rfl, first, second, third, fourth, by simp⟩
    · have three : digits.length = 3 := Nat.succ.inj four
      obtain ⟨b, c, d, rfl⟩ := List.length_eq_three.mp three
      rcases each with _ | ⟨second, _ | ⟨third, _ | ⟨fourth, _ | _⟩⟩⟩
      exact .inr ⟨b, c, d, _, _, _, rfl, second, third, fourth, by simp⟩
  · rintro (⟨a, b, c, d, i, j, k, l, rfl, first, second, third, fourth, rfl⟩ |
      ⟨b, c, d, j, k, l, rfl, second, third, fourth, rfl⟩)
    · have each : List.Forall₂ Digit [a, b, c, d] [i, j, k, l] :=
        .cons first (.cons second (.cons third (.cons fourth .nil)))
      exact ⟨_, _, .inl rfl, by simp, each, by simp⟩
    · have each : List.Forall₂ Digit [b, c, d] [j, k, l] := .cons second (.cons third (.cons fourth .nil))
      exact ⟨_, _, .inr rfl, by simp, each, by simp⟩

end Headers

inductive PktLine where
  | flush
  | delim
  | responseEnd
  | data (payload : List UInt8)
  deriving DecidableEq

namespace PktLine

/-- What the header of a line says: the lengths below four are marks. -/
def length : PktLine → Nat
  | flush => 0
  | delim => 1
  | responseEnd => 2
  | data payload => payload.length + 4

def payload : PktLine → List UInt8
  | data payload => payload
  | _ => []

end PktLine

/-- `{:04x}` -/
def hex04 (n : Nat) : String :=
  let digits := Nat.toDigits 16 n
  String.ofList (List.replicate (4 - digits.length) '0' ++ digits)

def encode (data : List UInt8) : List UInt8 := utf8 (hex04 (data.length + 4)) ++ data

def flush : List UInt8 := utf8 "0000"

/-- One turn of the loop of `decode_all`. -/
def nextLine (input : List UInt8) : Except GitdError (PktLine × List UInt8) :=
  if input.length < 4 then .error (.protocol "pkt-line missing length")
  else match pktLength (input.take 4) with
    | .error error => .error error
    | .ok length =>
      let input := input.drop 4
      if length = 0 then .ok (.flush, input)
      else if length = 1 then .ok (.delim, input)
      else if length = 2 then .ok (.responseEnd, input)
      else if length = 3 then .error (.protocol "reserved pkt-line length 0003")
      else if input.length < length - 4 then .error (.protocol "pkt-line payload truncated")
      else .ok (.data (input.take (length - 4)), input.drop (length - 4))

/-- A turn reads a header and as many bytes as it says. -/
theorem nextLine_iff {input rest : List UInt8} {line : PktLine} : nextLine input = .ok (line, rest) ↔
    ∃ header, AnyHeader header line.length ∧ input = header ++ line.payload ++ rest := by
  constructor
  · intro read
    unfold nextLine at read
    by_cases short : input.length < 4
    · rw [if_pos short] at read
      cases read
    rw [if_neg short] at read
    have four : (input.take 4).length = 4 := List.length_take_of_le (by omega)
    cases header : pktLength (input.take 4) with
    | error error =>
      rw [header] at read
      cases read
    | ok length =>
      rw [header] at read
      have any := (pktLength_iff four).mp header
      dsimp only at read
      split at read
      · next zero =>
        cases read
        exact ⟨_, zero ▸ any, by simp [PktLine.payload]⟩
      split at read
      · next one =>
        cases read
        exact ⟨_, one ▸ any, by simp [PktLine.payload]⟩
      split at read
      · next two =>
        cases read
        exact ⟨_, two ▸ any, by simp [PktLine.payload]⟩
      split at read
      · cases read
      split at read
      · cases read
      · next whole =>
        cases read
        have taken : ((input.drop 4).take (length - 4)).length + 4 = length := by
          rw [List.length_take_of_le (by omega)]
          omega
        refine ⟨input.take 4, ?_, ?_⟩
        · show AnyHeader (input.take 4) (((input.drop 4).take (length - 4)).length + 4)
          rw [taken]
          exact any
        · simp [PktLine.payload]
  · rintro ⟨header, any, rfl⟩
    have four := any.four
    have read := (pktLength_iff four).mpr any
    have start : (header ++ line.payload ++ rest).take 4 = header := by
      rw [List.append_assoc, List.take_append_of_le_length (by omega), List.take_of_length_le (by omega)]
    have after : (header ++ line.payload ++ rest).drop 4 = line.payload ++ rest := by
      rw [List.append_assoc, List.drop_append_of_le_length (by omega), List.drop_of_length_le (by omega)]
      rfl
    have long : ¬(header ++ line.payload ++ rest).length < 4 := by
      simp only [List.length_append]
      omega
    unfold nextLine
    rw [if_neg long, start, after, read]
    cases line with
    | flush => rfl
    | delim => rfl
    | responseEnd => rfl
    | data payload =>
      simp [PktLine.length, PktLine.payload]

theorem nextLine_frame {header : List UInt8} {line : PktLine} (any : AnyHeader header line.length)
    (rest : List UInt8) : nextLine (header ++ line.payload ++ rest) = .ok (line, rest) :=
  nextLine_iff.mpr ⟨header, any, rfl⟩

theorem nextLine_shrinks {input rest : List UInt8} {line : PktLine}
    (read : nextLine input = .ok (line, rest)) : rest.length < input.length := by
  obtain ⟨header, any, rfl⟩ := nextLine_iff.mp read
  have four := any.four
  simp only [List.length_append]
  omega

def decodeAll (input : List UInt8) : Except GitdError (List PktLine) :=
  if input.isEmpty then .ok []
  else match _read : nextLine input with
    | .error error => .error error
    | .ok (line, rest) => (decodeAll rest).map (line :: ·)
termination_by input.length
decreasing_by exact nextLine_shrinks _read

/-- A line as it stands in an input. -/
structure Frame where
  header : List UInt8
  line : PktLine

/-- Frames that take up an input, with headers of a kind. -/
inductive Decodes (Header : List UInt8 → Nat → Prop) : List Frame → List UInt8 → Prop where
  | nil : Decodes Header [] []
  | cons {header rest : List UInt8} {line : PktLine} {frames : List Frame} :
      Header header line.length → Decodes Header frames rest →
      Decodes Header (⟨header, line⟩ :: frames) (header ++ line.payload ++ rest)

/-- Frames of data that take up an input, or its start up to a flush. -/
inductive PushFrames (Header : List UInt8 → Nat → Prop) :
    List Frame → List (List UInt8) → List UInt8 → Prop where
  | ended : PushFrames Header [] [] []
  | flush {header rest : List UInt8} : Header header 0 →
      PushFrames Header [⟨header, .flush⟩] [] (header ++ rest)
  | cons {header payload rest : List UInt8} {frames : List Frame} {payloads : List (List UInt8)} :
      Header header (payload.length + 4) → PushFrames Header frames payloads rest →
      PushFrames Header (⟨header, .data payload⟩ :: frames) (payload :: payloads)
        (header ++ payload ++ rest)

section Frames

variable {input rest rest' : List UInt8} {frames frames' : List Frame} {payloads payloads' : List (List UInt8)}
  {lines : List PktLine} {line line' : PktLine} {header header' : List UInt8}
  {Header : List UInt8 → Nat → Prop}

/-- An input starts with one line behind one header. -/
theorem frame_unique (any : AnyHeader header line.length) (any' : AnyHeader header' line'.length)
    (same : header ++ line.payload ++ rest = header' ++ line'.payload ++ rest') :
    header = header' ∧ line = line' ∧ rest = rest' := by
  have read := nextLine_frame any rest
  have read' := nextLine_frame any' rest'
  rw [same, read'] at read
  cases read
  rw [List.append_assoc, List.append_assoc] at same
  exact ⟨(List.append_inj same (any.four.trans any'.four.symm)).1, rfl, rfl⟩

theorem decodeAll_iff : decodeAll input = .ok lines ↔
    ∃ frames, Decodes AnyHeader frames input ∧ frames.map Frame.line = lines := by
  constructor
  · intro decoded
    fun_induction decodeAll input generalizing lines with
    | case1 input empty =>
      cases List.isEmpty_iff.mp empty
      cases decoded
      exact ⟨[], .nil, rfl⟩
    | case2 => cases decoded
    | case3 input some_ line rest read ih =>
      obtain ⟨header, any, rfl⟩ := nextLine_iff.mp read
      cases below : decodeAll rest with
      | error error =>
        rw [below] at decoded
        cases decoded
      | ok more =>
        rw [below] at decoded
        cases decoded
        obtain ⟨frames, decodes, rfl⟩ := ih below
        exact ⟨_, .cons any decodes, rfl⟩
  · rintro ⟨frames, decodes, rfl⟩
    induction decodes with
    | nil =>
      unfold decodeAll
      rfl
    | @cons header rest line frames any _ ih =>
      have read := nextLine_frame any rest
      have some_ : ¬(header ++ line.payload ++ rest).isEmpty = true := by
        have shrinks := nextLine_shrinks read
        intro empty
        rw [List.isEmpty_iff.mp empty] at shrinks
        exact absurd shrinks (Nat.not_lt_zero _)
      unfold decodeAll
      rw [if_neg some_]
      split
      · next error failed =>
        rw [read] at failed
        cases failed
      · next line' rest' read' =>
        rw [read] at read'
        cases read'
        rw [ih]
        rfl

theorem Decodes.unique (decodes : Decodes AnyHeader frames input)
    (decodes' : Decodes AnyHeader frames' input) : frames = frames' := by
  induction decodes generalizing frames' with
  | nil =>
    generalize none : [] = input at decodes'
    cases decodes' with
    | nil => rfl
    | @cons header rest line _ any _ =>
      have four := any.four
      have long := congrArg List.length none
      simp only [List.length_append, List.length_nil] at long
      omega
  | @cons header rest line frames any _ ih =>
    generalize whole : header ++ line.payload ++ rest = input at decodes'
    cases decodes' with
    | nil =>
      have four := any.four
      have long := congrArg List.length whole
      simp only [List.length_append, List.length_nil] at long
      omega
    | cons any' decodes' =>
      obtain ⟨rfl, rfl, rfl⟩ := frame_unique any any' whole
      rw [ih decodes']

theorem PushFrames.unique (push : PushFrames AnyHeader frames payloads input)
    (push' : PushFrames AnyHeader frames' payloads' input) : frames = frames' ∧ payloads = payloads' := by
  have long (header rest : List UInt8) (length : Nat) (any : AnyHeader header length) :
      header ++ rest ≠ [] := by
    have four := any.four
    intro none
    have none := congrArg List.length none
    simp only [List.length_append, List.length_nil] at none
    omega
  induction push generalizing frames' payloads' with
  | ended =>
    generalize none : [] = input at push'
    cases push' with
    | ended => exact ⟨rfl, rfl⟩
    | flush any => exact absurd none.symm (long _ _ _ any)
    | cons any =>
      rw [List.append_assoc] at none
      exact absurd none.symm (long _ _ _ any)
  | @flush header rest any =>
    generalize whole : header ++ rest = input at push'
    cases push' with
    | ended => exact absurd whole (long _ _ _ any)
    | @flush header' rest' any' =>
      have heads : header = header' := (List.append_inj whole (any.four.trans any'.four.symm)).1
      rw [heads]
      exact ⟨rfl, rfl⟩
    | @cons header' payload' rest' _ _ any' =>
      have same : header ++ PktLine.flush.payload ++ rest =
          header' ++ (PktLine.data payload').payload ++ rest' := by
        simp only [PktLine.payload, List.append_nil, whole]
      cases (frame_unique any any' same).2.1
  | @cons header payload rest frames payloads any _ ih =>
    generalize whole : header ++ payload ++ rest = input at push'
    cases push' with
    | ended =>
      rw [List.append_assoc] at whole
      exact absurd whole (long _ _ _ any)
    | @flush header' rest' any' =>
      have same : header ++ (PktLine.data payload).payload ++ rest =
          header' ++ PktLine.flush.payload ++ rest' := by
        simp only [PktLine.payload, List.append_nil, whole]
      cases (frame_unique any any' same).2.1
    | @cons header' payload' rest' _ _ any' push' =>
      have same : header ++ (PktLine.data payload).payload ++ rest =
          header' ++ (PktLine.data payload').payload ++ rest' := whole
      obtain ⟨rfl, line, rfl⟩ := frame_unique any any' same
      cases line
      obtain ⟨rfl, rfl⟩ := ih push'
      exact ⟨rfl, rfl⟩

theorem HexHeader.unsigned {length : Nat} (hex : HexHeader header length) : ¬SignedHeader header length := by
  obtain ⟨a, b, c, d, i, j, k, l, rfl, first, -⟩ := hex
  rintro ⟨_, _, _, _, _, _, same, -⟩
  cases same
  have plus : (43 : UInt8).toNat = 43 := rfl
  unfold Digit at first
  omega

theorem Decodes.mono (kind : ∀ frame ∈ frames, Header frame.header frame.line.length)
    {Kind : List UInt8 → Nat → Prop} (decodes : Decodes Kind frames input) : Decodes Header frames input := by
  induction decodes with
  | nil => exact .nil
  | cons _ _ ih =>
    have first := kind _ List.mem_cons_self
    exact .cons first (ih fun frame member => kind frame (List.mem_cons_of_mem _ member))

theorem Decodes.headers (decodes : Decodes Header frames input) :
    ∀ frame ∈ frames, Header frame.header frame.line.length := by
  induction decodes with
  | nil => exact fun _ member => nomatch member
  | cons first _ ih => exact List.forall_mem_cons.mpr ⟨first, ih⟩

theorem PushFrames.mono (kind : ∀ frame ∈ frames, Header frame.header frame.line.length)
    {Kind : List UInt8 → Nat → Prop} (push : PushFrames Kind frames payloads input) :
    PushFrames Header frames payloads input := by
  induction push with
  | ended => exact .ended
  | flush _ => exact .flush (kind _ List.mem_cons_self)
  | cons _ _ ih =>
    have first := kind _ List.mem_cons_self
    exact .cons first (ih fun frame member => kind frame (List.mem_cons_of_mem _ member))

theorem PushFrames.headers (push : PushFrames Header frames payloads input) :
    ∀ frame ∈ frames, Header frame.header frame.line.length := by
  induction push with
  | ended => exact fun _ member => nomatch member
  | flush first => exact List.forall_mem_singleton.mpr first
  | cons first _ ih => exact List.forall_mem_cons.mpr ⟨first, ih⟩

end Frames

section Encoding

/-- The last digits of a number in base 16. -/
def lastDigits : Nat → Nat → List Char
  | 0, _ => []
  | count + 1, n => lastDigits count (n / 16) ++ [Nat.digitChar (n % 16)]

theorem padded_digits (count n : Nat) (small : n < 16 ^ (count + 1)) :
    List.replicate (count + 1 - (Nat.toDigits 16 n).length) '0' ++ Nat.toDigits 16 n =
      lastDigits (count + 1) n := by
  induction count generalizing n with
  | zero =>
    have digit : n < 16 := small
    rw [Nat.toDigits_of_lt_base digit, lastDigits, lastDigits, Nat.mod_eq_of_lt digit]
    rfl
  | succ count ih =>
    by_cases digit : n < 16
    · have zeros := ih 0 (Nat.pow_pos (by omega))
      have none : n / 16 = 0 := Nat.div_eq_of_lt digit
      rw [Nat.toDigits_of_lt_base digit, lastDigits, none, ← zeros, Nat.toDigits_zero,
        Nat.mod_eq_of_lt digit]
      simp only [List.length_singleton, Nat.add_sub_cancel]
      rw [List.replicate_succ']
    · have more := ih (n / 16) (Nat.div_lt_of_lt_mul (by rwa [← Nat.pow_succ']))
      rw [Nat.toDigits_of_base_le (by omega) (by omega), lastDigits, ← more, List.append_assoc,
        List.length_append, List.length_singleton]
      congr 2
      omega

theorem hexHeader_hex04 {n : Nat} (fits : n < 65536) : HexHeader (utf8 (hex04 n)) n := by
  have digits : ∀ d < 16, isAsciiHexdigit d.digitChar = true ∧ hexValue d.digitChar = d := by decide
  have digit (d : Nat) (small : d < 16) :
      ∃ byte, String.utf8EncodeChar d.digitChar = [byte] ∧ Digit byte d := by
    obtain ⟨byte, encoded, same⟩ := encode_hexdigit (digits d small).1
    have own := digit_hexValue (digits d small).1 same
    rw [(digits d small).2] at own
    exact ⟨byte, encoded, own⟩
  have four := padded_digits 3 n fits
  obtain ⟨a, first, i⟩ := digit (n / 16 / 16 / 16 % 16) (by omega)
  obtain ⟨b, second, j⟩ := digit (n / 16 / 16 % 16) (by omega)
  obtain ⟨c, third, k⟩ := digit (n / 16 % 16) (by omega)
  obtain ⟨d, fourth, l⟩ := digit (n % 16) (by omega)
  refine ⟨a, b, c, d, _, _, _, _, ?_, i, j, k, l, by omega⟩
  unfold utf8 hex04
  rw [String.toList_ofList, four]
  simp [lastDigits, first, second, third, fourth]

/-- A line as it is sent. -/
def PktLine.encoded : PktLine → List UInt8
  | flush => Gitd.flush
  | delim => utf8 "0001"
  | responseEnd => utf8 "0002"
  | data payload => encode payload

/-- Lines that fit come back. -/
theorem decodeAll_encoded (lines : List PktLine)
    (fits : ∀ payload, .data payload ∈ lines → payload.length ≤ 65531) :
    decodeAll (lines.flatMap PktLine.encoded) = .ok lines := by
  apply decodeAll_iff.mpr
  refine ⟨lines.map fun line => ⟨utf8 (hex04 line.length), line⟩, ?_, ?_⟩
  · induction lines with
    | nil => exact .nil
    | cons line lines ih =>
      have below := ih fun payload member => fits payload (List.mem_cons_of_mem _ member)
      have small : line.length < 65536 := by
        cases line with
        | data payload =>
          have short := fits payload List.mem_cons_self
          show payload.length + 4 < 65536
          omega
        | _ => decide
      have sent : line.encoded = utf8 (hex04 line.length) ++ line.payload := by
        cases line <;> rfl
      rw [List.flatMap_cons, sent, List.map_cons]
      exact .cons (.inl (hexHeader_hex04 small)) below
  · rw [List.map_map]
    exact List.map_id lines

end Encoding

end Jeryu.Gitd
