import Jeryu.Library.Lossy
import Jeryu.Gitd.PktLines

/-!
The target of a request: its path, the pairs of its query, and the bytes both have behind percent
signs. A plus sign is read as a space, in the path as in the query.
-/

namespace Jeryu.Gitd

open KeyedMap Text Bytes

/-- The byte a percent sign stands for with the two bytes behind it. -/
def escaped (byte : UInt8) (rest : List UInt8) : Option UInt8 :=
  if byte = 37 then
    match rest with
    | high :: low :: _ => ((fromUtf8 [high, low]).bind fromStrRadix16).map UInt8.ofNat
    | _ => none
  else none

def percentBytes (bytes : List UInt8) : List UInt8 :=
  match bytes with
  | [] => []
  | byte :: rest =>
    match escaped byte rest with
    | some value => value :: percentBytes (rest.drop 2)
    | none => (if byte = 43 then 32 else byte) :: percentBytes rest
termination_by bytes.length
decreasing_by
  · rw [List.length_drop, List.length_cons]
    omega
  · rw [List.length_cons]
    omega

def percentDecode (input : String) : String := fromUtf8Lossy (percentBytes (utf8 input))

def splitPathQuery (raw : String) : String × HashMap String String :=
  let (path, queryRaw) := (splitOnce raw '?').getD (raw, "")
  let query := (splitOn queryRaw '&').foldl (fun query pair =>
    if pair = "" then query
    else
      let (k, v) := (splitOnce pair '=').getD (pair, "")
      query.insert (percentDecode k) (percentDecode v)) (∅ : HashMap String String)
  (percentDecode path, query)

def digitOf (byte : UInt8) : Option Nat :=
  if 48 ≤ byte && byte ≤ 57 then some (byte.toNat - 48)
  else if 97 ≤ byte && byte ≤ 102 then some (byte.toNat - 87)
  else if 65 ≤ byte && byte ≤ 70 then some (byte.toNat - 55)
  else none

/-- The byte two hexadecimal digits behind a percent sign stand for. -/
def unescaped (byte : UInt8) (rest : List UInt8) : Option UInt8 :=
  if byte = 37 then
    match rest with
    | high :: low :: _ => do return UInt8.ofNat ((← digitOf high) * 16 + (← digitOf low))
    | _ => none
  else none

/-- The bytes with those behind percent signs, and nothing else changed. -/
def unescapeBytes (bytes : List UInt8) : List UInt8 :=
  match bytes with
  | [] => []
  | byte :: rest =>
    match unescaped byte rest with
    | some value => value :: unescapeBytes (rest.drop 2)
    | none => byte :: unescapeBytes rest
termination_by bytes.length
decreasing_by
  · rw [List.length_drop, List.length_cons]
    omega
  · rw [List.length_cons]
    omega

def unescape (input : String) : String := fromUtf8Lossy (unescapeBytes (utf8 input))

section Escapes

variable {byte high low value : UInt8} {rest bytes : List UInt8} {n : Nat}

theorem digitOf_eq_some : digitOf byte = some n ↔ Digit byte n := by
  have bounds : (48 : UInt8).toNat = 48 ∧ (57 : UInt8).toNat = 57 ∧ (97 : UInt8).toNat = 97 ∧
      (102 : UInt8).toNat = 102 ∧ (65 : UInt8).toNat = 65 ∧ (70 : UInt8).toNat = 70 :=
    ⟨rfl, rfl, rfl, rfl, rfl, rfl⟩
  unfold digitOf Digit
  simp only [Bool.and_eq_true, decide_eq_true_eq, UInt8.le_iff_toNat_le, bounds]
  split
  · rw [Option.some.injEq]
    omega
  split
  · rw [Option.some.injEq]
    omega
  split
  · rw [Option.some.injEq]
    omega
  · simp only [reduceCtorEq, false_iff]
    omega

/-- A hexadecimal digit is neither a plus sign nor a percent sign. -/
theorem Digit.plain (digit : Digit byte n) : byte ≠ 43 ∧ byte ≠ 37 ∧ n < 16 := by
  unfold Digit at digit
  refine ⟨?_, ?_, by omega⟩
  · rintro rfl
    have plus : (43 : UInt8).toNat = 43 := rfl
    omega
  · rintro rfl
    have percent : (37 : UInt8).toNat = 37 := rfl
    omega

theorem unescaped_eq_some : unescaped byte rest = some value ↔ ∃ high low more i j, byte = 37 ∧
    rest = high :: low :: more ∧ Digit high i ∧ Digit low j ∧ value = UInt8.ofNat (i * 16 + j) := by
  unfold unescaped
  split
  · next percent =>
    split
    · next high low more =>
      simp only [← digitOf_eq_some]
      cases first : digitOf high with
      | none => simp [first]
      | some i =>
        cases second : digitOf low with
        | none => simp [second]
        | some j => simp [percent, first, second, eq_comm]
    · next short =>
      simp only [reduceCtorEq, false_iff]
      rintro ⟨high, low, more, _, _, -, rfl, -⟩
      exact short _ _ _ rfl
  · next other =>
    simp only [reduceCtorEq, false_iff]
    rintro ⟨_, _, _, _, _, percent, -⟩
    exact other percent

/-- What the number parser makes of an escape: two digits, or one behind a plus sign. -/
theorem escaped_eq_some : escaped byte rest = some value ↔ unescaped byte rest = some value ∨
    ∃ low more j, byte = 37 ∧ rest = 43 :: low :: more ∧ Digit low j ∧ value = UInt8.ofNat j := by
  have read (high low : UInt8) : ((fromUtf8 [high, low]).bind fromStrRadix16).map UInt8.ofNat = some value ↔
      (∃ i j, Digit high i ∧ Digit low j ∧ value = UInt8.ofNat (i * 16 + j)) ∨
        ∃ j, high = 43 ∧ Digit low j ∧ value = UInt8.ofNat j := by
    have parsed : ((fromUtf8 [high, low]).bind fromStrRadix16).map UInt8.ofNat = some value ↔
        ∃ n, (∃ text, utf8 text = [high, low] ∧ fromStrRadix16 text = some n) ∧ UInt8.ofNat n = value := by
      simp only [Option.map_eq_some_iff, Option.bind_eq_some_iff, fromUtf8_iff]
    rw [parsed]
    constructor
    · rintro ⟨n, number, rfl⟩
      obtain ⟨digits, values, same | same, -, each, rfl⟩ := radix_iff.mp number
      · rw [← same] at each
        rcases each with _ | ⟨first, _ | ⟨second, _ | _⟩⟩
        exact .inl ⟨_, _, first, second, by simp⟩
      · obtain ⟨rfl, rfl⟩ := List.cons.inj same
        rcases each with _ | ⟨second, _ | _⟩
        exact .inr ⟨_, rfl, second, by simp⟩
    · rintro (⟨i, j, first, second, rfl⟩ | ⟨j, rfl, second, rfl⟩)
      · refine ⟨i * 16 + j, radix_iff.mpr ⟨[high, low], [i, j], .inl rfl, by simp, ?_, by simp⟩, rfl⟩
        exact .cons first (.cons second .nil)
      · refine ⟨j, radix_iff.mpr ⟨[low], [j], .inr rfl, by simp, ?_, by simp⟩, rfl⟩
        exact .cons second .nil
  rw [unescaped_eq_some]
  unfold escaped
  split
  · next percent =>
    split
    · next high low more =>
      rw [read]
      constructor
      · rintro (⟨i, j, first, second, same⟩ | ⟨j, rfl, second, same⟩)
        · exact .inl ⟨high, low, more, i, j, percent, rfl, first, second, same⟩
        · exact .inr ⟨low, more, j, percent, rfl, second, same⟩
      · rintro (⟨_, _, _, i, j, -, same, first, second, value⟩ | ⟨_, _, j, -, same, second, value⟩)
        · cases same
          exact .inl ⟨i, j, first, second, value⟩
        · cases same
          exact .inr ⟨j, rfl, second, value⟩
    · next short =>
      simp only [reduceCtorEq, false_iff]
      rintro (⟨_, _, _, _, _, -, same, -⟩ | ⟨_, _, _, -, same, -⟩)
      · exact short _ _ _ same
      · exact short _ _ _ same
  · next other =>
    simp only [reduceCtorEq, false_iff]
    rintro (⟨_, _, _, _, _, percent, -⟩ | ⟨_, _, _, percent, -⟩)
    · exact other percent
    · exact other percent

theorem percentBytes_cons (byte : UInt8) (rest : List UInt8) : percentBytes (byte :: rest) =
    match escaped byte rest with
    | some value => value :: percentBytes (rest.drop 2)
    | none => (if byte = 43 then 32 else byte) :: percentBytes rest := by
  rw [percentBytes]

theorem unescapeBytes_cons (byte : UInt8) (rest : List UInt8) : unescapeBytes (byte :: rest) =
    match unescaped byte rest with
    | some value => value :: unescapeBytes (rest.drop 2)
    | none => byte :: unescapeBytes rest := by
  rw [unescapeBytes]

theorem unescaped_other (other : byte ≠ 37) : unescaped byte rest = none := by
  unfold unescaped
  rw [if_neg other]

theorem escaped_other (other : byte ≠ 37) : escaped byte rest = none := by
  unfold escaped
  rw [if_neg other]

/-- The plus signs the decoder loses: all that stand in the text. -/
theorem count_unescapeBytes (bytes : List UInt8) :
    (unescapeBytes bytes).count 43 = (percentBytes bytes).count 43 + bytes.count 43 := by
  induction size : bytes.length using Nat.strong_induction_on generalizing bytes with
  | _ long ih =>
    rcases bytes with _ | ⟨byte, rest⟩
    · rw [unescapeBytes, percentBytes]
      rfl
    rw [List.length_cons] at size
    rw [percentBytes_cons, unescapeBytes_cons]
    cases same : unescaped byte rest with
    | some value =>
      have read := escaped_eq_some.mpr (.inl same)
      obtain ⟨high, low, more, i, j, rfl, rfl, first, second, -⟩ := unescaped_eq_some.mp same
      have below := ih more.length (by simp only [List.length_cons] at size; omega) more rfl
      rw [read]
      have clean : List.count 43 (37 :: high :: low :: more) = more.count 43 := by
        rw [List.count_cons_of_ne (by decide), List.count_cons_of_ne first.plain.1,
          List.count_cons_of_ne second.plain.1]
      simp only [List.drop_succ_cons, List.drop_zero, clean, List.count_cons, below]
      omega
    | none =>
      cases read : escaped byte rest with
      | some value =>
        rcases escaped_eq_some.mp read with other | ⟨low, more, j, rfl, rfl, digit, rfl⟩
        · rw [same] at other
          cases other
        have below := ih more.length (by simp only [List.length_cons] at size; omega) more rfl
        have plain := digit.plain
        have value : UInt8.ofNat j ≠ 43 := by
          intro plus
          have code := congrArg UInt8.toNat plus
          rw [UInt8.toNat_ofNat'] at code
          have code' : (43 : UInt8).toNat = 43 := rfl
          omega
        have after : unescapeBytes (43 :: low :: more) = 43 :: low :: unescapeBytes more := by
          rw [unescapeBytes_cons, unescaped_other (by decide)]
          dsimp only
          rw [unescapeBytes_cons, unescaped_other plain.2.1]
        dsimp only
        rw [after]
        simp only [List.drop_succ_cons, List.drop_zero]
        rw [List.count_cons_of_ne (by decide), List.count_cons_self, List.count_cons_of_ne plain.1,
          List.count_cons_of_ne value, List.count_cons_of_ne (by decide), List.count_cons_self,
          List.count_cons_of_ne plain.1, below]
        omega
      | none =>
        have below := ih rest.length (by omega) rest rfl
        dsimp only
        by_cases plus : byte = 43
        · rw [if_pos plus, plus, List.count_cons_self, List.count_cons_self,
            List.count_cons_of_ne (by decide), below]
          omega
        · rw [if_neg plus, List.count_cons_of_ne plus, List.count_cons_of_ne plus,
            List.count_cons_of_ne plus, below]

/-- Without a plus sign there is nothing to lose. -/
theorem percentBytes_eq (clean : 43 ∉ bytes) : percentBytes bytes = unescapeBytes bytes := by
  induction size : bytes.length using Nat.strong_induction_on generalizing bytes with
  | _ long ih =>
    rcases bytes with _ | ⟨byte, rest⟩
    · rw [unescapeBytes, percentBytes]
    rw [List.length_cons] at size
    simp only [List.mem_cons, not_or] at clean
    have plain : byte ≠ 43 := fun same => clean.1 same.symm
    have same : escaped byte rest = unescaped byte rest := by
      apply Option.ext
      intro value
      rw [escaped_eq_some]
      constructor
      · rintro (read | ⟨_, _, _, -, rfl, -⟩)
        · exact read
        · exact absurd List.mem_cons_self clean.2
      · exact .inl
    have below (later : List UInt8) (part : ∀ byte ∈ later, byte ∈ rest) (short : later.length ≤ rest.length) :=
      ih later.length (by omega) (fun member => clean.2 (part 43 member)) rfl
    rw [percentBytes_cons, unescapeBytes_cons, same]
    cases unescaped byte rest with
    | some value =>
      have dropped : (rest.drop 2).length ≤ rest.length := by
        rw [List.length_drop]
        omega
      dsimp only
      rw [below _ (fun _ => List.mem_of_mem_drop) dropped]
    | none =>
      dsimp only
      rw [if_neg plain, below rest (fun _ member => member) (le_refl _)]

theorem count_utf8 (s : String) : (utf8 s).count 43 = s.toList.count '+' := by
  have plus : (43 : UInt8).toNat < 128 := by decide
  have counts := count_lossyChars plus (utf8 s)
  have back := congrArg String.toList (fromUtf8Lossy_utf8 s)
  rw [fromUtf8Lossy, String.toList_ofList] at back
  rw [back] at counts
  exact counts.symm

/-- The decoder reads what stands behind percent signs and nothing else just where there is no
    plus sign. -/
theorem percentDecode_eq_iff {raw : String} : percentDecode raw = unescape raw ↔ '+' ∉ raw.toList := by
  have plus : (43 : UInt8).toNat < 128 := by decide
  unfold percentDecode unescape
  constructor
  · intro same
    have chars := congrArg (fun text => text.toList.count (Char.ofNat (43 : UInt8).toNat)) same
    simp only [fromUtf8Lossy, String.toList_ofList, count_lossyChars plus] at chars
    rw [count_unescapeBytes, count_utf8] at chars
    exact List.count_eq_zero.mp (by omega)
  · intro clean
    have bytes : 43 ∉ utf8 raw := List.count_eq_zero.mp (by rw [count_utf8]; exact List.count_eq_zero.mpr clean)
    rw [percentBytes_eq bytes]

end Escapes

/-- The characters of a URI that stand for themselves wherever they are. -/
def unreserved (c : Char) : Bool := isAsciiAlphanumeric c || "-._~".toList.contains c

/-- Those of a path, whose segments may hold delimiters. -/
def pathLiteral (c : Char) : Bool := unreserved c || "!$&'()*+,;=".toList.contains c || c = '/'

def upperDigit (n : Nat) : Char := if n < 10 then Char.ofNat (48 + n) else Char.ofNat (55 + n)

def escape (byte : UInt8) : List Char :=
  ['%', upperDigit (byte.toNat / 16), upperDigit (byte.toNat % 16)]

def encodeUri (literal : Char → Bool) (text : String) : String :=
  String.ofList (text.toList.flatMap fun c =>
    if literal c then [c] else (String.utf8EncodeChar c).flatMap escape)

/-- The pairs of a query, one for a key. -/
structure QueryPairs where
  pairs : List (String × String)
  distinct : (pairs.map Prod.fst).Nodup

def QueryPairs.encoded (query : QueryPairs) : String :=
  "&".intercalate (query.pairs.map fun pair =>
    encodeUri unreserved pair.1 ++ "=" ++ encodeUri unreserved pair.2)

def requestTarget (path : String) (query : QueryPairs) : String :=
  if query.pairs = [] then encodeUri pathLiteral path
  else encodeUri pathLiteral path ++ "?" ++ query.encoded

/-- The path and the pairs come back. -/
def Returns (path : String) (query : QueryPairs) : Prop :=
  (splitPathQuery (requestTarget path query)).1 = path ∧
    ∀ k v, (splitPathQuery (requestTarget path query)).2.lookup k = some v ↔ (k, v) ∈ query.pairs

section Targets

variable {literal : Char → Bool} {text path : String} {query : QueryPairs} {c : Char}

theorem escape_bytes (byte : UInt8) : ∃ high low, (escape byte).flatMap String.utf8EncodeChar = [37, high, low] ∧
    Digit high (byte.toNat / 16) ∧ Digit low (byte.toNat % 16) := by
  have digits : ∀ n < 16, isAsciiHexdigit (upperDigit n) = true ∧ hexValue (upperDigit n) = n := by decide
  have digit (n : Nat) (small : n < 16) :
      ∃ byte, String.utf8EncodeChar (upperDigit n) = [byte] ∧ Digit byte n := by
    obtain ⟨byte, encoded, same⟩ := encode_hexdigit (digits n small).1
    have own := digit_hexValue (digits n small).1 same
    rw [(digits n small).2] at own
    exact ⟨byte, encoded, own⟩
  have bound := byte.toNat_lt
  obtain ⟨high, first, high_⟩ := digit (byte.toNat / 16) (by omega)
  obtain ⟨low, second, low_⟩ := digit (byte.toNat % 16) (by omega)
  have percent : String.utf8EncodeChar '%' = [37] := rfl
  refine ⟨high, low, ?_, high_, low_⟩
  simp [escape, percent, first, second]

theorem percentBytes_escape (bytes rest : List UInt8) :
    percentBytes ((bytes.flatMap escape).flatMap String.utf8EncodeChar ++ rest) = bytes ++ percentBytes rest := by
  induction bytes with
  | nil => rfl
  | cons byte bytes ih =>
    obtain ⟨high, low, encoded, first, second⟩ := escape_bytes byte
    have value : UInt8.ofNat (byte.toNat / 16 * 16 + byte.toNat % 16) = byte := by
      rw [Nat.div_add_mod', UInt8.ofNat_toNat]
    rw [List.flatMap_cons, List.flatMap_append, encoded, List.append_assoc]
    generalize (bytes.flatMap escape).flatMap String.utf8EncodeChar ++ rest = tail at ih ⊢
    have read : escaped 37 (high :: low :: tail) = some byte := by
      apply escaped_eq_some.mpr
      exact .inl (unescaped_eq_some.mpr ⟨high, low, tail, _, _, rfl, rfl, first, second, value.symm⟩)
    show percentBytes (37 :: high :: low :: tail) = byte :: (bytes ++ percentBytes rest)
    rw [percentBytes_cons, read, ← ih]
    rfl

/-- The text with a space for each plus sign that stood for itself. -/
def spaced (literal : Char → Bool) (text : String) : String :=
  String.ofList (text.toList.map fun c => if literal c && c = '+' then ' ' else c)

theorem percentDecode_encodeUri (safe : ∀ c, literal c = true → c.toNat < 128 ∧ c ≠ '%') :
    percentDecode (encodeUri literal text) = spaced literal text := by
  have decoded (chars : List Char) : percentBytes ((chars.flatMap fun c =>
      if literal c then [c] else (String.utf8EncodeChar c).flatMap escape).flatMap String.utf8EncodeChar) =
      (chars.map fun c => if literal c && c = '+' then ' ' else c).flatMap String.utf8EncodeChar := by
    induction chars with
    | nil =>
      show percentBytes [] = []
      rw [percentBytes]
    | cons c chars ih =>
      rw [List.flatMap_cons, List.flatMap_append, List.map_cons, List.flatMap_cons, ← ih]
      by_cases plain : literal c = true
      · obtain ⟨ascii, other⟩ := safe c plain
        obtain ⟨byte, same⟩ : ∃ byte : UInt8, byte.toNat = c.toNat :=
          ⟨UInt8.ofNat c.toNat, by rw [UInt8.toNat_ofNat']; omega⟩
        have encoded := utf8EncodeChar_ascii (show byte.toNat < 128 by omega)
        rw [same, Char.ofNat_toNat] at encoded
        have percent : byte ≠ 37 := by
          rintro rfl
          exact other (Char.toNat_inj.mp same.symm)
        have plus : byte = 43 ↔ c = '+' := by
          rw [← UInt8.toNat_inj, same, ← Char.toNat_inj]
          rfl
        rw [if_pos plain, List.flatMap_cons, List.flatMap_nil, encoded, List.append_nil, List.cons_append,
          List.nil_append, percentBytes_cons, escaped_other percent]
        by_cases sign : c = '+'
        · have space : String.utf8EncodeChar ' ' = [32] := rfl
          rw [sign] at plain
          simp [plain, sign, plus.mpr sign, space]
        · simp [plain, sign, plus, encoded]
      · rw [if_neg plain, percentBytes_escape]
        simp [plain]
  have whole := decoded text.toList
  rw [percentDecode, encodeUri, utf8, String.toList_ofList, whole]
  have back := fromUtf8Lossy_utf8 (spaced literal text)
  rwa [utf8, spaced, String.toList_ofList] at back

/-- What an encoded text is made of. -/
theorem mem_encodeUri (member : c ∈ (encodeUri literal text).toList) :
    literal c = true ∨ c = '%' ∨ isAsciiHexdigit c = true := by
  have digits : ∀ n < 16, isAsciiHexdigit (upperDigit n) = true := by decide
  rw [encodeUri, String.toList_ofList] at member
  obtain ⟨d, -, part⟩ := List.mem_flatMap.mp member
  split at part
  · next plain =>
    rw [List.mem_singleton.mp part]
    exact .inl plain
  · obtain ⟨byte, -, escape_⟩ := List.mem_flatMap.mp part
    have bound := byte.toNat_lt
    simp only [escape, List.mem_cons, List.not_mem_nil, or_false] at escape_
    rcases escape_ with rfl | rfl | rfl
    · exact .inr (.inl rfl)
    · exact .inr (.inr (digits _ (by omega)))
    · exact .inr (.inr (digits _ (by omega)))

theorem unreserved_safe (c : Char) (plain : unreserved c = true) : c.toNat < 128 ∧ c ≠ '%' := by
  rcases Bool.or_eq_true_iff.mp plain with letter | mark
  · have range : 48 ≤ c.toNat ∧ c.toNat ≤ 122 := by
      unfold isAsciiAlphanumeric isAsciiDigit isAsciiUppercase isAsciiLowercase at letter
      simp only [Bool.or_eq_true, Bool.and_eq_true, decide_eq_true_eq, Char.le_def,
        UInt32.le_iff_toNat_le] at letter
      have same : c.val.toNat = c.toNat := rfl
      have bounds : '0'.val.toNat = 48 ∧ '9'.val.toNat = 57 ∧ 'A'.val.toNat = 65 ∧ 'Z'.val.toNat = 90 ∧
          'a'.val.toNat = 97 ∧ 'z'.val.toNat = 122 := by decide
      omega
    refine ⟨by omega, ?_⟩
    rintro rfl
    exact absurd range.1 (by decide)
  · have marks : ("-._~".toList.all fun c => c.toNat < 128 && c != '%') = true := by decide
    simpa using List.all_eq_true.mp marks c (List.contains_iff_mem.mp mark)

theorem pathLiteral_safe (c : Char) (plain : pathLiteral c = true) : c.toNat < 128 ∧ c ≠ '%' := by
  unfold pathLiteral at plain
  rw [Bool.or_eq_true, Bool.or_eq_true, decide_eq_true_eq] at plain
  rcases plain with (plain | delimiter) | rfl
  · exact unreserved_safe c plain
  · have delimiters : ("!$&'()*+,;=".toList.all fun c => c.toNat < 128 && c != '%') = true := by decide
    simpa using List.all_eq_true.mp delimiters c (List.contains_iff_mem.mp delimiter)
  · decide

theorem percentDecode_unreserved (text : String) : percentDecode (encodeUri unreserved text) = text := by
  rw [percentDecode_encodeUri unreserved_safe, spaced]
  have same (c : Char) : (if unreserved c && c = '+' then ' ' else c) = c := by
    split
    · next sign =>
      simp only [Bool.and_eq_true, decide_eq_true_eq] at sign
      rw [sign.2] at sign
      exact absurd sign.1 (by decide)
    · rfl
  simp only [same, List.map_id', String.ofList_toList]

/-- A path comes back just where it has no plus sign. -/
theorem percentDecode_path : percentDecode (encodeUri pathLiteral path) = path ↔ '+' ∉ path.toList := by
  rw [percentDecode_encodeUri pathLiteral_safe, spaced, ← String.toList_inj, String.toList_ofList]
  constructor
  · intro same sign
    rw [← same] at sign
    obtain ⟨c, -, plus⟩ := List.mem_map.mp sign
    split at plus
    · cases plus
    · next other =>
      rw [plus] at other
      exact other (by decide)
  · intro clean
    have same (c : Char) (member : c ∈ path.toList) :
        (if pathLiteral c && c = '+' then ' ' else c) = c := by
      have other : c ≠ '+' := fun sign => clean (sign ▸ member)
      simp [other]
    rw [List.map_congr_left same, List.map_id']

theorem absent_of_unreserved (other : unreserved c = false) (mark : c ≠ '%') (plain : isAsciiHexdigit c = false) :
    c ∉ (encodeUri unreserved text).toList := by
  intro member
  rcases mem_encodeUri member with literal | percent | digit
  · rw [other] at literal
    cases literal
  · exact mark percent
  · rw [plain] at digit
    cases digit

/-- One pair of a query into the map. -/
theorem pair_decoded (k v : String) :
    splitOnce (encodeUri unreserved k ++ "=" ++ encodeUri unreserved v) '=' =
      some (encodeUri unreserved k, encodeUri unreserved v) := by
  apply splitOnce_eq_some.mpr
  refine ⟨by simp [String.toList_append], absent_of_unreserved (by decide) (by decide) (by decide)⟩

/-- Pairs with distinct keys are all found. -/
theorem lookup_inserted {pairs : List (String × String)} (distinct : (pairs.map Prod.fst).Nodup)
    (m : HashMap String String) (k v : String) :
    (pairs.foldl (fun query pair => query.insert pair.1 pair.2) m).lookup k = some v ↔
      (k, v) ∈ pairs ∨ k ∉ pairs.map Prod.fst ∧ m.lookup k = some v := by
  induction pairs generalizing m with
  | nil => simp
  | cons pair pairs ih =>
    obtain ⟨key, value⟩ := pair
    obtain ⟨absent, others⟩ := List.nodup_cons.mp distinct
    have once : ∀ w, (key, w) ∉ pairs := fun w member => absent (List.mem_map.mpr ⟨_, member, rfl⟩)
    rw [List.foldl_cons, ih others, HashMap.lookup_insert_if]
    by_cases same : k = key
    · subst same
      simp [once, absent, eq_comm]
    · simp [same]

theorem query_decoded (some_ : query.pairs ≠ []) :
    (splitOn query.encoded '&').foldl (fun query pair =>
      if pair = "" then query
      else
        let (k, v) := (splitOnce pair '=').getD (pair, "")
        query.insert (percentDecode k) (percentDecode v)) (∅ : HashMap String String) =
      query.pairs.foldl (fun query pair => query.insert pair.1 pair.2) ∅ := by
  have parts : splitOn query.encoded '&' = query.pairs.map fun pair =>
      encodeUri unreserved pair.1 ++ "=" ++ encodeUri unreserved pair.2 := by
    apply splitOn_eq_iff.mpr
    refine ⟨by simpa using some_, fun part member => ?_, ?_⟩
    · obtain ⟨pair, -, rfl⟩ := List.mem_map.mp member
      have absent (text : String) : '&' ∉ (encodeUri unreserved text).toList :=
        absent_of_unreserved (by decide) (by decide) (by decide)
      simp [String.toList_append, absent]
    · rw [QueryPairs.encoded, String.toList_intercalate]
      rfl
  have there (k v : String) : encodeUri unreserved k ++ "=" ++ encodeUri unreserved v ≠ "" := by
    intro none
    have chars := congrArg String.toList none
    simp [String.toList_append] at chars
  rw [parts, List.foldl_map]
  congr 1
  funext map pair
  rw [if_neg (there _ _), pair_decoded]
  simp only [Option.getD_some, percentDecode_unreserved]

/-- The pairs come back always, the path just where it has no plus sign. -/
theorem returns_iff : Returns path query ↔ '+' ∉ path.toList := by
  have question : '?' ∉ (encodeUri pathLiteral path).toList := by
    intro member
    rcases mem_encodeUri member with literal | percent | digit
    · exact absurd literal (by decide)
    · cases percent
    · exact absurd digit (by decide)
  have target : splitPathQuery (requestTarget path query) = (percentDecode (encodeUri pathLiteral path),
      query.pairs.foldl (fun query pair => query.insert pair.1 pair.2) ∅) := by
    by_cases none : query.pairs = []
    · rw [requestTarget, if_pos none, splitPathQuery, splitOnce_eq_none.mpr question, none]
      rfl
    · have split : splitOnce (encodeUri pathLiteral path ++ "?" ++ query.encoded) '?' =
          some (encodeUri pathLiteral path, query.encoded) := by
        apply splitOnce_eq_some.mpr
        exact ⟨by simp [String.toList_append], question⟩
      rw [requestTarget, if_neg none, splitPathQuery, split]
      dsimp only [Option.getD_some]
      rw [query_decoded none]
  unfold Returns
  rw [target]
  constructor
  · exact fun back => percentDecode_path.mp back.1
  · intro clean
    refine ⟨percentDecode_path.mpr clean, fun k v => ?_⟩
    rw [lookup_inserted query.distinct]
    simp

/-- What is encoded comes back, and only what stands behind percent signs is decoded, just where no
    plus sign stands in the path. -/
theorem decodes_url_iff (path : String) (query : QueryPairs) (raw : String) :
    (Returns path query ↔ '+' ∉ path.toList) ∧ (percentDecode raw = unescape raw ↔ '+' ∉ raw.toList) :=
  ⟨returns_iff, percentDecode_eq_iff⟩

/-- `/a+b`, which is read as `/a b`. -/
theorem not_decodes_url : percentDecode "/a+b" = "/a b" ∧ unescape "/a+b" = "/a+b" ∧
    ¬Returns "/a+b" ⟨[], List.nodup_nil⟩ := by
  have text : utf8 "/a+b" = [47, 97, 43, 98] := rfl
  have plain : (47 : UInt8) ≠ 37 ∧ (97 : UInt8) ≠ 37 ∧ (43 : UInt8) ≠ 37 ∧ (98 : UInt8) ≠ 37 := by decide
  have read : percentBytes [47, 97, 43, 98] = utf8 "/a b" := by
    simp only [percentBytes_cons, escaped_other plain.1, escaped_other plain.2.1, escaped_other plain.2.2.1,
      escaped_other plain.2.2.2, percentBytes]
    rfl
  have kept : unescapeBytes [47, 97, 43, 98] = utf8 "/a+b" := by
    simp only [unescapeBytes_cons, unescaped_other plain.1, unescaped_other plain.2.1,
      unescaped_other plain.2.2.1, unescaped_other plain.2.2.2, unescapeBytes]
    rfl
  refine ⟨?_, ?_, ?_⟩
  · rw [percentDecode, text, read, fromUtf8Lossy_utf8]
  · rw [unescape, text, kept, fromUtf8Lossy_utf8]
  · rw [returns_iff]
    decide

end Targets

end Jeryu.Gitd
