import Mathlib.Data.List.Flatten
import Jeryu.Library.Panics
import Jeryu.Gitd.SmartHttp
import Jeryu.Gitd.PushPrelude
import Jeryu.Gitd.UrlDecode

/-!
The parsers of a request with the operations that could panic in them. All answer what they say,
except the one that looks for the scheme of an `Authorization` header and cuts the header at a
byte count.
-/

namespace Jeryu.Gitd

open KeyedMap Text Bytes

/-- Bytes, and a text, as they are held in memory. -/
structure HeldBytes where
  bytes : List UInt8
  fits : bytes.length < 2 ^ 63

structure HeldText where
  text : String
  fits : (utf8 text).length < 2 ^ 63

namespace Checked

open Panicking

/-- The byte of the escape that starts at `i`. -/
def escapeAt (bytes : List UInt8) (i : Nat) : Panicking (Option UInt8) := do
  if (← index bytes i) ≠ 37 then return none
  if (← add 64 i 2) < bytes.length then
    let hex ← slice bytes (← add 64 i 1) (← add 64 i 3)
    return ((fromUtf8 hex).bind fromStrRadix16).map UInt8.ofNat
  else return none

/-- One turn of the loop of `percent_decode`: the byte pushed and the next index. -/
def percentStep (bytes : List UInt8) (i : Nat) : Panicking (UInt8 × Nat) := do
  match ← escapeAt bytes i with
  | some value => return (value, ← add 64 i 3)
  | none =>
    let byte ← index bytes i
    return (if byte = 43 then 32 else byte, ← add 64 i 1)

theorem percentStep_next {bytes : List UInt8} {i next : Nat} {byte : UInt8}
    (step : percentStep bytes i = .ok (byte, next)) : i < next := by
  unfold percentStep at step
  obtain ⟨escape, -, step⟩ := bind_eq_ok.mp step
  split at step
  · obtain ⟨sum, added, done⟩ := bind_eq_ok.mp step
    have same := add_eq_ok added
    cases done
    omega
  · obtain ⟨first, -, step⟩ := bind_eq_ok.mp step
    obtain ⟨sum, added, done⟩ := bind_eq_ok.mp step
    have same := add_eq_ok added
    cases done
    omega

def percentLoop (bytes : List UInt8) (i : Nat) (out : List UInt8) : Panicking (List UInt8) :=
  if i < bytes.length then
    match _step : percentStep bytes i with
    | .error panic => .error panic
    | .ok (byte, next) => percentLoop bytes next (out ++ [byte])
  else .ok out
termination_by bytes.length - i
decreasing_by
  have later := percentStep_next _step
  omega

def percentDecode (input : String) : Panicking String := do
  return fromUtf8Lossy (← percentLoop (utf8 input) 0 [])

def queryPair (query : HashMap String String) (pair : String) : Panicking (HashMap String String) :=
  if pair = "" then .ok query
  else do
    let (k, v) := (splitOnce pair '=').getD (pair, "")
    return query.insert (← percentDecode k) (← percentDecode v)

def splitPathQuery (raw : String) : Panicking (String × HashMap String String) := do
  let (path, queryRaw) := (splitOnce raw '?').getD (raw, "")
  let query ← (splitOn queryRaw '&').foldlM queryPair ∅
  return (← percentDecode path, query)

/-- `lut`: the value of a byte of the table, and 255 for any other. -/
def lut : List Nat :=
  (List.range 256).map fun byte => (base64Table.findIdx? fun entry => entry.toNat = byte).getD 255

def base64Loop (bits : UInt32) (nbits : Nat) (out : List UInt8) :
    List UInt8 → Panicking (Option (List UInt8))
  | [] => .ok (some out)
  | byte :: rest =>
    if isBase64Filler byte then base64Loop bits nbits out rest
    else do
      let v ← index lut byte.toNat
      if v = 255 then return none
      let bits := (← shiftLeft bits 6) ||| UInt32.ofNat v
      let nbits ← add 32 nbits 6
      if 8 ≤ nbits then
        let nbits ← sub nbits 8
        let high ← shiftRight bits nbits
        base64Loop bits nbits (out ++ [high.toUInt8]) rest
      else base64Loop bits nbits out rest

def base64Decode (input : String) : Panicking (Option (List UInt8)) := base64Loop 0 0 [] (utf8 input)

def stripCiPrefix (input scheme : String) : Panicking (Option String) :=
  if len input < len scheme then .ok none
  else do
    let (head, tail) ← splitAt input (len scheme)
    return if eqIgnoreAsciiCase head scheme then some tail else none

def basicToken (rest : String) : Panicking (Option String) := do
  match ← base64Decode (trim rest) with
  | none => return none
  | some decoded =>
    return (fromUtf8 decoded).bind fun decoded =>
      if basicPassword decoded = "" then none else some (basicPassword decoded)

def extractBearerOrBasic (authorization : String) : Panicking (Option String) := do
  match ← stripCiPrefix (trim authorization) "bearer " with
  | some rest => return bearerToken rest
  | none =>
    match ← stripCiPrefix (trim authorization) "basic " with
    | some rest => basicToken rest
    | none => return none

/-- The loop of `receive_pack_commands`; a record takes four bytes at least, so `fuel` is the
    length of the input. -/
def readRecords (records : Prelude) : Nat → List UInt8 → Panicking (Except GitdError Prelude)
  | 0, _ | _, [] => .ok (.ok records)
  | fuel + 1, input =>
    if input.length < 4 then .ok (.error (.protocol "pkt-line missing length"))
    else do
      match pktLength (← slice input 0 4) with
      | .error error => return .error error
      | .ok length =>
        let input ← sliceFrom input 4
        if length = 0 then return .ok records
        if length = 1 || length = 2 then
          return .error (.protocol "unexpected control packet in receive-pack prelude")
        if length = 3 then return .error (.protocol "reserved pkt-line length 0003")
        if input.length < length - 4 then return .error (.protocol "pkt-line payload truncated")
        let payload ← slice input 0 (length - 4)
        let input ← sliceFrom input (length - 4)
        match records.record payload with
        | .error error => return .error error
        | .ok records => readRecords records fuel input

def receivePackCommands (input : List UInt8) : Panicking (Except GitdError (List ReceivePackCommand)) := do
  return (← readRecords ⟨[], []⟩ input.length input).map Prelude.commands

/-- One turn of the loop of `receive_pack_prelude_state`: its answer, or the next offset. -/
def preludeStep (input : List UInt8) (offset : Nat) : Panicking (Except GitdError (PreludeState ⊕ Nat)) := do
  let remaining := input.length - offset
  if remaining < 4 then return .ok (.inl (.need (← sub 4 remaining)))
  match pktLength (← slice input offset (← add 64 offset 4)) with
  | .error error => return .error error
  | .ok length =>
    if length = 0 then return .ok (.inl (.complete (← add 64 offset 4)))
    if length = 1 ∨ length = 2 then return .ok (.inr (← add 64 offset 4))
    if length = 3 then return .error (.protocol "reserved pkt-line length 0003")
    if remaining < length then return .ok (.inl (.need (← sub length remaining)))
    return .ok (.inr (← add 64 offset length))

theorem preludeStep_next {input : List UInt8} {offset next : Nat}
    (step : preludeStep input offset = .ok (.ok (.inr next))) : offset < next ∧ offset < input.length := by
  unfold preludeStep at step
  dsimp only at step
  split at step
  · obtain ⟨_, -, done⟩ := bind_eq_ok.mp step
    cases done
  obtain ⟨stop, -, step⟩ := bind_eq_ok.mp step
  obtain ⟨header, -, step⟩ := bind_eq_ok.mp step
  split at step
  · cases step
  split at step
  · obtain ⟨_, -, done⟩ := bind_eq_ok.mp step
    cases done
  split at step
  · obtain ⟨sum, added, done⟩ := bind_eq_ok.mp step
    have same := add_eq_ok added
    cases done
    omega
  split at step
  · cases step
  split at step
  · obtain ⟨_, -, done⟩ := bind_eq_ok.mp step
    cases done
  · obtain ⟨sum, added, done⟩ := bind_eq_ok.mp step
    have same := add_eq_ok added
    cases done
    omega

def preludeState (input : List UInt8) (offset : Nat) :
    Panicking (Except GitdError (PreludeState × Nat)) :=
  match _step : preludeStep input offset with
  | .error panic => .error panic
  | .ok (.error error) => .ok (.error error)
  | .ok (.ok (.inl state)) => .ok (.ok (state, offset))
  | .ok (.ok (.inr next)) => preludeState input next
termination_by input.length - offset
decreasing_by
  have later := preludeStep_next _step
  omega

/-- These trim, split and compare, and nothing in them can panic. -/
def parseRepoFromPath (path : String) : Panicking (Except GitdError (String × String)) :=
  pure (Gitd.parseRepoFromPath path)

def normalizeOid (oid : String) : Panicking (Except GitdError String) := pure (Gitd.normalizeOid oid)

def lfsObjectPathParts (path : String) : Panicking (Except GitdError (String × String × String)) :=
  pure (Gitd.lfsObjectPathParts path)

section Returns

variable {bytes : List UInt8} {i : Nat}

theorem escapeAt_ok (fits : bytes.length < 2 ^ 63) (inside : i < bytes.length) :
    escapeAt bytes i = .ok (escaped bytes[i] (bytes.drop (i + 1))) := by
  unfold escapeAt escaped
  rw [index_ok inside]
  show (if bytes[i] ≠ 37 then pure none else _) = _
  by_cases percent : bytes[i] = 37
  · rw [if_neg (not_not_intro percent), if_pos percent, add_ok (show i + 2 < 2 ^ 64 by omega)]
    show (if i + 2 < bytes.length then _ else _) = _
    split
    · next long =>
      rw [add_ok (show i + 1 < 2 ^ 64 by omega), add_ok (show i + 3 < 2 ^ 64 by omega)]
      have pair : (bytes.drop (i + 1)).take 2 = [bytes[i + 1], bytes[i + 2]] := by
        rw [List.drop_eq_getElem_cons (by omega), List.drop_eq_getElem_cons (by omega)]
        rfl
      have taken := @slice_ok _ bytes (i + 1) (i + 3) (by omega) (by omega)
      have two : i + 3 - (i + 1) = 2 := by omega
      rw [two, pair] at taken
      show (slice bytes (i + 1) (i + 3) >>= _) = _
      rw [taken, List.drop_eq_getElem_cons (show i + 1 < bytes.length by omega),
        List.drop_eq_getElem_cons (show i + 1 + 1 < bytes.length by omega)]
      rfl
    · next short =>
      have left : (bytes.drop (i + 1)).length < 2 := by
        rw [List.length_drop]
        omega
      rcases rest : bytes.drop (i + 1) with _ | ⟨high, _ | ⟨low, more⟩⟩
      · rfl
      · rfl
      · rw [rest] at left
        simp only [List.length_cons] at left
        omega
  · rw [if_pos percent, if_neg percent]
    rfl

theorem percentStep_ok (fits : bytes.length < 2 ^ 63) (inside : i < bytes.length) :
    percentStep bytes i = .ok (match escaped bytes[i] (bytes.drop (i + 1)) with
      | some value => (value, i + 3)
      | none => (if bytes[i] = 43 then 32 else bytes[i], i + 1)) := by
  unfold percentStep
  rw [escapeAt_ok fits inside, index_ok inside, add_ok (show i + 3 < 2 ^ 64 by omega),
    add_ok (show i + 1 < 2 ^ 64 by omega)]
  cases escaped bytes[i] (bytes.drop (i + 1)) <;> rfl

theorem percentLoop_ok (fits : bytes.length < 2 ^ 63) (i : Nat) (out : List UInt8) :
    percentLoop bytes i out = .ok (out ++ percentBytes (bytes.drop i)) := by
  fun_induction percentLoop bytes i out with
  | case1 i out inside panic step =>
    rw [percentStep_ok fits inside] at step
    cases step
  | case2 i out inside byte next step ih =>
    rw [percentStep_ok fits inside] at step
    rw [ih, List.drop_eq_getElem_cons inside, percentBytes_cons]
    cases escape : escaped bytes[i] (bytes.drop (i + 1)) with
    | some value =>
      rw [escape] at step
      cases step
      simp [List.drop_drop]
    | none =>
      rw [escape] at step
      cases step
      simp
  | case3 i out done =>
    rw [List.drop_of_length_le (by omega), percentBytes, List.append_nil]

theorem percentDecode_ok {input : String} (fits : (utf8 input).length < 2 ^ 63) :
    percentDecode input = .ok (Gitd.percentDecode input) := by
  unfold percentDecode Gitd.percentDecode
  rw [percentLoop_ok fits]
  rfl

/-- A part of a text takes no more bytes than the text. -/
theorem length_utf8_le {part whole : String} (sub : part.toList.Sublist whole.toList) :
    (utf8 part).length ≤ (utf8 whole).length :=
  (sub.flatMap String.utf8EncodeChar).length_le

theorem splitOnce_sublist {text : String} {c : Char} :
    ((splitOnce text c).getD (text, "")).1.toList.Sublist text.toList ∧
      ((splitOnce text c).getD (text, "")).2.toList.Sublist text.toList := by
  cases split : splitOnce text c with
  | none => exact ⟨List.Sublist.refl _, List.nil_sublist _⟩
  | some parts =>
    obtain ⟨before, after⟩ := parts
    obtain ⟨whole, -⟩ := splitOnce_eq_some.mp split
    rw [whole]
    exact ⟨List.sublist_append_left _ _, (List.sublist_cons_self c _).trans (List.sublist_append_right _ _)⟩

theorem splitOn_sublist {text part : String} {c : Char} (member : part ∈ splitOn text c) :
    part.toList.Sublist text.toList := by
  obtain ⟨-, -, whole⟩ := (splitOn_eq_iff (s := text) (c := c)).mp rfl
  rw [whole]
  apply List.sublist_flatten_of_mem
  obtain ⟨n, there⟩ := List.mem_iff_getElem?.mp (List.mem_map_of_mem (f := String.toList) member)
  exact List.mem_of_getElem? (List.getElem?_intersperse_two_mul.trans there)

theorem queryPair_ok {pair : String} (fits : (utf8 pair).length < 2 ^ 63) (query : HashMap String String) :
    queryPair query pair = .ok (if pair = "" then query
      else
        let (k, v) := (splitOnce pair '=').getD (pair, "")
        query.insert (Gitd.percentDecode k) (Gitd.percentDecode v)) := by
  unfold queryPair
  split
  · rfl
  · obtain ⟨left, right⟩ := @splitOnce_sublist pair '='
    have fits₁ := Nat.lt_of_le_of_lt (length_utf8_le left) fits
    have fits₂ := Nat.lt_of_le_of_lt (length_utf8_le right) fits
    dsimp only
    rw [percentDecode_ok fits₁, percentDecode_ok fits₂]
    rfl

theorem splitPathQuery_ok (raw : HeldText) : splitPathQuery raw.text = .ok (Gitd.splitPathQuery raw.text) := by
  obtain ⟨left, right⟩ := @splitOnce_sublist raw.text '?'
  have fits₁ := Nat.lt_of_le_of_lt (length_utf8_le left) raw.fits
  have fits₂ := Nat.lt_of_le_of_lt (length_utf8_le right) raw.fits
  have pairs (parts : List String) (short : ∀ part ∈ parts, (utf8 part).length < 2 ^ 63)
      (query : HashMap String String) : parts.foldlM queryPair query =
      (.ok (parts.foldl (fun query pair =>
        if pair = "" then query
        else
          let (k, v) := (splitOnce pair '=').getD (pair, "")
          query.insert (Gitd.percentDecode k) (Gitd.percentDecode v)) query) : Panicking _) := by
    induction parts generalizing query with
    | nil => rfl
    | cons part parts ih =>
      rw [List.foldlM_cons, queryPair_ok (short part List.mem_cons_self), List.foldl_cons,
        ← ih fun other member => short other (List.mem_cons_of_mem part member)]
      rfl
  unfold splitPathQuery Gitd.splitPathQuery
  dsimp only
  rw [pairs, percentDecode_ok fits₁]
  · rfl
  · intro part member
    exact Nat.lt_of_le_of_lt (length_utf8_le (splitOn_sublist member)) fits₂

/-- The value the table has for a byte. -/
theorem lut_ok (byte : UInt8) : index lut byte.toNat = .ok ((base64Table.findIdx? (· = byte)).getD 255) := by
  have inside : byte.toNat < lut.length := by
    rw [lut, List.length_map, List.length_range]
    exact byte.toNat_lt
  rw [index_ok inside]
  simp only [List.get_eq_getElem, lut, List.getElem_map, List.getElem_range, UInt8.toNat_inj]

theorem base64Loop_ok {bits : UInt32} {nbits : Nat} (few : nbits < 8) (out input : List UInt8) :
    base64Loop bits nbits out input = .ok ((base64Step bits nbits input).map (out ++ ·)) := by
  induction input generalizing bits nbits out with
  | nil => simp [base64Loop, base64Step]
  | cons byte rest ih =>
    unfold base64Loop base64Step
    split
    · exact ih few out
    · rw [lut_ok]
      cases found : base64Table.findIdx? (· = byte) with
      | none => rfl
      | some value =>
        have size : base64Table.length = 64 := by
          rw [base64Table, toUTF8_toList]
          rfl
        have small : value < 64 := by
          have inside := (List.findIdx?_eq_some_iff_getElem.mp found).1
          omega
        show (if value = 255 then pure none else _) = _
        rw [if_neg (by omega), shiftLeft_ok (show 6 < 32 by omega), add_ok (show nbits + 6 < 2 ^ 32 by omega)]
        show (if 8 ≤ nbits + 6 then _ else _) = _
        dsimp only
        by_cases whole : 8 ≤ nbits + 6
        · have left : nbits + 6 - 8 = nbits - 2 := by omega
          rw [if_pos whole, if_pos whole, sub_ok whole, left]
          show (shiftRight _ _ >>= _) = _
          rw [shiftRight_ok (show nbits - 2 < 32 by omega)]
          show base64Loop _ _ _ _ = _
          rw [ih (by omega)]
          simp [Option.map_map, Function.comp_def]
        · rw [if_neg whole, if_neg whole]
          exact ih (by omega) out

theorem base64Decode_ok (input : String) : base64Decode input = .ok (Gitd.base64Decode input) := by
  unfold base64Decode Gitd.base64Decode
  rw [base64Loop_ok (by omega), toUTF8_toList]
  simp

/-- No character stands across the byte. -/
def Whole (text : String) (n : Nat) : Prop := len text < n ∨ Boundary text n

theorem stripCiPrefix_iff {input scheme : String} {rest : Option String} :
    stripCiPrefix input scheme = .ok rest ↔ Gitd.stripCiPrefix input scheme = some rest := by
  unfold stripCiPrefix Gitd.stripCiPrefix Panicking.splitAt
  by_cases short : len input < len scheme
  · simp [short]
  · cases cut : Text.splitAt input.toList (len scheme) with
    | none => simp [short, bind, Except.bind]
    | some halves => by_cases same : eqIgnoreAsciiCase (String.ofList halves.1) scheme = true <;>
        simp [short, same, bind, Except.bind, pure, Except.pure]

theorem stripCiPrefix_returns (input scheme : String) :
    (∃ rest, stripCiPrefix input scheme = .ok rest) ↔ Whole input (len scheme) := by
  unfold stripCiPrefix Whole
  by_cases short : len input < len scheme
  · simp [short]
  · rw [if_neg short, ← splitAt_ok_iff (Nat.not_lt.mp short)]
    simp only [bind_eq_ok, short, false_or]
    constructor
    · rintro ⟨_, parts, cut, -⟩
      exact ⟨parts, cut⟩
    · rintro ⟨parts, cut⟩
      exact ⟨_, parts, cut, rfl⟩

/-- The bytes of a scheme that is there are characters. -/
theorem whole_of_scheme {input scheme rest : String} {n : Nat}
    (found : stripCiPrefix input scheme = .ok (some rest)) : Whole input (String.utf8Len (scheme.toList.take n)) := by
  have cut := stripCiPrefix_iff.mp found
  unfold Gitd.stripCiPrefix at cut
  split at cut
  · cases cut
  split at cut
  · cases cut
  · next head tail halves =>
    split at cut
    · next same =>
      obtain ⟨whole, -⟩ := splitAt_eq_some.mp halves
      have lower := congrArg (fun text => String.utf8Len (text.toList.take n)) (eqIgnoreAsciiCase_iff.mp same)
      simp only [toAsciiLowercase, String.toList_ofList, ← List.map_take, utf8Len_map_toAsciiLowercaseChar] at lower
      refine .inr ⟨String.ofList (head.take n), String.ofList (head.drop n ++ tail), ?_, ?_⟩
      · rw [← String.toList_inj, String.toList_append, String.toList_ofList, String.toList_ofList,
          ← List.append_assoc, List.take_append_drop, whole]
      · rw [len_eq, String.toList_ofList, lower]
    · cases cut

theorem basicToken_ok (rest : String) : basicToken rest = .ok (Gitd.basicToken rest) := by
  unfold basicToken Gitd.basicToken
  rw [base64Decode_ok]
  cases Gitd.base64Decode (trim rest) with
  | none => rfl
  | some decoded =>
    cases fromUtf8 decoded with
    | none => rfl
    | some text => rfl

theorem extractBearerOrBasic_iff {authorization : String} {token : Option String} :
    extractBearerOrBasic authorization = .ok token ↔ Gitd.extractBearerOrBasic authorization = some token := by
  have strip (scheme : String) : (∃ panic, stripCiPrefix (trim authorization) scheme = .error panic ∧
      Gitd.stripCiPrefix (trim authorization) scheme = none) ∨
      ∃ rest, stripCiPrefix (trim authorization) scheme = .ok rest ∧
        Gitd.stripCiPrefix (trim authorization) scheme = some rest := by
    cases found : stripCiPrefix (trim authorization) scheme with
    | ok rest => exact .inr ⟨rest, rfl, stripCiPrefix_iff.mp found⟩
    | error panic =>
      refine .inl ⟨panic, rfl, ?_⟩
      cases plain : Gitd.stripCiPrefix (trim authorization) scheme with
      | none => rfl
      | some rest =>
        rw [stripCiPrefix_iff.mpr plain] at found
        cases found
  unfold extractBearerOrBasic Gitd.extractBearerOrBasic
  rcases strip "bearer " with ⟨panic, checked, plain⟩ | ⟨_ | rest, checked, plain⟩
  · simp [checked, plain, bind, Except.bind]
  · rcases strip "basic " with ⟨panic, checked', plain'⟩ | ⟨_ | rest, checked', plain'⟩
    · simp [checked, plain, checked', plain', bind, Except.bind]
    · simp [checked, plain, checked', plain', bind, Except.bind, pure, Except.pure]
    · simp [checked, plain, checked', plain', bind, Except.bind, basicToken_ok]
  · simp [checked, plain, bind, Except.bind, pure, Except.pure]

/-- The header is read just where no character stands across its sixth or its seventh byte. -/
theorem extractBearerOrBasic_returns (authorization : String) :
    (∃ token, extractBearerOrBasic authorization = .ok token) ↔
      Whole (trim authorization) 7 ∧ Whole (trim authorization) 6 := by
  have seven : len "bearer " = 7 := rfl
  have six : len "basic " = 6 := rfl
  unfold extractBearerOrBasic
  simp only [bind_eq_ok]
  constructor
  · rintro ⟨token, found, first, read⟩
    refine ⟨(stripCiPrefix_returns _ "bearer ").mp ⟨found, first⟩, ?_⟩
    cases found with
    | some rest => exact @whole_of_scheme _ _ _ 6 first
    | none =>
      obtain ⟨found', second, -⟩ := bind_eq_ok.mp read
      exact (stripCiPrefix_returns _ "basic ").mp ⟨found', second⟩
  · rintro ⟨first, second⟩
    obtain ⟨found, first⟩ := (stripCiPrefix_returns _ "bearer ").mpr first
    cases found with
    | some rest => exact ⟨_, _, first, rfl⟩
    | none =>
      obtain ⟨found', second⟩ := (stripCiPrefix_returns _ "basic ").mpr second
      cases found' with
      | some rest => exact ⟨_, none, first, bind_eq_ok.mpr ⟨some rest, second, basicToken_ok rest⟩⟩
      | none => exact ⟨_, none, first, bind_eq_ok.mpr ⟨none, second, rfl⟩⟩

theorem readRecords_ok (records : Prelude) (fuel : Nat) (input : List UInt8) :
    readRecords records fuel input = .ok (records.read fuel input) := by
  induction fuel generalizing records input with
  | zero => cases input <;> rfl
  | succ fuel ih =>
    cases input with
    | nil => rfl
    | cons byte input =>
      unfold readRecords Prelude.read
      split
      · rfl
      · next long =>
        have four : 4 ≤ (byte :: input).length := Nat.not_lt.mp long
        generalize byte :: input = input at four ⊢
        have header : slice input 0 4 = .ok (input.take 4) := slice_ok (by omega) four
        rw [header]
        show (match pktLength (input.take 4) with | .error error => _ | .ok length => _) = _
        cases pktLength (input.take 4) with
        | error error => rfl
        | ok length =>
          dsimp only
          rw [sliceFrom_ok four]
          generalize input.drop 4 = input
          by_cases zero : length = 0
          · simp [zero, bind, Except.bind, pure, Except.pure]
          by_cases one : length = 1
          · simp [one, bind, Except.bind, pure, Except.pure, throw, throwThe, MonadExceptOf.throw]
          by_cases two : length = 2
          · simp [two, bind, Except.bind, pure, Except.pure, throw, throwThe, MonadExceptOf.throw]
          by_cases three : length = 3
          · simp [three, bind, Except.bind, pure, Except.pure, throw, throwThe, MonadExceptOf.throw]
          by_cases cut : input.length < length - 4
          · simp [zero, one, two, three, cut, bind, Except.bind, pure, Except.pure, throw, throwThe,
              MonadExceptOf.throw]
          have there : length - 4 ≤ input.length := Nat.not_lt.mp cut
          have payload : slice input 0 (length - 4) = .ok (input.take (length - 4)) :=
            slice_ok (Nat.zero_le _) there
          simp only [zero, one, two, three, cut, payload, sliceFrom_ok there, if_false, bind, Except.bind, pure,
            Except.pure, decide_false, Bool.or_self, Bool.false_eq_true]
          cases records.record (input.take (length - 4)) with
          | error error => rfl
          | ok records => exact ih records _

theorem receivePackCommands_ok (input : List UInt8) :
    receivePackCommands input = .ok (Gitd.receivePackCommands input) := by
  unfold receivePackCommands Gitd.receivePackCommands
  rw [readRecords_ok]
  rfl

theorem preludeState_step (input : List UInt8) (offset : Nat) : preludeState input offset =
    match preludeStep input offset with
    | .error panic => .error panic
    | .ok (.error error) => .ok (.error error)
    | .ok (.ok (.inl state)) => .ok (.ok (state, offset))
    | .ok (.ok (.inr next)) => preludeState input next := by
  rw [preludeState]
  split
  · next step => rw [step]
  · next step => rw [step]
  · next step => rw [step]
  · next step => rw [step]

theorem preludeStep_ok {input : List UInt8} (fits : input.length < 2 ^ 63) (offset : Nat) :
    preludeStep input offset = .ok (
      if input.length - offset < 4 then .ok (.inl (.need (4 - (input.length - offset))))
      else match pktLength ((input.drop offset).take 4) with
        | .error error => .error error
        | .ok length =>
          if length = 0 then .ok (.inl (.complete (offset + 4)))
          else if length = 1 ∨ length = 2 then .ok (.inr (offset + 4))
          else if length = 3 then .error (.protocol "reserved pkt-line length 0003")
          else if input.length - offset < length then .ok (.inl (.need (length - (input.length - offset))))
          else .ok (.inr (offset + length))) := by
  unfold preludeStep
  by_cases short : input.length - offset < 4
  · have rest : sub 4 (input.length - offset) = .ok (4 - (input.length - offset)) := sub_ok (by omega)
    simp only [short, if_true, rest, bind, Except.bind, pure, Except.pure]
  have header : slice input offset (offset + 4) = .ok ((input.drop offset).take 4) := by
    have taken := @slice_ok _ input offset (offset + 4) (by omega) (by omega)
    rwa [Nat.add_sub_cancel_left] at taken
  have next : add 64 offset 4 = .ok (offset + 4) := add_ok (by omega)
  simp only [short, if_false, next, header, bind, Except.bind, pure, Except.pure]
  cases pktLength ((input.drop offset).take 4) with
  | error error => rfl
  | ok length =>
    by_cases zero : length = 0
    · simp [zero]
    by_cases control : length = 1 ∨ length = 2
    · simp [zero, control]
    by_cases three : length = 3
    · simp [three]
    by_cases cut : input.length - offset < length
    · have rest : sub length (input.length - offset) = .ok (length - (input.length - offset)) :=
        sub_ok (by omega)
      simp [zero, control, three, cut, rest]
    · have after : add 64 offset length = .ok (offset + length) := add_ok (by omega)
      simp [zero, control, three, cut, after]

/-- The scan answers from every offset, so however the bytes came. -/
theorem preludeState_ok {input : List UInt8} (fits : input.length < 2 ^ 63) (offset : Nat) :
    preludeState input offset = .ok (Gitd.receivePackPreludeState input offset) := by
  induction size : input.length - offset using Nat.strong_induction_on generalizing offset with
  | _ left ih =>
    rw [preludeState_step, preludeStep_ok fits, receivePackPreludeState]
    by_cases short : input.length - offset < 4
    · rw [if_pos short, if_pos short]
    rw [if_neg short, if_neg short]
    cases pktLength ((input.drop offset).take 4) with
    | error error => rfl
    | ok length =>
      dsimp only
      by_cases zero : length = 0
      · rw [if_pos zero, if_pos zero]
      rw [if_neg zero, if_neg zero]
      by_cases control : length = 1 ∨ length = 2
      · rw [if_pos control, if_pos control]
        exact ih _ (by omega) (offset + 4) rfl
      rw [if_neg control, if_neg control]
      by_cases three : length = 3
      · rw [if_pos three, if_pos three]
      rw [if_neg three, if_neg three]
      by_cases cut : input.length - offset < length
      · rw [if_pos cut, if_pos cut]
      rw [if_neg cut, if_neg cut]
      exact ih _ (by omega) (offset + length) rfl

end Returns

end Checked

/-- What the parsers of a request get to read; the scan of a push goes on from any offset. -/
structure ParserInputs where
  target : HeldText
  path : HeldText
  oid : HeldText
  authorization : HeldText
  blob : HeldText
  body : HeldBytes
  offset : Nat

/-- Every parser returns a value or an error. -/
structure Answers (inputs : ParserInputs) : Prop where
  target : ∃ answer, Checked.splitPathQuery inputs.target.text = .ok answer
  escapes : ∃ answer, Checked.percentDecode inputs.path.text = .ok answer
  repo : ∃ answer, Checked.parseRepoFromPath inputs.path.text = .ok answer
  lfs : ∃ answer, Checked.lfsObjectPathParts inputs.path.text = .ok answer
  oid : ∃ answer, Checked.normalizeOid inputs.oid.text = .ok answer
  credential : ∃ answer, Checked.extractBearerOrBasic inputs.authorization.text = .ok answer
  base64 : ∃ answer, Checked.base64Decode inputs.blob.text = .ok answer
  commands : ∃ answer, Checked.receivePackCommands inputs.body.bytes = .ok answer
  scan : ∃ answer, Checked.preludeState inputs.body.bytes inputs.offset = .ok answer

/-- The parsers answer, and what the models say, unless a character of the trimmed header stands
    across its sixth or its seventh byte. -/
theorem parsers_answer_iff (inputs : ParserInputs) : Answers inputs ↔
    Checked.Whole (trim inputs.authorization.text) 7 ∧ Checked.Whole (trim inputs.authorization.text) 6 := by
  rw [← Checked.extractBearerOrBasic_returns]
  constructor
  · exact fun answers => answers.credential
  · intro credential
    exact {
      target := ⟨_, Checked.splitPathQuery_ok inputs.target⟩
      escapes := ⟨_, Checked.percentDecode_ok inputs.path.fits⟩
      repo := ⟨_, rfl⟩
      lfs := ⟨_, rfl⟩
      oid := ⟨_, rfl⟩
      credential
      base64 := ⟨_, Checked.base64Decode_ok inputs.blob.text⟩
      commands := ⟨_, Checked.receivePackCommands_ok inputs.body.bytes⟩
      scan := ⟨_, Checked.preludeState_ok inputs.body.fits inputs.offset⟩ }

/-- A header of `Bearer` with an accented letter behind it. -/
theorem not_answers : Checked.extractBearerOrBasic "Beareré" = .error .insideCharacter ∧
    ¬Answers ⟨⟨"", by decide⟩, ⟨"", by decide⟩, ⟨"", by decide⟩, ⟨"Beareré", by decide⟩, ⟨"", by decide⟩,
      ⟨[], by decide⟩, 0⟩ := by
  have panics : Checked.extractBearerOrBasic "Beareré" = .error .insideCharacter := rfl
  refine ⟨panics, fun answers => ?_⟩
  obtain ⟨answer, read⟩ := answers.credential
  rw [panics] at read
  cases read

end Jeryu.Gitd
