import Jeryu.Core.Model
import Jeryu.Library.Bytes

/-!
The identity of one commit's diff. It names the base, the message and the diff byte for byte. A
diff has one where a line starts like a changed one and not like a file header, which the changed
lines whose own text starts with `++` or `--` do.
-/

namespace Jeryu.Gitd

open Text Bytes

/-- SHA-256. -/
structure Sha256 where
  hash : List UInt8 → List UInt8
  length_hash : ∀ bytes, (hash bytes).length = 32

/-- What one commit's identity is made from. -/
structure CommitDiff where
  base : String
  message : List UInt8
  diff : List UInt8
  fits : (utf8 base).length < 2 ^ 63 ∧ message.length < 2 ^ 63 ∧ diff.length < 2 ^ 63

/-- `b"jeryu-diff-v2\0"` -/
def DIFF_TAG : List UInt8 := utf8 "jeryu-diff-v2\x00"

def lengthDelimited (bytes : List UInt8) : List UInt8 := beBytes 8 bytes.length ++ bytes

def startsWithBytes (line start : List UInt8) : Bool := start.isPrefixOf line

/-- A line that starts like a changed one, and not like a file header. -/
def looksChanged (line : List UInt8) : Bool :=
  startsWithBytes line [43] && !startsWithBytes line [43, 43, 43] ||
    startsWithBytes line [45] && !startsWithBytes line [45, 45, 45]

namespace CommitDiff

def lines (commit : CommitDiff) : List (List UInt8) := commit.diff.splitOn 10

/-- What is hashed. -/
def preimage (commit : CommitDiff) : List UInt8 :=
  DIFF_TAG ++ lengthDelimited (utf8 (toAsciiLowercase commit.base)) ++ lengthDelimited commit.message ++
    lengthDelimited commit.diff

def contentDigest (commit : CommitDiff) (sha256 : Sha256) : Option String :=
  if commit.lines.any looksChanged then
    some ("v2:" ++ hexEncode (sha256.hash commit.preimage))
  else none

end CommitDiff

section Hunks

def isDigit (byte : UInt8) : Bool := 48 ≤ byte && byte ≤ 57

/-- A decimal number at the start, and what follows it. -/
def number (bytes : List UInt8) : Option (Nat × List UInt8) :=
  match bytes.takeWhile isDigit with
  | [] => none
  | digits => some (digits.foldl (fun value digit => value * 10 + (digit.toNat - 48)) 0, bytes.dropWhile isDigit)

/-- `start,count` of a hunk, or `start` for one line: the count, and what follows. -/
def range (bytes : List UInt8) : Option (Nat × List UInt8) :=
  match number bytes with
  | none => none
  | some (_, 44 :: rest) => number rest
  | some (_, rest) => some (1, rest)

def skip (start bytes : List UInt8) : Option (List UInt8) :=
  if startsWithBytes bytes start then some (bytes.drop start.length) else none

/-- `@@ -start,count +start,count @@`: how many lines of the old and of the new file a hunk has. -/
def hunkHeader (line : List UInt8) : Option (Nat × Nat) := do
  let (old, rest) ← range (← skip (utf8 "@@ -") line)
  let (new, rest) ← range (← skip (utf8 " +") rest)
  let _ ← skip (utf8 " @@") rest
  return (old, new)

/-- The lines of a diff in git's unified format, each with whether it is one of a hunk, which
    still misses `old` and `new` lines. -/
def marked (old new : Nat) : List (List UInt8) → List (Bool × List UInt8)
  | [] => []
  | line :: rest =>
    let (old', new') := (hunkHeader line).getD (0, 0)
    if old = 0 ∧ new = 0 then (false, line) :: marked old' new' rest
    else
      match line.head? with
      | some 43 => (true, line) :: marked old (new - 1) rest
      | some 45 => (true, line) :: marked (old - 1) new rest
      | some 32 => (true, line) :: marked (old - 1) (new - 1) rest
      | some 92 => (true, line) :: marked old new rest
      | _ => (false, line) :: marked old' new' rest

/-- An added or a removed line. -/
def isChange (line : List UInt8) : Bool := line.head? = some 43 || line.head? = some 45

namespace CommitDiff

variable (commit : CommitDiff)

/-- The lines of the hunks, and those outside. -/
def inside (line : List UInt8) : Prop := (true, line) ∈ marked 0 0 commit.lines

def outside (line : List UInt8) : Prop := (false, line) ∈ marked 0 0 commit.lines

/-- Some line is added or removed. -/
def Changes : Prop := ∃ line, commit.inside line ∧ isChange line = true

end CommitDiff

theorem map_marked (old new : Nat) (lines : List (List UInt8)) :
    (marked old new lines).map Prod.snd = lines := by
  induction lines generalizing old new with
  | nil => rfl
  | cons line rest ih =>
    unfold marked
    dsimp only
    split
    · rw [List.map_cons, ih]
    · split <;> rw [List.map_cons, ih]

variable {commit : CommitDiff}

/-- Every line is in a hunk or outside. -/
theorem mem_lines_iff {line : List UInt8} : line ∈ commit.lines ↔ commit.inside line ∨ commit.outside line := by
  have whole := map_marked 0 0 commit.lines
  have member : line ∈ (marked 0 0 commit.lines).map Prod.snd ↔ commit.inside line ∨ commit.outside line := by
    simp [CommitDiff.inside, CommitDiff.outside, or_comm]
  rwa [whole] at member

/-- A changed line that looks like a file header. -/
def looksLikeHeader (line : List UInt8) : Bool :=
  startsWithBytes line [43, 43, 43] || startsWithBytes line [45, 45, 45]

theorem startsWith_one {line : List UInt8} {byte : UInt8} :
    startsWithBytes line [byte] = true ↔ line.head? = some byte := by
  unfold startsWithBytes
  cases line with
  | nil => simp
  | cons first rest =>
    simp only [List.isPrefixOf, Bool.and_true, beq_iff_eq, List.head?_cons, Option.some.injEq]
    exact eq_comm

theorem startsWith_three {line : List UInt8} {byte : UInt8} (start : startsWithBytes line [byte, byte, byte] = true) :
    startsWithBytes line [byte] = true := by
  obtain ⟨rest, rfl⟩ := List.isPrefixOf_iff_prefix.mp start
  exact startsWith_one.mpr rfl

/-- What looks changed is what starts with one sign and not with three. -/
theorem looksChanged_iff {line : List UInt8} :
    looksChanged line = true ↔ isChange line = true ∧ looksLikeHeader line = false := by
  have plus := @startsWith_three line 43
  have minus := @startsWith_three line 45
  have one : ¬(startsWithBytes line [43] = true ∧ startsWithBytes line [45] = true) := by
    rw [startsWith_one, startsWith_one]
    rintro ⟨first, second⟩
    rw [first] at second
    cases second
  have change : isChange line = (startsWithBytes line [43] || startsWithBytes line [45]) := by
    rw [Bool.eq_iff_iff, Bool.or_eq_true, startsWith_one, startsWith_one]
    unfold isChange
    rw [Bool.or_eq_true, decide_eq_true_eq, decide_eq_true_eq]
  rw [change]
  unfold looksChanged looksLikeHeader
  revert plus minus one
  generalize startsWithBytes line [43, 43, 43] = a
  generalize startsWithBytes line [45, 45, 45] = b
  generalize startsWithBytes line [43] = c
  generalize startsWithBytes line [45] = d
  revert a b c d
  decide

end Hunks

namespace CommitDiff

variable (commit : CommitDiff)

/-- A changed line of a hunk that does not look like a file header, one that does, and a line
    outside the hunks that looks changed. -/
def Plain : Prop := ∃ line, commit.inside line ∧ isChange line = true ∧ looksLikeHeader line = false

def Disguised : Prop := ∃ line, commit.inside line ∧ isChange line = true ∧ looksLikeHeader line = true

def Stray : Prop := ∃ line, commit.outside line ∧ looksChanged line = true

variable {commit} {sha256 : Sha256}

theorem changes_iff : commit.Changes ↔ commit.Plain ∨ commit.Disguised := by
  constructor
  · rintro ⟨line, inside, change⟩
    cases header : looksLikeHeader line with
    | false => exact .inl ⟨line, inside, change, header⟩
    | true => exact .inr ⟨line, inside, change, header⟩
  · rintro (⟨line, inside, change, -⟩ | ⟨line, inside, change, -⟩)
    · exact ⟨line, inside, change⟩
    · exact ⟨line, inside, change⟩

theorem looks_iff : commit.lines.any looksChanged = true ↔ commit.Plain ∨ commit.Stray := by
  rw [List.any_eq_true]
  constructor
  · rintro ⟨line, member, looks⟩
    rcases mem_lines_iff.mp member with inside | outside
    · exact .inl ⟨line, inside, looksChanged_iff.mp looks⟩
    · exact .inr ⟨line, outside, looks⟩
  · rintro (⟨line, inside, plain⟩ | ⟨line, outside, looks⟩)
    · exact ⟨line, mem_lines_iff.mpr (.inl inside), looksChanged_iff.mpr plain⟩
    · exact ⟨line, mem_lines_iff.mpr (.inr outside), looks⟩

theorem contentDigest_eq_none : commit.contentDigest sha256 = none ↔ ¬(commit.Plain ∨ commit.Stray) := by
  rw [← looks_iff]
  unfold contentDigest
  split
  · next looks => simp [looks]
  · next looks => simp [looks]

/-- Two commits whose preimages are different and hash alike. -/
def Collision (sha256 : Sha256) (commit other : CommitDiff) : Prop :=
  commit.preimage ≠ other.preimage ∧ sha256.hash commit.preimage = sha256.hash other.preimage

/-- What an identity of one commit has to be. -/
structure Identifies (sha256 : Sha256) (commit : CommitDiff) : Prop where
  /-- Another identity is the same just where the fields are. -/
  distinct : ∀ other id id', ¬Collision sha256 commit other → commit.contentDigest sha256 = some id →
    other.contentDigest sha256 = some id' →
      (id = id' ↔ eqIgnoreAsciiCase commit.base other.base = true ∧ commit.message = other.message ∧
        commit.diff = other.diff)
  accepted : ∀ id, commit.contentDigest sha256 = some id → Core.isReviewPatchId id = true
  present : commit.contentDigest sha256 = none ↔ ¬commit.Changes

theorem length_utf8 (s : String) : (utf8 s).length = len s := by
  have chars (text : List Char) : (text.flatMap String.utf8EncodeChar).length = String.utf8Len text := by
    induction text with
    | nil => rfl
    | cons c text ih =>
      rw [List.flatMap_cons, List.length_append, ih, String.length_utf8EncodeChar, String.utf8Len_cons,
        Nat.add_comm]
  rw [utf8, chars, len_eq]

theorem lengthDelimited_inj {bytes bytes' rest rest' : List UInt8} (fits : bytes.length < 2 ^ 63)
    (fits' : bytes'.length < 2 ^ 63)
    (same : lengthDelimited bytes ++ rest = lengthDelimited bytes' ++ rest') : bytes = bytes' ∧ rest = rest' := by
  unfold lengthDelimited at same
  rw [List.append_assoc, List.append_assoc] at same
  obtain ⟨length, after⟩ := beBytes_append_inj (by omega) (by omega) same
  exact List.append_inj after length

theorem preimage_inj {other : CommitDiff} : commit.preimage = other.preimage ↔
    eqIgnoreAsciiCase commit.base other.base = true ∧ commit.message = other.message ∧
      commit.diff = other.diff := by
  have lower (commit : CommitDiff) : (utf8 (toAsciiLowercase commit.base)).length < 2 ^ 63 := by
    have fits := commit.fits.1
    rw [length_utf8, len_eq] at fits
    rwa [length_utf8, len_eq, toAsciiLowercase, String.toList_ofList, utf8Len_map_toAsciiLowercaseChar]
  rw [eqIgnoreAsciiCase_iff]
  unfold preimage
  constructor
  · intro same
    simp only [List.append_assoc] at same
    have fields := List.append_cancel_left same
    obtain ⟨base, fields⟩ := lengthDelimited_inj (lower commit) (lower other) fields
    obtain ⟨message, diff⟩ := lengthDelimited_inj commit.fits.2.1 other.fits.2.1 fields
    rw [← List.append_nil (lengthDelimited commit.diff), ← List.append_nil (lengthDelimited other.diff)] at diff
    exact ⟨utf8_inj.mp base, message, (lengthDelimited_inj commit.fits.2.2 other.fits.2.2 diff).1⟩
  · rintro ⟨base, message, diff⟩
    rw [base, message, diff]

theorem hexEncode_inj {bytes bytes' : List UInt8} : hexEncode bytes = hexEncode bytes' ↔ bytes = bytes' := by
  constructor
  · intro same
    have back := congrArg hexDecode same
    rw [hexDecode_hexEncode, hexDecode_hexEncode] at back
    exact Option.some.inj back
  · rintro rfl
    rfl

theorem isReviewPatchId_hexEncode {bytes : List UInt8} (long : bytes.length = 32) :
    Core.isReviewPatchId ("v2:" ++ hexEncode bytes) = true := by
  have digits : ∀ n < 16, isAsciiHexdigit n.digitChar = true ∧ n.digitChar.utf8Size = 1 := by decide
  have encoded (bytes : List UInt8) : all (hexEncode bytes) isAsciiHexdigit = true ∧
      len (hexEncode bytes) = 2 * bytes.length := by
    rw [len_eq]
    unfold all hexEncode
    rw [String.toList_ofList]
    induction bytes with
    | nil => exact ⟨rfl, rfl⟩
    | cons byte bytes ih =>
      have bound := byte.toNat_lt
      obtain ⟨high, one⟩ := digits (byte.toNat / 16) (by omega)
      obtain ⟨low, one'⟩ := digits (byte.toNat % 16) (by omega)
      rw [List.flatMap_cons, List.all_append, String.utf8Len_append, ih.1, ih.2, List.length_cons]
      simp only [List.all_cons, List.all_nil, high, low, Bool.and_true, String.utf8Len_cons, one, one',
        String.utf8Len_nil, true_and]
      omega
  obtain ⟨hex, size⟩ := encoded bytes
  unfold Core.isReviewPatchId
  rw [stripPrefix_eq_some.mpr rfl]
  simp only [hex, size, long, Bool.and_true, beq_iff_eq]

/-- An identity is what it has to be just where a changed line looks like one, or the lines that
    are taken for headers and those taken for changes make up for each other. -/
theorem identifies_iff (sha256 : Sha256) (commit : CommitDiff) :
    Identifies sha256 commit ↔ (commit.Plain ∨ (commit.Disguised ↔ commit.Stray)) := by
  have present : (commit.contentDigest sha256 = none ↔ ¬commit.Changes) ↔
      (commit.Plain ∨ (commit.Disguised ↔ commit.Stray)) := by
    rw [contentDigest_eq_none, changes_iff]
    tauto
  have digest (commit : CommitDiff) (id : String) (there : commit.contentDigest sha256 = some id) :
      id = "v2:" ++ hexEncode (sha256.hash commit.preimage) := by
    unfold contentDigest at there
    split at there
    · exact (Option.some.inj there).symm
    · cases there
  rw [← present]
  constructor
  · exact fun identifies => identifies.present
  · intro present
    refine ⟨fun other id id' apart there there' => ?_, fun id there => ?_, present⟩
    · rw [digest commit id there, digest other id' there', ← preimage_inj]
      constructor
      · intro same
        have hashes := hexEncode_inj.mp (String.append_right_inj _ |>.mp same)
        by_contra differ
        exact apart ⟨differ, hashes⟩
      · intro same
        rw [same]
    · rw [digest commit id there]
      exact isReviewPatchId_hexEncode (sha256.length_hash _)

end CommitDiff

/-- A file of one line, `++x`. -/
def addsPluses : CommitDiff where
  base := "0123456789abcdef0123456789abcdef01234567"
  message := utf8 "89abcdef0123456789abcdef0123456789abcdef\nadd f\n"
  diff := utf8 "diff --git a/f b/f\nnew file mode 100644\n--- /dev/null\n+++ b/f\n@@ -0,0 +1 @@\n+++x\n"
  fits := by decide

theorem not_identifies : (∀ sha256, addsPluses.contentDigest sha256 = none) ∧ addsPluses.Changes ∧
    ¬∃ sha256, CommitDiff.Identifies sha256 addsPluses := by
  have blind : addsPluses.lines.any looksChanged = false := by decide
  have changes : addsPluses.Changes := by
    have inside : (true, utf8 "+++x") ∈ marked 0 0 addsPluses.lines := by decide
    exact ⟨utf8 "+++x", inside, rfl⟩
  have none (sha256 : Sha256) : addsPluses.contentDigest sha256 = none := by
    rw [CommitDiff.contentDigest, blind]
    rfl
  exact ⟨none, changes, fun ⟨sha256, identifies⟩ => identifies.present.mp (none sha256) changes⟩

end Jeryu.Gitd
