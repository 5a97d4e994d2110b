import Mathlib.Data.List.TakeDrop
import Mathlib.Data.String.Basic

/-!
The string functions of the Rust standard library that the forge uses, on the characters of
a Lean string.
-/

namespace Text

/-- Unicode `White_Space`, what `char::is_whitespace` answers. -/
def isWhitespace (c : Char) : Bool :=
  let n := c.toNat
  (9 ≤ n && n ≤ 13) || n = 32 || n = 0x85 || n = 0xa0 || n = 0x1680 ||
    (0x2000 ≤ n && n ≤ 0x200a) || n = 0x2028 || n = 0x2029 || n = 0x202f || n = 0x205f || n = 0x3000

def isAsciiDigit (c : Char) : Bool := '0' ≤ c && c ≤ '9'

def isAsciiLowercase (c : Char) : Bool := 'a' ≤ c && c ≤ 'z'

def isAsciiUppercase (c : Char) : Bool := 'A' ≤ c && c ≤ 'Z'

def isAsciiAlphanumeric (c : Char) : Bool :=
  isAsciiDigit c || isAsciiLowercase c || isAsciiUppercase c

def isAsciiHexdigit (c : Char) : Bool :=
  isAsciiDigit c || ('a' ≤ c && c ≤ 'f') || ('A' ≤ c && c ≤ 'F')

def isLowercaseHexdigit (c : Char) : Bool := isAsciiDigit c || ('a' ≤ c && c ≤ 'f')

def toAsciiLowercaseChar (c : Char) : Char :=
  if isAsciiUppercase c then Char.ofNat (c.toNat + 32) else c

def toAsciiLowercase (s : String) : String := String.ofList (s.toList.map toAsciiLowercaseChar)

def eqIgnoreAsciiCase (a b : String) : Bool := toAsciiLowercase a = toAsciiLowercase b

def all (s : String) (p : Char → Bool) : Bool := s.toList.all p

/-- `str::len`: the length in bytes. -/
def len (s : String) : Nat := s.utf8ByteSize

/-- `hex::encode` -/
def hexEncode (bytes : List UInt8) : String :=
  String.ofList (bytes.flatMap fun byte => [Nat.digitChar (byte.toNat / 16), Nat.digitChar (byte.toNat % 16)])

def trimStartMatches (s : String) (p : Char → Bool) : String := String.ofList (s.toList.dropWhile p)

def trimEndMatches (s : String) (p : Char → Bool) : String :=
  String.ofList (s.toList.reverse.dropWhile p).reverse

def trim (s : String) : String := trimEndMatches (trimStartMatches s isWhitespace) isWhitespace

def isBlank (s : String) : Bool := trim s = ""

def startsWith (s pre : String) : Bool := pre.toList.isPrefixOf s.toList

def endsWith (s post : String) : Bool := post.toList.isSuffixOf s.toList

def containsChars (sub : List Char) : List Char → Bool
  | [] => sub.isEmpty
  | c :: rest => sub.isPrefixOf (c :: rest) || containsChars sub rest

def contains (s sub : String) : Bool := containsChars sub.toList s.toList

def stripPrefix (s pre : String) : Option String :=
  if startsWith s pre then some (String.ofList (s.toList.drop pre.toList.length)) else none

def stripSuffix (s post : String) : Option String :=
  if endsWith s post then
    some (String.ofList (s.toList.take (s.toList.length - post.toList.length)))
  else none

def splitOnce (s : String) (separator : Char) : Option (String × String) :=
  match s.toList.span (· != separator) with
  | (_, []) => none
  | (before, _ :: after) => some (String.ofList before, String.ofList after)

def splitOn (s : String) (separator : Char) : List String :=
  (s.toList.splitOnP (· = separator)).map String.ofList

/-- Around the last place where the separator stands. -/
def rsplitOnceChars (separator : List Char) : List Char → Option (List Char × List Char)
  | [] => none
  | c :: rest =>
    match rsplitOnceChars separator rest with
    | some (before, after) => some (c :: before, after)
    | none =>
      if separator.isPrefixOf (c :: rest) then some ([], (c :: rest).drop separator.length) else none

def rsplitOnce (s separator : String) : Option (String × String) :=
  (rsplitOnceChars separator.toList s.toList).map fun (before, after) =>
    (String.ofList before, String.ofList after)

def dropEndCopies (post : List Char) : Nat → List Char → List Char
  | 0, text => text
  | fuel + 1, text =>
    if post.isSuffixOf text then dropEndCopies post fuel (text.take (text.length - post.length)) else text

/-- `trim_end_matches` of a text: every copy of it at the end goes. -/
def trimEndCopies (s post : String) : String :=
  String.ofList (dropEndCopies post.toList s.toList.length s.toList)

/-- `str::split_at`: around the byte `n`, which has to stand between two characters. -/
def splitAt : List Char → Nat → Option (List Char × List Char)
  | text, 0 => some ([], text)
  | [], _ + 1 => none
  | c :: rest, n + 1 =>
    if c.utf8Size ≤ n + 1 then
      (splitAt rest (n + 1 - c.utf8Size)).map fun (before, after) => (c :: before, after)
    else none

def splitInclusive (stop : Char) : List Char → List (List Char)
  | [] => []
  | c :: rest =>
    if c = stop then [c] :: splitInclusive stop rest
    else match splitInclusive stop rest with
      | [] => [[c]]
      | first :: more => (c :: first) :: more

/-- A line without its `\n` or `\r\n`. -/
def stripLineEnding (line : List Char) : List Char :=
  match line.reverse with
  | '\n' :: '\r' :: rest => rest.reverse
  | '\n' :: rest => rest.reverse
  | _ => line

def lines (s : String) : List String :=
  (splitInclusive '\n' s.toList).map fun line => String.ofList (stripLineEnding line)

def splitWhitespace (s : String) : List String :=
  ((s.toList.splitOnP isWhitespace).filter fun word => !word.isEmpty).map String.ofList

theorem eqIgnoreAsciiCase_iff {a b : String} :
    eqIgnoreAsciiCase a b = true ↔ toAsciiLowercase a = toAsciiLowercase b := by
  simp [eqIgnoreAsciiCase]

theorem eqIgnoreAsciiCase_comm (a b : String) : eqIgnoreAsciiCase a b = eqIgnoreAsciiCase b a := by
  simp [eqIgnoreAsciiCase, eq_comm]

theorem len_eq (s : String) : len s = String.utf8Len s.toList := by
  unfold len
  rw [← String.utf8ByteSize_ofList, String.ofList_toList]

theorem splitAt_eq_some {text before after : List Char} {n : Nat} :
    splitAt text n = some (before, after) ↔ text = before ++ after ∧ String.utf8Len before = n := by
  induction text generalizing n before with
  | nil =>
    cases n with
    | zero =>
      simp only [splitAt, Option.some.injEq, Prod.mk.injEq, String.utf8Len_eq_zero]
      constructor
      · rintro ⟨rfl, rfl⟩
        exact ⟨rfl, rfl⟩
      · rintro ⟨same, rfl⟩
        exact ⟨rfl, same⟩
    | succ n =>
      have nothing : splitAt [] (n + 1) = none := rfl
      rw [nothing]
      constructor
      · exact fun absurd => nomatch absurd
      · rintro ⟨same, size⟩
        obtain ⟨rfl, -⟩ := List.append_eq_nil_iff.mp same.symm
        cases size
  | cons c rest ih =>
    cases n with
    | zero =>
      simp only [splitAt, Option.some.injEq, Prod.mk.injEq, String.utf8Len_eq_zero]
      constructor
      · rintro ⟨rfl, rfl⟩
        exact ⟨rfl, rfl⟩
      · rintro ⟨same, rfl⟩
        exact ⟨rfl, same⟩
    | succ n =>
      have positive := c.utf8Size_pos
      unfold splitAt
      by_cases fits : c.utf8Size ≤ n + 1
      · rw [if_pos fits]
        simp only [Option.map_eq_some_iff, Prod.exists, Prod.mk.injEq]
        constructor
        · rintro ⟨head, tail, cut, rfl, rfl⟩
          obtain ⟨rfl, size⟩ := ih.mp cut
          exact ⟨rfl, by rw [String.utf8Len_cons]; omega⟩
        · rintro ⟨same, size⟩
          cases before with
          | nil => cases size
          | cons d head =>
            obtain ⟨rfl, rfl⟩ := List.cons_eq_cons.mp same
            rw [String.utf8Len_cons] at size
            exact ⟨head, after, ih.mpr ⟨rfl, by omega⟩, rfl, rfl⟩
      · rw [if_neg fits]
        constructor
        · exact fun absurd => nomatch absurd
        · rintro ⟨same, size⟩
          cases before with
          | nil => cases size
          | cons d head =>
            obtain ⟨rfl, rfl⟩ := List.cons_eq_cons.mp same
            rw [String.utf8Len_cons] at size
            omega

theorem utf8Size_toAsciiLowercaseChar (c : Char) : (toAsciiLowercaseChar c).utf8Size = c.utf8Size := by
  unfold toAsciiLowercaseChar
  split
  · next upper =>
    simp only [isAsciiUppercase, Bool.and_eq_true, decide_eq_true_eq, Char.le_def] at upper
    have low : c.toNat ≤ 90 := by simpa using UInt32.le_iff_toNat_le.mp upper.2
    have small : c.utf8Size = 1 := Char.utf8Size_eq_one_iff.mpr (UInt32.le_iff_toNat_le.mpr (by
      have : (127 : UInt32).toNat = 127 := rfl
      have : c.val.toNat = c.toNat := rfl
      omega))
    have letters : ∀ n < 91, (Char.ofNat (n + 32)).utf8Size = 1 := by decide
    rw [small, letters c.toNat (by omega)]
  · rfl

theorem utf8Len_map_toAsciiLowercaseChar (text : List Char) :
    String.utf8Len (text.map toAsciiLowercaseChar) = String.utf8Len text := by
  induction text with
  | nil => rfl
  | cons c rest ih =>
    rw [List.map_cons, String.utf8Len_cons, String.utf8Len_cons, ih, utf8Size_toAsciiLowercaseChar]

section Words

/-- The runs of characters between white space. -/
def words (text : List Char) : List (List Char) :=
  (text.splitOnP isWhitespace).filter fun word => !word.isEmpty

theorem splitWhitespace_eq (s : String) : splitWhitespace s = (words s.toList).map String.ofList := rfl

theorem words_append {before after : List Char} {c : Char} (space : isWhitespace c = true) :
    words (before ++ c :: after) = words before ++ words after := by
  unfold words
  rw [List.splitOnP_append_cons _ _ space, List.filter_append]

theorem words_nil : words [] = [] := by simp [words]

theorem words_of_solid {text : List Char} (solid : ∀ c ∈ text, isWhitespace c = false)
    (some_ : text ≠ []) : words text = [text] := by
  unfold words
  rw [List.splitOnP_eq_singleton solid]
  cases text with
  | nil => exact absurd rfl some_
  | cons c rest => rfl

theorem words_dropWhile (text : List Char) : words (text.dropWhile isWhitespace) = words text := by
  induction text with
  | nil => rfl
  | cons c rest ih =>
    rw [List.dropWhile_cons]
    split
    · next space =>
      rw [ih, ← List.nil_append (c :: rest), words_append space, words_nil, List.nil_append]
    · rfl

theorem words_blank {spaces : List Char} (blank : ∀ c ∈ spaces, isWhitespace c = true) :
    words spaces = [] := by
  induction spaces with
  | nil => exact words_nil
  | cons c rest ih =>
    rw [← List.nil_append (c :: rest), words_append (blank c List.mem_cons_self), words_nil,
      List.nil_append]
    exact ih fun d member => blank d (List.mem_cons_of_mem _ member)

theorem words_append_spaces {text spaces : List Char} (blank : ∀ c ∈ spaces, isWhitespace c = true) :
    words (text ++ spaces) = words text := by
  cases spaces with
  | nil => rw [List.append_nil]
  | cons c rest =>
    have after := words_blank fun d (member : d ∈ rest) => blank d (List.mem_cons_of_mem _ member)
    rw [words_append (blank c List.mem_cons_self), after, List.append_nil]

theorem splitWhitespace_trim (s : String) : splitWhitespace (trim s) = splitWhitespace s := by
  rw [splitWhitespace_eq, splitWhitespace_eq]
  unfold trim trimEndMatches trimStartMatches
  rw [String.toList_ofList, String.toList_ofList]
  have parts := @List.takeWhile_append_dropWhile _ isWhitespace (s.toList.dropWhile isWhitespace).reverse
  have whole := congrArg List.reverse parts
  rw [List.reverse_append, List.reverse_reverse] at whole
  have every := @List.all_takeWhile _ isWhitespace (s.toList.dropWhile isWhitespace).reverse
  have kept := (congrArg words whole.symm).trans (words_append_spaces fun c member =>
    List.all_eq_true.mp every c (List.mem_reverse.mp member))
  rw [← kept, words_dropWhile]

end Words

section Lines

variable {text : List Char}

theorem splitInclusive_line (one : '\n' ∉ text) : splitInclusive '\n' (text ++ ['\n']) = [text ++ ['\n']] := by
  induction text with
  | nil => decide
  | cons c rest ih =>
    rw [List.cons_append]
    unfold splitInclusive
    have differs : c ≠ '\n' := fun same => one (by rw [same]; exact List.mem_cons_self)
    rw [if_neg differs, ih fun member => one (List.mem_cons_of_mem _ member)]

theorem stripLineEnding_line (plain : text.getLast? ≠ some '\r') : stripLineEnding (text ++ ['\n']) = text := by
  unfold stripLineEnding
  rw [List.reverse_append]
  cases last : text.reverse with
  | nil =>
    rw [List.reverse_eq_nil_iff.mp last]
    rfl
  | cons c rest =>
    have same : text = rest.reverse ++ [c] := by
      rw [← List.reverse_reverse text, last, List.reverse_cons]
    have differs : c ≠ '\r' := fun carriage => plain (by rw [same, carriage, List.getLast?_concat])
    show (match '\n' :: c :: rest with
      | '\n' :: '\r' :: rest => rest.reverse
      | '\n' :: rest => rest.reverse
      | _ => text ++ ['\n']) = text
    split
    · next carriage => exact absurd (List.cons.inj (List.cons.inj carriage).2).1 differs
    · next ending =>
      cases (List.cons.inj ending).2
      rw [same, List.reverse_cons]
    · next other => exact absurd rfl (other _)

/-- One line, ended. -/
theorem lines_line (one : '\n' ∉ text) (plain : text.getLast? ≠ some '\r') :
    lines (String.ofList (text ++ ['\n'])) = [String.ofList text] := by
  unfold lines
  rw [String.toList_ofList, splitInclusive_line one, List.map_singleton, stripLineEnding_line plain]

end Lines

section Ends

theorem dropEndCopies_length {post text : List Char} {fuel : Nat} :
    (dropEndCopies post fuel text).length ≤ text.length := by
  induction fuel generalizing text with
  | zero => exact Nat.le_refl _
  | succ fuel ih =>
    unfold dropEndCopies
    split
    · have shorter : (text.take (text.length - post.length)).length ≤ text.length := by simp
      exact Nat.le_trans ih shorter
    · exact Nat.le_refl _

theorem dropEndCopies_other {post text : List Char} {fuel : Nat} (other : post.isSuffixOf text = false) :
    dropEndCopies post fuel text = text := by
  cases fuel with
  | zero => rfl
  | succ fuel =>
    unfold dropEndCopies
    rw [other]
    rfl

theorem isSuffixOf_append (text post : List Char) : post.isSuffixOf (text ++ post) = true := by
  simp [List.isSuffixOf_iff_suffix]

theorem dropEndCopies_copy {post text : List Char} {fuel : Nat} :
    dropEndCopies post (fuel + 1) (text ++ post) = dropEndCopies post fuel text := by
  rw [dropEndCopies, isSuffixOf_append]
  simp

theorem dropWhile_absent {text : List Char} {c : Char} (absent : c ∉ text) :
    text.dropWhile (fun letter => decide (letter = c)) = text := by
  cases text with
  | nil => rfl
  | cons first rest =>
    have other : ¬decide (first = c) = true := by
      intro same
      rw [of_decide_eq_true same] at absent
      exact absent List.mem_cons_self
    exact List.dropWhile_cons_of_neg other

end Ends

theorem stripPrefix_eq_some {s pre rest : String} : stripPrefix s pre = some rest ↔ s = pre ++ rest := by
  constructor
  · intro stripped
    simp only [stripPrefix] at stripped
    split at stripped
    · rename_i starts
      obtain ⟨tail, same⟩ := List.isPrefixOf_iff_prefix.mp starts
      have chars := Option.some.inj stripped
      rw [← same, List.drop_left] at chars
      rw [← chars, ← String.toList_inj, String.toList_append, String.toList_ofList]
      exact same.symm
    · cases stripped
  · rintro rfl
    have starts : startsWith (pre ++ rest) pre = true := by
      simp only [startsWith, String.toList_append]
      exact List.isPrefixOf_iff_prefix.mpr (List.prefix_append _ _)
    simp only [stripPrefix, starts, if_true, String.toList_append, List.drop_left, String.ofList_toList]

theorem stripSuffix_eq_some {s post rest : String} : stripSuffix s post = some rest ↔ s = rest ++ post := by
  constructor
  · intro stripped
    simp only [stripSuffix] at stripped
    split at stripped
    · rename_i ends
      obtain ⟨head, same⟩ := List.isSuffixOf_iff_suffix.mp ends
      have chars := Option.some.inj stripped
      rw [← same, List.length_append, Nat.add_sub_cancel, List.take_left] at chars
      rw [← chars, ← String.toList_inj, String.toList_append, String.toList_ofList]
      exact same.symm
    · cases stripped
  · rintro rfl
    have ends : endsWith (rest ++ post) post = true := by
      simp only [endsWith, String.toList_append]
      exact List.isSuffixOf_iff_suffix.mpr (List.suffix_append _ _)
    simp only [stripSuffix, ends, if_true, String.toList_append, List.length_append,
      Nat.add_sub_cancel, List.take_left, String.ofList_toList]

theorem splitOnce_eq_some {s before after : String} {c : Char} :
    splitOnce s c = some (before, after) ↔ s.toList = before.toList ++ c :: after.toList ∧ c ∉ before.toList := by
  have cut := List.takeWhile_append_dropWhile (p := (· != c)) (l := s.toList)
  simp only [splitOnce, List.span_eq_takeWhile_dropWhile]
  constructor
  · intro split
    rcases rest : s.toList.dropWhile (· != c) with _ | ⟨first, tail⟩
    · simp only [rest] at split
      cases split
    · simp only [rest, Option.some.injEq, Prod.mk.injEq] at split
      obtain ⟨rfl, rfl⟩ := split
      have stops : first = c := by
        have left : s.toList.dropWhile (· != c) ≠ [] := by simp [rest]
        have head := List.head_dropWhile_not (· != c) left
        simpa [rest] using head
      refine ⟨?_, ?_⟩
      · rw [String.toList_ofList, String.toList_ofList, ← stops, ← rest, stops]
        exact cut.symm
      · rw [String.toList_ofList]
        intro member
        have kept := List.all_eq_true.mp (List.all_takeWhile (p := (· != c)) (l := s.toList)) c member
        simp at kept
  · rintro ⟨chars, absent⟩
    have keeps : ∀ x ∈ before.toList, (x != c) = true := by
      intro x member
      exact bne_iff_ne.mpr fun same => absent (same ▸ member)
    rw [chars, List.takeWhile_append_of_pos keeps, List.dropWhile_append_of_pos keeps]
    simp

theorem splitOnce_eq_none {s : String} {c : Char} : splitOnce s c = none ↔ c ∉ s.toList := by
  constructor
  · intro split member
    obtain ⟨before, after, same, absent⟩ := List.eq_append_cons_of_mem member
    have found : splitOnce s c = some (String.ofList before, String.ofList after) := by
      apply splitOnce_eq_some.mpr
      rw [String.toList_ofList, String.toList_ofList]
      exact ⟨same, absent⟩
    rw [found] at split
    cases split
  · intro absent
    cases split : splitOnce s c with
    | none => rfl
    | some parts =>
      obtain ⟨whole, -⟩ := splitOnce_eq_some.mp split
      rw [whole] at absent
      exact absurd (List.mem_append_right _ List.mem_cons_self) absent

theorem absent_of_mem_splitOn {c : Char} {text part : List Char} (member : part ∈ text.splitOn c) : c ∉ part := by
  induction text generalizing part with
  | nil =>
    rw [List.splitOn_nil, List.mem_singleton] at member
    rw [member]
    exact List.not_mem_nil
  | cons d text ih =>
    rw [List.splitOn_cons_eq_if_modifyHead] at member
    split at member
    · rcases List.mem_cons.mp member with rfl | later
      · exact List.not_mem_nil
      · exact ih later
    · next other =>
      obtain ⟨first, parts, split⟩ := List.exists_cons_of_ne_nil (List.splitOn_ne_nil c text)
      rw [split] at ih member
      rcases List.mem_cons.mp member with rfl | later
      · have clean := ih List.mem_cons_self
        have differs : c ≠ d := fun same => other (beq_iff_eq.mpr same.symm)
        simp only [List.mem_cons, not_or]
        exact ⟨differs, clean⟩
      · exact ih (List.mem_cons_of_mem _ later)

/-- The parts are what stands between the separators, of which they hold none. -/
theorem splitOn_eq_iff {s : String} {c : Char} {parts : List String} : splitOn s c = parts ↔
    parts ≠ [] ∧ (∀ part ∈ parts, c ∉ part.toList) ∧
      s.toList = [c].intercalate (parts.map String.toList) := by
  have same : splitOn s c = (s.toList.splitOn c).map String.ofList := rfl
  have back (parts : List (List Char)) : (parts.map String.ofList).map String.toList = parts := by
    simp [List.map_map, Function.comp_def]
  rw [same]
  constructor
  · rintro rfl
    refine ⟨by simp, fun part member => ?_, ?_⟩
    · obtain ⟨chars, listed, rfl⟩ := List.mem_map.mp member
      rw [String.toList_ofList]
      exact absent_of_mem_splitOn listed
    · rw [back, List.intercalate_splitOn]
  · intro ⟨some_, clean, whole⟩
    have chars : ∀ part ∈ parts.map String.toList, c ∉ part := by
      intro part member
      obtain ⟨part, listed, rfl⟩ := List.mem_map.mp member
      exact clean part listed
    rw [whole, List.splitOn_intercalate c chars (by simpa using some_), List.map_map]
    simp [Function.comp_def]

theorem startsWith_iff {s pre : String} : startsWith s pre = true ↔ ∃ rest, s = pre ++ rest := by
  constructor
  · intro starts
    have stripped : stripPrefix s pre = some (String.ofList (s.toList.drop pre.toList.length)) := by
      rw [stripPrefix, if_pos starts]
    exact ⟨_, stripPrefix_eq_some.mp stripped⟩
  · intro ⟨rest, same⟩
    rw [same, startsWith, String.toList_append]
    exact List.isPrefixOf_iff_prefix.mpr (List.prefix_append _ _)

theorem endsWith_iff {s post : String} : endsWith s post = true ↔ ∃ rest, s = rest ++ post := by
  constructor
  · intro ends
    have stripped : stripSuffix s post =
        some (String.ofList (s.toList.take (s.toList.length - post.toList.length))) := by
      rw [stripSuffix, if_pos ends]
    exact ⟨_, stripSuffix_eq_some.mp stripped⟩
  · intro ⟨rest, same⟩
    rw [same, endsWith, String.toList_append]
    exact List.isSuffixOf_iff_suffix.mpr (List.suffix_append _ _)

/-- What is trimmed off the end, and that nothing more is. -/
theorem trimEndMatches_eq (s : String) (p : Char → Bool) : ∃ trimmed : String,
    s = trimEndMatches s p ++ trimmed ∧ ∀ c ∈ trimmed.toList, p c = true := by
  refine ⟨String.ofList (s.toList.reverse.takeWhile p).reverse, ?_, fun c member => ?_⟩
  · rw [← String.toList_inj, String.toList_append, trimEndMatches, String.toList_ofList,
      String.toList_ofList, ← List.reverse_append, List.takeWhile_append_dropWhile,
      List.reverse_reverse]
  · rw [String.toList_ofList, List.mem_reverse] at member
    exact List.all_eq_true.mp List.all_takeWhile c member

theorem trimEndMatches_append {s post : String} {p : Char → Bool} (only : ∀ c ∈ post.toList, p c = true) :
    trimEndMatches (s ++ post) p = trimEndMatches s p := by
  unfold trimEndMatches
  rw [String.toList_append, List.reverse_append, List.dropWhile_append_of_pos]
  exact fun c member => only c (List.mem_reverse.mp member)

/-- A text that starts with no white space is its first word, and then the rest. -/
theorem words_cons {text : List Char} {c : Char} (solid : isWhitespace c = false) :
    ∃ word rest, words (c :: text) = (c :: word) :: rest := by
  have cut := @List.takeWhile_append_dropWhile _ (fun d => !isWhitespace d) (c :: text)
  have front : ∀ d ∈ (c :: text).takeWhile (fun d => !isWhitespace d), isWhitespace d = false := by
    intro d member
    simpa using List.all_eq_true.mp List.all_takeWhile d member
  have head : (c :: text).takeWhile (fun d => !isWhitespace d) =
      c :: text.takeWhile fun d => !isWhitespace d := List.takeWhile_cons_of_pos (by simp [solid])
  rw [head] at front cut
  cases tail : (c :: text).dropWhile fun d => !isWhitespace d with
  | nil =>
    rw [tail, List.append_nil] at cut
    rw [← cut]
    exact ⟨_, [], words_of_solid front (List.cons_ne_nil _ _)⟩
  | cons d after =>
    have space : isWhitespace d = true := by
      have left : (c :: text).dropWhile (fun d => !isWhitespace d) ≠ [] := by simp [tail]
      simpa [tail] using List.head_dropWhile_not (fun d => !isWhitespace d) left
    rw [tail] at cut
    rw [← cut, words_append space, words_of_solid front (List.cons_ne_nil _ _)]
    exact ⟨_, _, rfl⟩

/-- A trimmed text that is not empty starts with no white space. -/
theorem trim_head {s : String} (some_ : trim s ≠ "") :
    ∃ c rest, (trim s).toList = c :: rest ∧ isWhitespace c = false := by
  obtain ⟨trimmed, whole, blank⟩ := trimEndMatches_eq (trimStartMatches s isWhitespace) isWhitespace
  have front : trimEndMatches (trimStartMatches s isWhitespace) isWhitespace = trim s := rfl
  rw [front] at whole
  cases chars : (trim s).toList with
  | nil => exact absurd (String.toList_inj.mp chars) some_
  | cons c rest =>
    refine ⟨c, rest, rfl, ?_⟩
    have text : s.toList.dropWhile isWhitespace = c :: (rest ++ trimmed.toList) := by
      have same := congrArg String.toList whole
      rw [trimStartMatches, String.toList_ofList, String.toList_append, chars] at same
      exact same
    have left : s.toList.dropWhile isWhitespace ≠ [] := by simp [text]
    have stops := List.head_dropWhile_not isWhitespace left
    simpa [text] using stops

theorem trim_solid {s : String} (solid : ∀ c ∈ s.toList, isWhitespace c = false) : trim s = s := by
  have front : s.toList.dropWhile isWhitespace = s.toList := by
    rcases chars : s.toList with _ | ⟨c, rest⟩
    · rfl
    · exact List.dropWhile_cons_of_neg (by simp [solid c (by simp [chars])])
  have back : s.toList.reverse.dropWhile isWhitespace = s.toList.reverse := by
    rcases chars : s.toList.reverse with _ | ⟨c, rest⟩
    · rfl
    · have member : c ∈ s.toList := List.mem_reverse.mp (by rw [chars]; exact List.mem_cons_self)
      exact List.dropWhile_cons_of_neg (by simp [solid c member])
  simp only [trim, trimStartMatches, trimEndMatches, front, String.ofList_toList, back,
    List.reverse_reverse]

end Text
