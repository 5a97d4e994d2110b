import Mathlib.Data.List.Infix

/-!
Patterns with one wildcard symbol, which stands for any run of symbols, and the greedy
left-to-right matcher over the parts between the wildcards.
-/

namespace Glob

variable {α : Type}

/-- What a pattern means. -/
inductive Fits (star : α) : List α → List α → Prop where
  | done : Fits star [] []
  | symbol {c : α} {pattern text : List α} (plain : c ≠ star) (rest : Fits star pattern text) :
      Fits star (c :: pattern) (c :: text)
  | wildcard {pattern text : List α} (skipped : List α) (rest : Fits star pattern text) :
      Fits star (star :: pattern) (skipped ++ text)

section Match

variable [DecidableEq α]

/-- Around the first place `part` stands at. -/
def cut (part : List α) : List α → Option (List α × List α)
  | [] => if part.isEmpty then some ([], []) else none
  | c :: rest =>
    if part.isPrefixOf (c :: rest) then some ([], (c :: rest).drop part.length)
    else (cut part rest).map fun (before, after) => (c :: before, after)

/-- The parts after the first wildcard, each at the first place it can stand; the last one at
    the end. -/
def matchParts : List (List α) → List α → Bool
  | [], _ => false
  | [part], text => part.isSuffixOf text
  | part :: next :: more, text =>
    match cut part text with
    | some (_, after) => matchParts (next :: more) after
    | none => false

def matchSplit : List (List α) → List α → Bool
  | [], _ => false
  | first :: parts, text =>
    first.isPrefixOf text &&
      if parts.isEmpty then (text.drop first.length).isEmpty
      else matchParts parts (text.drop first.length)

end Match

/-- The parts in order, with anything in front of each. -/
inductive Spread : List (List α) → List α → Prop where
  | last (part skipped : List α) : Spread [part] (skipped ++ part)
  | part {part : List α} {more : List (List α)} {text : List α} (skipped : List α)
      (rest : Spread more text) : Spread (part :: more) (skipped ++ part ++ text)

/-- The first part, and the others spread out after it. -/
def Split : List (List α) → List α → Prop
  | [], _ => False
  | [first], text => text = first
  | first :: next :: parts, text => ∃ rest, text = first ++ rest ∧ Spread (next :: parts) rest

theorem Spread.skip {parts : List (List α)} {text : List α} (spread : Spread parts text)
    (more : List α) : Spread parts (more ++ text) := by
  cases spread with
  | last part skipped =>
    rw [← List.append_assoc]
    exact .last part _
  | part skipped rest =>
    rw [← List.append_assoc, ← List.append_assoc]
    exact .part _ rest

section Matcher

variable [DecidableEq α]

theorem cut_some {part text before after : List α} (found : cut part text = some (before, after)) :
    text = before ++ part ++ after := by
  induction text generalizing before with
  | nil =>
    unfold cut at found
    split at found
    · next empty =>
      cases found
      simp [List.isEmpty_iff.mp empty]
    · cases found
  | cons c rest ih =>
    unfold cut at found
    split at found
    · next starts =>
      cases found
      exact (List.prefix_iff_eq_append.mp (List.isPrefixOf_iff_prefix.mp starts)).symm
    · obtain ⟨⟨before, after⟩, deeper, same⟩ := Option.map_eq_some_iff.mp found
      cases same
      rw [ih deeper]
      rfl

/-- Where `part` can stand at all, the cut is no further right. -/
theorem cut_leftmost (part skipped text : List α) :
    ∃ before more, cut part (skipped ++ part ++ text) = some (before, more ++ text) := by
  induction skipped with
  | nil =>
    rw [List.nil_append]
    cases same : part ++ text with
    | nil =>
      obtain ⟨rfl, rfl⟩ := List.append_eq_nil_iff.mp same
      exact ⟨[], [], rfl⟩
    | cons c rest =>
      have starts : part.isPrefixOf (c :: rest) = true := by
        rw [← same]
        exact List.isPrefixOf_iff_prefix.mpr (List.prefix_append _ _)
      refine ⟨[], [], ?_⟩
      rw [cut, if_pos starts, ← same, List.drop_left, List.nil_append]
  | cons c skipped ih =>
    obtain ⟨before, more, found⟩ := ih
    rw [List.cons_append, List.cons_append, cut]
    split
    · next starts =>
      -- An earlier place leaves more of the text behind.
      obtain ⟨rest, same⟩ := List.isPrefixOf_iff_prefix.mp starts
      have long : part.length + rest.length = 1 + skipped.length + part.length + text.length := by
        have := congrArg List.length same
        simp only [List.length_append, List.length_cons] at this
        omega
      have whole : (c :: (skipped ++ part ++ text)).drop part.length = rest := by
        rw [← same, List.drop_left]
      have tail : text <:+ rest := by
        have suffix : text <:+ part ++ rest := by
          rw [same]
          exact ⟨c :: (skipped ++ part), by simp⟩
        exact List.suffix_of_suffix_length_le suffix (List.suffix_append _ _) (by omega)
      obtain ⟨more, same⟩ := tail
      exact ⟨[], more, by rw [whole, ← same]⟩
    · exact ⟨c :: before, more, by rw [found]; rfl⟩

theorem matchParts_iff (parts : List (List α)) (text : List α) :
    matchParts parts text = true ↔ Spread parts text := by
  induction parts generalizing text with
  | nil => exact ⟨(fun absurd => nomatch absurd), (fun absurd => nomatch absurd)⟩
  | cons part more ih =>
    cases more with
    | nil =>
      rw [matchParts, List.isSuffixOf_iff_suffix]
      constructor
      · rintro ⟨skipped, rfl⟩
        exact .last part skipped
      · intro spread
        cases spread with
        | last skipped => exact List.suffix_append _ _
        | part skipped rest => cases rest
    | cons next rest =>
      rw [matchParts]
      constructor
      · intro matched
        split at matched
        · next before after found =>
          rw [cut_some found]
          exact .part before ((ih after).mp matched)
        · cases matched
      · intro spread
        cases spread with
        | @part part' more' text' skipped spread =>
          obtain ⟨before, extra, found⟩ := cut_leftmost part skipped text'
          rw [found]
          exact (ih _).mpr (spread.skip extra)

theorem matchSplit_iff (parts : List (List α)) (text : List α) :
    matchSplit parts text = true ↔ Split parts text := by
  cases parts with
  | nil => exact ⟨(fun absurd => nomatch absurd), (fun absurd => nomatch absurd)⟩
  | cons first parts =>
    rw [matchSplit, Bool.and_eq_true, List.isPrefixOf_iff_prefix]
    cases parts with
    | nil =>
      simp only [List.isEmpty_nil, if_true, List.isEmpty_iff]
      constructor
      · rintro ⟨⟨rest, rfl⟩, empty⟩
        rw [List.drop_left] at empty
        rw [empty, List.append_nil, Split]
      · rintro rfl
        exact ⟨List.prefix_rfl, by simp⟩
    | cons next more =>
      rw [if_neg (by simp), matchParts_iff]
      constructor
      · rintro ⟨⟨rest, rfl⟩, spread⟩
        rw [List.drop_left] at spread
        exact ⟨rest, rfl, spread⟩
      · rintro ⟨rest, rfl, spread⟩
        rw [List.drop_left]
        exact ⟨List.prefix_append _ _, spread⟩

end Matcher

section Woven

/-- The parts with something between any two of them that stand next to each other. -/
def weave : List (List α) → List (List α) → List α
  | part :: parts, gap :: gaps => part ++ gap ++ weave parts gaps
  | parts, _ => parts.flatten

/-- The text is the parts in order, with a gap for each wildcard between them. -/
def Woven (parts : List (List α)) (text : List α) : Prop :=
  ∃ gaps : List (List α), gaps.length + 1 = parts.length ∧ text = weave parts gaps

theorem spread_iff_woven (parts : List (List α)) (text : List α) :
    Spread parts text ↔ ∃ gap rest, text = gap ++ rest ∧ Woven parts rest := by
  constructor
  · intro spread
    induction spread with
    | last part skipped => exact ⟨skipped, part, rfl, [], rfl, (List.append_nil part).symm⟩
    | @part part more text skipped rest ih =>
      obtain ⟨gap, after, same, gaps, counted, woven⟩ := ih
      refine ⟨skipped, part ++ text, List.append_assoc _ _ _, gap :: gaps, by simp [counted], ?_⟩
      rw [same, woven]
      exact (List.append_assoc _ _ _).symm
  · intro known
    obtain ⟨gap, rest, same, gaps, counted, woven⟩ := known
    subst same woven
    induction parts generalizing gap gaps with
    | nil => cases counted
    | cons part parts ih =>
      cases gaps with
      | nil =>
        obtain rfl : parts = [] := List.length_eq_zero_iff.mp (Nat.succ.inj counted).symm
        show Spread [part] (gap ++ ([part] : List (List α)).flatten)
        simpa using Spread.last part gap
      | cons next gaps =>
        have rest := ih next gaps (Nat.succ.inj counted)
        have spread : Spread (part :: parts) (gap ++ part ++ (next ++ weave parts gaps)) := .part gap rest
        show Spread (part :: parts) (gap ++ (part ++ next ++ weave parts gaps))
        simpa only [List.append_assoc] using spread

/-- The greedy choice of each part loses nothing. -/
theorem split_iff_woven (parts : List (List α)) (text : List α) : Split parts text ↔ Woven parts text := by
  cases parts with
  | nil => exact ⟨fun absurd => absurd.elim, fun ⟨_, counted, _⟩ => nomatch counted⟩
  | cons first parts =>
    cases parts with
    | nil =>
      constructor
      · intro same
        exact ⟨[], rfl, same.trans (List.append_nil first).symm⟩
      · intro woven
        obtain ⟨gaps, counted, same⟩ := woven
        obtain rfl : gaps = [] := List.length_eq_zero_iff.mp (Nat.succ.inj counted)
        exact same.trans (List.append_nil first)
    | cons next parts =>
      constructor
      · intro split
        obtain ⟨rest, rfl, spread⟩ := split
        obtain ⟨gap, after, rfl, gaps, counted, woven⟩ := (spread_iff_woven _ _).mp spread
        refine ⟨gap :: gaps, by simp [counted], ?_⟩
        rw [woven]
        exact (List.append_assoc _ _ _).symm
      · intro woven
        obtain ⟨gaps, counted, rfl⟩ := woven
        cases gaps with
        | nil => cases counted
        | cons gap gaps =>
          refine ⟨gap ++ weave (next :: parts) gaps, List.append_assoc _ _ _, ?_⟩
          exact (spread_iff_woven _ _).mpr ⟨gap, _, rfl, gaps, Nat.succ.inj counted, rfl⟩

end Woven

section Pattern

/-- A leading symbol goes with the first part. -/
theorem split_modifyHead {c : α} {parts : List (List α)} {text : List α} (some : parts ≠ []) :
    Split (parts.modifyHead (List.cons c)) text ↔ ∃ rest, text = c :: rest ∧ Split parts rest := by
  cases parts with
  | nil => exact absurd rfl some
  | cons first parts =>
    rw [List.modifyHead_cons]
    cases parts with
    | nil => exact ⟨fun same => ⟨first, same, rfl⟩, by rintro ⟨rest, rfl, rfl⟩; rfl⟩
    | cons next more =>
      constructor
      · rintro ⟨rest, rfl, spread⟩
        exact ⟨first ++ rest, rfl, rest, rfl, spread⟩
      · rintro ⟨_, rfl, rest, rfl, spread⟩
        exact ⟨rest, rfl, spread⟩

/-- A leading wildcard spreads out what comes after it. -/
theorem split_nil_cons {parts : List (List α)} {text : List α} (some : parts ≠ []) :
    Split ([] :: parts) text ↔ ∃ skipped rest, text = skipped ++ rest ∧ Split parts rest := by
  cases parts with
  | nil => exact absurd rfl some
  | cons first parts =>
    constructor
    · rintro ⟨_, rfl, spread⟩
      cases spread with
      | last part skipped => exact ⟨skipped, first, rfl, rfl⟩
      | @part part' more' text' skipped spread =>
        refine ⟨skipped, first ++ text', by rw [List.append_assoc], ?_⟩
        cases parts with
        | nil => cases spread
        | cons next more => exact ⟨text', rfl, spread⟩
    · rintro ⟨skipped, rest, rfl, split⟩
      refine ⟨skipped ++ rest, rfl, ?_⟩
      cases parts with
      | nil =>
        cases split
        exact .last first skipped
      | cons next more =>
        obtain ⟨rest, rfl, spread⟩ := split
        rw [← List.append_assoc]
        exact .part skipped spread

theorem split_iff_fits [DecidableEq α] (star : α) (pattern text : List α) :
    Split (pattern.splitOnP (· = star)) text ↔ Fits star pattern text := by
  induction pattern generalizing text with
  | nil =>
    rw [List.splitOnP_nil]
    constructor
    · rintro rfl
      exact .done
    · intro fits
      cases fits
      rfl
  | cons c pattern ih =>
    have some := List.splitOnP_ne_nil (· = star) pattern
    rw [List.splitOnP_cons_eq_if_modifyHead]
    by_cases same : c = star
    · subst same
      rw [if_pos (by simp), split_nil_cons some]
      constructor
      · rintro ⟨skipped, rest, rfl, split⟩
        exact .wildcard skipped ((ih rest).mp split)
      · intro fits
        cases fits with
        | symbol plain rest => exact absurd rfl plain
        | wildcard skipped rest => exact ⟨skipped, _, rfl, (ih _).mpr rest⟩
    · rw [if_neg (by simpa using same), split_modifyHead some]
      constructor
      · rintro ⟨rest, rfl, split⟩
        exact .symbol same ((ih rest).mp split)
      · intro fits
        cases fits with
        | symbol plain rest => exact ⟨_, rfl, (ih _).mpr rest⟩
        | wildcard skipped rest => exact absurd rfl same

end Pattern

/-- The matcher decides what the pattern means. -/
theorem matches_iff_fits [DecidableEq α] (star : α) (pattern text : List α) :
    matchSplit (pattern.splitOnP (· = star)) text = true ↔ Fits star pattern text := by
  rw [matchSplit_iff, split_iff_fits]

end Glob
