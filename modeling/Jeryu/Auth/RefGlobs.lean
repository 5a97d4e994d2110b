import Jeryu.Auth.Reach

/-!
What a bot's list of references lets it write: the glob reading of a pattern, and git's rules for a
full reference.
-/

namespace Jeryu.Core

open Text

/-- Git's rules for a full reference of a branch or a tag; a pattern may hold `*` besides. -/
structure FullRef (value : String) (pattern : Bool) : Prop where
  space : "refs/heads/".toList <+: value.toList ∨ "refs/tags/".toList <+: value.toList
  short : value.utf8ByteSize ≤ 1024
  undotted : ¬['.'] <:+ value.toList
  ranges : ¬['.', '.'] <:+: value.toList
  reflogs : ¬['@', '\x7b'] <:+: value.toList
  plain : ∀ c ∈ value.toList, 32 < c.toNat ∧ c.toNat ≠ 127 ∧ c ∉ ['~', '^', ':', '?', '[', '\\']
  literal : pattern = false → '*' ∉ value.toList
  parts : ∀ part ∈ value.toList.splitOnP (· = '/'),
    part ≠ [] ∧ ¬['.'] <+: part ∧ ¬".lock".toList <:+ part

section References

variable {value : String} {pattern : Bool}

theorem containsChars_iff {sub text : List Char} : containsChars sub text = true ↔ sub <:+: text := by
  induction text with
  | nil =>
    unfold containsChars
    rw [List.isEmpty_iff, List.infix_nil]
  | cons c rest ih =>
    unfold containsChars
    rw [Bool.or_eq_true, List.isPrefixOf_iff_prefix, ih, List.infix_cons_iff]

theorem contains_iff {s sub : String} : contains s sub = true ↔ sub.toList <:+: s.toList := containsChars_iff

theorem startsWith_iff {s pre : String} : startsWith s pre = true ↔ pre.toList <+: s.toList :=
  List.isPrefixOf_iff_prefix

theorem endsWith_iff {s post : String} : endsWith s post = true ↔ post.toList <:+ s.toList :=
  List.isSuffixOf_iff_suffix

theorem plain_iff {c : Char} : ¬(c.toNat ≤ 32 || c.toNat = 127 || "~^:?[\\".toList.contains c ||
    (!pattern && c = '*')) = true ↔ (32 < c.toNat ∧ c.toNat ≠ 127 ∧
      c ∉ ['~', '^', ':', '?', '[', '\\']) ∧ (pattern = false → c ≠ '*') := by
  have letters : "~^:?[\\".toList = ['~', '^', ':', '?', '[', '\\'] := rfl
  rw [letters]
  cases pattern <;> simp [and_assoc]

theorem part_iff {part : List Char} : (part.isEmpty = false ∧ ".".toList.isPrefixOf part = false) ∧
    ".lock".toList.isSuffixOf part = false ↔ part ≠ [] ∧ ¬['.'] <+: part ∧ ¬".lock".toList <:+ part := by
  have dot : ".".toList = ['.'] := rfl
  rw [dot, ← Bool.not_eq_true, ← Bool.not_eq_true, ← Bool.not_eq_true, List.isPrefixOf_iff_prefix,
    List.isSuffixOf_iff_suffix, List.isEmpty_iff, and_assoc]

theorem validBotRef_iff : validBotRef value pattern = true ↔ FullRef value pattern := by
  unfold validBotRef
  simp only [Bool.and_eq_true, Bool.or_eq_true, Bool.not_eq_true', startsWith_iff, decide_eq_true_eq,
    List.all_eq_true, part_iff]
  constructor
  · intro valid
    obtain ⟨⟨⟨⟨⟨⟨space, short⟩, undotted⟩, ranges⟩, reflogs⟩, letters⟩, parts⟩ := valid
    have clean (c : Char) (member : c ∈ value.toList) := plain_iff.mp (List.any_eq_false.mp letters c member)
    constructor
    · exact space
    · exact short
    · exact fun ends => Bool.false_ne_true (undotted.symm.trans (endsWith_iff.mpr ends))
    · exact fun within => Bool.false_ne_true (ranges.symm.trans (contains_iff.mpr within))
    · exact fun within => Bool.false_ne_true (reflogs.symm.trans (contains_iff.mpr within))
    · exact fun c member => (clean c member).1
    · exact fun whole member => (clean '*' member).2 whole rfl
    · exact parts
  · intro full
    refine ⟨⟨⟨⟨⟨⟨full.space, full.short⟩, ?_⟩, ?_⟩, ?_⟩, ?_⟩, full.parts⟩
    · exact Bool.eq_false_iff.mpr fun ends => full.undotted (endsWith_iff.mp ends)
    · exact Bool.eq_false_iff.mpr fun within => full.ranges (contains_iff.mp within)
    · exact Bool.eq_false_iff.mpr fun within => full.reflogs (contains_iff.mp within)
    · apply List.any_eq_false.mpr
      intro c member
      refine plain_iff.mpr ⟨full.plain c member, fun whole same => full.literal whole ?_⟩
      rw [← same]
      exact member

end References

/-- A pattern with a text for each `*` between its literal pieces gives the reference. -/
def RefGlob (pattern reference : String) : Prop :=
  Glob.Woven (pattern.toList.splitOnP (· = '*')) reference.toList

theorem refPatternMatches_iff {pattern reference : String} :
    refPatternMatches pattern reference = true ↔ RefGlob pattern reference := by
  unfold refPatternMatches RefGlob
  rw [Glob.matchSplit_iff, Glob.split_iff_woven]

/-- A reach without a list allows every reference, and one with a list the full references that a
    valid pattern of it gives. -/
theorem allowsRef_glob : (∀ pattern reference : String, refPatternMatches pattern reference = true ↔
      ∃ gaps : List (List Char), gaps.length + 1 = (pattern.toList.splitOnP (· = '*')).length ∧
        reference.toList = Glob.weave (pattern.toList.splitOnP (· = '*')) gaps) ∧
    ∀ (reach : BotReach) (reference : String), reach.allowsRef reference = true ↔
      reach.refs = none ∨ FullRef reference false ∧ ∃ patterns, reach.refs = some patterns ∧
        ∃ pattern ∈ patterns, FullRef pattern true ∧ RefGlob pattern reference := by
  refine ⟨fun _ _ => refPatternMatches_iff, fun reach reference => ?_⟩
  unfold BotReach.allowsRef
  cases reach.refs with
  | none => simp
  | some patterns =>
    dsimp only
    rw [Bool.and_eq_true, validBotRef_iff, List.any_eq_true]
    constructor
    · intro allowed
      obtain ⟨full, pattern, member, both⟩ := allowed
      obtain ⟨valid, fits⟩ := Bool.and_eq_true_iff.mp both
      exact .inr ⟨full, patterns, rfl, pattern, member, validBotRef_iff.mp valid,
        refPatternMatches_iff.mp fits⟩
    · intro allowed
      rcases allowed with absent | ⟨full, _, same, pattern, member, valid, fits⟩
      · cases absent
      · cases same
        exact ⟨full, pattern, member,
          Bool.and_eq_true_iff.mpr ⟨validBotRef_iff.mpr valid, refPatternMatches_iff.mpr fits⟩⟩

example : refPatternMatches "refs/tags/*-split.*" "refs/tags/core-split.1" = true := by decide +kernel

end Jeryu.Core
