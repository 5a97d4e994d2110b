import Mathlib.Data.List.Dedup
import Jeryu.Core.Tightening

/-!
What a CODEOWNERS file asks of a pull request. A line gives the files that its pattern covers
to the owners it names, up to a comment, and the last line that covers a path decides on it.
The parser knows a comment only where a whole line is one: after a pattern the words of a
comment are owners like any others.
-/

namespace Jeryu.Core

open KeyedMap KeyedFold Text

def withoutSlashes (path : String) : String := trimStartMatches path (· = '/')

/-- The file or folder itself, or what is in it. -/
def Under (folder path : String) : Prop := path = folder ∨ ∃ rest, path = folder ++ "/" ++ rest

/-- The ways to write a file or folder with everything in it. -/
inductive Tree (folder : String) : String → Prop where
  | plain : Tree folder folder
  | slash : Tree folder (folder ++ "/")
  | stars (slashes : String) (only : ∀ c ∈ slashes.toList, c = '/') :
      Tree folder (folder ++ slashes ++ "/**")

/-- A star in front leaves open how the path begins; any other pattern is a file or folder. -/
def Covers (pattern path : String) : Prop :=
  (∃ post, pattern = "*" ++ post ∧ ∃ rest, withoutSlashes path = rest ++ post) ∨
    ((∀ post, pattern ≠ "*" ++ post) ∧ ∃ folder, Tree folder (withoutSlashes pattern) ∧
      Under folder (withoutSlashes path))

def isComment (word : String) : Bool := startsWith word "#"

/-- The words of a line up to its comment. -/
def uncommented (line : String) : List String :=
  (splitWhitespace line).takeWhile fun word => !isComment word

/-- The words of a line from its comment on. -/
def commentOf (line : String) : List String :=
  (splitWhitespace line).dropWhile fun word => !isComment word

/-- The owners some words name, with or without an `@`. -/
def ownersNamed (words : List String) : List String :=
  (words.map fun word => trimStartMatches word (· = '@')).filter (· != "")

/-- The line gives what the pattern covers to the owners. -/
def Declares (line pattern : String) (owners : List String) : Prop :=
  ∃ words, uncommented line = pattern :: words ∧ owners = ownersNamed words

/-- The last line that covers the path. -/
structure Decides (contents path line : String) (owners : List String) : Prop where
  last : ∃ before after, lines contents = before ++ line :: after ∧
    ∀ later ∈ after, ∀ pattern owners, Declares later pattern owners → ¬Covers pattern path
  covers : ∃ pattern, Declares line pattern owners ∧ Covers pattern path

section Patterns

variable {folder path pattern : String}

theorem covers_slash : Covers pattern ("/" ++ path) ↔ Covers pattern path := by
  have same : withoutSlashes ("/" ++ path) = withoutSlashes path := by
    unfold withoutSlashes trimStartMatches
    rw [String.toList_append]
    rfl
  unfold Covers
  rw [same]

theorem ownersNamed_at (word : String) (words : List String) :
    ownersNamed (("@" ++ word) :: words) = ownersNamed (word :: words) := by
  have same : trimStartMatches ("@" ++ word) (· = '@') = trimStartMatches word (· = '@') := by
    unfold trimStartMatches
    rw [String.toList_append]
    rfl
  unfold ownersNamed
  rw [List.map_cons, List.map_cons, same]

theorem under_iff : Under folder path ↔
    (path = folder || startsWith path (folder ++ "/")) = true := by
  rw [Bool.or_eq_true, decide_eq_true_eq, Text.startsWith_iff]
  rfl

theorem Under.append {more : String} (under : Under (folder ++ "/" ++ more) path) :
    Under folder path := by
  rcases under with rfl | ⟨rest, rfl⟩
  · exact .inr ⟨more, rfl⟩
  · exact .inr ⟨more ++ "/" ++ rest, by simp only [String.append_assoc]⟩

/-- A folder written with slashes after it is the folder. -/
theorem Under.slashes {slashes : String} (only : ∀ c ∈ slashes.toList, c = '/')
    (under : Under (folder ++ slashes) path) : Under folder path := by
  cases chars : slashes.toList with
  | nil =>
    have empty : slashes = "" := String.toList_inj.mp chars
    rw [empty, String.append_empty] at under
    exact under
  | cons c rest =>
    have first : c = '/' := only c (by simp [chars])
    have split : slashes = "/" ++ String.ofList rest := by
      rw [← String.toList_inj, chars, first, String.toList_append, String.toList_ofList]
      simp
    rw [split, ← String.append_assoc] at under
    exact under.append

theorem trimmed_under {s : String} (under : Under s path) :
    Under (trimEndMatches s (· = '/')) path := by
  obtain ⟨slashes, cut, only⟩ := trimEndMatches_eq s (· = '/')
  have slashed : ∀ c ∈ slashes.toList, c = '/' := fun c member => by simpa using only c member
  rw [cut] at under
  exact under.slashes slashed

theorem tree_stars {pre : String} : (∃ folder, Tree folder (pre ++ "/**") ∧ Under folder path) ↔
    Under (trimEndMatches pre (· = '/')) path := by
  constructor
  · intro ⟨folder, tree, under⟩
    generalize written : pre ++ "/**" = pattern at tree
    cases tree with
    | plain =>
      have split : pre ++ "/**" = pre ++ "/" ++ "**" := by
        rw [String.append_assoc]
        rfl
      rw [← written, split] at under
      exact trimmed_under under.append
    | slash =>
      have ends := congrArg (fun text => text.toList.getLast?) written
      simp at ends
    | stars slashes only =>
      have same : folder ++ slashes = pre := by simpa using written.symm
      rw [← same, trimEndMatches_append fun c member => by simpa using only c member]
      exact trimmed_under under
  · intro under
    obtain ⟨slashes, cut, only⟩ := trimEndMatches_eq pre (· = '/')
    have stars : Tree (trimEndMatches pre (· = '/')) (trimEndMatches pre (· = '/') ++ slashes ++ "/**") :=
      .stars slashes fun c member => by simpa using only c member
    rw [← cut] at stars
    exact ⟨_, stars, under⟩

theorem tree_slash {pre : String} : (∃ folder, Tree folder (pre ++ "/") ∧ Under folder path) ↔
    Under pre path := by
  constructor
  · intro ⟨folder, tree, under⟩
    generalize written : pre ++ "/" = pattern at tree
    cases tree with
    | plain =>
      rw [← written, ← String.append_empty (s := pre ++ "/")] at under
      exact under.append
    | slash =>
      have same : folder = pre := by simpa using written.symm
      rwa [← same]
    | stars slashes only =>
      have ends := congrArg (fun text => text.toList.getLast?) written
      simp at ends
  · exact fun under => ⟨pre, .slash, under⟩

theorem tree_plain (unstarred : stripSuffix pattern "/**" = none)
    (unslashed : stripSuffix pattern "/" = none) :
    (∃ folder, Tree folder pattern ∧ Under folder path) ↔ Under pattern path := by
  constructor
  · intro ⟨folder, tree, under⟩
    cases tree with
    | plain => exact under
    | slash =>
      rw [stripSuffix_eq_some.mpr rfl] at unslashed
      cases unslashed
    | stars slashes only =>
      rw [stripSuffix_eq_some.mpr rfl] at unstarred
      cases unstarred
  · exact fun under => ⟨pattern, .plain, under⟩

theorem covers_named (never : ∀ post, pattern ≠ "*" ++ post) : Covers pattern path ↔
    ∃ folder, Tree folder (withoutSlashes pattern) ∧ Under folder (withoutSlashes path) := by
  constructor
  · rintro (⟨post, same, -⟩ | ⟨-, covers⟩)
    · exact absurd same (never post)
    · exact covers
  · exact fun covers => .inr ⟨never, covers⟩

/-- The pattern matches exactly the paths it covers. -/
theorem globMatch_iff : globMatch pattern path = true ↔ Covers pattern path := by
  unfold globMatch
  dsimp only
  by_cases star : pattern = "*"
  · rw [if_pos star]
    simp only [true_iff]
    exact .inl ⟨"", star, _, String.append_empty.symm⟩
  rw [if_neg star]
  cases stripped : stripPrefix pattern "*" with
  | some post =>
    have whole := stripPrefix_eq_some.mp stripped
    dsimp only
    rw [Text.endsWith_iff]
    constructor
    · exact fun covers => .inl ⟨post, whole, covers⟩
    · rintro (⟨other, same, covers⟩ | ⟨never, -⟩)
      · have posts : other = post := by simpa using same.symm.trans whole
        rwa [← posts]
      · exact absurd whole (never post)
  | none =>
    have never (post : String) : pattern ≠ "*" ++ post := fun same => by
      rw [stripPrefix_eq_some.mpr same] at stripped
      cases stripped
    rw [covers_named never]
    cases stars : stripSuffix (withoutSlashes pattern) "/**" with
    | some pre =>
      rw [stripSuffix_eq_some.mp stars, tree_stars, under_iff]
      unfold withoutSlashes at stars
      simp only [stars]
      rfl
    | none =>
      cases slash : stripSuffix (withoutSlashes pattern) "/" with
      | some pre =>
        rw [stripSuffix_eq_some.mp slash, tree_slash, under_iff]
        unfold withoutSlashes at stars slash
        simp only [stars, slash]
        rw [Bool.or_comm]
        rfl
      | none =>
        rw [tree_plain stars slash, under_iff]
        unfold withoutSlashes at stars slash
        simp only [stars, slash]
        rfl

end Patterns

section Lines

variable {contents path line line' pattern : String} {owners owners' : List String}

/-- Whether a line is a comment, told by its first word. -/
theorem first_word (some_ : trim line ≠ "") : ∃ word rest, splitWhitespace line = word :: rest ∧
    startsWith (trim line) "#" = isComment word := by
  obtain ⟨c, chars, whole, solid⟩ := trim_head some_
  obtain ⟨word, rest, first⟩ := @words_cons chars c solid
  refine ⟨String.ofList (c :: word), rest.map String.ofList, ?_, ?_⟩
  · rw [← splitWhitespace_trim, splitWhitespace_eq, whole, first, List.map_cons]
  · unfold isComment startsWith
    rw [whole, String.toList_ofList]
    simp [List.isPrefixOf]

/-- What the parser takes a line for: the words of a comment are owners too. -/
theorem parseLine_eq (line : String) : CodeOwners.parseLine line =
    match uncommented line with
    | [] => none
    | pattern :: words => some (pattern, ownersNamed words ++ ownersNamed (commentOf line)) := by
  unfold CodeOwners.parseLine uncommented commentOf
  dsimp only
  rw [splitWhitespace_trim]
  by_cases empty : trim line = ""
  · have none : splitWhitespace line = [] := by
      rw [← splitWhitespace_trim, empty]
      rfl
    rw [none, empty]
    rfl
  · obtain ⟨word, rest, words, comment⟩ := first_word empty
    rw [words, comment]
    cases hash : isComment word with
    | true => simp [hash]
    | false =>
      have cut := @List.takeWhile_append_dropWhile _ (fun word => !isComment word) rest
      have named : ownersNamed (rest.takeWhile fun word => !isComment word) ++
          ownersNamed (rest.dropWhile fun word => !isComment word) = ownersNamed rest := by
        unfold ownersNamed
        rw [← List.filter_append, ← List.map_append, cut]
      simp only [empty, decide_false, Bool.or_self, Bool.false_eq_true, if_false, hash,
        Bool.not_false, List.takeWhile_cons_of_pos, List.dropWhile_cons_of_pos, named]
      rfl

theorem parseLine_iff {owners : List String} : CodeOwners.parseLine line = some (pattern, owners) ↔
    ∃ named, Declares line pattern named ∧ owners = named ++ ownersNamed (commentOf line) := by
  rw [parseLine_eq]
  unfold Declares
  cases uncommented line with
  | nil => simp
  | cons first words =>
    simp only [Option.some.injEq, Prod.mk.injEq, List.cons.injEq]
    constructor
    · rintro ⟨rfl, rfl⟩
      exact ⟨_, ⟨words, ⟨rfl, rfl⟩, rfl⟩, rfl⟩
    · rintro ⟨named, ⟨words', ⟨rfl, rfl⟩, rfl⟩, rfl⟩
      exact ⟨rfl, rfl⟩

theorem Declares.unique {pattern' : String} (declares : Declares line pattern owners)
    (declares' : Declares line pattern' owners') : pattern' = pattern ∧ owners' = owners := by
  obtain ⟨words, first, rfl⟩ := declares
  obtain ⟨words', first', rfl⟩ := declares'
  cases first.symm.trans first'
  exact ⟨rfl, rfl⟩

/-- One line decides on a path. -/
theorem Decides.unique (decides : Decides contents path line owners)
    (decides' : Decides contents path line' owners') : line' = line ∧ owners' = owners := by
  obtain ⟨before, after, split, last⟩ := decides.last
  obtain ⟨before', after', split', last'⟩ := decides'.last
  obtain ⟨pattern, declares, covers⟩ := decides.covers
  obtain ⟨pattern', declares', covers'⟩ := decides'.covers
  have same : line' = line := by
    rcases List.append_eq_append_iff.mp (split.symm.trans split') with ⟨more, rfl, rest⟩ |
      ⟨more, rfl, rest⟩
    · cases more with
      | nil => exact (List.cons.inj rest).1.symm
      | cons first more =>
        obtain ⟨-, rfl⟩ := List.cons.inj rest
        exact absurd covers' (last line' (by simp) pattern' owners' declares')
    · cases more with
      | nil => exact (List.cons.inj rest).1
      | cons first more =>
        obtain ⟨-, rfl⟩ := List.cons.inj rest
        exact absurd covers (last' line (by simp) pattern owners declares)
  subst same
  exact ⟨rfl, (declares.unique declares').2⟩

/-- The owners the code finds are those of the line that decides, and of its comment. -/
theorem ownersFor_of_decides (decides : Decides contents path line owners) :
    (CodeOwners.parse contents).ownersFor path = owners ++ ownersNamed (commentOf line) := by
  obtain ⟨before, after, split, last⟩ := decides.last
  obtain ⟨pattern, declares, covers⟩ := decides.covers
  have parsed : CodeOwners.parseLine line = some (pattern, owners ++ ownersNamed (commentOf line)) :=
    parseLine_iff.mpr ⟨owners, declares, rfl⟩
  have skipped : ((after.filterMap CodeOwners.parseLine).reverse.find? fun rule =>
      globMatch rule.1 path) = none := by
    refine List.find?_eq_none.mpr fun rule member matched => ?_
    obtain ⟨later, inside, found⟩ := List.mem_filterMap.mp (List.mem_reverse.mp member)
    obtain ⟨named, declared, -⟩ := parseLine_iff.mp (show _ = some (rule.1, rule.2) from found)
    exact last later inside rule.1 named declared (globMatch_iff.mp matched)
  unfold CodeOwners.ownersFor CodeOwners.parse
  dsimp only
  rw [split, List.filterMap_append, List.filterMap_cons, parsed, List.reverse_append,
    List.reverse_cons, List.append_assoc, List.find?_append, skipped]
  simp [globMatch_iff.mpr covers]

/-- A path with owners has a line that decides on it. -/
theorem decides_of_ownersFor (owned : (CodeOwners.parse contents).ownersFor path ≠ []) :
    ∃ line owners, Decides contents path line owners := by
  unfold CodeOwners.ownersFor CodeOwners.parse at owned
  dsimp only at owned
  split at owned
  · next rule found =>
    obtain ⟨matched, later, earlier, split, unmatched⟩ := List.find?_eq_some_iff_append.mp found
    have order := congrArg List.reverse split
    rw [List.reverse_reverse, List.reverse_append, List.reverse_cons, List.append_assoc] at order
    obtain ⟨front, back, whole, -, rest⟩ := List.filterMap_eq_append_iff.mp order
    obtain ⟨skipped, line, after, rfl, -, parsed, tail⟩ := List.filterMap_eq_cons_iff.mp rest
    obtain ⟨named, declares, -⟩ := parseLine_iff.mp (show _ = some (rule.1, rule.2) from parsed)
    refine ⟨line, named, ⟨front ++ skipped, after, by simp [whole], ?_⟩, rule.1, declares,
      globMatch_iff.mp matched⟩
    intro other member pattern owners declared covers
    have parsed' := parseLine_iff.mpr ⟨owners, declared, rfl⟩
    have inside : (pattern, owners ++ ownersNamed (commentOf other)) ∈ later := by
      have kept := List.mem_filterMap.mpr ⟨other, member, parsed'⟩
      rw [tail] at kept
      simpa using kept
    have none := unmatched _ inside
    rw [globMatch_iff.mpr covers] at none
    cases none
  · exact absurd rfl owned

end Lines

section Sets

theorem mem_sortedSet {members : List String} {member : String} :
    member ∈ sortedSet members ↔ member ∈ members := by
  unfold sortedSet
  rw [List.mem_dedup, List.mem_insertionSort]

/-- Sorted, without repeats. -/
theorem sortedSet_pairwise (members : List String) : (sortedSet members).Pairwise (· < ·) := by
  let upTo (a b : String) : Prop := (!decide (b < a)) = true
  have upTo_iff (a b : String) : upTo a b ↔ a ≤ b := by
    simp only [upTo, Bool.not_eq_true', decide_eq_false_iff_not, not_lt]
  have total : Std.Total upTo := ⟨fun a b => by
    rw [upTo_iff, upTo_iff]
    exact le_total a b⟩
  have trans : IsTrans String upTo := ⟨fun a b c first second => by
    rw [upTo_iff] at first second ⊢
    exact first.trans second⟩
  have sorted : (members.insertionSort upTo).dedup.Pairwise upTo :=
    (List.pairwise_insertionSort upTo members).sublist (List.dedup_sublist _)
  have apart : (members.insertionSort upTo).dedup.Pairwise (· ≠ ·) := List.nodup_dedup _
  refine (sorted.and apart).imp fun {a b} both => ?_
  exact lt_of_le_of_ne ((upTo_iff a b).mp both.1) both.2

end Sets

/-- The path has owners, and none of them approved. -/
def Unapproved (contents : String) (effective : List Review) (path : String) : Prop :=
  ∃ line owners, Decides contents path line owners ∧ owners ≠ [] ∧
    ∀ review ∈ effective, review.state = .approved → review.author ∉ owners

/-- The gate raises the paths without an approval and no others, and names who could give it. -/
structure OwnersExact (contents : String) (files : List String) (effective : List Review)
    (blockers : List MergeBlocker) : Prop where
  raised : (∃ paths owners, .missingCodeOwnerReview paths owners ∈ blockers) ↔
    ∃ path ∈ files, Unapproved contents effective path
  paths : ∀ paths owners, .missingCodeOwnerReview paths owners ∈ blockers →
    paths.Pairwise (· < ·) ∧
      ∀ path, path ∈ paths ↔ path ∈ files ∧ Unapproved contents effective path
  owners : ∀ paths owners, .missingCodeOwnerReview paths owners ∈ blockers →
    owners.Pairwise (· < ·) ∧ ∀ owner, owner ∈ owners ↔ ∃ path ∈ files,
      Unapproved contents effective path ∧
        ∃ line named, Decides contents path line named ∧ owner ∈ named
  slashes : ∀ path, Unapproved contents effective ("/" ++ path) ↔ Unapproved contents effective path

/-- The comment of the line that decides names nobody the line does not name before it. -/
def CommentIdle (contents path : String) : Prop :=
  ∀ line owners, Decides contents path line owners →
    ∀ owner ∈ ownersNamed (commentOf line), owner ∈ owners

section Gate

variable {contents path : String} {effective : List Review} {pr : PullRequest}
variable {paths owners : List String}

/-- What the code finds wanting. -/
def Wanting (contents : String) (effective : List Review) (path : String) : Prop :=
  (CodeOwners.parse contents).ownersFor path ≠ [] ∧ ∀ review ∈ effective, review.state = .approved →
    review.author ∉ (CodeOwners.parse contents).ownersFor path

/-- The test the code filters the changed files by. -/
theorem wants_iff : (!((CodeOwners.parse contents).ownersFor path).isEmpty &&
      !((CodeOwners.parse contents).ownersFor path).any
        ((effective.filter fun review => review.state = .approved).map Review.author).contains) =
      true ↔ Wanting contents effective path := by
  unfold Wanting
  generalize (CodeOwners.parse contents).ownersFor path = pathOwners
  simp only [Bool.and_eq_true, Bool.not_eq_true', List.isEmpty_eq_false_iff, List.any_eq_false,
    List.contains_iff_mem, List.mem_map, List.mem_filter, decide_eq_true_eq]
  refine and_congr_right fun _ => ⟨fun none review found approved member => ?_, ?_⟩
  · exact none _ member ⟨review, ⟨found, approved⟩, rfl⟩
  · rintro unapproved owner member ⟨review, ⟨found, approved⟩, rfl⟩
    exact unapproved review found approved member

/-- A blocker lists the wanting files and the owners the code finds for them. -/
theorem mem_codeOwnerBlockers
    (member : .missingCodeOwnerReview paths owners ∈ codeOwnerBlockers pr effective contents) :
    ∃ wanting : List String, wanting ≠ [] ∧
      (∀ path, path ∈ wanting ↔ path ∈ pr.changedFiles ∧ Wanting contents effective path) ∧
      paths = sortedSet wanting ∧
      owners = sortedSet (wanting.flatMap (CodeOwners.parse contents).ownersFor) := by
  unfold codeOwnerBlockers at member
  dsimp only at member
  split at member
  · cases member
  · next some_ =>
    obtain ⟨rfl, rfl⟩ := MergeBlocker.missingCodeOwnerReview.inj (List.mem_singleton.mp member)
    refine ⟨_, fun none => some_ (List.isEmpty_iff.mpr none), fun path => ?_, rfl, rfl⟩
    rw [List.mem_filter, wants_iff]

/-- A wanting file is not passed over. -/
theorem codeOwnerBlockers_raises (changed : path ∈ pr.changedFiles)
    (wanting : Wanting contents effective path) :
    ∃ paths owners, .missingCodeOwnerReview paths owners ∈ codeOwnerBlockers pr effective contents := by
  unfold codeOwnerBlockers
  dsimp only
  split
  · next none =>
    have skipped := List.filter_eq_nil_iff.mp (List.isEmpty_iff.mp none) path changed
    exact absurd (wants_iff.mpr wanting) skipped
  · exact ⟨_, _, List.mem_singleton_self _⟩

section Asking

variable {statuses : List CommitStatus} {checkRuns : List CheckRun} {requestedSha : Option String}
variable {context : EvaluationContext} {rule : BranchProtectionRule}

theorem owner_not_proof :
    .missingCodeOwnerReview paths owners ∉ jankuraiProofBlockers pr statuses checkRuns := by
  unfold jankuraiProofBlockers
  cases requiredContextState "jankurai/proof" statuses checkRuns pr.base.refName <;> simp

theorem owner_not_check {required : String} :
    statusCheckBlocker pr statuses checkRuns required ≠ some (.missingCodeOwnerReview paths owners) := by
  unfold statusCheckBlocker
  cases requiredContextState required statuses checkRuns pr.base.refName <;> simp

theorem owner_not_intrinsic : .missingCodeOwnerReview paths owners ∉
    intrinsicBlockers pr effective statuses checkRuns requestedSha context := by
  unfold intrinsicBlockers
  dsimp only
  intro member
  simp only [List.mem_append] at member
  rcases member with ((sha | draft) | requested) | proof
  · split at sha
    · split at sha <;> simp at sha
    · cases sha
  · split at draft <;> simp at draft
  · split at requested <;> simp at requested
  · split at proof
    · exact owner_not_proof proof
    · cases proof

theorem owner_mem_ruleBlockers (given : context.codeowners = some contents) :
    .missingCodeOwnerReview paths owners ∈ ruleBlockers rule pr effective statuses checkRuns context ↔
      .missingCodeOwnerReview paths owners ∈ codeOwnerBlockers pr effective contents := by
  unfold ruleBlockers
  rw [given]
  dsimp only
  constructor
  · intro member
    simp only [List.mem_append] at member
    rcases member with ((((approvals | check) | proof) | history) | signatures) | own
    · split at approvals <;> simp at approvals
    · obtain ⟨required, -, blocks⟩ := List.mem_filterMap.mp check
      exact absurd blocks owner_not_check
    · split at proof
      · exact absurd proof owner_not_proof
      · cases proof
    · split at history
      · split at history <;> simp at history
      · cases history
    · split at signatures <;> simp at signatures
    · exact own
  · exact List.mem_append_right _

/-- Only this gate asks for an owner. -/
theorem owner_mem_blockers {reviews : List Review} (binds : context.Binds (some rule))
    (given : context.codeowners = some contents) :
    .missingCodeOwnerReview paths owners ∈ (evaluateBranchProtectionWith pr (some rule) reviews
        statuses checkRuns requestedSha context).blockers ↔
      .missingCodeOwnerReview paths owners ∈ codeOwnerBlockers pr
        (effectiveReviewsForPullRequestWith reviews pr (.forRule (some rule))) contents := by
  have bound : (context.actorIsAdmin && !rule.enforceAdmins) = false := by
    cases admin : context.actorIsAdmin with
    | false => rfl
    | true => rw [binds rule rfl admin, Bool.not_true, Bool.and_false]
  unfold evaluateBranchProtectionWith
  dsimp only
  rw [bound, if_neg Bool.false_ne_true, fromBlockers_blockers, List.mem_append,
    owner_mem_ruleBlockers given, or_iff_right owner_not_intrinsic]

end Asking

theorem decides_slash {line : String} : Decides contents ("/" ++ path) line owners ↔
    Decides contents path line owners := by
  constructor
  · intro ⟨⟨before, after, split, last⟩, pattern, declares, covers⟩
    refine ⟨⟨before, after, split, fun later member pattern owners declares => ?_⟩, pattern, declares,
      covers_slash.mp covers⟩
    exact fun covers => last later member pattern owners declares (covers_slash.mpr covers)
  · intro ⟨⟨before, after, split, last⟩, pattern, declares, covers⟩
    refine ⟨⟨before, after, split, fun later member pattern owners declares => ?_⟩, pattern, declares,
      covers_slash.mpr covers⟩
    exact fun covers => last later member pattern owners declares (covers_slash.mp covers)

/-- Where its comment is idle, the line that decides gives the code the owners it names. -/
theorem mem_ownersFor (idle : CommentIdle contents path) {owner : String} :
    owner ∈ (CodeOwners.parse contents).ownersFor path ↔
      ∃ line named, Decides contents path line named ∧ owner ∈ named := by
  constructor
  · intro member
    obtain ⟨line, named, decides⟩ := decides_of_ownersFor (List.ne_nil_of_mem member)
    rw [ownersFor_of_decides decides] at member
    refine ⟨line, named, decides, ?_⟩
    rcases List.mem_append.mp member with own | comment
    · exact own
    · exact idle line named decides owner comment
  · intro ⟨line, named, decides, member⟩
    rw [ownersFor_of_decides decides]
    exact List.mem_append_left _ member

theorem wanting_iff (idle : CommentIdle contents path) :
    Wanting contents effective path ↔ Unapproved contents effective path := by
  constructor
  · intro ⟨owned, unapproved⟩
    obtain ⟨owner, member⟩ := List.exists_mem_of_ne_nil _ owned
    obtain ⟨line, named, decides, inside⟩ := (mem_ownersFor idle).mp member
    refine ⟨line, named, decides, List.ne_nil_of_mem inside, fun review found approved own => ?_⟩
    exact unapproved review found approved ((mem_ownersFor idle).mpr ⟨line, named, decides, own⟩)
  · intro ⟨line, named, decides, some_, unapproved⟩
    obtain ⟨owner, inside⟩ := List.exists_mem_of_ne_nil _ some_
    refine ⟨List.ne_nil_of_mem ((mem_ownersFor idle).mpr ⟨line, named, decides, inside⟩), ?_⟩
    intro review found approved member
    obtain ⟨line', named', decides', own⟩ := (mem_ownersFor idle).mp member
    rw [(decides.unique decides').2] at own
    exact unapproved review found approved own

/-- Where comments are idle, the gate is exact. -/
theorem ownersExact_of_idle {files : List String} {rule : BranchProtectionRule}
    {reviews : List Review} {statuses : List CommitStatus} {checkRuns : List CheckRun}
    {requestedSha : Option String} {context : EvaluationContext}
    (idle : ∀ path ∈ files, CommentIdle contents path) (same : pr.changedFiles = files)
    (given : context.codeowners = some contents) (binds : context.Binds (some rule)) :
    OwnersExact contents files (effectiveReviewsForPullRequestWith reviews pr (.forRule (some rule)))
      (evaluateBranchProtectionWith pr (some rule) reviews statuses checkRuns requestedSha
        context).blockers := by
  subst same
  constructor
  · constructor
    · intro ⟨paths, owners, raised⟩
      obtain ⟨wanting, some_, listed, -⟩ := mem_codeOwnerBlockers ((owner_mem_blockers binds given).mp raised)
      obtain ⟨path, member⟩ := List.exists_mem_of_ne_nil _ some_
      obtain ⟨changed, wants⟩ := (listed path).mp member
      exact ⟨path, changed, (wanting_iff (idle path changed)).mp wants⟩
    · intro ⟨path, changed, unapproved⟩
      obtain ⟨paths, owners, raised⟩ :=
        codeOwnerBlockers_raises changed ((wanting_iff (idle path changed)).mpr unapproved)
      exact ⟨paths, owners, (owner_mem_blockers binds given).mpr raised⟩
  · intro paths owners raised
    obtain ⟨wanting, -, listed, rfl, -⟩ :=
      mem_codeOwnerBlockers ((owner_mem_blockers binds given).mp raised)
    refine ⟨sortedSet_pairwise wanting, fun path => ?_⟩
    rw [mem_sortedSet, listed]
    exact and_congr_right fun changed => wanting_iff (idle path changed)
  · intro paths owners raised
    obtain ⟨wanting, -, listed, -, rfl⟩ :=
      mem_codeOwnerBlockers ((owner_mem_blockers binds given).mp raised)
    refine ⟨sortedSet_pairwise _, fun owner => ?_⟩
    rw [mem_sortedSet, List.mem_flatMap]
    constructor
    · intro ⟨path, member, own⟩
      obtain ⟨changed, wants⟩ := (listed path).mp member
      have still := idle path changed
      exact ⟨path, changed, (wanting_iff still).mp wants, (mem_ownersFor still).mp own⟩
    · intro ⟨path, changed, unapproved, own⟩
      have still := idle path changed
      exact ⟨path, (listed path).mpr ⟨changed, (wanting_iff still).mpr unapproved⟩,
        (mem_ownersFor still).mpr own⟩
  · intro path
    unfold Unapproved
    simp only [decides_slash]

end Gate

section Lone

variable {author prAuthor : String} {files : List String} {reach : VerdictReach} {review : Review}

/-- A pull request that changes `files`. -/
def filesPull (author : String) (files : List String) : PullRequest :=
  { rewrittenPull with author, changedFiles := files }

/-- An approval of its head. -/
def headApproval (author : String) : Review :=
  { demoReview 0 author .approved none with headSha := some "2222" }

def ownersContext (contents : String) : EvaluationContext :=
  { plainContext with codeowners := some contents }

theorem ownersContext_binds (contents : String) (protection : Option BranchProtectionRule) :
    (ownersContext contents).Binds protection := fun _ _ admin => nomatch admin

/-- Somebody's approval alone is in effect on another's pull request. -/
theorem lone_effective (other : eqIgnoreAsciiCase author prAuthor = false) :
    review ∈ effectiveReviewsForPullRequestWith [headApproval author] (filesPull prAuthor files) reach ↔
      review = headApproval author := by
  have withdrawn : withdrawnVerdicts [headApproval author] = [] := rfl
  have admins : dismissingAdmins [headApproval author] = [] := rfl
  have counts : reviewAction [] [] (some prAuthor) (headApproval author) = .put (headApproval author) := by
    unfold reviewAction
    simp [headApproval, demoReview, other]
  have scope : inScope "2222" rewrittenDiff reach (headApproval author) = true := rfl
  have verdict (name : String) : verdictOf [headApproval author] (filesPull prAuthor files) reach name =
      if author = name then some (headApproval author) else none := by
    unfold verdictOf
    rw [withdrawn, admins]
    show standing Review.author (reviewAction [] [] (some prAuthor))
      ([headApproval author].filter (inScope "2222" rewrittenDiff reach)) name = _
    rw [List.filter_cons_of_pos scope]
    show (if author = name then (reviewAction [] [] (some prAuthor) (headApproval author)).apply none
      else none) = _
    rw [counts]
    rfl
  rw [mem_effective, verdict]
  constructor
  · intro found
    split at found
    · exact (Option.some.inj found).symm
    · cases found
  · rintro rfl
    exact if_pos rfl

/-- Somebody can approve on somebody else's pull request. -/
theorem exists_other (author : String) : ∃ prAuthor, eqIgnoreAsciiCase author prAuthor = false := by
  by_cases same : eqIgnoreAsciiCase author "a" = true
  · refine ⟨"b", Bool.eq_false_iff.mpr fun also => ?_⟩
    have clash := (decide_eq_true_eq.mp same).symm.trans (decide_eq_true_eq.mp also)
    have apart : toAsciiLowercase "a" ≠ toAsciiLowercase "b" := by decide +kernel
    exact apart clash
  · exact ⟨"a", Bool.eq_false_iff.mpr same⟩

end Lone

section Exact

variable {contents : String} {files : List String}

/-- The gate is exact on changes to `files`, whatever the reviews and the rule. -/
def GateExact (contents : String) (files : List String) : Prop :=
  ∀ (rule : BranchProtectionRule) (pr : PullRequest) (reviews : List Review)
    (statuses : List CommitStatus) (checkRuns : List CheckRun) (requestedSha : Option String)
    (context : EvaluationContext), pr.changedFiles = files → context.codeowners = some contents →
    context.Binds (some rule) →
    OwnersExact contents files (effectiveReviewsForPullRequestWith reviews pr (.forRule (some rule)))
      (evaluateBranchProtectionWith pr (some rule) reviews statuses checkRuns requestedSha
        context).blockers

/-- What an exact gate finds wanting in a changed file is what is. -/
theorem GateExact.wanting (exact : GateExact contents files) {author : String}
    {reviews : List Review} {path : String} (changed : path ∈ files) :
    Wanting contents (effectiveReviewsForPullRequestWith reviews (filesPull author files)
        (.forRule (some (carryingRule false)))) path ↔
      Unapproved contents (effectiveReviewsForPullRequestWith reviews (filesPull author files)
        (.forRule (some (carryingRule false)))) path := by
  have binds := ownersContext_binds contents (some (carryingRule false))
  have given : (ownersContext contents).codeowners = some contents := rfl
  have gate := exact (carryingRule false) (filesPull author files) reviews [] [] none
    (ownersContext contents) rfl rfl binds
  constructor
  · intro wants
    have changes : path ∈ (filesPull author files).changedFiles := changed
    obtain ⟨paths, owners, raised⟩ := codeOwnerBlockers_raises changes wants
    obtain ⟨wanting, -, listed, same, -⟩ := mem_codeOwnerBlockers raised
    have inside : path ∈ paths := by
      rw [same, mem_sortedSet]
      exact (listed path).mpr ⟨changed, wants⟩
    exact (((gate.paths paths owners ((owner_mem_blockers binds given).mpr raised)).2 path).mp inside).2
  · intro unapproved
    obtain ⟨paths, owners, raised⟩ := gate.raised.mpr ⟨path, changed, unapproved⟩
    have inside := ((gate.paths paths owners raised).2 path).mpr ⟨changed, unapproved⟩
    obtain ⟨wanting, -, listed, rfl, -⟩ :=
      mem_codeOwnerBlockers ((owner_mem_blockers binds given).mp raised)
    exact ((listed path).mp (mem_sortedSet.mp inside)).2

theorem commentIdle_of_exact (exact : GateExact contents files) {path : String}
    (changed : path ∈ files) : CommentIdle contents path := by
  intro line owners decides owner commented
  by_contra other
  have found : owner ∈ (CodeOwners.parse contents).ownersFor path := by
    rw [ownersFor_of_decides decides]
    exact List.mem_append_right _ commented
  by_cases none : owners = []
  · -- A line without owners asks for nobody, and the code asks for those of the comment.
    have wants : Wanting contents (effectiveReviewsForPullRequestWith [] (filesPull "a" files)
        (.forRule (some (carryingRule false)))) path :=
      ⟨List.ne_nil_of_mem found, fun review inside => nomatch inside⟩
    obtain ⟨line', named, decides', some_, -⟩ := (exact.wanting changed).mp wants
    rw [(decides.unique decides').2] at some_
    exact some_ none
  · -- Somebody of the comment approves, whom the line does not name.
    obtain ⟨prAuthor, apart⟩ := exists_other owner
    have unapproved : Unapproved contents (effectiveReviewsForPullRequestWith [headApproval owner]
        (filesPull prAuthor files) (.forRule (some (carryingRule false)))) path := by
      refine ⟨line, owners, decides, none, fun review inside _ => ?_⟩
      rw [(lone_effective apart).mp inside]
      exact other
    have wants := (exact.wanting changed).mpr unapproved
    exact wants.2 _ ((lone_effective apart).mpr rfl) rfl found

/-- The gate is exact on changes to some files exactly where the comments of the lines that decide
    on them name nobody new. -/
theorem owner_gate_exact_iff (contents : String) (files : List String) :
    GateExact contents files ↔ ∀ path ∈ files, CommentIdle contents path := by
  constructor
  · exact fun exact path changed => commentIdle_of_exact exact changed
  · intro idle rule pr reviews statuses checkRuns requestedSha context same given binds
    exact ownersExact_of_idle idle same given binds

/-- `docs/` is for `alice`, says a line with a comment about `bob`. -/
theorem comment_decides : Decides "docs/ @alice # not @bob\n" "docs/a.md" "docs/ @alice # not @bob"
    ["alice"] where
  last := ⟨[], [], by decide +kernel, fun later none => nomatch none⟩
  covers := ⟨"docs/", ⟨["@alice"], by decide +kernel, by decide +kernel⟩,
    globMatch_iff.mp (by decide +kernel)⟩

/-- `bob` can approve in the place of `alice`. -/
theorem not_owner_gate_exact : ¬∀ (contents : String) (files : List String),
    GateExact contents files := by
  intro always
  have gate := always "docs/ @alice # not @bob\n" ["docs/a.md"] (carryingRule false)
    (filesPull "carol" ["docs/a.md"]) [headApproval "bob"] [] [] none
    (ownersContext "docs/ @alice # not @bob\n") rfl rfl (ownersContext_binds _ _)
  have clear : (evaluateBranchProtectionWith (filesPull "carol" ["docs/a.md"])
      (some (carryingRule false)) [headApproval "bob"] [] [] none
      (ownersContext "docs/ @alice # not @bob\n")).blockers = [] := by
    decide +kernel
  have apart : eqIgnoreAsciiCase "bob" "carol" = false := by decide +kernel
  have unapproved : ∃ path ∈ ["docs/a.md"], Unapproved "docs/ @alice # not @bob\n"
      (effectiveReviewsForPullRequestWith [headApproval "bob"] (filesPull "carol" ["docs/a.md"])
        (.forRule (some (carryingRule false)))) path := by
    refine ⟨"docs/a.md", List.mem_singleton_self _, _, _, comment_decides, by simp, ?_⟩
    intro review inside _
    rw [(lone_effective apart).mp inside]
    decide +kernel
  obtain ⟨paths, owners, raised⟩ := gate.raised.mpr unapproved
  rw [clear] at raised
  cases raised

end Exact

end Jeryu.Core
