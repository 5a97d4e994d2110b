import Jeryu.Core.Reviews

/-!
What the review rows of a pull request mean. A verdict stands in a scope when it counts and
no later row of its reviewer in that scope displaces it; the reduction of the gate computes
exactly the standing verdicts.
-/

namespace Jeryu.Core

open KeyedMap KeyedFold Text

/-- What the gate reads of a review row. -/
structure Verdict where
  id : Uuid
  author : String
  state : ReviewState
  headSha : Option String
  headPatchIds : List String
  dismissedReviewId : Option Uuid
  dismissalAuthority : Option DismissalAuthority

def Review.verdict (review : Review) : Verdict where
  id := review.id
  author := review.author
  state := review.state
  headSha := review.headSha
  headPatchIds := review.headPatchIds
  dismissedReviewId := review.dismissedReviewId
  dismissalAuthority := review.dismissalAuthority

/-- The rows of one pull request, oldest first. -/
abbrev Ledger := List Verdict

def ledgerOf (reviews : List Review) : Ledger := reviews.map Review.verdict

namespace Ledger

variable {ledger ledger' : Ledger} {prAuthor : Option String} {scope scope' : Verdict → Prop}
variable {verdict : Verdict}

/-- Withdrawn by its reviewer or by an administrator, at every head. -/
def Withdrawn (ledger : Ledger) (id : Uuid) : Prop :=
  ∃ dismissal ∈ ledger, dismissal.state = .dismissed ∧ dismissal.headSha.isSome = true ∧
    dismissal.dismissedReviewId = some id ∧ ∃ target ∈ ledger, target.id = id ∧
      (target.author = dismissal.author ∨ dismissal.dismissalAuthority = some .repositoryAdmin)

/-- An administrator's dismissal of somebody else's verdict. -/
def CrossAuthor (ledger : Ledger) (dismissal : Verdict) : Prop :=
  dismissal.state = .dismissed ∧ dismissal.headSha.isSome = true ∧
    dismissal.dismissalAuthority = some .repositoryAdmin ∧
    ∃ id, dismissal.dismissedReviewId = some id ∧
      ∃ target ∈ ledger, target.id = id ∧ target.author ≠ dismissal.author

/-- Who dismissed somebody else's verdict approves nothing here any more. -/
def Barred (ledger : Ledger) (login : String) : Prop :=
  ∃ dismissal ∈ ledger, ledger.CrossAuthor dismissal ∧
    toAsciiLowercase dismissal.author = toAsciiLowercase login

/-- Whether the row is a verdict the gate may count. -/
def Counts (ledger : Ledger) (prAuthor : Option String) (verdict : Verdict) : Prop :=
  ¬ledger.Withdrawn verdict.id ∧ (verdict.state = .changesRequested ∨
    (verdict.state = .approved ∧ ¬ledger.Barred verdict.author ∧
      ∀ login, prAuthor = some login → eqIgnoreAsciiCase verdict.author login = false))

def Clears (dismissal verdict : Verdict) : Prop :=
  match dismissal.dismissedReviewId with
  | some target => target = verdict.id
  | none => verdict.state = .approved

/-- Whether a later row of the same reviewer takes the verdict's place. -/
def Displaces (ledger : Ledger) (prAuthor : Option String) (later verdict : Verdict) : Prop :=
  ledger.Withdrawn later.id ∨ ledger.Counts prAuthor later ∨
    (later.state = .dismissed ∧ Clears later verdict)

def Stands (ledger : Ledger) (scope : Verdict → Prop) (prAuthor : Option String)
    (verdict : Verdict) : Prop :=
  ∃ before after, ledger = before ++ verdict :: after ∧ scope verdict ∧
    ledger.Counts prAuthor verdict ∧
    ∀ later ∈ after, scope later → later.author = verdict.author →
      ¬ledger.Displaces prAuthor later verdict

theorem Withdrawn.mono {id : Uuid} (withdrawn : ledger.Withdrawn id) (sub : ledger ⊆ ledger') :
    ledger'.Withdrawn id := by
  obtain ⟨dismissal, member, dismissed, here, targeted, target, stored, same, may⟩ := withdrawn
  exact ⟨dismissal, sub member, dismissed, here, targeted, target, sub stored, same, may⟩

theorem CrossAuthor.mono {dismissal : Verdict} (cross : ledger.CrossAuthor dismissal)
    (sub : ledger ⊆ ledger') : ledger'.CrossAuthor dismissal := by
  obtain ⟨dismissed, here, admin, id, targeted, target, stored, same, other⟩ := cross
  exact ⟨dismissed, here, admin, id, targeted, target, sub stored, same, other⟩

theorem Barred.mono {login : String} (barred : ledger.Barred login) (sub : ledger ⊆ ledger') :
    ledger'.Barred login := by
  obtain ⟨dismissal, member, cross, same⟩ := barred
  exact ⟨dismissal, sub member, cross.mono sub, same⟩

/-- A withdrawn verdict counts nowhere. -/
theorem Stands.not_withdrawn (stands : ledger.Stands scope prAuthor verdict) :
    ¬ledger.Withdrawn verdict.id := by
  obtain ⟨-, -, -, -, counts, -⟩ := stands
  exact counts.1

/-- What counts with more rows known, and with an author excluded, counted before. -/
theorem Counts.mono (counts : ledger'.Counts prAuthor verdict) (sub : ledger ⊆ ledger')
    {author : Option String} (fewer : ∀ login, author = some login → prAuthor = some login) :
    ledger.Counts author verdict := by
  obtain ⟨standing, verdict⟩ := counts
  refine ⟨fun withdrawn => standing (withdrawn.mono sub), verdict.imp_right fun ⟨approved, free, other⟩ => ?_⟩
  exact ⟨approved, fun barred => free (barred.mono sub), fun login same => other login (fewer login same)⟩

/-- Where a verdict of the first rows stands among all of them, in the first rows alone. -/
theorem Stands.split {later : Ledger} (nodup : ((ledger ++ later).map Verdict.id).Nodup)
    (stands : (ledger ++ later).Stands scope prAuthor verdict) (member : verdict ∈ ledger) :
    ∃ before after, ledger = before ++ verdict :: after ∧ scope verdict ∧
      (ledger ++ later).Counts prAuthor verdict ∧
      ∀ row ∈ after ++ later, scope row → row.author = verdict.author →
        ¬(ledger ++ later).Displaces prAuthor row verdict := by
  obtain ⟨before, after, split, here, counts, clear⟩ := stands
  obtain ⟨before', after', place⟩ := List.append_of_mem member
  have whole : before ++ verdict :: after = before' ++ verdict :: (after' ++ later) := by
    rw [← split, place]
    simp
  have once : verdict ∉ before ∧ verdict ∉ after := by
    have distinct := nodup.of_map
    rw [split, List.nodup_append] at distinct
    exact ⟨fun here => distinct.2.2 _ here _ (by simp) rfl, (List.nodup_cons.mp distinct.2.1).1⟩
  obtain ⟨rfl, -, rfl⟩ := (List.append_cons_inj_of_notMem once.1 once.2).mp whole
  exact ⟨before, after', place, here, counts, clear⟩

/-- An approval that stands among more rows stood before, in any scope it was in that is no
    wider, and with no author excluded. -/
theorem Stands.approved_of_append {later : Ledger}
    (nodup : ((ledger ++ later).map Verdict.id).Nodup)
    (stands : (ledger ++ later).Stands scope' prAuthor verdict) (member : verdict ∈ ledger)
    (approved : verdict.state = .approved) (here : scope verdict)
    (narrower : ∀ row, scope row → scope' row) : ledger.Stands scope none verdict := by
  obtain ⟨before, after, place, _, counts, clear⟩ := stands.split nodup member
  have sub : ledger ⊆ ledger ++ later := List.subset_append_left _ _
  refine ⟨before, after, place, here, counts.mono sub (by simp), fun row inside seen same displaces => ?_⟩
  refine clear row (List.mem_append_left _ inside) (narrower row seen) same ?_
  rcases displaces with withdrawn | counted | cleared
  · exact .inl (withdrawn.mono sub)
  · -- The two rows have one reviewer: what the first approval passed, this row passes.
    by_cases gone : (ledger ++ later).Withdrawn row.id
    · exact .inl gone
    · refine .inr (.inl ⟨gone, counted.2.imp_right fun ⟨approval, _, _⟩ => ?_⟩)
      rcases counts.2 with requested | ⟨-, free, other⟩
      · rw [approved] at requested
        cases requested
      · rw [same]
        exact ⟨approval, free, other⟩
  · exact .inr (.inr cleared)

/-- A verdict that stands among more rows stood before, if the approvals of everyone the new
    rows bar are withdrawn. -/
theorem Stands.of_append {later : Ledger} (nodup : ((ledger ++ later).map Verdict.id).Nodup)
    (stands : (ledger ++ later).Stands scope prAuthor verdict) (member : verdict ∈ ledger)
    (bars : ∀ row ∈ ledger, row.state = .approved → (ledger ++ later).Barred row.author →
      ledger.Barred row.author ∨ (ledger ++ later).Withdrawn row.id) :
    ledger.Stands scope prAuthor verdict := by
  obtain ⟨before, after, place, here, counts, clear⟩ := stands.split nodup member
  have sub : ledger ⊆ ledger ++ later := List.subset_append_left _ _
  refine ⟨before, after, place, here, counts.mono sub fun _ same => same,
    fun row inside seen same displaces => ?_⟩
  refine clear row (List.mem_append_left _ inside) seen same ?_
  rcases displaces with withdrawn | counted | cleared
  · exact .inl (withdrawn.mono sub)
  · by_cases gone : (ledger ++ later).Withdrawn row.id
    · exact .inl gone
    · refine .inr (.inl ⟨gone, counted.2.imp_right fun ⟨approval, free, other⟩ => ?_⟩)
      have stored : row ∈ ledger := by
        rw [place]
        simp [inside]
      exact ⟨approval, fun barred => (bars row stored approval barred).elim free gone, other⟩
  · exact .inr (.inr cleared)

end Ledger

/-- The rows that speak for a head with that diff identity. -/
def InScope (headSha : String) (headPatchIds : List String) (reach : VerdictReach)
    (verdict : Verdict) : Prop :=
  verdict.headSha = some headSha ∨
    (carriesUnchangedDiff headPatchIds reach = true ∧ verdict.headPatchIds = headPatchIds)

section Reduction

variable {reviews : List Review} {review : Review} {headSha : String} {headPatchIds : List String}
variable {reach : VerdictReach} {prAuthor : Option String}

theorem inScope_iff :
    inScope headSha headPatchIds reach review = true ↔
      InScope headSha headPatchIds reach review.verdict := by
  simp [inScope, InScope, Review.verdict]

theorem mem_ledgerOf {verdict : Verdict} :
    verdict ∈ ledgerOf reviews ↔ ∃ review ∈ reviews, review.verdict = verdict := List.mem_map

theorem mem_withdrawnVerdicts {id : Uuid} :
    id ∈ withdrawnVerdicts reviews ↔ (ledgerOf reviews).Withdrawn id := by
  constructor
  · intro member
    obtain ⟨dismissal, kept, targeted⟩ := List.mem_filterMap.mp member
    obtain ⟨stored, dismissed⟩ := List.mem_filter.mp kept
    obtain ⟨same, found⟩ := Option.filter_eq_some_iff.mp targeted
    obtain ⟨target, known, fits⟩ := List.any_eq_true.mp found
    simp only [Bool.and_eq_true, Bool.or_eq_true, decide_eq_true_eq, beq_iff_eq] at dismissed fits
    exact ⟨dismissal.verdict, List.mem_map_of_mem stored, dismissed.1, dismissed.2, same,
      target.verdict, List.mem_map_of_mem known, fits.1, fits.2⟩
  · rintro ⟨_, stored, dismissed, here, same, _, known, fits, may⟩
    obtain ⟨dismissal, row, rfl⟩ := mem_ledgerOf.mp stored
    obtain ⟨target, aim, rfl⟩ := mem_ledgerOf.mp known
    refine List.mem_filterMap.mpr ⟨dismissal, List.mem_filter.mpr ⟨row, ?_⟩, ?_⟩
    · simpa using ⟨dismissed, here⟩
    · refine Option.filter_eq_some_iff.mpr ⟨same, List.any_eq_true.mpr ⟨target, aim, ?_⟩⟩
      simpa using ⟨fits, may⟩

theorem isCrossAuthorDismissal_iff :
    isCrossAuthorDismissal reviews review = true ↔
      (ledgerOf reviews).CrossAuthor review.verdict := by
  have others (id : Uuid) :
      (reviews.any fun row => row.id == id && row.author != review.author) = true ↔
        ∃ target ∈ ledgerOf reviews, target.id = id ∧ target.author ≠ review.author := by
    simp [ledgerOf, Review.verdict]
  simp only [isCrossAuthorDismissal, Bool.and_eq_true, decide_eq_true_eq, Option.any_eq_true,
    Ledger.CrossAuthor, Review.verdict, others, and_assoc]

theorem mem_dismissingAdmins {login : String} :
    toAsciiLowercase login ∈ dismissingAdmins reviews ↔ (ledgerOf reviews).Barred login := by
  constructor
  · intro member
    obtain ⟨dismissal, kept, same⟩ := List.mem_map.mp member
    obtain ⟨stored, cross⟩ := List.mem_filter.mp kept
    exact ⟨dismissal.verdict, List.mem_map_of_mem stored, isCrossAuthorDismissal_iff.mp cross, same⟩
  · rintro ⟨_, stored, cross, same⟩
    obtain ⟨dismissal, row, rfl⟩ := mem_ledgerOf.mp stored
    exact List.mem_map.mpr ⟨dismissal,
      List.mem_filter.mpr ⟨row, isCrossAuthorDismissal_iff.mpr cross⟩, same⟩

theorem selfApproval_iff :
    prAuthor.any (eqIgnoreAsciiCase review.author) = false ↔
      ∀ login, prAuthor = some login → eqIgnoreAsciiCase review.author login = false := by
  cases prAuthor <;> simp

theorem reviewAction_put {value : Review} :
    reviewAction (withdrawnVerdicts reviews) (dismissingAdmins reviews) prAuthor review = .put value ↔
      value = review ∧ (ledgerOf reviews).Counts prAuthor review.verdict := by
  have withdrawn : _ ↔ (ledgerOf reviews).Withdrawn review.id := mem_withdrawnVerdicts
  have barred : _ ↔ (ledgerOf reviews).Barred review.author := mem_dismissingAdmins
  have self := @selfApproval_iff review prAuthor
  simp only [reviewAction, Ledger.Counts, Review.verdict, ← withdrawn, ← barred, ← self,
    List.contains_iff_mem]
  cases review.state <;> by_cases gone : review.id ∈ withdrawnVerdicts reviews <;>
    by_cases out : toAsciiLowercase review.author ∈ dismissingAdmins reviews <;>
    cases prAuthor.any (eqIgnoreAsciiCase review.author) <;>
    simp [gone, out, eq_comm]

theorem clears_iff {later : Review} :
    clears later review = true ↔ Ledger.Clears later.verdict review.verdict := by
  unfold clears Ledger.Clears
  cases target : later.dismissedReviewId <;> simp [Review.verdict, target]

/-- A row leaves another row in its place exactly when it does not displace it. -/
theorem reviewAction_leaves {later : Review} (different : later ≠ review) :
    (reviewAction (withdrawnVerdicts reviews) (dismissingAdmins reviews) prAuthor later).Leaves
      review ↔ ¬(ledgerOf reviews).Displaces prAuthor later.verdict review.verdict := by
  have counts : _ ↔ later = later ∧ (ledgerOf reviews).Counts prAuthor later.verdict :=
    reviewAction_put
  have withdrawn : _ ↔ (ledgerOf reviews).Withdrawn later.id := mem_withdrawnVerdicts
  simp only [true_and] at counts
  have gone : later.verdict.id = later.id := rfl
  have event : later.verdict.state = later.state := rfl
  simp only [Ledger.Displaces, ← counts, ← clears_iff, gone, ← withdrawn, event]
  simp only [reviewAction, List.contains_iff_mem]
  by_cases out : later.id ∈ withdrawnVerdicts reviews
  · simp [out]
  · cases verdict : later.state with
    | approved =>
      by_cases barred : toAsciiLowercase later.author ∈ dismissingAdmins reviews <;>
        cases prAuthor.any (eqIgnoreAsciiCase later.author) <;> simp [out, barred, different]
    | changesRequested => simp [out, different]
    | commented => simp [out]
    | dismissed => simp [out]

theorem reduceReviews_lookup {key : String} :
    ((reviews.filter (inScope headSha headPatchIds reach)).foldl (reduceReview
      (withdrawnVerdicts reviews) (dismissingAdmins reviews) prAuthor) ∅).lookup key =
      standing Review.author
        (reviewAction (withdrawnVerdicts reviews) (dismissingAdmins reviews) prAuthor)
        (reviews.filter (inScope headSha headPatchIds reach)) key := by
  have step : reduceReview (withdrawnVerdicts reviews) (dismissingAdmins reviews) prAuthor =
      fun latest row => applyAt latest row.author
        (reviewAction (withdrawnVerdicts reviews) (dismissingAdmins reviews) prAuthor row) := by
    funext latest row
    exact reduceReview_eq_applyAt ..
  rw [step, lookup_foldl_applyAt]

/-- A verdict in scope of the gate, where it stands in the whole list. -/
theorem filter_split {before after : List Review}
    (split : reviews.filter (inScope headSha headPatchIds reach) = before ++ review :: after) :
    ∃ earlier later, reviews = earlier ++ review :: later ∧
      inScope headSha headPatchIds reach review = true ∧
      later.filter (inScope headSha headPatchIds reach) = after := by
  obtain ⟨left, right, rfl, -, rest⟩ := List.filter_eq_append_iff.mp split
  obtain ⟨skipped, later, rfl, -, here, after⟩ := List.filter_eq_cons_iff.mp rest
  exact ⟨left ++ skipped, later, by simp, here, after⟩

theorem ne_of_later {earlier later : List Review} {row : Review}
    (nodup : ((earlier ++ review :: later).map Review.id).Nodup) (member : row ∈ later) :
    row ≠ review := by
  rintro rfl
  simp only [List.map_append, List.map_cons, List.nodup_append] at nodup
  exact (List.nodup_cons.mp nodup.2.1).1 (List.mem_map_of_mem member)

/-- The gate counts exactly the verdicts that stand. -/
theorem mem_reduceReviews_iff (nodup : (reviews.map Review.id).Nodup) :
    review ∈ reduceReviews reviews headSha headPatchIds reach prAuthor ↔
      review ∈ reviews ∧ (ledgerOf reviews).Stands (InScope headSha headPatchIds reach) prAuthor
        review.verdict := by
  have unique {row : Review} (member : row ∈ reviews) (stored : review ∈ reviews)
      (same : row.id = review.id) : row = review :=
    List.inj_on_of_nodup_map nodup member stored same
  unfold reduceReviews
  rw [List.mem_insertionSort, HashMap.mem_values]
  simp only [reduceReviews_lookup, standing_eq_some_iff]
  constructor
  · rintro ⟨author, before, event, after, split, rfl, put, left⟩
    obtain ⟨rfl, counts⟩ := reviewAction_put.mp put
    obtain ⟨earlier, later, rfl, here, rfl⟩ := filter_split split
    refine ⟨by simp, earlier.map Review.verdict, later.map Review.verdict, by simp [ledgerOf],
      inScope_iff.mp here, counts, fun row member seen same => ?_⟩
    obtain ⟨row, stored, rfl⟩ := List.mem_map.mp member
    exact (reviewAction_leaves (ne_of_later nodup stored)).mp
      (left row (List.mem_filter.mpr ⟨stored, inScope_iff.mpr seen⟩) same)
  · rintro ⟨member, before, after, split, here, counts, clear⟩
    obtain ⟨earlier, rest, rfl, rfl, tail⟩ := List.map_eq_append_iff.mp split
    obtain ⟨row, later, rfl, same, rfl⟩ := List.map_eq_cons_iff.mp tail
    obtain rfl := unique (by simp) member (congrArg Verdict.id same)
    refine ⟨row.author, earlier.filter (inScope headSha headPatchIds reach), row,
      later.filter (inScope headSha headPatchIds reach), ?_, rfl, reviewAction_put.mpr ⟨rfl, counts⟩,
      fun next found author => ?_⟩
    · rw [List.filter_append, List.filter_cons_of_pos (inScope_iff.mpr here)]
    · obtain ⟨stored, seen⟩ := List.mem_filter.mp found
      exact (reviewAction_leaves (ne_of_later nodup stored)).mpr
        (clear next.verdict (List.mem_map_of_mem stored) (inScope_iff.mp seen) author)

theorem reduceReviews_nodup :
    ((reduceReviews reviews headSha headPatchIds reach prAuthor).map Review.author).Nodup := by
  unfold reduceReviews
  rw [((List.perm_insertionSort _ _).map Review.author).nodup_iff]
  refine HashMap.nodup_values fun author review found => ?_
  rw [reduceReviews_lookup, standing_eq_some_iff] at found
  obtain ⟨before, event, after, split, own, put, left⟩ := found
  obtain ⟨rfl, counts⟩ := reviewAction_put.mp put
  exact own

/-- One entry for each reviewer with a standing verdict, that verdict, and no other entry. -/
structure Reduces (reviews : List Review) (scope : Verdict → Prop) (prAuthor : Option String)
    (effective : List Review) : Prop where
  once : (effective.map Review.author).Nodup
  standing : ∀ review, review ∈ effective ↔
    review ∈ reviews ∧ (ledgerOf reviews).Stands scope prAuthor review.verdict

theorem reduce_reviews_declarative (nodup : (reviews.map Review.id).Nodup) :
    Reduces reviews (InScope headSha headPatchIds reach) prAuthor
      (reduceReviews reviews headSha headPatchIds reach prAuthor) where
  once := reduceReviews_nodup
  standing _ := mem_reduceReviews_iff nodup

def demoReview (id : Uuid) (author : String) (state : ReviewState) (target : Option Uuid) : Review where
  id := id
  owner := "acme"
  repo := "demo"
  pullNumber := 1
  author := author
  state := state
  body := none
  headSha := some "1111"
  headPatchIds := []
  dismissedReviewId := target
  dismissalAuthority := target.map fun _ => .repositoryAdmin
  submittedAt := 0

/-- An approval of the author's own, one that an administrator withdraws, the administrator's own,
    and two verdicts of one more reviewer. -/
def demoReviews : List Review :=
  [demoReview 0 "Alice" .approved none, demoReview 1 "bob" .approved none,
    demoReview 2 "carol" .approved none, demoReview 3 "root" .dismissed (some 1),
    demoReview 4 "ROOT" .approved none, demoReview 5 "carol" .changesRequested none,
    demoReview 6 "carol" .commented none]

theorem reduce_reviews_demo :
    (reduceReviews demoReviews "1111" [] .exactHead (some "alice")).map Review.id = [5] ∧
    Reduces demoReviews (InScope "1111" [] .exactHead) (some "alice")
      (reduceReviews demoReviews "1111" [] .exactHead (some "alice")) :=
  ⟨by decide +kernel, reduce_reviews_declarative (by decide)⟩

/-- A row that is still there among more rows is still the same verdict. -/
theorem verdict_of_grown {rows : List Review} {row : Review} {later : Ledger}
    (nodup : (rows.map Review.id).Nodup) (grown : ledgerOf rows = ledgerOf reviews ++ later)
    (stored : review ∈ reviews) (member : row ∈ rows) (same : row.id = review.id) :
    row.verdict = review.verdict := by
  have kept : review.verdict ∈ ledgerOf rows := by
    rw [grown]
    exact List.mem_append_left _ (List.mem_map_of_mem stored)
  obtain ⟨twin, member', equal⟩ := mem_ledgerOf.mp kept
  have ids : twin.id = row.id := (congrArg Verdict.id equal).trans same.symm
  rw [← List.inj_on_of_nodup_map nodup member' member ids, equal]

theorem nodup_of_grown {rows : List Review} {later : Ledger} (nodup : (rows.map Review.id).Nodup)
    (grown : ledgerOf rows = ledgerOf reviews ++ later) :
    ((ledgerOf reviews ++ later).map Verdict.id).Nodup := by
  rw [← grown, ledgerOf, List.map_map]
  exact nodup

end Reduction

end Jeryu.Core
