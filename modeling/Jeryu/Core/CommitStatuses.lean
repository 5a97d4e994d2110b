import Mathlib.Data.List.Dedup
import Jeryu.Core.Accounts
import Jeryu.Core.Evaluate
import Jeryu.Library.Latest

/-!
How the statuses of a commit answer for a base, one required context at a time and rolled up.
-/

namespace Jeryu.Core

open KeyedMap HashMap Latest LockProgram Text

section Current

variable {rows : List CommitStatus} {row : CommitStatus} {context base : String}

/-- Whether the row is of the context and speaks for a merge into the base. -/
def CommitStatus.speaks (context base : String) (row : CommitStatus) : Bool :=
  row.context == context && statusAnswersForBase row base

theorem currentStatusForBase_eq (rows : List CommitStatus) (context base : String) :
    currentStatusForBase rows context base =
      latest CommitStatus.updatedAt (rows.filter (CommitStatus.speaks context base)) := by
  unfold currentStatusForBase latest
  generalize (none : Option CommitStatus) = current
  induction rows generalizing current with
  | nil => rfl
  | cons row rest ih =>
    have speaks : row.speaks context base =
        !(row.context != context || !statusAnswersForBase row base) := by
      simp [CommitStatus.speaks, bne]
    cases skipped : (row.context != context || !statusAnswersForBase row base) with
    | false =>
      rw [skipped] at speaks
      rw [List.foldl_cons, List.filter_cons_of_pos speaks, List.foldl_cons, skipped]
      cases current with
      | none => exact ih (some row)
      | some seen =>
        rw [← ih]
        simp only [Bool.false_eq_true, if_false, pick]
    | true =>
      rw [skipped] at speaks
      rw [List.foldl_cons, List.filter_cons_of_neg (by rw [speaks]; simp), skipped]
      exact ih current

theorem speaks_iff :
    row.speaks context base = true ↔ row.context = context ∧ statusAnswersForBase row base = true := by
  simp [CommitStatus.speaks]

theorem answers_iff : statusAnswersForBase row base = true ↔ row.base = none ∨
    ∃ own, row.base = some own ∧ normalizeBaseRef own = normalizeBaseRef base ∧
      normalizeBaseRef base ≠ "" := by
  unfold statusAnswersForBase
  cases row.base with
  | none => simp
  | some own => simp [and_comm]

theorem current_speaks (found : currentStatusForBase rows context base = some row) :
    row ∈ rows ∧ row.context = context ∧ statusAnswersForBase row base = true := by
  rw [currentStatusForBase_eq] at found
  obtain ⟨member, speaks⟩ := List.mem_filter.mp (latest_mem found)
  exact ⟨member, speaks_iff.mp speaks⟩

theorem current_eq_none : currentStatusForBase rows context base = none ↔
    ∀ row ∈ rows, row.context = context → statusAnswersForBase row base = false := by
  rw [currentStatusForBase_eq, latest_eq_none, List.filter_eq_nil_iff]
  simp [speaks_iff]

end Current

section Bases

variable {rows : List CommitStatus} {row : CommitStatus} {checkRuns : List CheckRun} {base : String}

/-- What one more row of a context means for the bases. -/
structure BasesApart (rows : List CommitStatus) (checkRuns : List CheckRun) (row : CommitStatus) :
    Prop where
  /-- Pinned to one base it leaves another base as it was, or takes a check run's answer away. -/
  pinned : ∀ own base, row.base = some own → normalizeBaseRef own ≠ normalizeBaseRef base →
    requiredContextState row.context (rows ++ [row]) checkRuns base =
        requiredContextState row.context rows checkRuns base ∨
      ((∀ other ∈ rows, other.context ≠ row.context) ∧
        requiredContextState row.context (rows ++ [row]) checkRuns base = .missing)
  /-- No other base turns green. -/
  green : ∀ own base, row.base = some own → normalizeBaseRef own ≠ normalizeBaseRef base →
    requiredContextState row.context (rows ++ [row]) checkRuns base = .satisfied →
    requiredContextState row.context rows checkRuns base = .satisfied
  /-- It is the answer for the bases it speaks for. -/
  answers : ∀ base, statusAnswersForBase row base = true →
    (∀ other ∈ rows, other.updatedAt ≤ row.updatedAt) →
    requiredContextState row.context (rows ++ [row]) checkRuns base =
      if row.state = .success then .satisfied else .failed

theorem current_pinned {own : String} (pinned : row.base = some own)
    (apart : normalizeBaseRef own ≠ normalizeBaseRef base) (context : String) :
    currentStatusForBase (rows ++ [row]) context base = currentStatusForBase rows context base := by
  have silent : statusAnswersForBase row base = false := by
    simp [statusAnswersForBase, pinned, apart]
  rw [currentStatusForBase_eq, currentStatusForBase_eq, List.filter_append]
  simp [CommitStatus.speaks, silent]

theorem required_pinned (checkRuns : List CheckRun) {own : String} (pinned : row.base = some own)
    (apart : normalizeBaseRef own ≠ normalizeBaseRef base) :
    requiredContextState row.context (rows ++ [row]) checkRuns base =
        requiredContextState row.context rows checkRuns base ∨
      ((∀ other ∈ rows, other.context ≠ row.context) ∧
        requiredContextState row.context (rows ++ [row]) checkRuns base = .missing) := by
  have current := @current_pinned rows row base own pinned apart row.context
  have marked : (rows ++ [row]).any (fun status =>
      status.context == row.context && status.base.isSome) = true := by simp [pinned]
  unfold requiredContextState
  rw [current, if_pos marked]
  cases found : currentStatusForBase rows row.context base with
  | some status => exact .inl rfl
  | none =>
    dsimp only
    by_cases pins : rows.any (fun status =>
        status.context == row.context && status.base.isSome) = true
    · exact .inl (if_pos pins).symm
    · refine .inr ⟨fun other member same => pins ?_, rfl⟩
      have silent := current_eq_none.mp found other member same
      refine List.any_eq_true.mpr ⟨other, member, ?_⟩
      cases stated : other.base with
      | none => simp [statusAnswersForBase, stated] at silent
      | some own => simp [same]

theorem bases_apart (rows : List CommitStatus) (checkRuns : List CheckRun) (row : CommitStatus) :
    BasesApart rows checkRuns row where
  pinned own base pinned apart := required_pinned checkRuns pinned apart
  green own base pinned apart green := by
    rcases required_pinned checkRuns pinned apart with same | ⟨-, missing⟩
    · exact same.symm.trans green
    · cases missing.symm.trans green
  answers base answers newest := by
    have current : currentStatusForBase (rows ++ [row]) row.context base = some row := by
      rw [currentStatusForBase_eq, List.filter_append,
        List.filter_cons_of_pos (speaks_iff.mpr ⟨rfl, answers⟩), List.filter_nil]
      exact latest_append fun other member => newest other (List.mem_of_mem_filter member)
    unfold requiredContextState
    rw [current]

end Bases

section Combined

structure CombinedStatus where
  state : CommitStatusState
  totalCount : Nat
  statuses : List CommitStatus

/-- The state of the current rows of several contexts. -/
def rollUp (current : List CommitStatus) : CommitStatusState :=
  if current.any fun status => status.state = .error then .error
  else if current.any fun status => status.state = .failure then .failure
  else if current.isEmpty || current.any fun status => status.state = .pending then .pending
  else .success

/-- One row of the history, into the current row of its context, whatever base it states. -/
def countStatus (current : HashMap String CommitStatus) (status : CommitStatus) :
    HashMap String CommitStatus :=
  let entry := (current.lookup status.context).getD status
  current.insert status.context (if status.updatedAt ≥ entry.updatedAt then status else entry)

def combinedOf (statuses : List CommitStatus) : CombinedStatus where
  state := rollUp (statuses.foldl countStatus ∅).values
  totalCount := statuses.length
  statuses := statuses

def combinedOfForBase (history : List CommitStatus) (base : String) : CombinedStatus :=
  let statuses := history.filter fun status => statusAnswersForBase status base
  let current := (sortedSet (statuses.map CommitStatus.context)).filterMap fun context =>
    currentStatusForBase statuses context base
  { state := rollUp current, totalCount := statuses.length, statuses }

def ForgeCore.statusesOf (core : ForgeCore) (owner repo sha : String) : List CommitStatus :=
  (core.state.statuses.lookup (owner, repo, sha)).getD []

def combinedStatus (owner repo sha : String) : Method CombinedStatus := do
  ensureRepoExists owner repo
  Method.reading fun core => .ok (combinedOf (core.statusesOf owner repo sha))

def combinedStatusForBase (owner repo sha base : String) : Method CombinedStatus := do
  ensureRepoExists owner repo
  Method.reading fun core => .ok (combinedOfForBase (core.statusesOf owner repo sha) base)

/-- Both answer of the history their last section finds. -/
theorem combinedStatus_ends (owner repo sha base : String) (core : ForgeCore) :
    Program.EndsFrom (fun _ _ => True)
        (fun core reply => ∀ combined, reply = .ok combined →
          combined = combinedOf (core.statusesOf owner repo sha))
        (combinedStatus owner repo sha).run core ∧
      Program.EndsFrom (fun _ _ => True)
        (fun core reply => ∀ combined, reply = .ok combined →
          combined = combinedOfForBase (core.statusesOf owner repo sha) base)
        (combinedStatusForBase owner repo sha base).run core := by
  constructor
  · exact (Method.ends_reading _ _ core).mono fun _ _ answers combined answered =>
      (Except.ok.inj (answers combined answered)).symm
  · exact (Method.ends_reading _ _ core).mono fun _ _ answers combined answered =>
      (Except.ok.inj (answers combined answered)).symm

end Combined

section Green

variable {rows : List CommitStatus} {row : CommitStatus} {context base : String}

theorem rollUp_success {current : List CommitStatus} :
    rollUp current = .success ↔ current ≠ [] ∧ ∀ status ∈ current, status.state = .success := by
  have four (state : CommitStatusState) : state = .success ↔
      state ≠ .error ∧ state ≠ .failure ∧ state ≠ .pending := by cases state <;> simp
  unfold rollUp
  constructor
  · intro green
    split at green
    · cases green
    · next clear =>
      split at green
      · cases green
      · next unfailed =>
        split at green
        · cases green
        · next settled =>
          simp only [List.any_eq_true, decide_eq_true_eq, not_exists, not_and, Bool.or_eq_true,
            List.isEmpty_iff, not_or] at clear unfailed settled
          refine ⟨settled.1, fun status member => (four _).mpr ?_⟩
          exact ⟨clear status member, unfailed status member, settled.2 status member⟩
  · rintro ⟨some, green⟩
    have none (state : CommitStatusState) (other : state ≠ .success) :
        (current.any fun status => status.state = state) = false := by
      simp only [List.any_eq_false, decide_eq_true_eq]
      exact fun status member same => other (same.symm.trans (green status member))
    rw [none .error (by decide), none .failure (by decide), none .pending (by decide)]
    simp [some]

theorem lookup_countStatus (current : HashMap String CommitStatus) (row : CommitStatus)
    (context : String) : (countStatus current row).lookup context =
      if context = row.context then pick CommitStatus.updatedAt (current.lookup context) row
      else current.lookup context := by
  unfold countStatus
  dsimp only
  rw [lookup_insert_if]
  by_cases own : context = row.context
  · subst own
    rw [if_pos rfl, if_pos rfl]
    cases current.lookup row.context with
    | none => simp [pick]
    | some seen =>
      simp only [pick, Option.getD_some]
      split <;> rfl
  · rw [if_neg own, if_neg own]

theorem lookup_counted (rows : List CommitStatus) (context : String) :
    (rows.foldl countStatus ∅).lookup context =
      latest CommitStatus.updatedAt (rows.filter fun row => row.context == context) := by
  induction rows using List.reverseRecOn with
  | nil => rfl
  | append_singleton rows row ih =>
    rw [List.foldl_append, List.foldl_cons, List.foldl_nil, List.filter_append, lookup_countStatus, ih]
    by_cases own : context = row.context
    · rw [if_pos own, List.filter_cons_of_pos (by simp [own]), List.filter_nil, latest_concat]
    · rw [if_neg own, List.filter_cons_of_neg (by simpa using fun same => own same.symm),
        List.filter_nil, List.append_nil]

/-- The combined status is green when there are rows and the latest one of each context is. -/
theorem combined_success : (combinedOf rows).state = .success ↔ rows ≠ [] ∧ ∀ context row,
    latest CommitStatus.updatedAt (rows.filter fun row => row.context == context) = some row →
      row.state = .success := by
  unfold combinedOf
  rw [rollUp_success]
  have listed (row : CommitStatus) : row ∈ (rows.foldl countStatus ∅).values ↔ ∃ context,
      latest CommitStatus.updatedAt (rows.filter fun row => row.context == context) = some row := by
    rw [mem_values]
    simp only [lookup_counted]
  have some : (rows.foldl countStatus ∅).values ≠ [] ↔ rows ≠ [] := by
    constructor
    · rintro filled rfl
      exact filled rfl
    · intro filled
      obtain ⟨row, rest, rfl⟩ := List.exists_cons_of_ne_nil filled
      cases found : latest CommitStatus.updatedAt
          ((row :: rest).filter fun other => other.context == row.context) with
      | none =>
        have none := latest_eq_none.mp found
        simp at none
      | some last => exact List.ne_nil_of_mem ((listed last).mpr ⟨row.context, found⟩)
  rw [some]
  simp only [listed]
  exact and_congr_right fun _ => ⟨fun green context row found => green row ⟨context, found⟩,
    fun green row ⟨context, found⟩ => green context row found⟩

/-- Only rows that answer for the base matter. -/
theorem current_answering (rows : List CommitStatus) (context base : String) :
    currentStatusForBase (rows.filter fun row => statusAnswersForBase row base) context base =
      currentStatusForBase rows context base := by
  rw [currentStatusForBase_eq, currentStatusForBase_eq, List.filter_filter]
  congr 2
  funext row
  simp only [CommitStatus.speaks]
  cases statusAnswersForBase row base <;> simp

theorem required_success {checkRuns : List CheckRun}
    (found : currentStatusForBase rows context base = some row) :
    (requiredContextState context rows checkRuns base = .satisfied ↔ row.state = .success) ∧
      (requiredContextState context rows checkRuns base = .failed ↔ row.state ≠ .success) := by
  unfold requiredContextState
  rw [found]
  by_cases green : row.state = .success <;> simp [green]

theorem exists_current (member : row ∈ rows) (answers : statusAnswersForBase row base = true) :
    ∃ last, currentStatusForBase rows row.context base = some last := by
  cases found : currentStatusForBase rows row.context base with
  | none =>
    have silent := current_eq_none.mp found row member rfl
    rw [silent] at answers
    cases answers
  | some last => exact ⟨last, rfl⟩

/-- A green rollup agrees with the merge gate. -/
structure GreenAgrees (rows : List CommitStatus) : Prop where
  green : (combinedOf rows).state = .success → ∀ checkRuns base, ∀ row ∈ rows,
    statusAnswersForBase row base = true →
      requiredContextState row.context rows checkRuns base ≠ .failed
  based : ∀ checkRuns base, (combinedOfForBase rows base).state = .success ↔
    (∃ row ∈ rows, statusAnswersForBase row base = true) ∧
      ∀ row ∈ rows, statusAnswersForBase row base = true →
        requiredContextState row.context rows checkRuns base = .satisfied

theorem based_agrees (rows : List CommitStatus) (checkRuns : List CheckRun) (base : String) :
    (combinedOfForBase rows base).state = .success ↔
      (∃ row ∈ rows, statusAnswersForBase row base = true) ∧
        ∀ row ∈ rows, statusAnswersForBase row base = true →
          requiredContextState row.context rows checkRuns base = .satisfied := by
  unfold combinedOfForBase
  dsimp only
  rw [rollUp_success]
  have listed (status : CommitStatus) : status ∈ (sortedSet ((rows.filter fun row =>
      statusAnswersForBase row base).map CommitStatus.context)).filterMap (fun context =>
        currentStatusForBase (rows.filter fun row => statusAnswersForBase row base) context base) ↔
      ∃ row ∈ rows, statusAnswersForBase row base = true ∧
        currentStatusForBase rows row.context base = some status := by
    simp only [List.mem_filterMap, sortedSet, List.mem_dedup, List.mem_insertionSort, List.mem_map,
      List.mem_filter, current_answering]
    constructor
    · rintro ⟨context, ⟨row, ⟨member, answers⟩, rfl⟩, found⟩
      exact ⟨row, member, answers, found⟩
    · rintro ⟨row, member, answers, found⟩
      exact ⟨row.context, ⟨row, ⟨member, answers⟩, rfl⟩, found⟩
  constructor
  · rintro ⟨filled, green⟩
    obtain ⟨status, rest, first⟩ := List.exists_cons_of_ne_nil filled
    have member := (listed status).mp (by rw [first]; exact List.mem_cons_self)
    obtain ⟨row, stored, answers, -⟩ := member
    refine ⟨⟨row, stored, answers⟩, fun row stored answers => ?_⟩
    obtain ⟨last, found⟩ := exists_current stored answers
    exact (required_success found).1.mpr (green last ((listed last).mpr ⟨row, stored, answers, found⟩))
  · rintro ⟨⟨row, stored, answers⟩, satisfied⟩
    obtain ⟨last, found⟩ := exists_current stored answers
    refine ⟨List.ne_nil_of_mem ((listed last).mpr ⟨row, stored, answers, found⟩), ?_⟩
    intro status member
    obtain ⟨other, stored, answers, found⟩ := (listed status).mp member
    exact (required_success found).1.mp (satisfied other stored answers)

/-- A row that is no success is the last of its context. -/
def FailureLast (rows : List CommitStatus) : Prop :=
  ∃ before row after, rows = before ++ row :: after ∧ row.state ≠ .success ∧
    ∀ next, Later CommitStatus.updatedAt before after row next → next.context ≠ row.context

/-- Each row that is no success and speaks for some base is followed, in its context, by a row that
    speaks for every base it speaks for. -/
def FailuresReplaced (rows : List CommitStatus) : Prop :=
  ∀ before row after, rows = before ++ row :: after → row.state ≠ .success →
    (∃ base, statusAnswersForBase row base = true) →
    ∃ next, Later CommitStatus.updatedAt before after row next ∧ next.context = row.context ∧
      ∀ base, statusAnswersForBase row base = true → statusAnswersForBase next base = true

theorem combined_success_iff :
    (combinedOf rows).state = .success ↔ rows ≠ [] ∧ ¬FailureLast rows := by
  rw [combined_success]
  refine and_congr_right fun _ => ⟨?_, fun none context row found => ?_⟩
  · rintro green ⟨before, row, after, rfl, failed, none⟩
    cases found : latest CommitStatus.updatedAt
        ((before ++ row :: after).filter fun other => other.context == row.context) with
    | none =>
      have none := latest_eq_none.mp found
      simp at none
    | some last =>
      have success := green row.context last found
      have own : last.context = row.context := by
        simpa using (List.mem_filter.mp (latest_mem found)).2
      rcases latest_filter_of_split found (by simp) with rfl | later
      · exact failed success
      · exact none last later own
  · obtain ⟨own, before, after, rfl, last⟩ := latest_filter_split found
    by_contra failed
    refine none ⟨before, row, after, rfl, failed, fun next later same => last next ?_ later⟩
    simpa [same] using own

theorem exists_beyond (names : List String) :
    ∃ bound, ∀ name ∈ names, name.toList.length ≤ bound := by
  induction names with
  | nil => exact ⟨0, fun _ none => absurd none List.not_mem_nil⟩
  | cons name rest ih =>
    obtain ⟨bound, below⟩ := ih
    refine ⟨max name.toList.length bound, fun other member => ?_⟩
    rcases List.mem_cons.mp member with rfl | member
    · exact Nat.le_max_left _ _
    · exact (below other member).trans (Nat.le_max_right _ _)

/-- A base no row is pinned to. -/
theorem exists_fresh_base (rows : List CommitStatus) : ∃ base, normalizeBaseRef base ≠ "" ∧
    ∀ row ∈ rows, ∀ own, row.base = some own → normalizeBaseRef own ≠ normalizeBaseRef base := by
  obtain ⟨bound, below⟩ := exists_beyond ((rows.filterMap CommitStatus.base).map normalizeBaseRef)
  have plain : normalizeBaseRef (String.ofList (List.replicate (bound + 1) 'a')) =
      String.ofList (List.replicate (bound + 1) 'a') := by
    have solid : trim (String.ofList (List.replicate (bound + 1) 'a')) =
        String.ofList (List.replicate (bound + 1) 'a') := by
      refine trim_solid fun c member => ?_
      rw [String.toList_ofList] at member
      rw [List.eq_of_mem_replicate member]
      decide
    unfold normalizeBaseRef
    dsimp only
    rw [solid]
    cases cut : stripPrefix (String.ofList (List.replicate (bound + 1) 'a')) "refs/heads/" with
    | none => rfl
    | some rest =>
      have chars := congrArg String.toList (stripPrefix_eq_some.mp cut)
      rw [String.toList_ofList, String.toList_append, List.replicate_succ] at chars
      cases chars
  refine ⟨String.ofList (List.replicate (bound + 1) 'a'), ?_, fun row member own pinned same => ?_⟩
  · rw [plain]
    intro empty
    have length := congrArg (fun s : String => s.toList.length) empty
    simp at length
  · have listed : normalizeBaseRef own ∈ (rows.filterMap CommitStatus.base).map normalizeBaseRef :=
      List.mem_map_of_mem (List.mem_filterMap.mpr ⟨row, member, pinned⟩)
    have short := below _ listed
    rw [same, plain, String.toList_ofList, List.length_replicate] at short
    omega

/-- A base the row speaks for, such that whatever speaks for it speaks for all the row's bases. -/
theorem exists_narrow_base (rows : List CommitStatus)
    (speaks : ∃ base, statusAnswersForBase row base = true) :
    ∃ base, statusAnswersForBase row base = true ∧ ∀ next ∈ rows,
      statusAnswersForBase next base = true →
      ∀ other, statusAnswersForBase row other = true → statusAnswersForBase next other = true := by
  simp only [answers_iff] at speaks ⊢
  obtain ⟨base, none | ⟨own, pinned, same, filled⟩⟩ := speaks
  · obtain ⟨fresh, some, apart⟩ := exists_fresh_base rows
    refine ⟨fresh, .inl none, fun next member answers other _ => .inl ?_⟩
    rcases answers with agnostic | ⟨own, pinned, same, -⟩
    · exact agnostic
    · exact absurd same (apart next member own pinned)
  · refine ⟨base, .inr ⟨own, pinned, same, filled⟩, fun next member answers other here => ?_⟩
    rcases answers with agnostic | ⟨own', pinned', same', -⟩
    · exact .inl agnostic
    · rcases here with agnostic | ⟨own'', pinned'', same'', filled'⟩
      · cases agnostic.symm.trans pinned
      · cases pinned.symm.trans pinned''
        exact .inr ⟨own', pinned', same'.trans (same.symm.trans same''), filled'⟩

theorem green_agrees_iff (rows : List CommitStatus) :
    GreenAgrees rows ↔ FailureLast rows ∨ FailuresReplaced rows := by
  constructor
  · intro agrees
    by_cases last : FailureLast rows
    · exact .inl last
    refine .inr fun before row after split failed speaks => ?_
    have member : row ∈ rows := by simp [split]
    have green := agrees.green (combined_success_iff.mpr ⟨List.ne_nil_of_mem member, last⟩) []
    obtain ⟨base, here, narrow⟩ := exists_narrow_base rows speaks
    obtain ⟨current, found⟩ := exists_current member here
    obtain ⟨stored, own, answers⟩ := current_speaks found
    have success : current.state = .success := by
      by_contra other
      exact green base row member here ((required_success found).2.mpr other)
    rw [currentStatusForBase_eq, split] at found
    rcases latest_filter_of_split found (speaks_iff.mpr ⟨rfl, here⟩) with rfl | later
    · exact absurd success failed
    · exact ⟨current, later, own, narrow current stored answers⟩
  · intro condition
    refine ⟨fun green checkRuns base row member here failed => ?_, based_agrees rows⟩
    rcases condition with last | replaced
    · exact (combined_success_iff.mp green).2 last
    · obtain ⟨current, found⟩ := exists_current member here
      have other := (required_success found).2.mp failed
      obtain ⟨-, own, answers⟩ := current_speaks found
      rw [currentStatusForBase_eq] at found
      obtain ⟨-, before, after, split, last⟩ := latest_filter_split found
      obtain ⟨next, later, same, covers⟩ := replaced before current after split other ⟨base, answers⟩
      exact last next (speaks_iff.mpr ⟨same.trans own, covers base answers⟩) later

/-- A failure proved against `main`, and then a success proved against another base. -/
def failureThenElsewhere : List CommitStatus :=
  [{ id := 0, owner := "acme", repo := "demo", sha := "1111", state := .failure, context := "ci"
     base := some "main", description := none, targetUrl := none, creator := "ci-bot"
     createdAt := 0, updatedAt := 0 },
   { id := 1, owner := "acme", repo := "demo", sha := "1111", state := .success, context := "ci"
     base := some "release", description := none, targetUrl := none, creator := "ci-bot"
     createdAt := 1, updatedAt := 1 }]

theorem green_combined_fails_gate : ¬GreenAgrees failureThenElsewhere := by
  intro agrees
  have green : (combinedOf failureThenElsewhere).state = .success := by decide +kernel
  refine agrees.green green [] "main" _ List.mem_cons_self (by decide +kernel) ?_
  decide +kernel

end Green

end Jeryu.Core
