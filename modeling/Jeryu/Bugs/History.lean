import Jeryu.Bugs.Ledger

/-!
Nothing that the bug store has been given is lost, as long as no two reports draw one id.
-/

namespace Jeryu.Bugs

open KeyedMap

section Ahead

/-- What of a bug never changes. -/
structure BugOrigin where
  id : String
  title : String
  sourceProject : String
  targetProject : String
  difficulty : UInt8
  impact : String
  security : Bool
  body : CanonicalBugReport
  createdAt : String

def BugRecord.origin (bug : BugRecord) : BugOrigin :=
  ⟨bug.id, bug.title, bug.sourceProject, bug.targetProject, bug.difficulty, bug.impact, bug.security,
    bug.body, bug.createdAt⟩

/-- A later record of one bug. -/
structure Follows (bug bug' : BugRecord) : Prop where
  origin : bug'.origin = bug.origin
  terminal : bug.status.isTerminal → bug'.status = bug.status

theorem Follows.refl (bug : BugRecord) : Follows bug bug := ⟨rfl, fun _ => rfl⟩

theorem Follows.trans {a b c : BugRecord} (first : Follows a b) (second : Follows b c) : Follows a c where
  origin := second.origin.trans first.origin
  terminal := by
    intro terminal
    have kept := first.terminal terminal
    rw [← kept] at terminal
    rw [second.terminal terminal, kept]

theorem Follows.attach {bug bug' : BugRecord} (follows : Follows bug bug') (state state' : State) :
    Follows (state.attachAttemptCountsLocked bug) (state'.attachAttemptCountsLocked bug') :=
  ⟨follows.origin, follows.terminal⟩

/-- What is appended to is only appended to, and a key keeps its bug. -/
structure Grown (state state' : State) : Prop where
  names : ∀ key id, state.idempotency.lookup key = some id → state'.idempotency.lookup key = some id
  events : state.events <+: state'.events
  attempts : state.attempts <+: state'.attempts

theorem Grown.refl (state : State) : Grown state state :=
  ⟨fun _ _ given => given, List.prefix_rfl, List.prefix_rfl⟩

theorem Grown.trans {a b c : State} (first : Grown a b) (second : Grown b c) : Grown a c where
  names key id given := second.names key id (first.names key id given)
  events := first.events.trans second.events
  attempts := first.attempts.trans second.attempts

/-- Every bug is still there. -/
def Kept (state state' : State) : Prop :=
  ∀ id bug, state.bugs.lookup id = some bug →
    ∃ bug', state'.bugs.lookup id = some bug' ∧ Follows bug bug'

theorem Kept.refl (state : State) : Kept state state := fun _ bug stored => ⟨bug, stored, .refl bug⟩

theorem Kept.trans {a b c : State} (first : Kept a b) (second : Kept b c) : Kept a c := by
  intro id bug stored
  obtain ⟨bug', stored', follows⟩ := first id bug stored
  obtain ⟨bug'', stored'', follows'⟩ := second id bug' stored'
  exact ⟨bug'', stored'', follows.trans follows'⟩

variable {crates : Crates} {state state' : State} {call : Call} {reply : Reply}

theorem existing_some {key : String} {bug : BugRecord} :
    state.existing (some key) = some bug ↔
      ∃ id, state.idempotency.lookup key = some id ∧ state.bugs.lookup id = some bug := by
  simp [State.existing, Option.bind_eq_some_iff]

theorem existing_key {idempotencyKey : Option String} {bug : BugRecord}
    (found : state.existing idempotencyKey = some bug) : ∃ key, idempotencyKey = some key := by
  cases idempotencyKey with
  | none => simp [State.existing] at found
  | some key => exact ⟨key, rfl⟩

theorem Outcome.grown (sound : Sound state) (outcome : Outcome crates state call reply state') :
    Grown state state' := by
  cases outcome with
  | refused failed => exact .refl state
  | upserted => exact { Grown.refl state with }
  | repeated found => exact .refl state
  | filed valid unfound =>
    refine ⟨?_, List.prefix_append _ _, List.prefix_rfl⟩
    intro key id given
    rw [file_idempotency]
    split
    · -- what the key names would have been found
      rename_i same
      obtain ⟨bug, stored⟩ := sound.named key id given
      rw [same, existing_some.mpr ⟨id, given, stored⟩] at unfound
      cases unfound
    · exact given
  | triaged stored allowed => exact ⟨fun _ _ given => given, List.prefix_append _ _, List.prefix_rfl⟩
  | attempted stored =>
    exact ⟨fun _ _ given => given, List.prefix_append _ _, List.prefix_append _ _⟩

theorem kept_insert {bugId : String} {new : BugRecord} (same : state'.bugs = state.bugs.insert bugId new)
    (follows : ∀ bug, state.bugs.lookup bugId = some bug → Follows bug new) : Kept state state' := by
  intro id bug stored
  rw [same, HashMap.lookup_insert_if]
  by_cases here : id = bugId
  · rw [here] at stored
    exact ⟨new, by simp [here], follows bug stored⟩
  · exact ⟨bug, by simp [here, stored], .refl bug⟩

theorem Outcome.kept
    (fresh : ∀ report key actor now logged, call = .submitBug report key actor now logged →
      report.validate.isOk → state.existing key = none →
        state.bugs.lookup (generateBugId crates report now) = none)
    (outcome : Outcome crates state call reply state') : Kept state state' := by
  cases outcome with
  | refused failed => exact .refl state
  | upserted => exact .refl state
  | repeated found => exact .refl state
  | filed valid unfound =>
    have unused := fresh _ _ _ _ _ rfl (by simp [valid, Except.isOk, Except.toBool]) unfound
    apply kept_insert file_bugs
    intro bug stored
    rw [unused] at stored
    cases stored
  | triaged stored allowed =>
    apply kept_insert triaged_bugs
    intro bug stored'
    rw [stored] at stored'
    cases stored'
    exact ⟨rfl, validateTransition_ok allowed⟩
  | attempted stored => exact .refl state

/-- The bug a call answers is the one stored under its id. -/
theorem Outcome.stored {bug : BugRecord} (sound : Sound state)
    (outcome : Outcome crates state call (.bug (.ok bug)) state') :
    ∃ found, state'.bugs.lookup bug.id = some found ∧ bug = state'.attachAttemptCountsLocked found := by
  cases outcome with
  | refused failed => cases failed
  | repeated found =>
    obtain ⟨key, rfl⟩ := existing_key found
    obtain ⟨id, given, stored⟩ := existing_some.mp found
    have keyed := sound.keyed id _ stored
    exact ⟨_, by rw [← keyed] at stored; exact stored, rfl⟩
  | filed valid unfound => exact ⟨_, HashMap.lookup_insert_self _ _ _, rfl⟩
  | triaged stored allowed =>
    have keyed := sound.keyed _ _ stored
    subst keyed
    exact ⟨_, HashMap.lookup_insert_self _ _ _, rfl⟩

theorem Outcome.failed (outcome : Outcome crates state call reply state') (failed : reply.Failed) :
    state' = state := by
  cases outcome with
  | refused => rfl
  | upserted => cases failed
  | repeated found => rfl
  | filed valid unfound => cases failed
  | triaged stored allowed => cases failed
  | attempted stored => cases failed

end Ahead

section Runs

variable (crates : Crates)

/-- The store after the calls. -/
def stateAfter (calls : List Call) : State := Replay.after (step crates) .default calls

/-- What the call is answered after the earlier ones. -/
def answer (earlier : List Call) (call : Call) : Reply := Replay.reply (step crates) .default earlier call

def answers (calls : List Call) : List Reply := Replay.replies (step crates) .default calls

/-- The call submitted a report under the key and got the bug. -/
structure Submitted (earlier : List Call) (call : Call) (key : Option String) (bug : BugRecord) : Prop where
  submits : ∃ report actor now logged, call = .submitBug report key actor now logged
  answered : answer crates earlier call = .bug (.ok bug)

/-- An earlier report was submitted under the key. -/
def Repeats (earlier : List Call) (key : Option String) : Prop :=
  key ≠ none ∧ ∃ before call bug, before ++ [call] <+: earlier ∧ Submitted crates before call key bug

/-- A report that is stored as a new bug draws an id that no bug has. -/
def DrawsFresh (earlier : List Call) : Call → Prop
  | .submitBug report key _ now _ => report.validate.isOk → ¬ Repeats crates earlier key →
      (stateAfter crates earlier).bugs.lookup (generateBugId crates report now) = none
  | _ => True

def Reply.recorded : Reply → Option BugAttempt
  | .attempt (.ok found) => some found
  | _ => none

/-- The bug that the call changed. -/
def Reply.subject : Reply → Option String
  | .bug (.ok found) => some found.id
  | .attempt (.ok found) => some found.bugId
  | _ => none

/-- The store has never heard of the id. -/
structure Unheard (state : State) (id : String) : Prop where
  bug : state.bugs.lookup id = none
  events : ∀ event ∈ state.events, event.bugId ≠ id
  attempts : ∀ attempt ∈ state.attempts, attempt.bugId ≠ id

/-- The store loses nothing over the calls. -/
structure LosesNothing (calls : List Call) : Prop where
  shown : ∀ earlier call bug, earlier ++ [call] <+: calls → answer crates earlier call = .bug (.ok bug) →
    ∃ detail, (stateAfter crates (earlier ++ [call])).showBug bug.id = .ok detail ∧ detail.bug = bug
  kept : ∀ earlier call seen bug, earlier ++ [call] <+: seen → seen <+: calls →
    answer crates earlier call = .bug (.ok bug) →
      ∃ detail, (stateAfter crates seen).showBug bug.id = .ok detail ∧ Follows bug detail.bug
  created : ∀ earlier report key actor now logged bug,
    earlier ++ [.submitBug report key actor now logged] <+: calls → ¬ Repeats crates earlier key →
      answer crates earlier (.submitBug report key actor now logged) = .bug (.ok bug) →
        bug.body = report ∧ Unheard (stateAfter crates earlier) bug.id
  repeated : ∀ first call second call' key bug bug', first ++ [call] <+: second →
    second ++ [call'] <+: calls → key ≠ none → Submitted crates first call key bug →
      Submitted crates second call' key bug' →
        Follows bug bug' ∧ stateAfter crates (second ++ [call']) = stateAfter crates second
  increasing : ∀ seen, seen <+: calls →
    ((stateAfter crates seen).events.map BugEvent.id).Pairwise (· < ·) ∧
      ((stateAfter crates seen).attempts.map BugAttempt.id).Pairwise (· < ·)
  grown : ∀ seen later, seen <+: later → later <+: calls →
    (stateAfter crates seen).events <+: (stateAfter crates later).events ∧
      (stateAfter crates seen).attempts <+: (stateAfter crates later).attempts
  attempts : ∀ seen id detail, seen <+: calls → (stateAfter crates seen).showBug id = .ok detail →
    detail.attempts = ((answers crates seen).filterMap Reply.recorded).filter (·.bugId = id) ∧
      detail.bug.attemptCount = detail.attempts.length ∧
      detail.bug.failedAttemptCount = detail.attempts.countP BugAttempt.isFailed
  terminal : ∀ seen later id bug, seen <+: later → later <+: calls →
    (stateAfter crates seen).bugs.lookup id = some bug → bug.status.isTerminal →
      ∃ bug', (stateAfter crates later).bugs.lookup id = some bug' ∧ bug'.status = bug.status
  logged : ∀ earlier call id, earlier ++ [call] <+: calls → (answer crates earlier call).subject = some id →
    (∀ report key actor now logged, call = .submitBug report key actor now logged →
      ¬ Repeats crates earlier key) →
      ∃ event, event.bugId = id ∧
        (stateAfter crates (earlier ++ [call])).events = (stateAfter crates earlier).events ++ [event]
  unlogged : ∀ earlier call, earlier ++ [call] <+: calls → (answer crates earlier call).subject = none →
    (stateAfter crates (earlier ++ [call])).events = (stateAfter crates earlier).events
  failed : ∀ earlier call, earlier ++ [call] <+: calls → (answer crates earlier call).Failed →
    stateAfter crates (earlier ++ [call]) = stateAfter crates earlier

theorem stateAfter_snoc (earlier : List Call) (call : Call) :
    stateAfter crates (earlier ++ [call]) = (step crates (stateAfter crates earlier) call).1 :=
  Replay.after_snoc _ _ earlier call

theorem outcome_after (earlier : List Call) (call : Call) :
    Outcome crates (stateAfter crates earlier) call (answer crates earlier call)
      (stateAfter crates (earlier ++ [call])) := by
  rw [stateAfter_snoc]
  exact step_outcome crates (stateAfter crates earlier) call

theorem sound_after (calls : List Call) : Sound (stateAfter crates calls) :=
  Replay.after_induction (fun _ state => Sound state) sound_default
    (fun _ call _ sound => (step_outcome crates _ call).sound sound) calls List.prefix_rfl

theorem grown_after {seen later : List Call} (early : seen <+: later) :
    Grown (stateAfter crates seen) (stateAfter crates later) :=
  Replay.after_ahead .refl (fun _ _ _ => .trans)
    (fun earlier call _ => (step_outcome crates _ call).grown (sound_after crates earlier)) early
    List.prefix_rfl

variable {crates} {calls : List Call}

theorem attempts_recorded (seen : List Call) :
    (stateAfter crates seen).attempts = (answers crates seen).filterMap Reply.recorded := by
  induction seen using List.reverseRecOn with
  | nil => rfl
  | append_singleton earlier call ih =>
    have snoc : answers crates (earlier ++ [call]) = answers crates earlier ++ [answer crates earlier call] :=
      Replay.replies_snoc _ _ earlier call
    rw [snoc, List.filterMap_append, ← ih]
    have outcome := outcome_after crates earlier call
    generalize answer crates earlier call = reply at outcome
    generalize stateAfter crates (earlier ++ [call]) = state' at outcome
    cases outcome with
    | refused failed =>
      cases reply with
      | attempt result =>
        cases result with
        | ok found => cases failed
        | error error => simp [Reply.recorded]
      | _ => simp [Reply.recorded]
    | _ => simp [Reply.recorded]

/-- The keys that have been given to bugs. -/
theorem submitted_named {earlier : List Call} {call : Call} {key : String} {bug : BugRecord}
    (submitted : Submitted crates earlier call (some key) bug) :
    (stateAfter crates (earlier ++ [call])).idempotency.lookup key = some bug.id := by
  obtain ⟨⟨report, actor, now, logged, rfl⟩, answered⟩ := submitted
  have sound := sound_after crates earlier
  have outcome := outcome_after crates earlier
    (.submitBug report (some key) actor now logged)
  rw [answered] at outcome
  generalize stateAfter crates (earlier ++ [_]) = state' at outcome
  cases outcome with
  | refused failed => cases failed
  | repeated found =>
    obtain ⟨id, given, stored⟩ := existing_some.mp found
    have keyed := sound.keyed id _ stored
    rw [given, ← keyed]
    rfl
  | filed valid unfound =>
    rw [file_idempotency, if_pos rfl]
    rfl

theorem named_submitted (seen : List Call) : ∀ key id,
    (stateAfter crates seen).idempotency.lookup key = some id →
      ∃ before call bug, before ++ [call] <+: seen ∧ Submitted crates before call (some key) bug := by
  induction seen using List.reverseRecOn with
  | nil =>
    intro key id given
    cases given
  | append_singleton earlier call ih =>
    intro key id given
    have old : ∀ id, (stateAfter crates earlier).idempotency.lookup key = some id →
        ∃ before call' bug, before ++ [call'] <+: earlier ++ [call] ∧
          Submitted crates before call' (some key) bug := by
      intro id given
      obtain ⟨before, call', bug, early, submitted⟩ := ih key id given
      exact ⟨before, call', bug, early.trans (List.prefix_append _ _), submitted⟩
    have outcome := outcome_after crates earlier call
    generalize replied : answer crates earlier call = reply at outcome
    generalize stateAfter crates (earlier ++ [call]) = state' at outcome given
    cases outcome with
    | filed valid unfound =>
      rw [file_idempotency] at given
      split at given
      · rename_i same
        exact ⟨earlier, _, _, List.prefix_rfl, ⟨_, _, _, _, by rw [same]⟩, replied⟩
      · exact old id given
    | _ => exact old id given

theorem repeats_iff (seen : List Call) (key : Option String) :
    Repeats crates seen key ↔ ∃ bug, (stateAfter crates seen).existing key = some bug := by
  have sound := sound_after crates seen
  constructor
  · intro ⟨given, before, call, bug, early, submitted⟩
    cases key with
    | none => exact absurd rfl given
    | some key =>
      have named := (grown_after crates early).names key bug.id (submitted_named submitted)
      obtain ⟨found, stored⟩ := sound.named key bug.id named
      exact ⟨found, existing_some.mpr ⟨bug.id, named, stored⟩⟩
  · intro ⟨bug, found⟩
    obtain ⟨key, rfl⟩ := existing_key found
    obtain ⟨id, given, -⟩ := existing_some.mp found
    obtain ⟨before, call, bug, early, submitted⟩ := named_submitted seen key id given
    exact ⟨by simp, before, call, bug, early, submitted⟩

theorem not_repeats {seen : List Call} {key : Option String} :
    ¬ Repeats crates seen key ↔ (stateAfter crates seen).existing key = none := by
  rw [repeats_iff, ← Option.isSome_iff_exists]
  simp

theorem kept_after (fresh : Journal.Justified (DrawsFresh crates) calls) {seen later : List Call}
    (early : seen <+: later) (within : later <+: calls) :
    Kept (stateAfter crates seen) (stateAfter crates later) := by
  refine Replay.after_ahead .refl (fun _ _ _ => .trans) ?_ early within
  intro earlier call prior
  apply (step_outcome crates _ call).kept
  intro report key actor now logged same valid unfound
  have draws := fresh earlier call prior
  rw [same] at draws
  exact draws valid (not_repeats.mpr unfound)

theorem showBug_ok {state : State} {id : String} {bug : BugRecord} (stored : state.bugs.lookup id = some bug) :
    ∃ detail, state.showBug id = .ok detail ∧ detail.bug = state.attachAttemptCountsLocked bug := by
  simp [State.showBug, stored]

/-- `show_bug` shows what is stored. -/
theorem showBug_attempts {state : State} (sound : Sound state) {id : String} {detail : BugDetail}
    (shown : state.showBug id = .ok detail) :
    detail.attempts = state.attemptsOf id ∧ detail.bug.attemptCount = detail.attempts.length ∧
      detail.bug.failedAttemptCount = detail.attempts.countP BugAttempt.isFailed := by
  unfold State.showBug at shown
  cases stored : state.bugs.lookup id with
  | none => simp [stored] at shown
  | some bug =>
    have increasing := List.pairwise_map.mp sound.attempts.increasing
    have ordered : (state.attemptsOf id).Pairwise fun a b => decide (a.id ≤ b.id) = true :=
      (increasing.filter _).imp fun smaller => decide_eq_true (Nat.le_of_lt smaller)
    have sorted := List.mergeSort_of_pairwise ordered
    have keyed := sound.keyed id bug stored
    simp only [stored, Except.ok.injEq] at shown
    rw [← shown]
    refine ⟨sorted, ?_, ?_⟩
    · show (state.attemptsOf bug.id).length = (List.mergeSort _ _).length
      rw [sorted, keyed]
    · show (state.attemptsOf bug.id).countP _ = (List.mergeSort _ _).countP _
      rw [sorted, keyed]

theorem answer_stored {earlier : List Call} {call : Call} {bug : BugRecord}
    (answered : answer crates earlier call = .bug (.ok bug)) :
    ∃ found, (stateAfter crates (earlier ++ [call])).bugs.lookup bug.id = some found ∧
      bug = (stateAfter crates (earlier ++ [call])).attachAttemptCountsLocked found := by
  have outcome := outcome_after crates earlier call
  rw [answered] at outcome
  exact outcome.stored (sound_after crates earlier)

theorem logged_after {earlier : List Call} {call : Call} {id : String}
    (subject : (answer crates earlier call).subject = some id)
    (new : ∀ report key actor now logged, call = .submitBug report key actor now logged →
      ¬ Repeats crates earlier key) :
    ∃ event, event.bugId = id ∧
      (stateAfter crates (earlier ++ [call])).events = (stateAfter crates earlier).events ++ [event] := by
  have outcome := outcome_after crates earlier call
  generalize answer crates earlier call = reply at outcome subject
  generalize stateAfter crates (earlier ++ [call]) = state' at outcome
  cases outcome with
  | refused failed =>
    cases reply with
    | project result => cases subject
    | bug result =>
      cases result with
      | error error => cases subject
      | ok found => cases failed
    | attempt result =>
      cases result with
      | error error => cases subject
      | ok found => cases failed
  | upserted => cases subject
  | repeated found =>
    have unfound := not_repeats.mp (new _ _ _ _ _ rfl)
    rw [found] at unfound
    cases unfound
  | filed valid unfound =>
    cases subject
    exact ⟨_, rfl, rfl⟩
  | triaged stored allowed =>
    have keyed := (sound_after crates earlier).keyed _ _ stored
    cases subject
    exact ⟨_, keyed.symm, rfl⟩
  | attempted stored =>
    cases subject
    exact ⟨_, rfl, rfl⟩

theorem unlogged_after {earlier : List Call} {call : Call}
    (none : (answer crates earlier call).subject = none) :
    (stateAfter crates (earlier ++ [call])).events = (stateAfter crates earlier).events := by
  have outcome := outcome_after crates earlier call
  generalize answer crates earlier call = reply at outcome none
  generalize stateAfter crates (earlier ++ [call]) = state' at outcome
  cases outcome with
  | refused failed => rfl
  | upserted => rfl
  | repeated found => rfl
  | filed valid unfound => cases none
  | triaged stored allowed => cases none
  | attempted stored => cases none

theorem created_after {earlier : List Call} {report : CanonicalBugReport} {key : Option String}
    {actor : String} {now logged : DateTime} {bug : BugRecord}
    (fresh : DrawsFresh crates earlier (.submitBug report key actor now logged))
    (new : ¬ Repeats crates earlier key)
    (answered : answer crates earlier (.submitBug report key actor now logged) = .bug (.ok bug)) :
    bug.body = report ∧ Unheard (stateAfter crates earlier) bug.id := by
  have sound := sound_after crates earlier
  have outcome := outcome_after crates earlier (.submitBug report key actor now logged)
  rw [answered] at outcome
  generalize stateAfter crates (earlier ++ [_]) = state' at outcome
  cases outcome with
  | refused failed => cases failed
  | repeated found =>
    have unfound := not_repeats.mp new
    rw [found] at unfound
    cases unfound
  | filed valid unfound =>
    have unused := fresh (by simp [valid, Except.isOk, Except.toBool]) new
    refine ⟨rfl, unused, ?_, ?_⟩
    · intro event member same
      obtain ⟨found, stored⟩ := sound.eventsAbout event member
      rw [same] at stored
      exact absurd (unused.symm.trans stored) (by simp)
    · intro attempt member same
      obtain ⟨found, stored⟩ := sound.attemptsAbout attempt member
      rw [same] at stored
      exact absurd (unused.symm.trans stored) (by simp)

theorem repeated_after (fresh : Journal.Justified (DrawsFresh crates) calls)
    {first second : List Call} {call call' : Call} {key : String} {bug bug' : BugRecord}
    (early : first ++ [call] <+: second) (within : second ++ [call'] <+: calls)
    (submitted : Submitted crates first call (some key) bug)
    (submitted' : Submitted crates second call' (some key) bug') :
    Follows bug bug' ∧ stateAfter crates (second ++ [call']) = stateAfter crates second := by
  have named := (grown_after crates early).names key bug.id (submitted_named submitted)
  obtain ⟨origin, stored, rfl⟩ := answer_stored submitted.answered
  obtain ⟨kept, stored', follows⟩ :=
    kept_after fresh early (Replay.prefix_of_snoc within) _ origin stored
  have found : (stateAfter crates second).existing (some key) = some kept :=
    existing_some.mpr ⟨_, named, stored'⟩
  obtain ⟨⟨report, actor, now, logged, rfl⟩, answered⟩ := submitted'
  have outcome := outcome_after crates second (.submitBug report (some key) actor now logged)
  rw [answered] at outcome
  generalize stateAfter crates (second ++ [_]) = state' at outcome
  cases outcome with
  | refused failed => cases failed
  | repeated found' =>
    rw [found] at found'
    cases found'
    exact ⟨follows.attach _ _, rfl⟩
  | filed valid unfound =>
    rw [found] at unfound
    cases unfound

theorem answer_new {earlier : List Call} {report : CanonicalBugReport} {key : Option String}
    {actor : String} {now logged : DateTime} (valid : report.validate.isOk)
    (new : ¬ Repeats crates earlier key) :
    ∃ bug, answer crates earlier (.submitBug report key actor now logged) = .bug (.ok bug) ∧
      bug.id = generateBugId crates report now := by
  have unfound := not_repeats.mp new
  show ∃ bug, (step crates (stateAfter crates earlier) _).2 = .bug (.ok bug) ∧ _
  cases validated : report.validate with
  | error error => simp [validated, Except.isOk, Except.toBool] at valid
  | ok status =>
    simp only [step, State.submitBug, validated, unfound]
    exact ⟨_, rfl, rfl⟩

theorem draws_fresh (loses : LosesNothing crates calls) : Journal.Justified (DrawsFresh crates) calls := by
  intro earlier call prior
  cases call with
  | submitBug report key actor now logged =>
    intro valid new
    obtain ⟨bug, answered, drawn⟩ := answer_new valid new
    have created := loses.created earlier report key actor now logged bug prior new answered
    rw [← drawn]
    exact created.2.bug
  | _ => trivial

end Runs

theorem loses_nothing_iff (crates : Crates) (calls : List Call) :
    LosesNothing crates calls ↔ Journal.Justified (DrawsFresh crates) calls := by
  constructor
  · exact draws_fresh
  intro fresh
  have kept {seen later : List Call} (early : seen <+: later) (within : later <+: calls) :
      Kept (stateAfter crates seen) (stateAfter crates later) := kept_after fresh early within
  constructor
  case shown =>
    intro earlier call bug prior answered
    obtain ⟨found, stored, rfl⟩ := answer_stored answered
    exact showBug_ok stored
  case kept =>
    intro earlier call seen bug early within answered
    obtain ⟨found, stored, rfl⟩ := answer_stored answered
    obtain ⟨found', stored', follows⟩ := kept early within _ found stored
    obtain ⟨detail, shown, same⟩ := showBug_ok stored'
    refine ⟨detail, shown, ?_⟩
    rw [same]
    exact follows.attach _ _
  case created =>
    intro earlier report key actor now logged bug prior new answered
    exact created_after (fresh earlier _ prior) new answered
  case repeated =>
    intro first call second call' key bug bug' early within given submitted submitted'
    cases key with
    | none => exact absurd rfl given
    | some key => exact repeated_after fresh early within submitted submitted'
  case increasing =>
    intro seen within
    have sound := sound_after crates seen
    exact ⟨sound.events.increasing, sound.attempts.increasing⟩
  case grown =>
    intro seen later early within
    have grown := grown_after crates early
    exact ⟨grown.events, grown.attempts⟩
  case attempts =>
    intro seen id detail within shown
    obtain ⟨listed, counted⟩ := showBug_attempts (sound_after crates seen) shown
    rw [← attempts_recorded]
    exact ⟨listed, counted⟩
  case terminal =>
    intro seen later id bug early within stored terminal
    obtain ⟨bug', stored', follows⟩ := kept early within id bug stored
    exact ⟨bug', stored', follows.terminal terminal⟩
  case logged =>
    intro earlier call id prior subject new
    exact logged_after subject new
  case unlogged =>
    intro earlier call prior none
    exact unlogged_after none
  case failed =>
    intro earlier call prior failed
    exact (outcome_after crates earlier call).failed failed

def lostWrites : CanonicalBugReport where
  targetProject := "redlinedb"
  sourceProject := "veox"
  title := "redline adapter loses writes"
  component := some "adapter"
  currentBehavior := "writes disappear"
  expectedBehavior := "writes persist"
  environment := "local"
  frequency := "always"
  impact := "blocks local agent state"
  securityPrivacy := "no security impact"
  noSecretsConfirmed := true
  reproductionSteps := ["submit write", "restart"]
  evidence := []
  acceptanceCriteria := ["write survives restart"]
  severity := .s1
  priority := .p1
  difficulty := 3

/-- Two reports of one title, submitted at one reading of the clock. -/
def twoReports : List Call :=
  [.submitBug lostWrites none "agent" 0 0,
    .submitBug { lostWrites with currentBehavior := "reads fail" } none "agent" 0 0]

theorem same_instant_report_lost : ¬ ∃ crates, LosesNothing crates twoReports := by
  intro ⟨crates, loses⟩
  have valid : lostWrites.validate = .ok .needsTriage := by decide +kernel
  have valid' : ({ lostWrites with currentBehavior := "reads fail" } : CanonicalBugReport).validate.isOk := by
    decide +kernel
  have fresh := draws_fresh loses [.submitBug lostWrites none "agent" 0 0] _ List.prefix_rfl valid'
    (fun repeats => repeats.1 rfl)
  have stored : (stateAfter crates [.submitBug lostWrites none "agent" 0 0]).bugs.lookup
      (generateBugId crates lostWrites 0) = some (lostWrites.record crates (generateBugId crates lostWrites 0)
        .needsTriage 0) := by
    simp [stateAfter, Replay.after, step, State.submitBug, valid, State.existing]
  exact absurd (stored.symm.trans fresh) (by simp)

end Jeryu.Bugs
