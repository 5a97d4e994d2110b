import Jeryu.Bugs.Store
import Jeryu.Library.Replay

/-!
What the bug store keeps over any sequence of calls.
-/

namespace Jeryu.Bugs

open KeyedMap

def Reply.Failed : Reply → Prop
  | .project result => result.isOk = false
  | .bug result => result.isOk = false
  | .attempt result => result.isOk = false

/-- What a call does and answers. -/
inductive Outcome (crates : Crates) (state : State) : Call → Reply → State → Prop where
  | refused {call : Call} {reply : Reply} (failed : reply.Failed) : Outcome crates state call reply state
  | upserted {input : BugProjectInput} {now : DateTime} {project : BugProject}
      {projects : HashMap String BugProject} :
      Outcome crates state (.addProject input now) (.project (.ok project)) { state with projects := projects }
  | repeated {report : CanonicalBugReport} {idempotencyKey : Option String} {actor : String}
      {now logged : DateTime} {bug : BugRecord} (found : state.existing idempotencyKey = some bug) :
      Outcome crates state (.submitBug report idempotencyKey actor now logged)
        (.bug (.ok (state.attachAttemptCountsLocked bug))) state
  | filed {report : CanonicalBugReport} {status : BugStatus} {idempotencyKey : Option String}
      {actor : String} {now logged : DateTime} (valid : report.validate = .ok status)
      (unfound : state.existing idempotencyKey = none) :
      Outcome crates state (.submitBug report idempotencyKey actor now logged)
        (.bug (.ok ((state.file crates report status idempotencyKey actor now logged).attachAttemptCountsLocked
          (report.record crates (generateBugId crates report now) status now))))
        (state.file crates report status idempotencyKey actor now logged)
  | triaged {bugId actor : String} {triage : Triage} {now logged : DateTime} {before : BugRecord}
      (stored : state.bugs.lookup bugId = some before)
      (allowed : validateTransition before.status (triage.status.getD before.status) = .ok ()) :
      Outcome crates state (.updateBug bugId triage actor now logged)
        (.bug (.ok ((state.triaged crates bugId (triage.apply crates before now) actor
          logged).attachAttemptCountsLocked (triage.apply crates before now))))
        (state.triaged crates bugId (triage.apply crates before now) actor logged)
  | attempted {bugId actor : String} {input : BugAttemptInput} {now logged : DateTime} {bug : BugRecord}
      (stored : state.bugs.lookup bugId = some bug) :
      Outcome crates state (.recordAttempt bugId input actor now logged)
        (.attempt (.ok (state.attempt crates bugId input now)))
        (state.attempted crates bugId (state.attempt crates bugId input now) actor logged)

theorem step_outcome (crates : Crates) (state : State) (call : Call) :
    Outcome crates state call (step crates state call).2 (step crates state call).1 := by
  cases call with
  | addProject input now => exact .upserted
  | submitBug report idempotencyKey actor now logged =>
    simp only [step, State.submitBug]
    cases valid : report.validate with
    | error error => exact .refused rfl
    | ok status =>
      cases found : state.existing idempotencyKey with
      | some bug => exact .repeated found
      | none => exact .filed valid found
  | updateBug bugId triage actor now logged =>
    simp only [step, State.updateBug]
    cases stored : state.bugs.lookup bugId with
    | none => exact .refused rfl
    | some before =>
      cases allowed : validateTransition before.status (triage.status.getD before.status) with
      | error error => simpa only [allowed] using .refused rfl
      | ok _ => simpa only [allowed] using .triaged stored allowed
  | recordAttempt bugId input actor now logged =>
    simp only [step, State.recordAttempt]
    cases stored : state.bugs.lookup bugId with
    | none => exact .refused rfl
    | some bug => exact .attempted stored

section Operations

variable {crates : Crates} {state : State} {report : CanonicalBugReport} {status : BugStatus}
  {idempotencyKey : Option String} {actor bugId : String} {now logged : DateTime} {bug : BugRecord}
  {attempt : BugAttempt}

@[simp] theorem file_bugs : (state.file crates report status idempotencyKey actor now logged).bugs =
    state.bugs.insert (generateBugId crates report now)
      (report.record crates (generateBugId crates report now) status now) := rfl

@[simp] theorem file_attempts :
    (state.file crates report status idempotencyKey actor now logged).attempts = state.attempts := rfl

@[simp] theorem triaged_bugs :
    (state.triaged crates bugId bug actor logged).bugs = state.bugs.insert bugId bug := rfl

@[simp] theorem triaged_attempts :
    (state.triaged crates bugId bug actor logged).attempts = state.attempts := rfl

@[simp] theorem triaged_idempotency :
    (state.triaged crates bugId bug actor logged).idempotency = state.idempotency := rfl

@[simp] theorem attempted_bugs :
    (state.attempted crates bugId attempt actor logged).bugs = state.bugs := rfl

@[simp] theorem attempted_attempts :
    (state.attempted crates bugId attempt actor logged).attempts = state.attempts ++ [attempt] := rfl

@[simp] theorem attempted_idempotency :
    (state.attempted crates bugId attempt actor logged).idempotency = state.idempotency := rfl

theorem file_idempotency (key : String) :
    (state.file crates report status idempotencyKey actor now logged).idempotency.lookup key =
      if idempotencyKey = some key then some (generateBugId crates report now)
      else state.idempotency.lookup key := by
  cases idempotencyKey with
  | none => rfl
  | some given =>
    show (state.idempotency.insert given (generateBugId crates report now)).lookup key = _
    rw [HashMap.lookup_insert_if]
    by_cases same : key = given
    · simp [same]
    · have apart : ¬ given = key := fun equal => same equal.symm
      simp [same, apart]

end Operations

/-- What is so of the store at any time. -/
structure Sound (state : State) : Prop where
  keyed : ∀ id bug, state.bugs.lookup id = some bug → bug.id = id
  named : ∀ key id, state.idempotency.lookup key = some id → ∃ bug, state.bugs.lookup id = some bug
  events : Replay.Stamped BugEvent.id state.nextEventId state.events
  attempts : Replay.Stamped BugAttempt.id state.nextAttemptId state.attempts
  eventsAbout : ∀ event ∈ state.events, ∃ bug, state.bugs.lookup event.bugId = some bug
  attemptsAbout : ∀ attempt ∈ state.attempts, ∃ bug, state.bugs.lookup attempt.bugId = some bug

theorem sound_default : Sound .default where
  keyed _ _ stored := by cases stored
  named _ _ stored := by cases stored
  events := Replay.stamped_nil
  attempts := Replay.stamped_nil
  eventsAbout _ member := by cases member
  attemptsAbout _ member := by cases member

section Soundness

variable {crates : Crates} {state : State} {actor bugId : String} {bug : BugRecord}

theorem stored_insert {id : String} (stored : ∃ bug, state.bugs.lookup id = some bug) :
    ∃ found, (state.bugs.insert bugId bug).lookup id = some found := by
  rw [HashMap.lookup_insert_if]
  by_cases same : id = bugId
  · exact ⟨bug, by simp [same]⟩
  · obtain ⟨found, stored⟩ := stored
    exact ⟨found, by simp [same, stored]⟩

theorem Sound.store (sound : Sound state) (keyed : bug.id = bugId) :
    Sound { state with bugs := state.bugs.insert bugId bug } where
  keyed id found stored := by
    rw [HashMap.lookup_insert_if] at stored
    by_cases same : id = bugId
    · simp only [same, if_true, Option.some.injEq] at stored
      rw [← stored, same, keyed]
    · simp only [same, if_false] at stored
      exact sound.keyed id found stored
  named key id given := stored_insert (sound.named key id given)
  events := sound.events
  attempts := sound.attempts
  eventsAbout event member := stored_insert (sound.eventsAbout event member)
  attemptsAbout attempt member := stored_insert (sound.attemptsAbout attempt member)

theorem Sound.log (sound : Sound state) (stored : ∃ bug, state.bugs.lookup bugId = some bug)
    (eventType : String) (payload : Json.Value) (logged : DateTime) :
    Sound (state.appendEventLocked crates bugId eventType actor payload logged) where
  keyed := sound.keyed
  named := sound.named
  events := sound.events.push rfl
  attempts := sound.attempts
  eventsAbout event member := by
    rcases List.mem_append.mp member with old | new
    · exact sound.eventsAbout event old
    · rw [List.mem_singleton] at new
      rw [new]
      exact stored
  attemptsAbout := sound.attemptsAbout

theorem Sound.name (sound : Sound state) (stored : state.bugs.lookup bugId = some bug) (key : String) :
    Sound { state with idempotency := state.idempotency.insert key bugId } where
  keyed := sound.keyed
  named other id given := by
    rw [HashMap.lookup_insert_if] at given
    by_cases same : other = key
    · simp only [same, if_true, Option.some.injEq] at given
      rw [← given]
      exact ⟨bug, stored⟩
    · simp only [same, if_false] at given
      exact sound.named other id given
  events := sound.events
  attempts := sound.attempts
  eventsAbout := sound.eventsAbout
  attemptsAbout := sound.attemptsAbout

theorem Sound.file (sound : Sound state) (report : CanonicalBugReport) (status : BugStatus)
    (idempotencyKey : Option String) (now logged : DateTime) :
    Sound (state.file crates report status idempotencyKey actor now logged) := by
  have keyed : (report.record crates (generateBugId crates report now) status now).id =
      generateBugId crates report now := rfl
  have stored := sound.store keyed
  have here : (state.bugs.insert (generateBugId crates report now)
      (report.record crates (generateBugId crates report now) status now)).lookup
        (generateBugId crates report now) = some _ := HashMap.lookup_insert_self _ _ _
  cases idempotencyKey with
  | none => exact stored.log ⟨_, here⟩ _ _ _
  | some key => exact (stored.name here key).log ⟨_, here⟩ _ _ _

theorem Sound.triaged (sound : Sound state) (stored : state.bugs.lookup bugId = some bug)
    (triage : Triage) (now logged : DateTime) :
    Sound (state.triaged crates bugId (triage.apply crates bug now) actor logged) := by
  have keyed : (triage.apply crates bug now).id = bugId := sound.keyed bugId bug stored
  exact (sound.store keyed).log ⟨_, HashMap.lookup_insert_self _ _ _⟩ _ _ _

theorem Sound.attempted (sound : Sound state) (stored : state.bugs.lookup bugId = some bug)
    (input : BugAttemptInput) (now logged : DateTime) :
    Sound (state.attempted crates bugId (state.attempt crates bugId input now) actor logged) := by
  have pushed : Sound { state with
      nextAttemptId := state.nextAttemptId + 1
      attempts := state.attempts ++ [state.attempt crates bugId input now] } :=
    { sound with
      attempts := sound.attempts.push rfl
      attemptsAbout := by
        intro attempt member
        rcases List.mem_append.mp member with old | new
        · exact sound.attemptsAbout attempt old
        · rw [List.mem_singleton] at new
          rw [new]
          exact ⟨bug, stored⟩ }
  exact pushed.log ⟨bug, stored⟩ _ _ _

theorem Outcome.sound {call : Call} {reply : Reply} {state' : State}
    (outcome : Outcome crates state call reply state') (sound : Sound state) : Sound state' := by
  cases outcome with
  | refused failed => exact sound
  | upserted => exact { sound with }
  | repeated found => exact sound
  | filed valid unfound => exact sound.file _ _ _ _ _
  | triaged stored allowed =>
    exact sound.triaged stored _ _ _
  | attempted stored => exact sound.attempted stored _ _ _

end Soundness

end Jeryu.Bugs
