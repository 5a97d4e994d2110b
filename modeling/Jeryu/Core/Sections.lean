import Jeryu.Core.State
import Jeryu.Library.Lives

namespace Jeryu.Core

open KeyedMap LockProgram Text

/-- The slugs `stage_state` looks up in the staged repositories, in its order. -/
def State.stagedSlugs (state : State) : List Slug :=
  (state.repoGrants.values.map fun grant => (grant.owner, grant.repo)) ++
  (state.labels.keys.map fun key => (key.1, key.2.1)) ++
  (state.issues.values.map fun issue => (issue.owner, issue.repo)) ++
  (state.issueComments.keys.map fun key => (key.1, key.2.1)) ++
  (state.pulls.values.map fun pr => (pr.owner, pr.repo)) ++
  (state.reviews.values.flatten.map fun review => (review.owner, review.repo)) ++
  (state.reviewComments.keys.map fun key => (key.1, key.2.1)) ++
  (state.branchProtections.keys.map fun key => (key.1, key.2.1)) ++
  state.codeowners.keys ++
  state.readmes.keys ++
  (state.statuses.values.flatten.map fun status => (status.owner, status.repo)) ++
  (state.checkRuns.values.flatten.map fun run => (run.owner, run.repo)) ++
  (state.jankuraiScores.values.flatten.map fun score => (score.owner, score.repo)) ++
  (state.webhooks.values.flatten.map fun hook => (hook.owner, hook.repo)) ++
  (state.webhookDeliveries.map fun delivery => (delivery.owner, delivery.repo)) ++
  state.counters.keys

/-- A record of a repository that has no row cannot be staged. -/
def State.stageState (state : State) : Except ForgeError Unit :=
  match state.stagedSlugs.find? fun slug => (state.repos.lookup slug).isNone with
  | some slug => .error (.storage ("missing repository row for " ++ slugText slug))
  | none => .ok ()

theorem State.stageState_eq_ok {state : State} (staged : state.stageState = .ok ()) {slug : Slug}
    (member : slug ∈ state.stagedSlugs) : ∃ repo, state.repos.lookup slug = some repo := by
  unfold State.stageState at staged
  split at staged
  · cases staged
  · next none =>
    have live := List.find?_eq_none.mp none slug member
    exact Option.ne_none_iff_exists'.mp (by simpa using live)

namespace ForgeCore

/-- What `persist` answers, or `persist_with_audit` where a receipt goes with the snapshot: only
    the first drops the staging tables after the commit. -/
def persist (core : ForgeCore) (next : State) (receipt : Option AuditEntry) :
    Except ForgeError Unit :=
  match core.storage with
  | none => .ok ()
  | some store =>
    match next.stageState with
    | .error error => .error error
    | .ok () =>
      match store.transaction next with
      | .error error => .error error
      | .ok () => if receipt.isSome then .ok () else store.dropTables

def logged (core : ForgeCore) (entries : List AuditEntry) : ForgeCore :=
  { core with storage := core.storage.map fun store =>
      { store with journal := store.journal ++ entries.map .receipt } }

theorem persist_logged (core : ForgeCore) (audits : List AuditEntry) (draws : Nat)
    (next : State) (receipt : Option AuditEntry) :
    ({ core.logged audits with uuids := core.uuids + draws } : ForgeCore).persist next receipt =
      core.persist next receipt := by
  unfold ForgeCore.persist ForgeCore.logged
  dsimp only
  cases core.storage with
  | none => simp only [Option.map_none]
  | some store => simp only [Option.map_some]

/-- Whether the snapshot can be staged and its transaction commits. -/
def commits (core : ForgeCore) (next : State) : Bool :=
  core.storage.any fun store => next.stageState.isOk && (store.transaction next).isOk

/-- What a transaction that commits makes durable, whatever its caller is told. -/
def saved (core : ForgeCore) (next : State) (receipt : Option AuditEntry) : ForgeCore :=
  { core with storage := core.storage.map fun store =>
      if core.commits next then { store with journal := store.journal ++ [.snapshot next receipt] }
      else store }

/-- What has become durable. -/
def journal (core : ForgeCore) : List Written := (core.storage.map SqliteStore.journal).getD []

/-- Nothing becomes durable without a store. -/
def recorded (core : ForgeCore) (writes : List Written) : List Written :=
  if core.storage.isSome then writes else []

/-- Rows appended to tables outside the snapshot, and to memory. -/
def appended (core : ForgeCore) (rows : State → State) : ForgeCore :=
  { core with
    state := rows core.state
    storage := core.storage.map fun store =>
      { store with journal := store.journal ++ [.rows rows] } }

end ForgeCore

/-- How a section under the write lock ends. `commit` goes through
    `persist_after_mutation`, or `persist_with_audit` when it carries a receipt: `audits` were
    appended before it, `draws` UUIDs were used, and an error restores the previous state.
    `direct` changes memory alone, `append` memory and a table outside the snapshot. -/
inductive Outcome (α : Type) where
  | refuse (error : ForgeError)
  | unchanged (value : α)
  | direct (audits : List AuditEntry) (next : State) (value : α)
  | append (rows : State → State) (value : α)
  | commit (audits : List AuditEntry) (draws : Nat) (next : State) (receipt : Option AuditEntry)
      (value : α)

namespace Outcome

variable {α : Type}

def settle (core : ForgeCore) : Outcome α → Except Failure α × ForgeCore
  | refuse error => (.error (.error error), core)
  | unchanged value => (.ok value, core)
  | direct audits next value => (.ok value, { core.logged audits with state := next })
  | append rows value => (.ok value, core.appended rows)
  | commit audits draws next receipt value =>
    let core := { core.logged audits with uuids := core.uuids + draws }
    match core.persist next receipt with
    | .ok () => (.ok value, { core.saved next receipt with state := next })
    | .error error => (.error (.error error), core.saved next receipt)

/-- What is known of the state a section commits, of the UUIDs it drew and of its answer. The
    section writes through the snapshot, or not at all. -/
def Commits (P : Nat → State → α → Prop) : Outcome α → Prop
  | refuse _ | unchanged _ => True
  | direct _ _ _ | append _ _ => False
  | commit _ draws next _ value => P draws next value

/-- The same of a section whose snapshot goes alone into its transaction, with no receipt before
    it. -/
def CommitsAlone (P : Nat → State → α → Prop) : Outcome α → Prop
  | refuse _ | unchanged _ => True
  | commit [] draws next none value => P draws next value
  | commit _ _ _ _ _ | direct _ _ _ | append _ _ => False

variable {P Q : Nat → State → α → Prop}

@[simp] theorem commits_refuse (error : ForgeError) : (refuse error : Outcome α).Commits P := True.intro

@[simp] theorem commits_unchanged (value : α) : (unchanged value : Outcome α).Commits P := True.intro

@[simp] theorem commits_commit (audits : List AuditEntry) (draws : Nat) (next : State)
    (receipt : Option AuditEntry) (value : α) :
    (commit audits draws next receipt value).Commits P ↔ P draws next value := Iff.rfl

theorem Commits.mono {outcome : Outcome α} (commits : outcome.Commits P)
    (weaker : ∀ draws next value, P draws next value → Q draws next value) : outcome.Commits Q := by
  cases outcome with
  | refuse error => exact True.intro
  | unchanged value => exact True.intro
  | direct audits next value => exact commits
  | append rows value => exact commits
  | commit audits draws next receipt value => exact weaker _ _ _ commits

theorem commits_ite {p : Prop} [Decidable p] {a b : Outcome α} (yes : p → a.Commits P)
    (no : ¬p → b.Commits P) : (if p then a else b).Commits P := by
  split
  · next holds => exact yes holds
  · next fails => exact no fails

theorem alone_ite {p : Prop} [Decidable p] {a b : Outcome α} (yes : p → a.CommitsAlone P)
    (no : ¬p → b.CommitsAlone P) : (if p then a else b).CommitsAlone P := by
  split
  · next holds => exact yes holds
  · next fails => exact no fails

end Outcome

/-- A method of the core: lock sections in a row, ended early by an error or a panic. -/
abbrev Method (α : Type) := ExceptT Failure (Program ForgeCore) α

namespace Method

variable {α : Type}

def ofExcept (result : Except ForgeError α) : Method α :=
  ExceptT.mk (.done (result.mapError .error))

/-- A section under the read lock. -/
def reading (f : ForgeCore → Except ForgeError α) : Method α :=
  ExceptT.mk (.read fun core => .done ((f core).mapError .error))

/-- A section under the write lock. -/
def locked (f : ForgeCore → Outcome α) : Method α :=
  ExceptT.mk (.write (fun core => ((f core).settle core).2)
    fun core => .done ((f core).settle core).1)

/-- A method whose error is dropped (`let _ =`). -/
def ignored (method : Method α) : Method Unit := ExceptT.mk (method.run >>= fun _ => .done (.ok ()))

/-- A method whose error is a panic (`expect`). -/
def expect (method : Method α) (message : String) : Method α :=
  ExceptT.mk (method.run >>= fun
    | .ok value => .done (.ok value)
    | .error _ => .done (.error (.panicked message)))

/-- `first`; if it fails, `second`, whatever that answers. -/
def orIgnored (first second : Method Unit) : Method Unit :=
  ExceptT.mk (first.run >>= fun
    | .ok () => .done (.ok ())
    | .error _ => second.ignored.run)

/-- Run `after` on what the method ended with and answer with it. -/
def inspect (method : Method α) (after : Except Failure α → Method Unit) : Method α :=
  ExceptT.mk (method.run >>= fun result =>
    (after result).run >>= fun
      | .ok () => .done result
      | .error failure => .done (.error failure))

@[simp] theorem exec_ofExcept (result : Except ForgeError α) (core : ForgeCore) :
    (ofExcept result).run.exec core = (result.mapError .error, core) := rfl

@[simp] theorem exec_reading (f : ForgeCore → Except ForgeError α) (core : ForgeCore) :
    (reading f).run.exec core = ((f core).mapError .error, core) := rfl

@[simp] theorem exec_locked (f : ForgeCore → Outcome α) (core : ForgeCore) :
    (locked f).run.exec core = (f core).settle core := rfl

end Method

/-- A method that ends in a section under the read lock answers of what that section finds. -/
theorem Method.ends_reading {α : Type} (first : Method Unit) (f : ForgeCore → Except ForgeError α)
    (core : ForgeCore) : Program.EndsFrom (fun _ _ => True)
      (fun core reply => ∀ value, reply = .ok value → f core = .ok value)
      (ExceptT.run (first >>= fun _ => Method.reading f)) core := by
  have before : Program.EndsFrom (fun _ _ => True) (fun _ _ => True) first.run core :=
    Program.endsFrom_of_every (fun _ _ => True.intro) _ _
  refine before.bind fun reply found _ => ?_
  cases reply with
  | error failure => exact fun value answered => nomatch answered
  | ok _ =>
    intro last _ value answered
    cases result : f last with
    | error failure =>
      rw [result] at answered
      cases answered
    | ok other =>
      rw [result] at answered
      cases answered
      rfl

def utcNow : Method DateTime := .reading fun core => .ok core.now

namespace ForgeCore

/-- The receipt `append_audit_as` writes, or why it cannot. -/
def auditReceipt (core : ForgeCore) (actor action subject : String) (phase : AuditPhase)
    (detail : AuditDetail) : Except ForgeError AuditEntry :=
  if isBlank actor then .error (.validation "audit actor cannot be empty")
  else if isBlank action then .error (.validation "audit action cannot be empty")
  else
    let entry := { occurredAt := core.now, actor, action, subject, phase, detail }
    match core.storage with
    | none => .ok entry
    | some store =>
      match store.append entry with
      | .ok () => .ok entry
      | .error error => .error error

end ForgeCore

def appendAuditWith (actor action subject : String) (phase : AuditPhase) (detail : AuditDetail) :
    Method Unit :=
  .locked fun core =>
    match core.auditReceipt actor action subject phase detail with
    | .ok entry => .direct [entry] core.state ()
    | .error error => .refuse error

/-- A receipt whose detail is left out here: nothing reads it back. -/
def appendAuditAs (actor action subject : String) (phase : AuditPhase) : Method Unit :=
  appendAuditWith actor action subject phase (.other (.object []))

def appendAudit (action subject : String) (phase : AuditPhase) : Method Unit :=
  appendAuditAs "local" action subject phase

end Jeryu.Core
