import Jeryu.Gitd.Receive
import Jeryu.Gitd.Trunk
import Mathlib.Data.List.Sort

/-!
Which pushes are recorded. A handler lists the refs before `git receive-pack` and after it, and
records a push when the two listings differ, whoever moved the ref.
-/

namespace Jeryu.Gitd

open KeyedMap

namespace BareRepo

/-- `git for-each-ref`: the refs by name, with the objects they come to. -/
def refSnapshot (bare : BareRepo) : List (String × String) :=
  (bare.refs.keys.filterMap fun name => (bare.oidAt name).map fun oid => (name, oid)).insertionSort
    fun entry other => entry.1 ≤ other.1

end BareRepo

/-- The ways a push comes in. -/
inductive Transport where
  | buffered
  | streamed
  | ssh
  deriving DecidableEq

/-- What a handler gets to see of the end of its `git` child. -/
structure ChildEnd where
  /-- The bytes copied into the child, unless the copy failed. -/
  stdin : Option Nat
  stdout : Bool
  stderr : Bool
  waited : Bool
  success : Bool

namespace ChildEnd

variable (ended : ChildEnd)

def status : Except GitdError Unit :=
  if ended.success then .ok () else .error (.gitCommandFailed "git receive-pack")

/-- `run_with_stdin_with_env`, once the child runs. -/
def runWithStdin : Except GitdError Unit :=
  if ended.stdin = none then .error .io
  else if !ended.waited || !ended.stdout || !ended.stderr then .error .io
  else ended.status

/-- `StreamingCommand::pump`. -/
def pump (expectedStdinBytes : Nat) : Except GitdError Unit :=
  if !ended.waited || !ended.stdout then .error .io
  else match ended.stdin with
    | none => .error (.protocol s!"request body truncated: expected {expectedStdinBytes} bytes")
    | some bytes =>
      if !ended.stderr then .error .io
      else if bytes ≠ expectedStdinBytes then
        .error (.protocol s!"request body truncated: expected {expectedStdinBytes} bytes, received {bytes}")
      else ended.status

end ChildEnd

namespace Transport

/-- Whether the handler gets as far as `finish_push`. Over SSH the child's status does not count. -/
def ends (transport : Transport) (expected : Nat) (ended : ChildEnd) : Except GitdError Unit :=
  match transport with
  | .buffered => ended.runWithStdin
  | .streamed => ended.pump expected
  | .ssh => if ended.waited then .ok () else .error .io

/-- A handler that gives up and leaves its child running; a streamed child is killed. -/
def leaves (transport : Transport) (ended : ChildEnd) : Bool :=
  match transport with
  | .buffered => ended.stdin.isNone || !ended.waited || !ended.stdout || !ended.stderr
  | .streamed => false
  | .ssh => !ended.waited

end Transport

/-- How far the handler of a push is. -/
inductive PushPhase where
  | checked
  | begun (before : List (String × String))
  | pumping (before : List (String × String))
  | ended (before : List (String × String))
  | recording
  | marked
  | receipted
  | returned (ok : Bool)
  deriving DecidableEq

structure Push where
  transport : Transport
  contentLength : Nat
  /-- The refs its child has moved. -/
  moved : List String
  /-- Whether its child runs. -/
  child : Bool
  phase : PushPhase

/-- The ref service of a repository, and whether a push observer is wired to the HTTP server. -/
structure PushHost where
  service : RefService
  repo : RepoId
  observer : Bool

/-- The SSH command builds a manager of its own, without an observer. -/
def PushHost.observes (host : PushHost) (transport : Transport) : Bool :=
  host.observer && transport ≠ .ssh

/-- One repository with the pushes to it. What is recorded goes by the push it was recorded for,
    `none` for the ref service. -/
structure Pushes where
  bare : BareRepo
  pushes : Nat → Option Push
  markers : List (Option Nat)
  receipts : List (Option Nat)
  reports : List (Option Nat)

inductive PushEvent where
  | arrive (id : Nat) (transport : Transport) (contentLength : Nat)
  | beginPush (id : Nat) (listed : Bool)
  | spawn (id : Nat) (spawned : Bool)
  | moveRef (id : Nat) (command : ReceivePackCommand)
  | gitEnds (id : Nat) (ended : ChildEnd)
  | finishPush (id : Nat) (listed : Bool)
  | writeMarker (id : Nat) (written : Bool)
  | appendReceipt (id : Nat) (appended : Bool)
  | notify (id : Nat)
  | updateRef (actor name newOid : String) (oldOid : Option String)

namespace Pushes

def put (store : Pushes) (id : Nat) (push : Push) : Pushes :=
  { store with pushes := Function.update store.pushes id (some push) }

/-- `git` takes one command for each ref, and moves the ref unless it is there already. -/
def moves (store : Pushes) (id : Nat) (push : Push) (command : ReceivePackCommand) : Option Pushes :=
  match store.bare.finalRef command.refName with
  | none => none
  | some final =>
    if final ∈ push.moved ∨ store.bare.valueAt final = asked command.newOid then none
    else some { store.put id { push with moved := final :: push.moved } with
      bare := store.bare.take command }

def step (host : PushHost) (store : Pushes) : PushEvent → Option Pushes
  | .arrive id transport contentLength =>
    match store.pushes id with
    | none => some (store.put id ⟨transport, contentLength, [], false, .checked⟩)
    | some _ => none
  | .beginPush id listed =>
    match store.pushes id with
    | some ⟨transport, length, moved, child, .checked⟩ =>
      let phase := if listed then .begun store.bare.refSnapshot else .returned false
      some (store.put id ⟨transport, length, moved, child, phase⟩)
    | _ => none
  | .spawn id spawned =>
    match store.pushes id with
    | some ⟨transport, length, moved, _, .begun before⟩ =>
      let phase := if spawned then .pumping before else .returned false
      some (store.put id ⟨transport, length, moved, spawned, phase⟩)
    | _ => none
  | .moveRef id command =>
    match store.pushes id with
    | some ⟨transport, length, moved, true, phase⟩ =>
      store.moves id ⟨transport, length, moved, true, phase⟩ command
    | _ => none
  | .gitEnds id ended =>
    match store.pushes id with
    | some ⟨transport, length, moved, _, .pumping before⟩ =>
      match transport.ends length ended with
      | .ok () => some (store.put id ⟨transport, length, moved, false, .ended before⟩)
      | .error _ =>
        some (store.put id ⟨transport, length, moved, transport.leaves ended, .returned false⟩)
    | _ => none
  | .finishPush id listed =>
    match store.pushes id with
    | some ⟨transport, length, moved, child, .ended before⟩ =>
      let phase :=
        if !listed then .returned false
        else if store.bare.refSnapshot = before then .returned true
        else .recording
      some (store.put id ⟨transport, length, moved, child, phase⟩)
    | _ => none
  | .writeMarker id written =>
    match store.pushes id with
    | some ⟨transport, length, moved, child, .recording⟩ =>
      if written then
        some { store.put id ⟨transport, length, moved, child, .marked⟩ with
          markers := some id :: store.markers }
      else some (store.put id ⟨transport, length, moved, child, .returned false⟩)
    | _ => none
  | .appendReceipt id appended =>
    match store.pushes id with
    | some ⟨transport, length, moved, child, .marked⟩ =>
      if appended then
        some { store.put id ⟨transport, length, moved, child, .receipted⟩ with
          receipts := some id :: store.receipts }
      else some (store.put id ⟨transport, length, moved, child, .returned false⟩)
    | _ => none
  | .notify id =>
    match store.pushes id with
    | some ⟨transport, length, moved, child, .receipted⟩ =>
      some { store.put id ⟨transport, length, moved, child, .returned true⟩ with
        reports := if host.observes transport then some id :: store.reports else store.reports }
    | _ => none
  | .updateRef actor name newOid oldOid =>
    match host.service.updateRef host.repo store.bare actor name newOid oldOid with
    | .error _ => none
    | .ok bare =>
      some { store with
        bare
        markers := none :: store.markers
        receipts := none :: store.receipts
        reports := if host.observer then none :: store.reports else store.reports }

/-- A repository no push has come to. -/
structure Fresh (store : Pushes) : Prop where
  idle : ∀ id, store.pushes id = none
  markers : store.markers = []
  receipts : store.receipts = []
  reports : store.reports = []

inductive Reachable (host : PushHost) : Pushes → Prop where
  | start {store : Pushes} (fresh : store.Fresh) : Reachable host store
  | step {store store' : Pushes} {event : PushEvent} (reached : Reachable host store)
      (steps : store.step host event = some store') : Reachable host store'

/-- The push is recorded in full. -/
structure Recorded (host : PushHost) (store : Pushes) (id : Nat) : Prop where
  marker : some id ∈ store.markers
  receipt : some id ∈ store.receipts
  report : host.observer = true → some id ∈ store.reports

/-- Nothing is recorded for the push. -/
structure Spared (store : Pushes) (id : Nat) : Prop where
  marker : some id ∉ store.markers
  receipt : some id ∉ store.receipts
  report : some id ∉ store.reports

/-- Pushes are recorded as they should be. -/
structure Exact (host : PushHost) (store : Pushes) : Prop where
  moved : ∀ id push ok, store.pushes id = some push → push.phase = .returned ok → push.moved ≠ [] →
    store.Recorded host id
  still : ∀ id push, store.pushes id = some push → push.moved = [] → store.Spared id

/-- No step that loses a push or records one for nothing: a child moves refs while its handler
    attends to it, over SSH only where nobody observes; the handler of a push that moved a ref meets
    no failure; and the refs it lists differ from the first listing just when its own child moved
    one. -/
def Settled (host : PushHost) (store : Pushes) : PushEvent → Prop
  | .moveRef id _ => ∀ push, store.pushes id = some push →
      (∃ before, push.phase = .pumping before) ∧ (host.observer = true → push.transport ≠ .ssh)
  | .gitEnds id ended => ∀ push, store.pushes id = some push → push.moved ≠ [] →
      push.transport.ends push.contentLength ended = .ok ()
  | .finishPush id listed => ∀ push before, store.pushes id = some push → push.phase = .ended before →
      (push.moved ≠ [] → listed = true) ∧ (store.bare.refSnapshot = before ↔ push.moved = [])
  | .writeMarker _ written => written = true
  | .appendReceipt _ appended => appended = true
  | _ => True

inductive SettledRun (host : PushHost) : Pushes → Prop where
  | start {store : Pushes} (fresh : store.Fresh) : SettledRun host store
  | step {store store' : Pushes} {event : PushEvent} (reached : SettledRun host store)
      (settled : store.Settled host event) (steps : store.step host event = some store') :
      SettledRun host store'

section Moves

variable {host : PushHost} {store store' : Pushes}

/-- What each event does, once it is let through. -/
inductive Move (host : PushHost) (store : Pushes) : PushEvent → Pushes → Prop where
  | arrived {id transport length} (new : store.pushes id = none) :
      Move host store (.arrive id transport length) (store.put id ⟨transport, length, [], false, .checked⟩)
  | began {id transport length moved child listed}
      (here : store.pushes id = some ⟨transport, length, moved, child, .checked⟩) :
      Move host store (.beginPush id listed) (store.put id ⟨transport, length, moved, child,
        if listed then .begun store.bare.refSnapshot else .returned false⟩)
  | spawned {id transport length moved child before spawned}
      (here : store.pushes id = some ⟨transport, length, moved, child, .begun before⟩) :
      Move host store (.spawn id spawned) (store.put id ⟨transport, length, moved, spawned,
        if spawned then .pumping before else .returned false⟩)
  | moved {id transport length moved phase command final}
      (here : store.pushes id = some ⟨transport, length, moved, true, phase⟩)
      (comes : store.bare.finalRef command.refName = some final) (once : final ∉ moved)
      (away : store.bare.valueAt final ≠ asked command.newOid) :
      Move host store (.moveRef id command)
        { store.put id ⟨transport, length, final :: moved, true, phase⟩ with
          bare := store.bare.take command }
  | ended {id transport length moved child before ended}
      (here : store.pushes id = some ⟨transport, length, moved, child, .pumping before⟩)
      (well : transport.ends length ended = .ok ()) :
      Move host store (.gitEnds id ended) (store.put id ⟨transport, length, moved, false, .ended before⟩)
  | gaveUp {id transport length moved child before ended error}
      (here : store.pushes id = some ⟨transport, length, moved, child, .pumping before⟩)
      (fails : transport.ends length ended = .error error) :
      Move host store (.gitEnds id ended)
        (store.put id ⟨transport, length, moved, transport.leaves ended, .returned false⟩)
  | finished {id transport length moved child before listed}
      (here : store.pushes id = some ⟨transport, length, moved, child, .ended before⟩) :
      Move host store (.finishPush id listed) (store.put id ⟨transport, length, moved, child,
        if !listed then .returned false
        else if store.bare.refSnapshot = before then .returned true
        else .recording⟩)
  | wrote {id transport length moved child}
      (here : store.pushes id = some ⟨transport, length, moved, child, .recording⟩) :
      Move host store (.writeMarker id true)
        { store.put id ⟨transport, length, moved, child, .marked⟩ with
          markers := some id :: store.markers }
  | unwritten {id transport length moved child}
      (here : store.pushes id = some ⟨transport, length, moved, child, .recording⟩) :
      Move host store (.writeMarker id false)
        (store.put id ⟨transport, length, moved, child, .returned false⟩)
  | appended {id transport length moved child}
      (here : store.pushes id = some ⟨transport, length, moved, child, .marked⟩) :
      Move host store (.appendReceipt id true)
        { store.put id ⟨transport, length, moved, child, .receipted⟩ with
          receipts := some id :: store.receipts }
  | unappended {id transport length moved child}
      (here : store.pushes id = some ⟨transport, length, moved, child, .marked⟩) :
      Move host store (.appendReceipt id false)
        (store.put id ⟨transport, length, moved, child, .returned false⟩)
  | notified {id transport length moved child}
      (here : store.pushes id = some ⟨transport, length, moved, child, .receipted⟩) :
      Move host store (.notify id)
        { store.put id ⟨transport, length, moved, child, .returned true⟩ with
          reports := if host.observes transport then some id :: store.reports else store.reports }
  | updated {actor name newOid oldOid bare}
      (updates : host.service.updateRef host.repo store.bare actor name newOid oldOid = .ok bare) :
      Move host store (.updateRef actor name newOid oldOid)
        { store with
          bare
          markers := none :: store.markers
          receipts := none :: store.receipts
          reports := if host.observer then none :: store.reports else store.reports }

theorem moves_eq {id : Nat} {push : Push} {command : ReceivePackCommand}
    (moves : store.moves id push command = some store') :
    ∃ final, store.bare.finalRef command.refName = some final ∧ final ∉ push.moved ∧
      store.bare.valueAt final ≠ asked command.newOid ∧
      store' = { store.put id { push with moved := final :: push.moved } with
        bare := store.bare.take command } := by
  unfold Pushes.moves at moves
  cases comes : store.bare.finalRef command.refName with
  | none => simp [comes] at moves
  | some final =>
    simp only [comes] at moves
    split at moves
    · cases moves
    · next open' =>
      have apart := not_or.mp open'
      exact ⟨final, rfl, apart.1, apart.2, (Option.some.inj moves).symm⟩

theorem step_move {event : PushEvent} (steps : store.step host event = some store') :
    Move host store event store' := by
  cases event with
  | arrive id transport length =>
    cases new : store.pushes id with
    | some push => simp [step, new] at steps
    | none =>
      simp only [step, new, Option.some.injEq] at steps
      subst steps
      exact .arrived new
  | beginPush id listed =>
    simp only [step] at steps
    split at steps
    · next here =>
      cases steps
      exact .began here
    · cases steps
  | spawn id spawned =>
    simp only [step] at steps
    split at steps
    · next here =>
      cases steps
      exact .spawned here
    · cases steps
  | moveRef id command =>
    simp only [step] at steps
    split at steps
    · next here =>
      obtain ⟨final, comes, once, away, rfl⟩ := moves_eq steps
      exact .moved here comes once away
    · cases steps
  | gitEnds id ended =>
    simp only [step] at steps
    split at steps
    · next here =>
      split at steps
      · next well =>
        cases steps
        exact .ended here well
      · next fails =>
        cases steps
        exact .gaveUp here fails
    · cases steps
  | finishPush id listed =>
    simp only [step] at steps
    split at steps
    · next here =>
      cases steps
      exact .finished here
    · cases steps
  | writeMarker id written =>
    simp only [step] at steps
    split at steps
    · next here =>
      cases written with
      | true =>
        cases steps
        exact .wrote here
      | false =>
        cases steps
        exact .unwritten here
    · cases steps
  | appendReceipt id appended =>
    simp only [step] at steps
    split at steps
    · next here =>
      cases appended with
      | true =>
        cases steps
        exact .appended here
      | false =>
        cases steps
        exact .unappended here
    · cases steps
  | notify id =>
    simp only [step] at steps
    split at steps
    · next here =>
      cases steps
      exact .notified here
    · cases steps
  | updateRef actor name newOid oldOid =>
    simp only [step] at steps
    split at steps
    · cases steps
    · next updates =>
      cases steps
      exact .updated updates

end Moves

section Settling

variable {host : PushHost} {store store' : Pushes} {id : Nat} {push : Push}

/-- What holds of a push at each point of its handler. -/
structure Fits (host : PushHost) (store : Pushes) (id : Nat) (push : Push) : Prop where
  early : push.phase = .checked ∨ (∃ before, push.phase = .begun before) → push.moved = []
  still : push.moved = [] → store.Spared id
  late : push.phase = .recording ∨ push.phase = .marked ∨ push.phase = .receipted → push.moved ≠ []
  marked : push.phase = .marked ∨ push.phase = .receipted → some id ∈ store.markers
  receipted : push.phase = .receipted → some id ∈ store.receipts
  returned : ∀ ok, push.phase = .returned ok → push.moved ≠ [] → store.Recorded host id
  observed : host.observer = true → push.moved ≠ [] → push.transport ≠ .ssh

structure Kept (host : PushHost) (store : Pushes) : Prop where
  absent : ∀ id, store.pushes id = none → store.Spared id
  fits : ∀ id push, store.pushes id = some push → store.Fits host id push

/-- The same is recorded for the push. -/
structure SameRecords (store store' : Pushes) (id : Nat) : Prop where
  marker : some id ∈ store'.markers ↔ some id ∈ store.markers
  receipt : some id ∈ store'.receipts ↔ some id ∈ store.receipts
  report : some id ∈ store'.reports ↔ some id ∈ store.reports

theorem Spared.same (spared : store.Spared id) (same : store.SameRecords store' id) :
    store'.Spared id where
  marker := by
    rw [same.marker]
    exact spared.marker
  receipt := by
    rw [same.receipt]
    exact spared.receipt
  report := by
    rw [same.report]
    exact spared.report

theorem Fits.same (fits : store.Fits host id push) (same : store.SameRecords store' id) :
    store'.Fits host id push where
  early := fits.early
  still := fun still => (fits.still still).same same
  late := fits.late
  marked := by
    rw [same.marker]
    exact fits.marked
  receipted := by
    rw [same.receipt]
    exact fits.receipted
  returned := by
    intro ok phase moved
    have recorded := fits.returned ok phase moved
    exact ⟨same.marker.mpr recorded.marker, same.receipt.mpr recorded.receipt,
      fun observer => same.report.mpr (recorded.report observer)⟩
  observed := fits.observed

/-- One push has gone on, and the records of the others are as before. -/
theorem Kept.put (kept : store.Kept host) (pushes : store'.pushes = (store.put id push).pushes)
    (same : ∀ other, other ≠ id → store.SameRecords store' other)
    (fits : store'.Fits host id push) : store'.Kept host where
  absent := by
    intro other idle
    have apart : other ≠ id := by
      intro same
      subst same
      simp [pushes, Pushes.put] at idle
    have before : store.pushes other = none := by
      simpa [pushes, Pushes.put, Function.update_of_ne apart] using idle
    exact (kept.absent other before).same (same other apart)
  fits := by
    intro other held there
    by_cases apart : other = id
    · subst apart
      have push_ : push = held := by simpa [pushes, Pushes.put] using there
      rw [← push_]
      exact fits
    · have before : store.pushes other = some held := by
        simpa [pushes, Pushes.put, Function.update_of_ne apart] using there
      exact (kept.fits other held before).same (same other apart)

theorem Kept.put_only (kept : store.Kept host) (fits : store.Fits host id push) :
    (store.put id push).Kept host := by
  have same (other : Nat) : store.SameRecords (store.put id push) other := ⟨Iff.rfl, Iff.rfl, Iff.rfl⟩
  exact kept.put rfl (fun other _ => same other) (fits.same (same id))

/-- A handler that returns at once has moved nothing. -/
theorem Fits.ofStill {transport : Transport} {length : Nat} {child : Bool} {phase : PushPhase}
    (spared : store.Spared id)
    (early : ¬ (phase = .recording ∨ phase = .marked ∨ phase = .receipted)) :
    store.Fits host id ⟨transport, length, [], child, phase⟩ where
  early := fun _ => rfl
  still := fun _ => spared
  late := fun late => absurd late early
  marked := fun late => absurd (.inr late) early
  receipted := fun late => absurd (.inr (.inr late)) early
  returned := fun _ _ moved => absurd rfl moved
  observed := fun _ moved => absurd rfl moved

theorem Kept.move {event : PushEvent} (kept : store.Kept host) (moves : store.Move host event store')
    (settled : store.Settled host event) : store'.Kept host := by
  cases moves with
  | @arrived id transport length new =>
    have spared := kept.absent id new
    exact kept.put_only (.ofStill spared (by simp))
  | @began id transport length moved child listed here =>
    have fits := kept.fits _ _ here
    have nothing : moved = [] := fits.early (.inl rfl)
    subst nothing
    have spared := fits.still rfl
    exact kept.put_only (.ofStill spared (by cases listed <;> simp))
  | @spawned id transport length moved child before spawned here =>
    have fits := kept.fits _ _ here
    have nothing : moved = [] := fits.early (.inr ⟨before, rfl⟩)
    subst nothing
    have spared := fits.still rfl
    exact kept.put_only (.ofStill spared (by cases spawned <;> simp))
  | @moved id transport length moved phase command final here comes once away =>
    obtain ⟨⟨before, pumping⟩, observed⟩ := settled _ here
    have pumping : phase = .pumping before := pumping
    subst pumping
    refine kept.put rfl (fun other _ => ⟨Iff.rfl, Iff.rfl, Iff.rfl⟩) ?_
    exact ⟨by simp, by simp, by simp, by simp, by simp, by simp, fun observer _ => observed observer⟩
  | @ended id transport length moved child before ended here well =>
    have fits := kept.fits _ _ here
    exact kept.put_only ⟨by simp, fits.still, by simp, by simp, by simp, by simp, fits.observed⟩
  | @gaveUp id transport length moved child before ended error here fails =>
    have fits := kept.fits _ _ here
    have nothing : moved = [] := by
      by_contra some
      have well := settled _ here some
      rw [fails] at well
      cases well
    subst nothing
    have spared := fits.still rfl
    exact kept.put_only (.ofStill spared (by simp))
  | @finished id transport length moved child before listed here =>
    have fits := kept.fits _ _ here
    obtain ⟨lists, differs⟩ := settled _ _ here rfl
    by_cases nothing : moved = []
    · subst nothing
      have same := differs.mpr rfl
      have spared := fits.still rfl
      exact kept.put_only (.ofStill spared (by cases listed <;> simp [same]))
    · have listed := lists nothing
      have away : store.bare.refSnapshot ≠ before := fun same => nothing (differs.mp same)
      subst listed
      simp only [Bool.not_true, Bool.false_eq_true, if_false, if_neg away]
      exact kept.put_only ⟨by simp, fits.still, fun _ => nothing, by simp, by simp, by simp, fits.observed⟩
  | @wrote id transport length moved child here =>
    have fits := kept.fits _ _ here
    have some_ : moved ≠ [] := fits.late (.inl rfl)
    refine kept.put rfl ?_ ?_
    · intro other apart
      exact ⟨by simp [apart], Iff.rfl, Iff.rfl⟩
    · exact ⟨by simp, fun nothing => absurd nothing some_, fun _ => some_, by simp, by simp, by simp,
        fits.observed⟩
  | unwritten here => cases settled
  | @appended id transport length moved child here =>
    have fits := kept.fits _ _ here
    have some_ : moved ≠ [] := fits.late (.inr (.inl rfl))
    have marker := fits.marked (.inl rfl)
    refine kept.put rfl ?_ ?_
    · intro other apart
      exact ⟨Iff.rfl, by simp [apart], Iff.rfl⟩
    · exact ⟨by simp, fun nothing => absurd nothing some_, fun _ => some_, fun _ => marker, by simp,
        by simp, fits.observed⟩
  | unappended here => cases settled
  | @notified id transport length moved child here =>
    have fits := kept.fits _ _ here
    have some_ : moved ≠ [] := fits.late (.inr (.inr rfl))
    have marker := fits.marked (.inr rfl)
    have receipt := fits.receipted rfl
    have observed := fits.observed
    refine kept.put rfl ?_ ?_
    · intro other apart
      refine ⟨Iff.rfl, Iff.rfl, ?_⟩
      by_cases observes : host.observes transport = true <;> simp [observes, apart]
    · refine ⟨by simp, fun nothing => absurd nothing some_, fun _ => some_, by simp, by simp, ?_, observed⟩
      intro ok phase nonempty
      refine ⟨marker, receipt, fun observer => ?_⟩
      have apart : transport ≠ .ssh := observed observer some_
      simp [PushHost.observes, observer, apart]
  | @updated actor name newOid oldOid bare updates =>
    have same (other : Nat) : store.SameRecords
        { store with
          bare
          markers := none :: store.markers
          receipts := none :: store.receipts
          reports := if host.observer then none :: store.reports else store.reports } other := by
      refine ⟨by simp, by simp, ?_⟩
      by_cases observer : host.observer = true <;> simp [observer]
    exact ⟨fun other idle => (kept.absent other idle).same (same other),
      fun other push there => (kept.fits other push there).same (same other)⟩

theorem Fresh.kept (fresh : store.Fresh) : store.Kept host where
  absent := by
    intro id _
    exact ⟨by simp [fresh.markers], by simp [fresh.receipts], by simp [fresh.reports]⟩
  fits := by
    intro id push there
    rw [fresh.idle id] at there
    cases there

theorem SettledRun.kept (run : SettledRun host store) : store.Kept host := by
  induction run with
  | start fresh => exact fresh.kept
  | step _ settled steps ih => exact ih.move (step_move steps) settled

/-- Every push that moved a ref is recorded once its handler has returned, and no other is. -/
theorem pushes_recorded (run : SettledRun host store) : store.Exact host := by
  have kept := run.kept
  refine ⟨?_, ?_⟩
  · intro id push ok there returned moved
    exact (kept.fits id push there).returned ok returned moved
  · intro id push there still
    exact (kept.fits id push there).still still

end Settling

section Alone

variable {host : PushHost} {store store' : Pushes} {id : Nat} {push : Push}

/-- Between its first listing of the refs and its second, with what it listed first. -/
inductive Listing : PushPhase → List (String × String) → Prop where
  | begun (before) : Listing (.begun before) before
  | pumping (before) : Listing (.pumping before) before
  | ended (before) : Listing (.ended before) before

/-- A settled step but for the listings, which only the push's own child comes between. -/
def Alone (host : PushHost) (store : Pushes) (event : PushEvent) : Prop :=
  match event with
  | .moveRef id _ => store.Settled host event ∧ ∀ other push before,
      store.pushes other = some push → Listing push.phase before → other = id
  | .updateRef _ _ _ _ => ∀ other push before, store.pushes other = some push → ¬ Listing push.phase before
  | .finishPush id listed => ∀ push, store.pushes id = some push → push.moved ≠ [] → listed = true
  | _ => store.Settled host event

inductive AloneRun (host : PushHost) : Pushes → Prop where
  | start {store : Pushes} (fresh : store.Fresh) : AloneRun host store
  | step {store store' : Pushes} {event : PushEvent} (reached : AloneRun host store)
      (alone : store.Alone host event) (steps : store.step host event = some store') :
      AloneRun host store'

/-- The ref is as it was listed. -/
def Unmoved (bare : BareRepo) (before : List (String × String)) (name : String) : Prop :=
  ∀ oid, (name, oid) ∈ before ↔ bare.valueAt name = some oid

/-- What has come of the refs since they were listed. -/
structure Since (bare : BareRepo) (before : List (String × String)) (moved : List String) : Prop where
  still : moved = [] → bare.refSnapshot = before
  direct : ∀ name ∈ moved, bare.isSymbolic name = false
  unmoved : ∀ name, bare.isSymbolic name = false → (Unmoved bare before name ↔ name ∉ moved)

theorem oidAt_direct {bare : BareRepo} {name : String} (direct : bare.isSymbolic name = false) :
    bare.oidAt name = bare.valueAt name := by
  have ends : bare.finalRef name = some name := follow_of_direct direct
  simp [BareRepo.oidAt, ends]

theorem mem_refSnapshot {bare : BareRepo} {name oid : String} :
    (name, oid) ∈ bare.refSnapshot ↔ name ∈ bare.refs.keys ∧ bare.oidAt name = some oid := by
  simp only [BareRepo.refSnapshot, List.mem_insertionSort, List.mem_filterMap, Option.map_eq_some_iff,
    Prod.mk.injEq]
  constructor
  · intro listed
    obtain ⟨other, member, found, value, rfl, rfl⟩ := listed
    exact ⟨member, value⟩
  · intro held
    exact ⟨name, held.1, oid, held.2, rfl, rfl⟩

theorem unmoved_now {bare : BareRepo} {name : String} (direct : bare.isSymbolic name = false) :
    Unmoved bare bare.refSnapshot name := by
  intro oid
  rw [mem_refSnapshot, oidAt_direct direct]
  constructor
  · exact And.right
  · intro value
    refine ⟨?_, value⟩
    unfold BareRepo.valueAt at value
    split at value
    · next found => exact HashMap.mem_keys_of_lookup found
    · cases value

theorem since_now (bare : BareRepo) : Since bare bare.refSnapshot [] where
  still := fun _ => rfl
  direct := by simp
  unmoved := fun name direct => by simp [unmoved_now direct]

/-- The listings differ when the child has moved a ref. -/
theorem Since.differs {bare : BareRepo} {before : List (String × String)} {moved : List String}
    (since : Since bare before moved) : bare.refSnapshot = before ↔ moved = [] := by
  constructor
  · intro same
    rcases moved with _ | ⟨name, rest⟩
    · rfl
    · have direct := since.direct name List.mem_cons_self
      have unmoved := unmoved_now direct
      rw [same] at unmoved
      exact absurd List.mem_cons_self ((since.unmoved name direct).mp unmoved)
  · exact since.still

theorem isSymbolic_point {bare : BareRepo} {final oid name : String}
    (direct : bare.isSymbolic final = false) :
    (bare.point final oid).isSymbolic name = bare.isSymbolic name := by
  by_cases same : name = final
  · subst same
    rw [direct]
    unfold BareRepo.isSymbolic
    rw [lookup_point, if_pos rfl]
    cases asked oid <;> rfl
  · unfold BareRepo.isSymbolic
    rw [lookup_point, if_neg same]

theorem Since.take {bare : BareRepo} {before : List (String × String)} {moved : List String}
    {command : ReceivePackCommand} {final : String} (since : Since bare before moved)
    (comes : bare.finalRef command.refName = some final) (once : final ∉ moved)
    (away : bare.valueAt final ≠ asked command.newOid) :
    Since (bare.take command) before (final :: moved) := by
  have direct : bare.isSymbolic final = false := follow_direct comes
  have takes : bare.take command = bare.point final command.newOid := by
    simp [BareRepo.take, comes]
  rw [takes]
  refine ⟨by simp, ?_, ?_⟩
  · intro name member
    rw [isSymbolic_point direct]
    rcases List.mem_cons.mp member with rfl | member
    · exact direct
    · exact since.direct name member
  · intro name plain
    rw [isSymbolic_point direct] at plain
    by_cases same : name = final
    · subst same
      have before_ := (since.unmoved name direct).mpr once
      have moves : ¬ Unmoved (bare.point name command.newOid) before name := by
        intro unmoved
        apply away
        apply Option.ext
        intro oid
        have now := unmoved oid
        rw [valueAt_point, if_pos rfl] at now
        exact (before_ oid).symm.trans now
      simp [moves]
    · have value : Unmoved (bare.point final command.newOid) before name ↔ Unmoved bare before name := by
        simp only [Unmoved, valueAt_point, if_neg same]
      rw [value, since.unmoved name plain]
      simp [same]

/-- Every push between its listings sees what its own child has done. -/
def Watched (store : Pushes) : Prop :=
  ∀ id push before, store.pushes id = some push → Listing push.phase before →
    Since store.bare before push.moved

theorem Watched.put (watched : store.Watched) (bare : store'.bare = store.bare)
    (pushes : store'.pushes = (store.put id push).pushes)
    (since : ∀ before, Listing push.phase before → Since store.bare before push.moved) :
    store'.Watched := by
  intro other held before there listing
  rw [bare]
  by_cases apart : other = id
  · subst apart
    have push_ : push = held := by simpa [pushes, Pushes.put] using there
    subst push_
    exact since before listing
  · have same : store.pushes other = some held := by
      simpa [pushes, Pushes.put, Function.update_of_ne apart] using there
    exact watched other held before same listing

theorem Watched.move {event : PushEvent} (watched : store.Watched) (kept : store.Kept host)
    (moves : store.Move host event store') (alone : store.Alone host event) : store'.Watched := by
  cases moves with
  | arrived new =>
    refine watched.put rfl rfl ?_
    intro before listing
    cases listing
  | @began id transport length moved child listed here =>
    have nothing : moved = [] := (kept.fits _ _ here).early (.inl rfl)
    subst nothing
    refine watched.put rfl rfl ?_
    intro before listing
    cases listed <;> cases listing
    exact since_now store.bare
  | @spawned id transport length moved child before spawned here =>
    refine watched.put rfl rfl ?_
    have since := watched _ _ _ here (.begun before)
    intro before' listing
    cases spawned <;> cases listing
    exact since
  | @moved id transport length moved phase command final here comes once away =>
    obtain ⟨settled, only⟩ := alone
    obtain ⟨⟨before, pumping⟩, -⟩ := settled _ here
    have pumping : phase = .pumping before := pumping
    subst pumping
    have since := watched _ _ _ here (.pumping before)
    intro other held before' there listing
    by_cases apart : other = id
    · subst apart
      simp only [Pushes.put, Function.update_self, Option.some.injEq] at there
      subst there
      cases listing
      exact since.take comes once away
    · simp only [Pushes.put, Function.update_of_ne apart] at there
      exact absurd (only other held before' there listing) apart
  | @ended id transport length moved child before ended here well =>
    have since := watched _ _ _ here (.pumping before)
    refine watched.put rfl rfl ?_
    intro before' listing
    cases listing
    exact since
  | gaveUp here fails =>
    refine watched.put rfl rfl ?_
    intro before listing
    cases listing
  | @finished id transport length moved child before listed here =>
    refine watched.put rfl rfl ?_
    intro before' listing
    cases listed
    · cases listing
    · by_cases same : store.bare.refSnapshot = before
      · simp only [Bool.not_true, Bool.false_eq_true, if_false, if_pos same] at listing
        cases listing
      · simp only [Bool.not_true, Bool.false_eq_true, if_false, if_neg same] at listing
        cases listing
  | wrote here | unwritten here | appended here | unappended here | notified here =>
    refine watched.put rfl rfl ?_
    intro before listing
    cases listing
  | updated updates =>
    intro other held before there listing
    exact absurd listing (alone other held before there)

theorem Watched.settled {event : PushEvent} (watched : store.Watched)
    (alone : store.Alone host event) : store.Settled host event := by
  cases event with
  | moveRef => exact alone.1
  | finishPush id listed =>
    intro push before there phase
    have since := watched _ _ before there (phase ▸ .ended before)
    exact ⟨alone push there, since.differs⟩
  | updateRef => trivial
  | _ => exact alone

theorem AloneRun.settledRun (run : AloneRun host store) : SettledRun host store ∧ store.Watched := by
  induction run with
  | start fresh =>
    refine ⟨.start fresh, ?_⟩
    intro id push before there
    rw [fresh.idle id] at there
    cases there
  | step _ alone steps ih =>
    obtain ⟨run, watched⟩ := ih
    have moves := step_move steps
    exact ⟨.step run (watched.settled alone) steps, watched.move run.kept moves alone⟩

/-- Pushes are recorded as they should be where no ref moves between the listings of a push but by
    its own child. -/
theorem pushes_recorded_alone (run : AloneRun host store) : store.Exact host :=
  pushes_recorded run.settledRun.1

end Alone

end Pushes

namespace PushDemo

def git : Git where
  checkRefFormat _ := true
  isAncestor _ _ _ := .ok true
  verifyCommit _ _ := .ok ()
  mergeTree _ _ _ := .error .io
  commitTree _ _ _ _ _ := .error .io
  rejectOversizedRawBlobs _ _ := .ok ()
  pointsAt _ _ _ := true

def host : PushHost := ⟨⟨git, ProtectedRefRule.defaultPhase1Rules⟩, ⟨"acme", "web"⟩, true⟩

def idle : Pushes := ⟨⟨∅, [], ∅, false, true⟩, fun _ => none, [], [], []⟩

/-- A branch made by a push. -/
def topic : ReceivePackCommand := ⟨ZERO_OID, "1111111111111111111111111111111111111111", "refs/heads/topic"⟩

def well : ChildEnd := ⟨some 9, true, true, true, true⟩

/-- One push, with nothing else going on. -/
def one : List PushEvent :=
  [.arrive 0 .streamed 9, .beginPush 0 true, .spawn 0 true, .moveRef 0 topic, .gitEnds 0 well,
    .finishPush 0 true, .writeMarker 0 true, .appendReceipt 0 true, .notify 0]

/-- A push whose only command `git` refuses, with another push between its listings. -/
def overlapping : List PushEvent :=
  [.arrive 1 .buffered 9, .beginPush 1 true, .spawn 1 true] ++ one ++
    [.gitEnds 1 well, .finishPush 1 true, .writeMarker 1 true, .appendReceipt 1 true, .notify 1]

def play (events : List PushEvent) : Option Pushes := events.foldlM (Pushes.step host) idle

theorem reachable_play {store store' : Pushes} (reached : Pushes.Reachable host store)
    (events : List PushEvent) (runs : events.foldlM (Pushes.step host) store = some store') :
    Pushes.Reachable host store' := by
  induction events generalizing store with
  | nil =>
    cases runs
    exact reached
  | cons event rest ih =>
    simp only [List.foldlM_cons, Option.bind_eq_bind, Option.bind_eq_some_iff] at runs
    obtain ⟨next, steps, runs⟩ := runs
    exact ih (.step reached steps) runs

theorem fresh : idle.Fresh := ⟨fun _ => rfl, rfl, rfl, rfl⟩

def stored (events : List PushEvent) : Pushes := (play events).getD idle

theorem one_settled : Pushes.SettledRun host (stored one) := by
  have arrived := @Pushes.AloneRun.step host _ _ (.arrive 0 .streamed 9) (.start fresh) trivial rfl
  have begun := @Pushes.AloneRun.step host _ _ (.beginPush 0 true) arrived trivial rfl
  have spawned := @Pushes.AloneRun.step host _ _ (.spawn 0 true) begun trivial rfl
  have moved := @Pushes.AloneRun.step host _ _ (.moveRef 0 topic) spawned (by
    refine ⟨?_, ?_⟩
    · intro push there
      cases there
      exact ⟨⟨_, rfl⟩, fun _ => by decide⟩
    · intro other push before there _
      by_contra apart
      simp [Pushes.put, idle, apart] at there) rfl
  have ended := @Pushes.AloneRun.step host _ _ (.gitEnds 0 well) moved (by
    intro push there _
    cases there
    rfl) rfl
  have finished := @Pushes.AloneRun.step host _ _ (.finishPush 0 true) ended (fun _ _ _ => rfl) rfl
  have marked := @Pushes.AloneRun.step host _ _ (.writeMarker 0 true) finished rfl rfl
  have receipted := @Pushes.AloneRun.step host _ _ (.appendReceipt 0 true) marked rfl rfl
  have notified := @Pushes.AloneRun.step host _ _ (.notify 0) receipted trivial rfl
  exact notified.settledRun.1

end PushDemo

theorem pushes_recorded_demo :
    (PushDemo.stored PushDemo.one).markers = [some 0] ∧ (PushDemo.stored PushDemo.one).Exact PushDemo.host :=
  ⟨by decide +kernel, Pushes.pushes_recorded PushDemo.one_settled⟩

/-- A push that moved nothing is recorded for what another moved meanwhile. -/
theorem overlapping_push_recorded :
    ∃ store push, Pushes.Reachable PushDemo.host store ∧ store.pushes 1 = some push ∧
      push.moved = [] ∧ some 1 ∈ store.markers ∧ some 1 ∈ store.reports ∧
      ¬ store.Exact PushDemo.host := by
  have runs : PushDemo.play PushDemo.overlapping = some (PushDemo.stored PushDemo.overlapping) := by
    have some_ : (PushDemo.play PushDemo.overlapping).isSome = true := by decide +kernel
    obtain ⟨store, same⟩ := Option.isSome_iff_exists.mp some_
    simp [PushDemo.stored, same]
  have held : ((PushDemo.stored PushDemo.overlapping).pushes 1).map Push.moved = some [] := by
    decide +kernel
  obtain ⟨push, there, still⟩ := Option.map_eq_some_iff.mp held
  have marked : some 1 ∈ (PushDemo.stored PushDemo.overlapping).markers := by decide +kernel
  refine ⟨_, push, PushDemo.reachable_play (.start PushDemo.fresh) _ runs, there, still, marked,
    by decide +kernel, ?_⟩
  intro exact_
  exact (exact_.still 1 push there still).marker marked

end Jeryu.Gitd
