import Jeryu.Gitd.Receive
import Mathlib.Logic.Relation

/-!
The gate that bounds how many pack RPCs run at once, the permits that its admissions hold, and the
record each of them leaves behind.
-/

namespace Jeryu.Gitd

open Relation

/-- The longest wait a gate may be configured with, in nanoseconds. -/
def maxWait : Nat := 300 * 10 ^ 9

def retryAfterSecs : Nat := 5

structure PackRpcGate where
  limit : Nat
  wait : Nat
  positive : 0 < limit
  bounded : wait ≤ maxWait

structure PackRpcPermit where
  waited : Nat
  running : Nat

structure PackRpcBusy where
  limit : Nat
  waited : Nat

inductive Outcome where
  | ok
  | busy
  | error
  deriving DecidableEq

structure PackRpcRecord where
  service : String
  repo : String
  bytesIn : Nat
  bytesOut : Nat
  wait : Nat
  duration : Nat
  running : Nat
  limit : Nat
  outcome : Outcome

/-- An admission that is open; whether it is, is told by the phase of its task. -/
structure PackRpcAdmission where
  permit : Option PackRpcPermit
  record : PackRpcRecord
  started : Nat

/-- What a task finds at the head of the waiting loop. -/
inductive Turn where
  | slot
  | busy
  | wait
  deriving DecidableEq

namespace PackRpcGate

def new (limit wait : Nat) : PackRpcGate :=
  ⟨max limit 1, min wait maxWait, by omega, by omega⟩

variable (gate : PackRpcGate)

def turn (started now running : Nat) : Turn :=
  if gate.limit ≤ running then
    if started + gate.wait ≤ now then .busy else .wait
  else .slot

def newRecord (service : PackService) (repo : String) (bytesIn : Nat) : PackRpcRecord :=
  ⟨service.httpName, repo, bytesIn, 0, 0, 0, 0, gate.limit, .busy⟩

def recordStreamed (service : PackService) (repo : String) (bytesIn now : Nat) : PackRpcAdmission :=
  ⟨none, { gate.newRecord service repo bytesIn with limit := 0 }, now⟩

def admission (service : PackService) (repo : String) (bytesIn : Nat) (permit : PackRpcPermit) (now : Nat) :
    PackRpcAdmission :=
  ⟨some permit, { gate.newRecord service repo bytesIn with wait := permit.waited, running := permit.running }, now⟩

def busyRecord (service : PackService) (repo : String) (bytesIn : Nat) (busy : PackRpcBusy) : PackRpcRecord :=
  { gate.newRecord service repo bytesIn with wait := busy.waited }

end PackRpcGate

def PackRpcBusy.text (busy : PackRpcBusy) : String :=
  s!"{busy.limit} pack RPCs are already running; retry in {retryAfterSecs}s"

/-- How the call under an admission ends. A call that fails or panics leaves the admission to be
    dropped, or finished with nothing. -/
inductive RpcEnd where
  | ok (bytesOut : Nat)
  | failed
  | panicked

def RpcEnd.bytesOut : RpcEnd → Option Nat
  | ok bytes => some bytes
  | failed => none
  | panicked => none

def PackRpcAdmission.close (admission : PackRpcAdmission) (duration : Nat) (bytesOut : Option Nat) :
    PackRpcRecord :=
  match bytesOut with
  | some bytes => { admission.record with duration := duration, bytesOut := bytes, outcome := .ok }
  | none => { admission.record with duration := duration, outcome := .error }

theorem outcome_close (admission : PackRpcAdmission) (duration : Nat) (end_ : RpcEnd) :
    (admission.close duration end_.bytesOut).outcome = .ok ↔ ∃ bytes, end_ = .ok bytes := by
  cases end_ with
  | ok bytes => exact ⟨fun _ => ⟨bytes, rfl⟩, fun _ => rfl⟩
  | failed => exact ⟨fun ok => (nomatch ok), fun ⟨_, ok⟩ => (nomatch ok)⟩
  | panicked => exact ⟨fun ok => (nomatch ok), fun ⟨_, ok⟩ => (nomatch ok)⟩

/-- What asks for a permit: a bare `acquire`, or an RPC that is `admitted`. -/
inductive Call where
  | acquire
  | admitted (service : PackService) (repo : String) (bytesIn : Nat)

inductive Task where
  | acquiring (call : Call) (started : Nat)
  | asleep (call : Call) (started : Nat)
  | refused (call : Call) (busy : PackRpcBusy)
  | turnedAway (record : PackRpcRecord) (message : String)
  | permitted (permit : PackRpcPermit)
  | dropped
  | serving (admission : PackRpcAdmission)
  | closing (admission : PackRpcAdmission) (end_ : RpcEnd) (duration : Nat)
  | recording (admission : PackRpcAdmission) (end_ : RpcEnd) (duration : Nat)
  | ended (admission : PackRpcAdmission) (end_ : RpcEnd) (duration : Nat)
  /-- A permit is gone and the waiters are still to be woken. -/
  | notifying (closed : Option (PackRpcAdmission × RpcEnd × Nat))

namespace Task

/-- A task with a permit that is not dropped. -/
def live : Task → Bool
  | permitted _ => true
  | serving admission => admission.permit.isSome
  | closing admission _ _ => admission.permit.isSome
  | _ => false

/-- The records that a task has written. -/
def written : Task → List PackRpcRecord
  | turnedAway record _ => [record]
  | ended admission end_ duration => [admission.close duration end_.bytesOut]
  | _ => []

def wake : Task → Task
  | asleep call started => acquiring call started
  | task => task

/-- The task that has just got a permit. -/
def holding (gate : PackRpcGate) (permit : PackRpcPermit) (now : Nat) : Call → Task
  | .acquire => permitted permit
  | .admitted service repo bytesIn => serving (gate.admission service repo bytesIn permit now)

/-- What is left of a task whose drop of a permit has woken the waiters. -/
def afterwards : Option (PackRpcAdmission × RpcEnd × Nat) → Task
  | none => dropped
  | some (admission, end_, duration) => recording admission end_ duration

end Task

structure GateState where
  now : Nat
  running : Nat
  tasks : List Task
  journal : List (Nat × PackRpcRecord)

namespace GateState

def start : GateState := ⟨0, 0, [], []⟩

/-- The number of live permits. -/
def permits (s : GateState) : Nat := s.tasks.countP Task.live

def recordsOf (s : GateState) (i : Nat) : List PackRpcRecord :=
  (s.journal.filter fun entry => entry.1 = i).map Prod.snd

end GateState

/-- A section under the lock is one step, and time goes on in it until `later`. -/
inductive PackRpcGate.Step (gate : PackRpcGate) : GateState → GateState → Prop where
  | tick {s : GateState} {later : Nat} : s.now ≤ later → Step gate s { s with now := later }
  | enter {s : GateState} (call : Call) :
      Step gate s { s with tasks := s.tasks ++ [.acquiring call s.now] }
  | stream {s : GateState} (service : PackService) (repo : String) (bytesIn : Nat) :
      Step gate s { s with tasks := s.tasks ++ [.serving (gate.recordStreamed service repo bytesIn s.now)] }
  | take {s : GateState} {i : Nat} {call : Call} {started later : Nat} :
      s.tasks[i]? = some (.acquiring call started) → gate.turn started s.now s.running = .slot → s.now ≤ later →
      Step gate s { s with
        now := later, running := s.running + 1,
        tasks := s.tasks.set i (Task.holding gate ⟨later - started, s.running + 1⟩ later call) }
  | refuse {s : GateState} {i : Nat} {call : Call} {started later : Nat} :
      s.tasks[i]? = some (.acquiring call started) → gate.turn started s.now s.running = .busy → s.now ≤ later →
      Step gate s { s with now := later, tasks := s.tasks.set i (.refused call ⟨gate.limit, later - started⟩) }
  | sleep {s : GateState} {i : Nat} {call : Call} {started : Nat} :
      s.tasks[i]? = some (.acquiring call started) → gate.turn started s.now s.running = .wait →
      Step gate s { s with tasks := s.tasks.set i (.asleep call started) }
  -- a waiter also wakes when its time is over, and may wake for no reason
  | wake {s : GateState} {i : Nat} {call : Call} {started : Nat} :
      s.tasks[i]? = some (.asleep call started) →
      Step gate s { s with tasks := s.tasks.set i (.acquiring call started) }
  | dropPermit {s : GateState} {i : Nat} {permit : PackRpcPermit} :
      s.tasks[i]? = some (.permitted permit) →
      Step gate s { s with running := s.running - 1, tasks := s.tasks.set i (.notifying none) }
  | close {s : GateState} {i : Nat} {admission : PackRpcAdmission} (end_ : RpcEnd) {later : Nat} :
      s.tasks[i]? = some (.serving admission) → s.now ≤ later →
      Step gate s { s with
        now := later, tasks := s.tasks.set i (.closing admission end_ (later - admission.started)) }
  | dropHeld {s : GateState} {i : Nat} {admission : PackRpcAdmission} {permit : PackRpcPermit} {end_ : RpcEnd}
      {duration : Nat} :
      s.tasks[i]? = some (.closing admission end_ duration) → admission.permit = some permit →
      Step gate s { s with
        running := s.running - 1, tasks := s.tasks.set i (.notifying (some (admission, end_, duration))) }
  | dropNone {s : GateState} {i : Nat} {admission : PackRpcAdmission} {end_ : RpcEnd} {duration : Nat} :
      s.tasks[i]? = some (.closing admission end_ duration) → admission.permit = none →
      Step gate s { s with tasks := s.tasks.set i (.recording admission end_ duration) }
  | notifyAll {s : GateState} {i : Nat} {closed : Option (PackRpcAdmission × RpcEnd × Nat)} :
      s.tasks[i]? = some (.notifying closed) →
      Step gate s { s with tasks := (s.tasks.map Task.wake).set i (Task.afterwards closed) }
  | emit {s : GateState} {i : Nat} {admission : PackRpcAdmission} {end_ : RpcEnd} {duration : Nat} :
      s.tasks[i]? = some (.recording admission end_ duration) →
      Step gate s { s with
        tasks := s.tasks.set i (.ended admission end_ duration)
        journal := s.journal ++ [(i, admission.close duration end_.bytesOut)] }
  | emitBusy {s : GateState} {i : Nat} {service : PackService} {repo : String} {bytesIn : Nat}
      {busy : PackRpcBusy} :
      s.tasks[i]? = some (.refused (.admitted service repo bytesIn) busy) →
      Step gate s { s with
        tasks := s.tasks.set i (.turnedAway (gate.busyRecord service repo bytesIn busy) busy.text)
        journal := s.journal ++ [(i, gate.busyRecord service repo bytesIn busy)] }

def PackRpcGate.Reachable (gate : PackRpcGate) (s : GateState) : Prop :=
  ReflTransGen gate.Step .start s

section Lists

variable {tasks : List Task} {old : Task} {i : Nat}

theorem permits_set (here : tasks[i]? = some old) (new : Task) :
    (tasks.set i new).countP Task.live + old.live.toNat = tasks.countP Task.live + new.live.toNat := by
  induction tasks generalizing i with
  | nil => cases here
  | cons task tasks ih =>
    cases i with
    | zero =>
      obtain rfl : task = old := Option.some.inj here
      rw [List.set_cons_zero, List.countP_cons, List.countP_cons]
      cases task.live <;> cases new.live <;> simp
    | succ i =>
      have rest := ih here
      rw [List.set_cons_succ, List.countP_cons, List.countP_cons]
      omega

theorem permits_wake : (tasks.map Task.wake).countP Task.live = tasks.countP Task.live := by
  rw [List.countP_map]
  congr 1
  funext task
  cases task <;> rfl

theorem permits_pos (here : tasks[i]? = some old) (live : old.live = true) : 0 < tasks.countP Task.live :=
  List.countP_pos_iff.mpr ⟨old, List.mem_of_getElem? here, live⟩

theorem wake_getElem? (here : tasks[i]? = some old) : (tasks.map Task.wake)[i]? = some old.wake := by
  rw [List.getElem?_map, here]
  rfl

/-- The records that the tasks say they have written. -/
def writtenBy (tasks : List Task) (i : Nat) : List PackRpcRecord := (tasks[i]?).elim [] Task.written

theorem writtenBy_of (here : tasks[i]? = some old) : writtenBy tasks i = old.written := by
  rw [writtenBy, here]
  rfl

theorem writtenBy_set_self (here : tasks[i]? = some old) (new : Task) :
    writtenBy (tasks.set i new) i = new.written := by
  obtain ⟨bound, -⟩ := List.getElem?_eq_some_iff.mp here
  rw [writtenBy, List.getElem?_set_self bound]
  rfl

theorem writtenBy_set_other {j : Nat} (other : i ≠ j) (new : Task) :
    writtenBy (tasks.set i new) j = writtenBy tasks j := by
  rw [writtenBy, List.getElem?_set_ne other]
  rfl

theorem writtenBy_set (here : tasks[i]? = some old) {new : Task} (same : new.written = old.written) (j : Nat) :
    writtenBy (tasks.set i new) j = writtenBy tasks j := by
  by_cases other : i = j
  · subst other
    rw [writtenBy_set_self here, writtenBy_of here, same]
  · exact writtenBy_set_other other new

theorem writtenBy_append {new : Task} (nothing : new.written = []) (j : Nat) :
    writtenBy (tasks ++ [new]) j = writtenBy tasks j := by
  rcases Nat.lt_trichotomy j tasks.length with below | rfl | above
  · rw [writtenBy, List.getElem?_append_left below]
    rfl
  · simp [writtenBy, nothing]
  · have outside : (tasks ++ [new]).length ≤ j := by
      rw [List.length_append]
      exact above
    rw [writtenBy, writtenBy, List.getElem?_eq_none outside, List.getElem?_eq_none (Nat.le_of_lt above)]

theorem writtenBy_wake (j : Nat) : writtenBy (tasks.map Task.wake) j = writtenBy tasks j := by
  rw [writtenBy, writtenBy, List.getElem?_map]
  cases tasks[j]? with
  | none => rfl
  | some task => cases task <;> rfl

end Lists

/-- A waiter sleeps only where all slots are held, or where a drop is still to wake it. -/
def GateState.Awake (gate : PackRpcGate) (s : GateState) : Prop :=
  ∀ call started, Task.asleep call started ∈ s.tasks →
    gate.limit ≤ s.running ∨ ∃ closed, Task.notifying closed ∈ s.tasks

structure GateState.Sound (gate : PackRpcGate) (s : GateState) : Prop where
  counted : s.running = s.permits
  room : s.running ≤ gate.limit
  records : ∀ i, s.recordsOf i = writtenBy s.tasks i
  awake : s.Awake gate

namespace GateState

variable {gate : PackRpcGate} {s s' : GateState} {i : Nat} {old new : Task}

theorem turn_slot {started now running : Nat} : gate.turn started now running = .slot ↔ running < gate.limit := by
  unfold PackRpcGate.turn
  by_cases full : gate.limit ≤ running
  · rw [if_pos full]
    by_cases late : started + gate.wait ≤ now
    · simp [late, full]
    · simp [late, full]
  · simp [full, Nat.lt_of_not_le full]

theorem turn_busy {started now running : Nat} :
    gate.turn started now running = .busy ↔ gate.limit ≤ running ∧ started + gate.wait ≤ now := by
  unfold PackRpcGate.turn
  by_cases full : gate.limit ≤ running
  · rw [if_pos full]
    by_cases late : started + gate.wait ≤ now
    · simp [late, full]
    · simp [late]
  · simp [full]

theorem turn_wait {started now running : Nat} (waits : gate.turn started now running = .wait) :
    gate.limit ≤ running := by
  by_contra free
  rw [turn_slot.mpr (Nat.lt_of_not_le free)] at waits
  cases waits

theorem sound_start : (start).Sound gate where
  counted := rfl
  room := Nat.zero_le _
  records _ := rfl
  awake _ _ mem := (nomatch mem)

theorem recordsOf_append {entry : Nat × PackRpcRecord} (tasks : List Task) (j : Nat) :
    recordsOf { s with tasks := tasks, journal := s.journal ++ [entry] } j =
      s.recordsOf j ++ if entry.1 = j then [entry.2] else [] := by
  by_cases here : entry.1 = j
  · simp [recordsOf, List.filter_append, here]
  · simp [recordsOf, List.filter_append, here]

/-- A task that writes its record: nothing came of it before. -/
theorem records_emit (sound : s.Sound gate) (here : s.tasks[i]? = some old) (nothing : old.written = [])
    {record : PackRpcRecord} (written : new.written = [record]) (j : Nat) :
    recordsOf { s with tasks := s.tasks.set i new, journal := s.journal ++ [(i, record)] } j =
      writtenBy (s.tasks.set i new) j := by
  rw [recordsOf_append, sound.records]
  by_cases same : i = j
  · subst same
    rw [writtenBy_of here, writtenBy_set_self here, nothing, written]
    simp
  · rw [writtenBy_set_other same]
    simp [same]

theorem awake_set (awake : s.Awake gate) (here : s.tasks[i]? = some old) (quiet : ∀ closed, old ≠ .notifying closed)
    {running : Nat} (kept : s.running ≤ running) (sleeps : ∀ call started, new = .asleep call started → gate.limit ≤ running)
    {now : Nat} {journal : List (Nat × PackRpcRecord)} : Awake gate ⟨now, running, s.tasks.set i new, journal⟩ := by
  intro call started mem
  obtain ⟨bound, here⟩ := List.getElem?_eq_some_iff.mp here
  rcases List.mem_or_eq_of_mem_set mem with mem | same
  · rcases awake call started mem with full | ⟨closed, pending⟩
    · exact .inl (Nat.le_trans full kept)
    · right
      obtain ⟨j, bound', there⟩ := List.getElem_of_mem pending
      have other : i ≠ j := by
        intro same
        subst same
        exact quiet closed (here.symm.trans there)
      exact ⟨closed, List.mem_of_getElem? (i := j) (by
        rw [List.getElem?_set_ne other, List.getElem?_eq_getElem bound', there])⟩
  · exact .inl (sleeps call started same.symm)

theorem awake_notifying (here : s.tasks[i]? = some old) (closed : Option (PackRpcAdmission × RpcEnd × Nat))
    {now running : Nat} {journal : List (Nat × PackRpcRecord)} :
    Awake gate ⟨now, running, s.tasks.set i (.notifying closed), journal⟩ := by
  intro call started mem
  obtain ⟨bound, -⟩ := List.getElem?_eq_some_iff.mp here
  exact .inr ⟨closed, List.mem_set bound _⟩

theorem awake_append (awake : s.Awake gate) (woken : ∀ call started, new ≠ .asleep call started)
    {now : Nat} {journal : List (Nat × PackRpcRecord)} : Awake gate ⟨now, s.running, s.tasks ++ [new], journal⟩ := by
  intro call started mem
  rcases List.mem_append.mp mem with mem | mem
  · rcases awake call started mem with full | ⟨closed, pending⟩
    · exact .inl full
    · exact .inr ⟨closed, List.mem_append_left _ pending⟩
  · exact absurd (List.mem_singleton.mp mem).symm (woken call started)

theorem awake_notified {closed : Option (PackRpcAdmission × RpcEnd × Nat)} {now running : Nat}
    {journal : List (Nat × PackRpcRecord)} :
    Awake gate ⟨now, running, (s.tasks.map Task.wake).set i (Task.afterwards closed), journal⟩ := by
  intro call started mem
  rcases List.mem_or_eq_of_mem_set mem with mem | same
  · obtain ⟨task, -, same⟩ := List.mem_map.mp mem
    cases task <;> cases same
  · rcases closed with _ | ⟨admission, end_, duration⟩ <;> cases same

/-- A step that changes one task, of which the gate sees no more than before. -/
theorem sound_set (sound : s.Sound gate) (here : s.tasks[i]? = some old) (new : Task)
    (quiet : ∀ closed, old ≠ .notifying closed) (live : new.live = old.live) (written : new.written = old.written)
    (sleeps : ∀ call started, new = .asleep call started → gate.limit ≤ s.running) {now : Nat} :
    Sound gate ⟨now, s.running, s.tasks.set i new, s.journal⟩ := by
  obtain ⟨counted, room, records, awake⟩ := sound
  have permits := permits_set here new
  rw [live] at permits
  refine ⟨counted.trans (Nat.add_right_cancel permits).symm, room, fun j => ?_, ?_⟩
  · rw [writtenBy_set here written]
    exact records j
  · exact awake_set awake here quiet (Nat.le_refl _) sleeps

theorem sound_append (sound : s.Sound gate) (live : new.live = false) (written : new.written = [])
    (woken : ∀ call started, new ≠ .asleep call started) :
    Sound gate ⟨s.now, s.running, s.tasks ++ [new], s.journal⟩ := by
  obtain ⟨counted, room, records, awake⟩ := sound
  refine ⟨?_, room, fun j => ?_, awake_append awake woken⟩
  · rw [counted]
    simp [permits, live]
  · rw [writtenBy_append written]
    exact records j

/-- A step that drops a permit and goes on to wake the waiters. -/
theorem sound_drop (sound : s.Sound gate) (here : s.tasks[i]? = some old) (live : old.live = true)
    (written : old.written = []) (closed : Option (PackRpcAdmission × RpcEnd × Nat)) :
    Sound gate ⟨s.now, s.running - 1, s.tasks.set i (.notifying closed), s.journal⟩ := by
  obtain ⟨counted, room, records, -⟩ := sound
  have permits_ := permits_set here (.notifying closed)
  have some_ := permits_pos here live
  rw [live] at permits_
  refine ⟨?_, Nat.le_trans (Nat.sub_le _ _) room, fun j => ?_, awake_notifying here closed⟩
  · show s.running - 1 = (s.tasks.set i (.notifying closed)).countP Task.live
    rw [counted, permits]
    simp only [Task.live, Bool.toNat_true, Bool.toNat_false] at permits_
    omega
  · rw [writtenBy_set here (show (Task.notifying closed).written = old.written from written.symm)]
    exact records j

theorem sound_emit (sound : s.Sound gate) (here : s.tasks[i]? = some old) (quiet : ∀ closed, old ≠ .notifying closed)
    (dead : old.live = false) (nothing : old.written = []) {record : PackRpcRecord} (live : new.live = false)
    (written : new.written = [record]) (woken : ∀ call started, new ≠ .asleep call started) :
    Sound gate ⟨s.now, s.running, s.tasks.set i new, s.journal ++ [(i, record)]⟩ := by
  have records := records_emit sound here nothing written
  obtain ⟨counted, room, -, awake⟩ := sound
  have permits := permits_set here new
  rw [live, dead] at permits
  refine ⟨counted.trans (Nat.add_right_cancel permits).symm, room, records, ?_⟩
  exact awake_set awake here quiet (Nat.le_refl _) fun call started same => absurd same (woken call started)

theorem live_holding (permit : PackRpcPermit) (now : Nat) (call : Call) :
    (Task.holding gate permit now call).live = true := by
  cases call <;> rfl

theorem sound_take (sound : s.Sound gate) {call : Call} {started later : Nat} {permit : PackRpcPermit}
    (here : s.tasks[i]? = some (.acquiring call started)) (free : s.running < gate.limit) :
    Sound gate ⟨later, s.running + 1, s.tasks.set i (Task.holding gate permit later call), s.journal⟩ := by
  obtain ⟨counted, room, records, awake⟩ := sound
  have permits_ := permits_set here (Task.holding gate permit later call)
  rw [live_holding] at permits_
  refine ⟨?_, free, fun j => ?_, ?_⟩
  · show s.running + 1 = (s.tasks.set i _).countP Task.live
    rw [counted]
    exact permits_.symm
  · have written : (Task.holding gate permit later call).written = [] := by cases call <;> rfl
    rw [writtenBy_set here written]
    exact records j
  · apply awake_set awake here (fun closed => nofun) (Nat.le_succ _)
    intro call' started' asleep
    cases call <;> cases asleep

theorem sound_step (sound : s.Sound gate) (step : gate.Step s s') : s'.Sound gate := by
  cases step with
  | tick => exact ⟨sound.counted, sound.room, sound.records, sound.awake⟩
  | enter call => exact sound_append sound rfl rfl (fun _ _ => nofun)
  | stream service repo bytesIn => exact sound_append sound rfl rfl (fun _ _ => nofun)
  | take here slot _ => exact sound_take sound here (turn_slot.mp slot)
  | @refuse i call started later here busy _ =>
    exact sound_set sound here (.refused call ⟨gate.limit, later - started⟩) (fun _ => nofun) rfl rfl (fun _ _ => nofun)
  | @sleep i call started here waits =>
    exact sound_set sound here (.asleep call started) (fun _ => nofun) rfl rfl (fun _ _ _ => turn_wait waits)
  | @wake i call started here =>
    exact sound_set sound here (.acquiring call started) (fun _ => nofun) rfl rfl (fun _ _ => nofun)
  | dropPermit here => exact sound_drop sound here rfl rfl none
  | @close i admission end_ later here _ =>
    exact sound_set sound here (.closing admission end_ (later - admission.started)) (fun _ => nofun) rfl rfl
      (fun _ _ => nofun)
  | @dropHeld i admission permit end_ duration here held =>
    have live : (Task.closing admission end_ duration).live = true := by simp [Task.live, held]
    exact sound_drop sound here live rfl (some (admission, end_, duration))
  | @dropNone i admission end_ duration here none_ =>
    have dead : (Task.recording admission end_ duration).live = (Task.closing admission end_ duration).live := by
      simp [Task.live, none_]
    exact sound_set sound here _ (fun _ => nofun) dead rfl (fun _ _ => nofun)
  | @notifyAll i closed here =>
    obtain ⟨counted, room, records, -⟩ := sound
    have there := wake_getElem? here
    have dead : (Task.afterwards closed).live = false := by
      rcases closed with _ | ⟨admission, end_, duration⟩ <;> rfl
    have nothing : (Task.afterwards closed).written = [] := by
      rcases closed with _ | ⟨admission, end_, duration⟩ <;> rfl
    have permits := permits_set there (Task.afterwards closed)
    rw [dead, permits_wake] at permits
    refine ⟨counted.trans permits.symm, room, fun j => ?_, awake_notified⟩
    rw [writtenBy_set there nothing, writtenBy_wake]
    exact records j
  | emit here => exact sound_emit sound here (fun _ => nofun) rfl rfl rfl rfl (fun _ _ => nofun)
  | emitBusy here => exact sound_emit sound here (fun _ => nofun) rfl rfl rfl rfl (fun _ _ => nofun)

theorem sound_of_reachable (reachable : gate.Reachable s) : s.Sound gate := by
  induction reachable with
  | refl => exact sound_start
  | tail _ step sound => exact sound_step sound step

/-- What a task is after a step that changes one task: it is the changed one, or what it was. -/
theorem set_inv {tasks : List Task} {j : Nat} {task : Task} (there : (tasks.set j new)[i]? = some task) :
    (j = i ∧ task = new) ∨ tasks[i]? = some task := by
  by_cases same : j = i
  · subst same
    have bound : j < tasks.length := by
      have bound := (List.getElem?_eq_some_iff.mp there).1
      rwa [List.length_set] at bound
    rw [List.getElem?_set_self bound] at there
    exact .inl ⟨rfl, (Option.some.inj there).symm⟩
  · rw [List.getElem?_set_ne same] at there
    exact .inr there

theorem append_inv {tasks : List Task} {task : Task} (there : (tasks ++ [new])[i]? = some task) :
    task = new ∨ tasks[i]? = some task := by
  rcases Nat.lt_or_ge i tasks.length with below | above
  · rw [List.getElem?_append_left below] at there
    exact .inr there
  · rw [List.getElem?_append_right above] at there
    have mem := List.mem_of_getElem? there
    exact .inl (List.mem_singleton.mp mem)

/-- A task comes to be refused by its own turn only. -/
theorem refused_step (step : gate.Step s s') {call : Call} {busy : PackRpcBusy}
    (there : s'.tasks[i]? = some (.refused call busy)) (before : s.tasks[i]? ≠ some (.refused call busy)) :
    ∃ started later, s.tasks[i]? = some (.acquiring call started) ∧
      gate.turn started s.now s.running = .busy ∧ s.now ≤ later ∧ busy = ⟨gate.limit, later - started⟩ := by
  cases step with
  | tick => exact absurd there before
  | enter | stream =>
    rcases append_inv there with same | same
    · cases same
    · exact absurd same before
  | @refuse j call' started later here turn goesOn =>
    rcases set_inv there with ⟨rfl, same⟩ | same
    · cases same
      exact ⟨started, later, here, turn, goesOn, rfl⟩
    · exact absurd same before
  | @take _ call' =>
    rcases set_inv there with ⟨-, same⟩ | same
    · cases call' <;> cases same
    · exact absurd same before
  | sleep | wake | dropPermit | close | dropHeld | dropNone | emit | emitBusy =>
    rcases set_inv there with ⟨-, same⟩ | same
    · cases same
    · exact absurd same before
  | @notifyAll _ closed =>
    rcases set_inv there with ⟨-, same⟩ | same
    · rcases closed with _ | ⟨admission, end_, duration⟩ <;> cases same
    · rw [List.getElem?_map] at same
      obtain ⟨task, here, woken⟩ := Option.map_eq_some_iff.mp same
      cases task <;> cases woken
      exact absurd here before

end GateState

/-- The running count is the number of live permits and stays within the limit. A request is refused
    only while all slots are held and after its whole wait; an admission that has ended has left one
    record, which says `ok` when its RPC succeeded. -/
theorem gate_keeps {gate : PackRpcGate} {s : GateState} (reachable : gate.Reachable s) :
    s.running = s.permits ∧ s.permits ≤ gate.limit ∧ (s.permits = 0 → s.running = 0) ∧
      (∀ (s' : GateState) (i : Nat) (call : Call) (busy : PackRpcBusy), gate.Step s s' →
        s'.tasks[i]? = some (.refused call busy) → s.tasks[i]? ≠ some (.refused call busy) →
        ∃ started, s.tasks[i]? = some (.acquiring call started) ∧ s.permits = gate.limit ∧
          started + gate.wait ≤ s.now ∧ busy.limit = gate.limit ∧ gate.wait ≤ busy.waited) ∧
      (∀ i admission end_ duration, s.tasks[i]? = some (.ended admission end_ duration) →
        ∃ record, s.recordsOf i = [record] ∧ (record.outcome = .ok ↔ ∃ bytes, end_ = .ok bytes)) ∧
      ∀ i admission, s.tasks[i]? = some (.serving admission) → s.recordsOf i = [] := by
  obtain ⟨counted, room, records, -⟩ := GateState.sound_of_reachable reachable
  refine ⟨counted, counted ▸ room, fun none_ => counted.trans none_, ?_, ?_, ?_⟩
  · intro s' i call busy step there before
    obtain ⟨started, later, here, turn, goesOn, rfl⟩ := GateState.refused_step step there before
    obtain ⟨full, late⟩ := GateState.turn_busy.mp turn
    refine ⟨started, here, ?_, late, rfl, ?_⟩
    · exact counted.symm.trans (Nat.le_antisymm room full)
    · show gate.wait ≤ later - started
      omega
  · intro i admission end_ duration here
    refine ⟨admission.close duration end_.bytesOut, ?_, outcome_close admission duration end_⟩
    rw [records, writtenBy_of here]
    rfl
  · intro i admission here
    rw [records, writtenBy_of here]
    rfl

/-- One fetch, admitted and served, on a gate with one slot. -/
theorem gate_keeps_served : ∃ s, (PackRpcGate.new 1 20).Reachable s ∧ s.running = 0 ∧
    ∃ record, s.recordsOf 0 = [record] ∧ record.outcome = .ok := by
  have entered : (PackRpcGate.new 1 20).Reachable _ := .single (.enter (.admitted .uploadPack "acme/widgets" 120))
  have taken := entered.tail (.take (i := 0) rfl rfl (Nat.zero_le 3))
  have closed := taken.tail (.close (i := 0) (.ok 4096) rfl (Nat.le_add_right 3 250))
  have dropped := closed.tail (.dropHeld (i := 0) rfl rfl)
  have notified := dropped.tail (.notifyAll (i := 0) rfl)
  have kept := gate_keeps (notified.tail (.emit (i := 0) rfl))
  obtain ⟨record, written, ok⟩ := kept.2.2.2.2.1 0 _ _ _ rfl
  exact ⟨_, notified.tail (.emit (i := 0) rfl), kept.2.2.1 rfl, record, written, ok.mpr ⟨4096, rfl⟩⟩

/-- Where a slot is free no waiter is left asleep, unless a drop is still to wake it. -/
theorem no_waiter_left {gate : PackRpcGate} {s : GateState} (reachable : gate.Reachable s)
    (free : s.permits < gate.limit) {call : Call} {started : Nat} (asleep : Task.asleep call started ∈ s.tasks) :
    ∃ closed, Task.notifying closed ∈ s.tasks := by
  obtain ⟨counted, -, -, awake⟩ := GateState.sound_of_reachable reachable
  have pending := awake call started asleep
  rw [counted] at pending
  exact pending.resolve_left (Nat.not_le_of_lt free)

end Jeryu.Gitd
