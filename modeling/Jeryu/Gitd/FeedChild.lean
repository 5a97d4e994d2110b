import Jeryu.Library.Completion
import Jeryu.Library.Lossy

/-!
A child that is fed its whole input before its output is read. It answers while it reads, and what
it has answered waits in a pipe until the last of the input is written.
-/

namespace Jeryu.Gitd

open Bytes Completion Relation

/-- What a process does with its three pipes: what it reads next may decide on the rest, and
    `none` is the end of its input. -/
inductive Child where
  | read (next : Option UInt8 → Child)
  | out (byte : UInt8) (next : Child)
  | err (byte : UInt8) (next : Child)
  | exit (code : Int)

namespace Child

/-- What is left of the input when the process exits. -/
def leaves : Child → List UInt8 → List UInt8
  | read next, [] => (next none).leaves []
  | read next, byte :: rest => (next (some byte)).leaves rest
  | out _ next, input => next.leaves input
  | err _ next, input => next.leaves input
  | exit _, input => input

def stdout : Child → List UInt8 → List UInt8
  | read next, [] => (next none).stdout []
  | read next, byte :: rest => (next (some byte)).stdout rest
  | out byte next, input => byte :: next.stdout input
  | err _ next, input => next.stdout input
  | exit _, _ => []

def stderr : Child → List UInt8 → List UInt8
  | read next, [] => (next none).stderr []
  | read next, byte :: rest => (next (some byte)).stderr rest
  | out _ next, input => next.stderr input
  | err byte next, input => byte :: next.stderr input
  | exit _, _ => []

def code : Child → List UInt8 → Int
  | read next, [] => (next none).code []
  | read next, byte :: rest => (next (some byte)).code rest
  | out _ next, input => next.code input
  | err _ next, input => next.code input
  | exit code, _ => code

/-- How many reads and writes are left. -/
def work : Child → List UInt8 → Nat
  | read next, [] => (next none).work [] + 1
  | read next, byte :: rest => (next (some byte)).work rest + 1
  | out _ next, input => next.work input + 1
  | err _ next, input => next.work input + 1
  | exit _, _ => 0

/-- With `outs` and `errs` bytes in the pipes of its output, each further byte has room there or
    comes when the rest of the input fits into the pipe of the input. -/
def Fits (capacity : Nat) : Child → List UInt8 → Nat → Nat → Prop
  | read next, [], outs, errs => (next none).Fits capacity [] outs errs
  | read next, byte :: rest, outs, errs => (next (some byte)).Fits capacity rest outs errs
  | out _ next, input, outs, errs =>
    (outs < capacity ∨ input.length ≤ capacity) ∧ next.Fits capacity input (outs + 1) errs
  | err _ next, input, outs, errs =>
    (errs < capacity ∨ input.length ≤ capacity) ∧ next.Fits capacity input outs (errs + 1)
  | exit _, _, _, _ => True

theorem fits_of_short {capacity : Nat} {input : List UInt8} (short : input.length ≤ capacity) (child : Child)
    (outs errs : Nat) : child.Fits capacity input outs errs := by
  induction child generalizing input outs errs with
  | read next ih =>
    cases input with
    | nil => exact ih none short outs errs
    | cons byte rest => exact ih (some byte) (Nat.le_of_succ_le short) outs errs
  | out byte next ih => exact ⟨.inr short, ih short _ _⟩
  | err byte next ih => exact ⟨.inr short, ih short _ _⟩
  | exit code => trivial

end Child

structure CommandOutput where
  stdout : List UInt8
  stderr : String
  deriving DecidableEq

inductive CommandError where
  | io
  | gitCommandFailed (program : String) (code : Int) (stderr : String)
  deriving DecidableEq

/-- What a caller gets of a child that has exited. -/
def captured (program : String) (code : Int) (stdout stderr : List UInt8) : Except CommandError CommandOutput :=
  if code ≠ 0 then .error (.gitCommandFailed program code (fromUtf8Lossy stderr))
  else .ok ⟨stdout, fromUtf8Lossy stderr⟩

/-- One call of `run_with_stdin_with_env` and its child: what the caller still has to write, what
    is in the pipes, and what has been collected of the output. -/
structure Feeding where
  toWrite : List UInt8
  closed : Bool
  stdin : List UInt8
  stdout : List UInt8
  stderr : List UInt8
  child : Child
  gotOut : List UInt8
  gotErr : List UInt8
  result : Option (Except CommandError CommandOutput)

namespace Feeding

def start (input : List UInt8) (child : Child) : Feeding :=
  ⟨input, false, [], [], [], child, [], [], none⟩

/-- A byte goes into a pipe where there is room and out of it in order. The caller writes all of
    the input and closes it; only then it reads both outputs, and waits. -/
inductive Step (program : String) (capacity : Nat) : Feeding → Feeding → Prop where
  | write {s : Feeding} {byte : UInt8} {rest : List UInt8} : s.result = none → s.toWrite = byte :: rest →
      s.stdin.length < capacity → (∀ code, s.child ≠ .exit code) →
      Step program capacity s { s with toWrite := rest, stdin := s.stdin ++ [byte] }
  | broken {s : Feeding} {code : Int} : s.result = none → s.toWrite ≠ [] → s.child = .exit code →
      Step program capacity s { s with result := some (.error .io) }
  | close {s : Feeding} : s.result = none → s.toWrite = [] → s.closed = false →
      Step program capacity s { s with closed := true }
  | collectOut {s : Feeding} {byte : UInt8} {rest : List UInt8} : s.result = none → s.closed = true →
      s.stdout = byte :: rest → Step program capacity s { s with stdout := rest, gotOut := s.gotOut ++ [byte] }
  | collectErr {s : Feeding} {byte : UInt8} {rest : List UInt8} : s.result = none → s.closed = true →
      s.stderr = byte :: rest → Step program capacity s { s with stderr := rest, gotErr := s.gotErr ++ [byte] }
  | finish {s : Feeding} {code : Int} : s.result = none → s.closed = true → s.child = .exit code →
      s.stdout = [] → s.stderr = [] →
      Step program capacity s { s with result := some (captured program code s.gotOut s.gotErr) }
  | childRead {s : Feeding} {next : Option UInt8 → Child} {byte : UInt8} {rest : List UInt8} :
      s.child = .read next → s.stdin = byte :: rest →
      Step program capacity s { s with child := next (some byte), stdin := rest }
  | childEnd {s : Feeding} {next : Option UInt8 → Child} : s.child = .read next → s.stdin = [] →
      s.closed = true → Step program capacity s { s with child := next none }
  | childOut {s : Feeding} {byte : UInt8} {next : Child} : s.child = .out byte next →
      s.stdout.length < capacity → Step program capacity s { s with child := next, stdout := s.stdout ++ [byte] }
  | childErr {s : Feeding} {byte : UInt8} {next : Child} : s.child = .err byte next →
      s.stderr.length < capacity → Step program capacity s { s with child := next, stderr := s.stderr ++ [byte] }

end Feeding

/-- A program, its input, a child that reads all of it, and the capacity of the pipes. -/
structure FeedJob where
  program : String
  input : List UInt8
  child : Child
  readsAll : child.leaves input = []
  capacity : Nat
  positive : 0 < capacity

namespace FeedJob

variable (job : FeedJob)

/-- The call has returned what the child wrote, and the whole input is written. -/
def Done (s : Feeding) : Prop :=
  s.toWrite = [] ∧ s.result = some (captured job.program (job.child.code job.input)
    (job.child.stdout job.input) (job.child.stderr job.input))

/-- However the caller and its child are scheduled, the call returns what the child wrote. -/
def Completed : Prop :=
  Completes (Feeding.Step job.program job.capacity) job.Done (Feeding.start job.input job.child)

/-- The child can go on until the rest of the input fits into its pipe. -/
def Roomy : Prop := job.child.Fits job.capacity job.input 0 0

end FeedJob

namespace Feeding

/-- The input the child has not read. -/
def unread (s : Feeding) : List UInt8 := s.stdin ++ s.toWrite

/-- The call under way: what has come of the child and what is still to come are what it writes
    when it runs alone. -/
structure UnderWay (job : FeedJob) (s : Feeding) : Prop where
  leaves : s.child.leaves s.unread = []
  stdout : s.gotOut ++ s.stdout ++ s.child.stdout s.unread = job.child.stdout job.input
  stderr : s.gotErr ++ s.stderr ++ s.child.stderr s.unread = job.child.stderr job.input
  code : s.child.code s.unread = job.child.code job.input
  written : s.closed = true → s.toWrite = []
  fits : s.closed = false → s.child.Fits job.capacity s.unread s.stdout.length s.stderr.length

structure Fed (job : FeedJob) (s : Feeding) : Prop where
  underWay : s.result = none → UnderWay job s
  done : s.result ≠ none → job.Done s

def measure (s : Feeding) : Nat :=
  2 * s.child.work s.unread + s.toWrite.length + s.stdout.length + s.stderr.length +
    (if s.closed = true then 0 else 1) + if s.result = none then 1 else 0

variable {job : FeedJob} {s s' : Feeding}

theorem fed_start (roomy : job.Roomy) : Fed job (start job.input job.child) where
  underWay _ := {
    leaves := job.readsAll
    stdout := rfl
    stderr := rfl
    code := rfl
    written := fun closed => (nomatch closed)
    fits := fun _ => roomy }
  done some_ := absurd rfl some_

/-- One byte written leaves what the child has not read as it was. -/
theorem unread_write {byte : UInt8} {rest before : List UInt8} :
    before ++ [byte] ++ rest = before ++ byte :: rest := by simp

theorem fed_step (fed : Fed job s) (step : Step job.program job.capacity s s') : Fed job s' := by
  obtain ⟨underWay, done⟩ := fed
  cases step with
  | @write byte rest live left room running =>
    obtain ⟨leaves, out, err, code, written, fits⟩ := underWay live
    have same : s.stdin ++ [byte] ++ rest = s.unread := by
      rw [unread, left, unread_write]
    rw [← same] at leaves out err code fits
    refine ⟨fun _ => ⟨leaves, out, err, code, fun closed => ?_, fits⟩, fun some_ => absurd live some_⟩
    rw [written closed] at left
    cases left
  | @broken code live left exited =>
    obtain ⟨leaves, -⟩ := underWay live
    rw [exited] at leaves
    exact absurd (List.append_eq_nil_iff.mp leaves).2 left
  | close live left open_ =>
    obtain ⟨leaves, out, err, code, written, fits⟩ := underWay live
    exact ⟨fun _ => ⟨leaves, out, err, code, fun _ => left, fun closed => (nomatch closed)⟩,
      fun some_ => absurd live some_⟩
  | @collectOut byte rest live closed waiting =>
    obtain ⟨leaves, out, err, code, written, fits⟩ := underWay live
    refine ⟨fun _ => ⟨leaves, ?_, err, code, written, fun open_ => ?_⟩, fun some_ => absurd live some_⟩
    · rw [waiting] at out
      rw [← out]
      simp [unread]
    · rw [closed] at open_
      cases open_
  | @collectErr byte rest live closed waiting =>
    obtain ⟨leaves, out, err, code, written, fits⟩ := underWay live
    refine ⟨fun _ => ⟨leaves, out, ?_, code, written, fun open_ => ?_⟩, fun some_ => absurd live some_⟩
    · rw [waiting] at err
      rw [← err]
      simp [unread]
    · rw [closed] at open_
      cases open_
  | @finish n live closed exited noOut noErr =>
    obtain ⟨leaves, out, err, code, written, fits⟩ := underWay live
    refine ⟨fun none => (nomatch none), fun _ => ⟨written closed, ?_⟩⟩
    rw [exited, noOut, List.append_nil] at out
    rw [exited, noErr, List.append_nil] at err
    rw [exited] at code
    have own : s.gotOut = job.child.stdout job.input := (List.append_nil _).symm.trans out
    have own' : s.gotErr = job.child.stderr job.input := (List.append_nil _).symm.trans err
    have own'' : n = job.child.code job.input := code
    show some (captured _ n s.gotOut s.gotErr) = _
    rw [own, own', own'']
  | @childRead next byte rest reads waiting =>
    refine ⟨fun live => ?_, done⟩
    obtain ⟨leaves, out, err, code, written, fits⟩ := underWay live
    have same : s.unread = byte :: (rest ++ s.toWrite) := by
      rw [unread, waiting]
      rfl
    rw [reads, same] at leaves out err code fits
    exact ⟨leaves, out, err, code, written, fits⟩
  | @childEnd next reads none closed =>
    refine ⟨fun live => ?_, done⟩
    obtain ⟨leaves, out, err, code, written, fits⟩ := underWay live
    have same : s.unread = [] := by
      rw [unread, none, written closed]
      rfl
    have same' : ({ s with child := next Option.none } : Feeding).unread = [] := same
    rw [reads, same] at leaves out err code fits
    refine ⟨?_, ?_, ?_, ?_, written, fun open_ => ?_⟩
    · rw [same']
      exact leaves
    · rw [same']
      exact out
    · rw [same']
      exact err
    · rw [same']
      exact code
    · rw [closed] at open_
      cases open_
  | @childOut byte next writes room =>
    refine ⟨fun live => ?_, done⟩
    obtain ⟨leaves, out, err, code, written, fits⟩ := underWay live
    rw [writes] at leaves out err code fits
    refine ⟨leaves, ?_, err, code, written, fun open_ => ?_⟩
    · rw [← out, ← List.append_assoc]
      exact unread_write
    · rw [List.length_append]
      exact (fits open_).2
  | @childErr byte next writes room =>
    refine ⟨fun live => ?_, done⟩
    obtain ⟨leaves, out, err, code, written, fits⟩ := underWay live
    rw [writes] at leaves out err code fits
    refine ⟨leaves, out, ?_, code, written, fun open_ => ?_⟩
    · rw [← err, ← List.append_assoc]
      exact unread_write
    · rw [List.length_append]
      exact (fits open_).2

theorem measure_step (fed : Fed job s) (step : Step job.program job.capacity s s') : s'.measure < s.measure := by
  cases step with
  | @write byte rest live left room running =>
    have same : s.stdin ++ [byte] ++ rest = s.stdin ++ byte :: rest := unread_write
    simp only [measure, unread, left, same, List.length_cons]
    omega
  | broken live left exited =>
    simp [measure, live, unread]
  | close live left open_ =>
    simp [measure, open_, unread]
  | collectOut live closed waiting =>
    simp only [measure, unread, waiting, List.length_cons]
    omega
  | collectErr live closed waiting =>
    simp only [measure, unread, waiting, List.length_cons]
    omega
  | finish live closed exited noOut noErr =>
    simp [measure, live, unread]
  | @childRead next byte rest reads waiting =>
    simp only [measure, unread, reads, waiting, List.cons_append, Child.work]
    omega
  | @childEnd next reads none closed =>
    have ended : s.result ≠ Option.none ∨ s.toWrite = [] := by
      by_cases live : s.result = Option.none
      · exact .inr ((fed.underWay live).written closed)
      · exact .inl live
    have nothing : s.toWrite = [] := ended.elim (fun some_ => (fed.done some_).1) id
    simp only [measure, unread, reads, none, nothing, List.append_nil, Child.work]
    omega
  | @childOut byte next writes room =>
    simp only [measure, unread, writes, Child.work, List.length_append, List.length_cons, List.length_nil]
    omega
  | @childErr byte next writes room =>
    simp only [measure, unread, writes, Child.work, List.length_append, List.length_cons, List.length_nil]
    omega

/-- While the call is under way, its caller or its child can go on. -/
theorem step_of_underWay (live : s.result = none) (underWay : UnderWay job s) :
    ∃ s', Step job.program job.capacity s s' := by
  obtain ⟨leaves, -, -, -, written, fits⟩ := underWay
  -- before the end of the input the caller can go on when its pipe has room
  have go : s.closed = false → s.stdin.length < job.capacity → (∀ code, s.child ≠ .exit code) →
      ∃ s', Step job.program job.capacity s s' := by
    intro open_ room running
    cases left : s.toWrite with
    | nil => exact ⟨_, .close live left open_⟩
    | cons byte rest => exact ⟨_, .write live left room running⟩
  -- after it the caller can go on when a pipe of the output holds something
  have collect : s.closed = true → s.stdout ≠ [] ∨ s.stderr ≠ [] → ∃ s', Step job.program job.capacity s s' := by
    intro closed waiting
    cases out : s.stdout with
    | cons byte rest => exact ⟨_, .collectOut live closed out⟩
    | nil =>
      cases err : s.stderr with
      | cons byte rest => exact ⟨_, .collectErr live closed err⟩
      | nil => simp [out, err] at waiting
  have ends : s.closed = false → s.toWrite = [] → ∃ s', Step job.program job.capacity s s' :=
    fun open_ left => ⟨_, .close live left open_⟩
  cases child : s.child with
  | read next =>
    cases waiting : s.stdin with
    | cons byte rest => exact ⟨_, .childRead child waiting⟩
    | nil =>
      cases closed : s.closed with
      | true => exact ⟨_, .childEnd child waiting closed⟩
      | false =>
        apply go closed
        · rw [waiting]
          exact job.positive
        · intro code exited
          rw [child] at exited
          cases exited
  | out byte next =>
    by_cases room : s.stdout.length < job.capacity
    · exact ⟨_, .childOut child room⟩
    cases closed : s.closed with
    | true =>
      apply collect closed
      left
      intro none
      rw [none] at room
      exact room job.positive
    | false =>
      have fits := fits closed
      rw [child] at fits
      have short : s.unread.length ≤ job.capacity := fits.1.resolve_left room
      by_cases left : s.toWrite = []
      · exact ends closed left
      have some_ := List.length_pos_iff.mpr left
      rw [unread, List.length_append] at short
      apply go closed
      · omega
      · intro code exited
        rw [child] at exited
        cases exited
  | err byte next =>
    by_cases room : s.stderr.length < job.capacity
    · exact ⟨_, .childErr child room⟩
    cases closed : s.closed with
    | true =>
      apply collect closed
      right
      intro none
      rw [none] at room
      exact room job.positive
    | false =>
      have fits := fits closed
      rw [child] at fits
      have short : s.unread.length ≤ job.capacity := fits.1.resolve_left room
      by_cases left : s.toWrite = []
      · exact ends closed left
      have some_ := List.length_pos_iff.mpr left
      rw [unread, List.length_append] at short
      apply go closed
      · omega
      · intro code exited
        rw [child] at exited
        cases exited
  | exit code =>
    rw [child] at leaves
    have left : s.toWrite = [] := (List.append_eq_nil_iff.mp leaves).2
    cases closed : s.closed with
    | false => exact ends closed left
    | true =>
      by_cases waiting : s.stdout ≠ [] ∨ s.stderr ≠ []
      · exact collect closed waiting
      · push Not at waiting
        exact ⟨_, .finish live closed child waiting.1 waiting.2⟩

/-- The call waits for the child to take its input, and the child writes more than its pipes hold
    before it takes enough of it. -/
structure Crowded (job : FeedJob) (s : Feeding) : Prop where
  live : s.result = none
  open_ : s.closed = false
  full : s.stdin.length ≤ job.capacity
  leaves : s.child.leaves s.unread = []
  crowded : ¬s.child.Fits job.capacity s.unread s.stdout.length s.stderr.length

theorem crowded_step (crowded : Crowded job s) (step : Step job.program job.capacity s s') : Crowded job s' := by
  obtain ⟨live, open_, full, leaves, crowded⟩ := crowded
  cases step with
  | @write byte rest _ left room running =>
    have same : s.stdin ++ [byte] ++ rest = s.unread := by
      rw [unread, left, unread_write]
    rw [← same] at leaves crowded
    refine ⟨live, open_, ?_, leaves, crowded⟩
    rw [List.length_append]
    exact room
  | @broken code _ left exited =>
    rw [exited] at leaves
    exact absurd (List.append_eq_nil_iff.mp leaves).2 left
  | close _ left _ =>
    have short : s.unread.length ≤ job.capacity := by
      rw [unread, left, List.append_nil]
      exact full
    exact absurd (Child.fits_of_short short s.child _ _) crowded
  | collectOut _ closed _ =>
    rw [open_] at closed
    cases closed
  | collectErr _ closed _ =>
    rw [open_] at closed
    cases closed
  | finish _ closed _ _ _ =>
    rw [open_] at closed
    cases closed
  | @childRead next byte rest reads waiting =>
    have same : s.unread = byte :: (rest ++ s.toWrite) := by
      rw [unread, waiting]
      rfl
    rw [reads, same] at leaves crowded
    refine ⟨live, open_, ?_, leaves, crowded⟩
    rw [waiting] at full
    exact Nat.le_of_succ_le full
  | childEnd _ _ closed =>
    rw [open_] at closed
    cases closed
  | @childOut byte next writes room =>
    rw [writes] at leaves crowded
    refine ⟨live, open_, full, leaves, fun fits => crowded ⟨.inl room, ?_⟩⟩
    rw [List.length_append] at fits
    exact fits
  | @childErr byte next writes room =>
    rw [writes] at leaves crowded
    refine ⟨live, open_, full, leaves, fun fits => crowded ⟨.inl room, ?_⟩⟩
    rw [List.length_append] at fits
    exact fits

end Feeding

namespace FeedJob

variable (job : FeedJob)

theorem roomy_of_completed (completed : job.Completed) : job.Roomy := by
  by_contra crowded
  have start : Feeding.Crowded job (Feeding.start job.input job.child) :=
    ⟨rfl, rfl, Nat.zero_le _, job.readsAll, crowded⟩
  have kept : ∀ s s', Feeding.Crowded job s → Feeding.Step job.program job.capacity s s' → Feeding.Crowded job s' :=
    fun _ _ => Feeding.crowded_step
  have bad : ∀ s, Feeding.Crowded job s → ¬job.Done s := by
    intro s crowded done
    have returned := done.2
    rw [crowded.live] at returned
    cases returned
  exact not_completes_of_invariant kept bad start completed

theorem completed_of_roomy (roomy : job.Roomy) : job.Completed := by
  have start : Feeding.Fed job (Feeding.start job.input job.child) := Feeding.fed_start roomy
  have kept : ∀ s s', Feeding.Fed job s → Feeding.Step job.program job.capacity s s' → Feeding.Fed job s' :=
    fun _ _ => Feeding.fed_step
  have less : ∀ s s', Feeding.Fed job s → Feeding.Step job.program job.capacity s s' → s'.measure < s.measure :=
    fun _ _ => Feeding.measure_step
  have well : ∀ s, Feeding.Fed job s → Stuck (Feeding.Step job.program job.capacity) s → job.Done s := by
    intro s fed stuck
    apply fed.done
    intro live
    obtain ⟨s', step⟩ := Feeding.step_of_underWay live (fed.underWay live)
    exact stuck s' step
  exact completes_of_invariant kept less well start

/-- A call completes exactly when its child, until the rest of the input fits into the pipe of the
    input, writes no more than the pipes of its output hold. -/
theorem completed_iff_roomy : job.Completed ↔ job.Roomy :=
  ⟨job.roomy_of_completed, job.completed_of_roomy⟩

end FeedJob

namespace Child

variable {capacity errs : Nat}

def reads : Nat → Child → Child
  | 0, next => next
  | n + 1, next => read fun _ => reads n next

def writes : List UInt8 → Child → Child
  | [], next => next
  | byte :: bytes, next => out byte (writes bytes next)

@[simp] theorem leaves_reads (before after : List UInt8) (next : Child) :
    (reads before.length next).leaves (before ++ after) = next.leaves after := by
  induction before with
  | nil => rfl
  | cons byte before ih => exact ih

@[simp] theorem leaves_writes (bytes input : List UInt8) (next : Child) :
    (writes bytes next).leaves input = next.leaves input := by
  induction bytes with
  | nil => rfl
  | cons byte bytes ih => exact ih

theorem fits_reads (before after : List UInt8) (next : Child) (outs : Nat) :
    (reads before.length next).Fits capacity (before ++ after) outs errs ↔ next.Fits capacity after outs errs := by
  induction before with
  | nil => rfl
  | cons byte before ih => exact ih

theorem fits_writes {bytes input : List UInt8} {next : Child} {outs : Nat}
    (fits : (writes bytes next).Fits capacity input outs errs) (some_ : bytes ≠ []) :
    (outs + bytes.length ≤ capacity ∨ input.length ≤ capacity) ∧
      next.Fits capacity input (outs + bytes.length) errs := by
  induction bytes generalizing outs with
  | nil => exact absurd rfl some_
  | cons byte bytes ih =>
    obtain ⟨here, fits⟩ := fits
    cases bytes with
    | nil => exact ⟨here, fits⟩
    | cons byte' bytes =>
      have rest := ih fits (List.cons_ne_nil _ _)
      rw [List.length_cons, Nat.add_comm (byte' :: bytes).length, ← Nat.add_assoc]
      exact rest

end Child

/-- What `reject_oversized_raw_blobs` writes: each object on a line of its own. -/
def batchCheckInput (objects : List (List UInt8)) : List UInt8 :=
  objects.flatMap fun oid => oid ++ [10]

/-- `git cat-file --batch-check` at objects that are blobs: it answers each line as it reads it. -/
def batchCheck (header : List UInt8) : List (List UInt8) → Child
  | [] => .read fun _ => .exit 0
  | oid :: objects => .reads (oid ++ [10]).length (.writes (header ++ (oid ++ [10])) (batchCheck header objects))

variable {header : List UInt8} {objects : List (List UInt8)} {capacity : Nat}

theorem leaves_batchCheck : (batchCheck header objects).leaves (batchCheckInput objects) = [] := by
  induction objects with
  | nil => rfl
  | cons oid objects ih =>
    rw [batchCheck, batchCheckInput, List.flatMap_cons, Child.leaves_reads, Child.leaves_writes]
    exact ih

theorem length_batchCheckInput {size : Nat} (same : ∀ oid ∈ objects, oid.length = size) :
    (batchCheckInput objects).length = objects.length * (size + 1) := by
  induction objects with
  | nil => simp [batchCheckInput]
  | cons oid objects ih =>
    have rest := ih fun oid mem => same oid (.tail _ mem)
    rw [batchCheckInput] at rest ⊢
    rw [List.flatMap_cons, List.length_append, rest, List.length_append, same oid (.head _), List.length_cons,
      List.length_cons, List.length_nil, Nat.add_mul]
    omega

/-- After each answer of a check that completes, the answers so far or the lines left fit into a
    pipe. -/
theorem answers_or_lines_fit {size outs : Nat} (same : ∀ oid ∈ objects, oid.length = size)
    (fits : (batchCheck header objects).Fits capacity (batchCheckInput objects) outs 0) (k : Nat)
    (some_ : k < objects.length) :
    outs + (k + 1) * (header.length + (size + 1)) ≤ capacity ∨
      (objects.length - (k + 1)) * (size + 1) ≤ capacity := by
  induction objects generalizing outs k with
  | nil => exact absurd some_ (Nat.not_lt_zero _)
  | cons oid objects ih =>
    have same' : ∀ oid ∈ objects, oid.length = size := fun oid mem => same oid (.tail _ mem)
    have answer : (header ++ (oid ++ [10])).length = header.length + (size + 1) := by
      rw [List.length_append, List.length_append, same oid (.head _), List.length_singleton]
    rw [batchCheck, batchCheckInput, List.flatMap_cons, Child.fits_reads] at fits
    obtain ⟨here, fits⟩ := Child.fits_writes fits (by simp)
    rw [answer] at here fits
    cases k with
    | zero =>
      have lines := length_batchCheckInput same'
      rw [batchCheckInput] at lines
      rw [lines] at here
      simpa using here
    | succ k =>
      have rest := ih same' fits k (Nat.lt_of_succ_lt_succ some_)
      rw [List.length_cons, Nat.add_sub_add_right, Nat.add_mul (k + 1)]
      omega

def hexDigitByte (n : Nat) : UInt8 :=
  if n < 10 then UInt8.ofNat (48 + n) else UInt8.ofNat (87 + n)

/-- The object id that spells a number. -/
def spelledOid (n : Nat) : List UInt8 :=
  (List.range 40).map fun k => hexDigitByte (n / 16 ^ (39 - k) % 16)

/-- The blob-size check of a push of some objects of seven bytes, on pipes as wide as Linux has
    them. -/
def blobCheck (count : Nat) : FeedJob where
  program := "git cat-file --batch-check=%(objecttype) %(objectsize) %(objectname)"
  input := batchCheckInput ((List.range count).map spelledOid)
  child := batchCheck [98, 108, 111, 98, 32, 55, 32] ((List.range count).map spelledOid)
  readsAll := leaves_batchCheck
  capacity := 65536
  positive := by decide

theorem not_completed_blobCheck {count k : Nat} (some_ : k < count) (answers : 65536 < (k + 1) * 48)
    (lines : 65536 < (count - (k + 1)) * 41) : ¬(blobCheck count).Completed := by
  intro completed
  have roomy := (blobCheck count).roomy_of_completed completed
  have same : ∀ oid ∈ (List.range count).map spelledOid, oid.length = 40 := by
    intro oid mem
    obtain ⟨n, -, rfl⟩ := List.mem_map.mp mem
    simp [spelledOid]
  have fit := answers_or_lines_fit same roomy k (by simpa using some_)
  simp only [blobCheck, List.length_map, List.length_range, List.length_cons, List.length_nil] at fit
  omega

/-- The check of four thousand objects: after 1365 answers both sides wait for each other. -/
theorem not_completed : ¬(blobCheck 4000).Completed :=
  not_completed_blobCheck (k := 1365) (by decide) (by decide) (by decide)

end Jeryu.Gitd
