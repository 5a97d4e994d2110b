import Jeryu.Gitd.FeedChild

/-!
A child that is fed while its output is read. Three pumps run side by side, one for each pipe, and
the client at the other end may stop sending, keep the connection open, or go away.
-/

namespace Jeryu.Gitd

open Bytes Completion Relation

namespace Child

/-- With `outs` bytes written so far, the child asks for more than its input before it has written
    more than the client takes. -/
def Starves (takes : Option Nat) : Child → List UInt8 → Nat → Prop
  | read _, [], _ => True
  | read next, byte :: rest, outs => (next (some byte)).Starves takes rest outs
  | out _ next, input, outs => (∀ limit ∈ takes, outs < limit) ∧ next.Starves takes input (outs + 1)
  | err _ next, input, outs => next.Starves takes input outs
  | exit _, _, _ => False

/-- How many reads and writes are left at most, when the input may end anywhere. -/
def most : Child → List UInt8 → Nat
  | read next, [] => (next none).most [] + 1
  | read next, byte :: rest => max ((next none).most []) ((next (some byte)).most rest) + 1
  | out _ next, input => next.most input + 1
  | err _ next, input => next.most input + 1
  | exit _, _ => 0

theorem most_append (child : Child) (input rest : List UInt8) :
    child.most input ≤ child.most (input ++ rest) := by
  induction child generalizing input with
  | read next ih =>
    cases input with
    | nil =>
      cases rest with
      | nil => exact Nat.le_refl _
      | cons byte rest =>
        have more := Nat.le_max_left ((next none).most []) ((next (some byte)).most rest)
        exact Nat.succ_le_succ more
    | cons byte input =>
      have more := ih (some byte) input
      simp only [List.cons_append, most]
      omega
  | out byte next ih => exact Nat.succ_le_succ (ih input)
  | err byte next ih => exact Nat.succ_le_succ (ih input)
  | exit code => exact Nat.le_refl _

end Child

def maxStreamStderrBytes : Nat := 64 * 1024

/-- The buffer of `io::copy`, and the chunk of `read_bounded_stderr`. -/
def chunkBytes : Nat := 8192

inductive PumpError where
  | protocol (message : String)
  | io
  | gitCommandFailed (program : String) (code : Option Int) (stderr : String)
  deriving DecidableEq

/-- What `read_bounded_stderr` has kept. -/
structure Retained where
  bytes : List UInt8
  truncated : Bool
  deriving DecidableEq

namespace Retained

def empty : Retained := ⟨[], false⟩

def keep (retained : Retained) (chunk : List UInt8) : Retained :=
  let remaining := maxStreamStderrBytes - retained.bytes.length
  let kept := min remaining chunk.length
  ⟨retained.bytes ++ chunk.take kept, retained.truncated || kept < chunk.length⟩

def text (retained : Retained) : String :=
  if retained.truncated then fromUtf8Lossy retained.bytes ++ "\n[stderr truncated]"
  else fromUtf8Lossy retained.bytes

theorem keep_nil (retained : Retained) : retained.keep [] = retained := by simp [keep]

/-- What is kept does not depend on how the bytes come in chunks. -/
theorem keep_keep (retained : Retained) (chunk rest : List UInt8) :
    (retained.keep chunk).keep rest = retained.keep (chunk ++ rest) := by
  obtain ⟨bytes, truncated⟩ := retained
  by_cases fits : chunk.length ≤ maxStreamStderrBytes - bytes.length
  · have all : min (maxStreamStderrBytes - bytes.length) chunk.length = chunk.length := Nat.min_eq_right fits
    have room : maxStreamStderrBytes - (bytes.length + chunk.length) =
        maxStreamStderrBytes - bytes.length - chunk.length := by omega
    have kept : min (maxStreamStderrBytes - bytes.length) (chunk.length + rest.length) =
        chunk.length + min (maxStreamStderrBytes - bytes.length - chunk.length) rest.length := by omega
    simp [keep, all, room, kept, List.take_length_add_append]
  · have kept : min (maxStreamStderrBytes - bytes.length) (chunk.length + rest.length) =
        maxStreamStderrBytes - bytes.length := by omega
    have full : maxStreamStderrBytes - (bytes.length + (maxStreamStderrBytes - bytes.length)) = 0 := by omega
    have short : maxStreamStderrBytes - bytes.length ≤ chunk.length := by omega
    have cut : maxStreamStderrBytes - bytes.length < chunk.length := by omega
    have cut' : maxStreamStderrBytes - bytes.length < chunk.length + rest.length := by omega
    simp [keep, kept, full, List.take_append_of_le_length short, short, cut, cut']

end Retained

/-- What comes after the bytes the client sends: the body ends, its reader fails, or the client
    keeps the connection open and sends nothing. -/
inductive BodyEnd where
  | closed
  | failed (error : String)
  | held
  deriving DecidableEq

/-- One streamed call: the body, how many bytes of the answer the client takes before it goes away,
    the child, and the capacity of the pipes. -/
structure PumpJob where
  display : String
  expectedStdinBytes : Nat
  input : List UInt8
  ending : BodyEnd
  takes : Option Nat
  child : Child
  capacity : Nat
  positive : 0 < capacity

/-- What `pump` returns once its pumps and the child have ended. -/
def pumpResult (display : String) (expectedStdinBytes : Nat) (stdin : Except String Nat) (stdout : Bool)
    (stderr : String) (code : Option Int) : Except PumpError Unit :=
  if !stdout then .error .io
  else match stdin with
    | .error err => .error (.protocol
        s!"request body truncated: expected {expectedStdinBytes} bytes; input ended with {err}")
    | .ok stdinBytes =>
      if stdinBytes ≠ expectedStdinBytes then
        .error (.protocol
          s!"request body truncated: expected {expectedStdinBytes} bytes, received {stdinBytes}")
      else if code ≠ some 0 then .error (.gitCommandFailed display code stderr)
      else .ok ()

theorem pumpResult_ok {display stderr : String} {expectedStdinBytes : Nat} {stdin : Except String Nat}
    {stdout : Bool} {code : Option Int}
    (ok : pumpResult display expectedStdinBytes stdin stdout stderr code = .ok ()) :
    stdin = .ok expectedStdinBytes ∧ code = some 0 := by
  unfold pumpResult at ok
  cases stdout with
  | false => cases ok
  | true =>
    cases stdin with
    | error err => cases ok
    | ok stdinBytes =>
      by_cases whole : stdinBytes = expectedStdinBytes
      · by_cases success : code = some 0
        · exact ⟨congrArg Except.ok whole, success⟩
        · simp [whole, success] at ok
      · simp [whole] at ok

/-- A call under way. `chunk` is what the pump of the input has read and not written yet, `outChunk`
    what the pump of the output has. -/
structure Pumping where
  input : List UInt8
  chunk : List UInt8
  copied : Nat
  stdinEnd : Option (Except String Nat)
  stdin : List UInt8
  stdout : List UInt8
  stderr : List UInt8
  child : Child
  killed : Bool
  outChunk : List UInt8
  delivered : List UInt8
  stdoutEnd : Option Bool
  retained : Retained
  stderrEnd : Bool
  cancelled : Bool
  reaped : Bool
  result : Option (Except PumpError Unit)

namespace Pumping

def start (job : PumpJob) : Pumping where
  input := job.input
  chunk := []
  copied := 0
  stdinEnd := none
  stdin := []
  stdout := []
  stderr := []
  child := job.child
  killed := false
  outChunk := []
  delivered := []
  stdoutEnd := none
  retained := .empty
  stderrEnd := false
  cancelled := false
  reaped := false
  result := none

/-- The process runs no more, and its ends of the pipes are closed. -/
def Gone (s : Pumping) : Prop := s.killed = true ∨ ∃ code, s.child = .exit code

/-- The status of a process that is gone. -/
def code (s : Pumping) : Option Int :=
  match s.killed, s.child with
  | false, .exit code => some code
  | _, _ => none

/-- What the three pumps, the child and the thread that waits for them do. A chunk has any size up
    to that of the buffer, and a byte goes into a pipe where there is room. -/
inductive Step (job : PumpJob) : Pumping → Pumping → Prop where
  -- the pump of the input; once it is cancelled its reader may say at any time that the body ended
  | readInput {s : Pumping} {read rest : List UInt8} : s.stdinEnd = none → s.chunk = [] → read ≠ [] →
      read.length ≤ chunkBytes → s.input = read ++ rest → Step job s { s with input := rest, chunk := read }
  | writeStdin {s : Pumping} {byte : UInt8} {rest : List UInt8} : s.stdinEnd = none → s.chunk = byte :: rest →
      s.stdin.length < job.capacity → ¬s.Gone →
      Step job s { s with chunk := rest, stdin := s.stdin ++ [byte], copied := s.copied + 1 }
  | brokenStdin {s : Pumping} : s.stdinEnd = none → s.chunk ≠ [] → s.Gone →
      Step job s { s with input := [], chunk := [], stdinEnd := some (.error "Broken pipe (os error 32)") }
  | endInput {s : Pumping} : s.stdinEnd = none → s.chunk = [] →
      (s.input = [] ∧ job.ending = .closed ∨ s.cancelled = true) →
      Step job s { s with input := [], stdinEnd := some (.ok s.copied) }
  | failInput {s : Pumping} {error : String} : s.stdinEnd = none → s.chunk = [] → s.input = [] →
      job.ending = .failed error → Step job s { s with stdinEnd := some (.error error) }
  -- the child; a write after the client has gone ends it
  | childRead {s : Pumping} {next : Option UInt8 → Child} {byte : UInt8} {rest : List UInt8} :
      s.killed = false → s.child = .read next → s.stdin = byte :: rest →
      Step job s { s with child := next (some byte), stdin := rest }
  | childEnd {s : Pumping} {next : Option UInt8 → Child} : s.killed = false → s.child = .read next →
      s.stdin = [] → s.stdinEnd ≠ none → Step job s { s with child := next none }
  | childOut {s : Pumping} {byte : UInt8} {next : Child} : s.killed = false → s.child = .out byte next →
      s.stdoutEnd = none → s.stdout.length < job.capacity →
      Step job s { s with child := next, stdout := s.stdout ++ [byte] }
  | childPipe {s : Pumping} {byte : UInt8} {next : Child} : s.killed = false → s.child = .out byte next →
      s.stdoutEnd ≠ none → Step job s { s with killed := true }
  | childErr {s : Pumping} {byte : UInt8} {next : Child} : s.killed = false → s.child = .err byte next →
      s.stderr.length < job.capacity → Step job s { s with child := next, stderr := s.stderr ++ [byte] }
  -- the pump of the output, on the thread of the call
  | readStdout {s : Pumping} {read rest : List UInt8} : s.stdoutEnd = none → s.outChunk = [] → read ≠ [] →
      read.length ≤ chunkBytes → s.stdout = read ++ rest → Step job s { s with stdout := rest, outChunk := read }
  | writeOutput {s : Pumping} {byte : UInt8} {rest : List UInt8} : s.stdoutEnd = none →
      s.outChunk = byte :: rest → (∀ limit ∈ job.takes, s.delivered.length < limit) →
      Step job s { s with outChunk := rest, delivered := s.delivered ++ [byte] }
  | failOutput {s : Pumping} {limit : Nat} : s.stdoutEnd = none → s.outChunk ≠ [] → job.takes = some limit →
      limit ≤ s.delivered.length → Step job s { s with outChunk := [], stdout := [], stdoutEnd := some false }
  | endOutput {s : Pumping} : s.stdoutEnd = none → s.outChunk = [] → s.stdout = [] → s.Gone →
      Step job s { s with stdoutEnd := some true }
  -- `read_bounded_stderr`
  | readStderr {s : Pumping} {read rest : List UInt8} : s.stderrEnd = false → read ≠ [] →
      read.length ≤ chunkBytes → s.stderr = read ++ rest →
      Step job s { s with stderr := rest, retained := s.retained.keep read }
  | endStderr {s : Pumping} : s.stderrEnd = false → s.stderr = [] → s.Gone →
      Step job s { s with stderrEnd := true }
  -- what the call does after the output has ended
  | cancel {s : Pumping} : s.stdoutEnd ≠ none → s.cancelled = false → Step job s { s with cancelled := true }
  | reapExited {s : Pumping} : s.stdoutEnd = some false → s.cancelled = true → s.reaped = false → s.Gone →
      Step job s { s with reaped := true }
  | kill {s : Pumping} : s.stdoutEnd = some false → s.cancelled = true → s.reaped = false → ¬s.Gone →
      Step job s { s with killed := true, reaped := true }
  | wait {s : Pumping} : s.stdoutEnd = some true → s.cancelled = true → s.stdinEnd ≠ none →
      s.stderrEnd = true → s.reaped = false → s.Gone → Step job s { s with reaped := true }
  | finish {s : Pumping} {stdin : Except String Nat} {stdout : Bool} : s.result = none → s.reaped = true →
      s.stdinEnd = some stdin → s.stdoutEnd = some stdout → s.stderrEnd = true →
      Step job s { s with result := some (pumpResult job.display job.expectedStdinBytes stdin stdout
        s.retained.text s.code) }

end Pumping

namespace PumpJob

variable (job : PumpJob)

/-- What the child writes when it gets all that the client sends. -/
def answer : List UInt8 := job.child.stdout job.input

/-- The client takes the whole answer. -/
def TakesAll : Prop := ∀ limit ∈ job.takes, job.answer.length ≤ limit

/-- What the client gets: the answer, or as much of it as it takes. -/
def taken : List UInt8 :=
  match job.takes with
  | none => job.answer
  | some limit => job.answer.take limit

/-- The client keeps the connection open while the child waits for more, and has taken all of the
    answer so far. -/
def Starved : Prop := job.ending = .held ∧ job.child.Starves job.takes job.input 0

/-- How the pump of the input ends for a client that takes the whole answer. -/
structure Copied (stdin : Except String Nat) : Prop where
  atMost : ∀ n, stdin = .ok n → n ≤ job.input.length
  whole : job.child.leaves job.input = [] → (∀ error, job.ending ≠ .failed error) → stdin = .ok job.input.length

/-- The call has returned, and the process is gone and waited for. The client has got what it takes
    of the answer; the call returns an error when that is not all of it, and otherwise decides by
    what has been copied, the status of the child and the start of its standard error. -/
structure Done (s : Pumping) : Prop where
  gone : s.Gone
  reaped : s.reaped = true
  taken : s.delivered = job.taken
  failed : ¬job.TakesAll → s.result = some (.error .io)
  returned : job.TakesAll → ∃ stdin, job.Copied stdin ∧ s.result = some (pumpResult job.display
    job.expectedStdinBytes stdin true (Retained.empty.keep (job.child.stderr job.input)).text
    (some (job.child.code job.input)))

/-- However the pumps, the child and the call are scheduled, the call returns. -/
def Completed : Prop := Completes (Pumping.Step job) job.Done (Pumping.start job)

end PumpJob

namespace Pumping

/-- The input the child has not read. -/
def unread (s : Pumping) : List UInt8 := s.stdin ++ s.chunk ++ s.input

/-- What the child has written to its output. -/
def written (s : Pumping) : List UInt8 := s.delivered ++ s.outChunk ++ s.stdout

/-- What the end of one part of the call says of the others. -/
structure Ordered (s : Pumping) : Prop where
  stdinEnded : s.stdinEnd ≠ none → s.chunk = [] ∧ s.input = []
  stdoutEnded : s.stdoutEnd = some true → s.outChunk = [] ∧ s.stdout = [] ∧ s.killed = false ∧
    ∃ code, s.child = .exit code
  killed : s.killed = true → s.stdoutEnd = some false
  cancelled : s.cancelled = true → s.stdoutEnd ≠ none
  stderrEnded : s.stderrEnd = true → s.Gone ∧ s.stderr = []
  reaped : s.reaped = true → s.Gone ∧ s.cancelled = true
  returned : s.result ≠ none → s.stdinEnd ≠ none ∧ s.stderrEnd = true ∧ s.reaped = true

variable {job : PumpJob} {s s' : Pumping}

theorem ordered_start : (start job).Ordered where
  stdinEnded some_ := absurd rfl some_
  stdoutEnded ended := nomatch ended
  killed killed := nomatch killed
  cancelled cancelled := nomatch cancelled
  stderrEnded ended := nomatch ended
  reaped reaped := nomatch reaped
  returned some_ := absurd rfl some_

theorem gone_exit {code : Int} (exited : s.child = .exit code) : s.Gone := .inr ⟨code, exited⟩

theorem not_gone {child : Child} (running : s.killed = false) (at_ : s.child = child)
    (live : ∀ code, child ≠ .exit code) : ¬s.Gone := by
  rintro (killed | ⟨code, exited⟩)
  · rw [running] at killed
    cases killed
  · exact live code (at_.symm.trans exited)

/-- A process that is gone does nothing more. -/
theorem gone_step (gone : s.Gone) (step : Step job s s') : s'.Gone := by
  cases step with
  | kill => exact .inl rfl
  | childPipe => exact .inl rfl
  | childRead running at_ => exact absurd gone (not_gone running at_ nofun)
  | childEnd running at_ => exact absurd gone (not_gone running at_ nofun)
  | childOut running at_ => exact absurd gone (not_gone running at_ nofun)
  | childErr running at_ => exact absurd gone (not_gone running at_ nofun)
  | _ => exact gone

theorem stdinEnded_step (ordered : s.Ordered) (step : Step job s s') :
    s'.stdinEnd ≠ none → s'.chunk = [] ∧ s'.input = [] := by
  cases step with
  | readInput live => exact fun some_ => absurd live some_
  | writeStdin live => exact fun some_ => absurd live some_
  | brokenStdin => exact fun _ => ⟨rfl, rfl⟩
  | endInput live empty => exact fun _ => ⟨empty, rfl⟩
  | failInput live empty none => exact fun _ => ⟨empty, none⟩
  | _ => exact ordered.stdinEnded

theorem stdoutEnded_step (ordered : s.Ordered) (step : Step job s s') : s'.stdoutEnd = some true →
    s'.outChunk = [] ∧ s'.stdout = [] ∧ s'.killed = false ∧ ∃ code, s'.child = .exit code := by
  intro ended
  -- a child that has ended is not at a read or a write
  have exited : s.stdoutEnd = some true → ∃ code, s.child = .exit code :=
    fun ended => (ordered.stdoutEnded ended).2.2.2
  cases step with
  | childRead running at_ =>
    obtain ⟨code, exited⟩ := exited ended
    cases at_.symm.trans exited
  | childEnd running at_ =>
    obtain ⟨code, exited⟩ := exited ended
    cases at_.symm.trans exited
  | childOut running at_ live => cases live.symm.trans ended
  | childPipe running at_ =>
    obtain ⟨code, exited⟩ := exited ended
    cases at_.symm.trans exited
  | childErr running at_ =>
    obtain ⟨code, exited⟩ := exited ended
    cases at_.symm.trans exited
  | readStdout live => cases live.symm.trans ended
  | writeOutput live => cases live.symm.trans ended
  | failOutput => cases ended
  | endOutput live chunk none gone =>
    rcases gone with killed | exited
    · cases live.symm.trans (ordered.killed killed)
    · have running : s.killed = false := by
        by_contra killed
        cases live.symm.trans (ordered.killed (by simpa using killed))
      exact ⟨chunk, none, running, exited⟩
  | kill failed => cases failed.symm.trans ended
  | _ => exact ordered.stdoutEnded ended

theorem killed_step (ordered : s.Ordered) (step : Step job s s') :
    s'.killed = true → s'.stdoutEnd = some false := by
  intro killed
  cases step with
  | childPipe running at_ ended =>
    show s.stdoutEnd = some false
    cases end_ : s.stdoutEnd with
    | none => exact absurd end_ ended
    | some delivered =>
      cases delivered with
      | false => rfl
      | true =>
        obtain ⟨-, -, -, code, exited⟩ := ordered.stdoutEnded end_
        cases at_.symm.trans exited
  | failOutput => rfl
  | endOutput live => cases live.symm.trans (ordered.killed killed)
  | kill failed => exact failed
  | _ => exact ordered.killed killed

theorem cancelled_step (ordered : s.Ordered) (step : Step job s s') :
    s'.cancelled = true → s'.stdoutEnd ≠ none := by
  intro cancelled
  cases step with
  | failOutput => exact nofun
  | endOutput => exact nofun
  | cancel ended => exact ended
  | _ => exact ordered.cancelled cancelled

theorem stderrEnded_step (ordered : s.Ordered) (step : Step job s s') :
    s'.stderrEnd = true → s'.Gone ∧ s'.stderr = [] := by
  intro ended
  have stays := fun gone => gone_step gone step
  cases step with
  | childErr running at_ => exact absurd (ordered.stderrEnded ended).1 (not_gone running at_ nofun)
  | readStderr live => cases live.symm.trans ended
  | endStderr live none gone => exact ⟨gone, none⟩
  | _ => exact ⟨stays (ordered.stderrEnded ended).1, (ordered.stderrEnded ended).2⟩

theorem reaped_step (ordered : s.Ordered) (step : Step job s s') :
    s'.reaped = true → s'.Gone ∧ s'.cancelled = true := by
  intro reaped
  have stays := fun gone => gone_step gone step
  cases step with
  | cancel ended live => cases live.symm.trans (ordered.reaped reaped).2
  | reapExited failed cancelled unreaped gone => exact ⟨gone, cancelled⟩
  | kill failed cancelled => exact ⟨.inl rfl, cancelled⟩
  | wait ended cancelled stdin stderr unreaped gone => exact ⟨gone, cancelled⟩
  | _ => exact ⟨stays (ordered.reaped reaped).1, (ordered.reaped reaped).2⟩

/-- After it has returned nothing of the call goes on. -/
theorem live_of_step (ordered : s.Ordered) (step : Step job s s') : s.result = none := by
  by_contra some_
  obtain ⟨stdin, stderr, reaped⟩ := ordered.returned some_
  obtain ⟨gone, cancelled⟩ := ordered.reaped reaped
  have stdout := ordered.cancelled cancelled
  cases step with
  | readInput live => exact stdin live
  | writeStdin live => exact stdin live
  | brokenStdin live => exact stdin live
  | endInput live => exact stdin live
  | failInput live => exact stdin live
  | childRead running at_ => exact not_gone running at_ nofun gone
  | childEnd running at_ => exact not_gone running at_ nofun gone
  | childOut running at_ => exact not_gone running at_ nofun gone
  | childPipe running at_ => exact not_gone running at_ nofun gone
  | childErr running at_ => exact not_gone running at_ nofun gone
  | readStdout live => exact stdout live
  | writeOutput live => exact stdout live
  | failOutput live => exact stdout live
  | endOutput live => exact stdout live
  | readStderr live => cases live.symm.trans stderr
  | endStderr live => cases live.symm.trans stderr
  | cancel ended live => cases live.symm.trans cancelled
  | reapExited ended cancelled live => cases live.symm.trans reaped
  | kill ended cancelled live => cases live.symm.trans reaped
  | wait ended cancelled stdin stderr live => cases live.symm.trans reaped
  | finish live => exact some_ live

theorem returned_step (ordered : s.Ordered) (step : Step job s s') :
    s'.result ≠ none → s'.stdinEnd ≠ none ∧ s'.stderrEnd = true ∧ s'.reaped = true := by
  have live := live_of_step ordered step
  cases step with
  | finish _ reaped stdin stdout stderr =>
    have ended : s.stdinEnd ≠ none := by simp [stdin]
    exact fun _ => ⟨ended, stderr, reaped⟩
  | _ => exact fun some_ => absurd live some_

theorem ordered_step (ordered : s.Ordered) (step : Step job s s') : s'.Ordered where
  stdinEnded := stdinEnded_step ordered step
  stdoutEnded := stdoutEnded_step ordered step
  killed := killed_step ordered step
  cancelled := cancelled_step ordered step
  stderrEnded := stderrEnded_step ordered step
  reaped := reaped_step ordered step
  returned := returned_step ordered step

/-- What the child has written to its standard error. -/
def Warned (s : Pumping) (all : List UInt8) : Prop :=
  ∃ got, s.retained = Retained.empty.keep got ∧ got ++ s.stderr = all

/-- What a step of the call is for the child, as long as its output is taken. -/
inductive Advance (s s' : Pumping) : Prop where
  | idle : s'.child = s.child → s'.unread = s.unread → s'.written = s.written →
      (∀ all, s.Warned all → s'.Warned all) → Advance s s'
  | past {code : Int} : s.child = .exit code → s'.child = .exit code → s'.stdinEnd ≠ none →
      s'.written = s.written → (∀ all, s.Warned all → s'.Warned all) → Advance s s'
  | read {next : Option UInt8 → Child} {byte : UInt8} : s.child = .read next → s'.child = next (some byte) →
      s.unread = byte :: s'.unread → s'.written = s.written → (∀ all, s.Warned all → s'.Warned all) → Advance s s'
  | ended {next : Option UInt8 → Child} : s.child = .read next → s'.child = next none → s.unread = [] →
      s'.unread = [] → s'.stdinEnd ≠ none → s'.written = s.written → (∀ all, s.Warned all → s'.Warned all) →
      Advance s s'
  | out {byte : UInt8} : s.child = .out byte s'.child → s'.unread = s.unread → s'.written = s.written ++ [byte] →
      (∀ all, s.Warned all → s'.Warned all) → Advance s s'
  | err {byte : UInt8} : s.child = .err byte s'.child → s'.unread = s.unread → s'.written = s.written →
      (∀ all, s.Warned all → s'.Warned (all ++ [byte])) → Advance s s'

theorem exited_of_gone (ordered : s.Ordered) (gone : s.Gone) (taken : s.stdoutEnd ≠ some false) :
    ∃ code, s.child = .exit code := by
  rcases gone with killed | exited
  · exact absurd (ordered.killed killed) taken
  · exact exited

theorem exited_of_ended (ordered : s.Ordered) (ended : s.stdoutEnd ≠ none) (taken : s.stdoutEnd ≠ some false) :
    ∃ code, s.child = .exit code := by
  cases end_ : s.stdoutEnd with
  | none => exact absurd end_ ended
  | some delivered =>
    cases delivered with
    | false => exact absurd end_ taken
    | true => exact (ordered.stdoutEnded end_).2.2.2

theorem advance_step (ordered : s.Ordered) (step : Step job s s') (taken : s'.stdoutEnd ≠ some false) :
    Advance s s' := by
  have same : ∀ all, s.Warned all → s.Warned all := fun _ => id
  cases step with
  | @readInput read rest live empty some_ short input =>
    have unread : s.stdin ++ read ++ rest = s.unread := by simp [Pumping.unread, empty, input]
    exact .idle rfl unread rfl same
  | @writeStdin byte rest live chunk room running =>
    have unread : s.stdin ++ [byte] ++ rest ++ s.input = s.unread := by simp [Pumping.unread, chunk]
    exact .idle rfl unread rfl same
  | brokenStdin live chunk gone =>
    obtain ⟨code, exited⟩ := exited_of_gone ordered gone taken
    exact .past exited exited nofun rfl same
  | endInput live empty why =>
    rcases why with ⟨none, closed⟩ | cancelled
    · have unread : s.stdin ++ s.chunk ++ [] = s.unread := by rw [Pumping.unread, none]
      exact .idle rfl unread rfl same
    · obtain ⟨code, exited⟩ := exited_of_ended ordered (ordered.cancelled cancelled) taken
      exact .past exited exited nofun rfl same
  | @childRead next byte rest running at_ waiting =>
    have unread : s.unread = byte :: (rest ++ s.chunk ++ s.input) := by simp [Pumping.unread, waiting]
    exact .read at_ rfl unread rfl same
  | @childEnd next running at_ none closed =>
    obtain ⟨chunk, input⟩ := ordered.stdinEnded closed
    have unread : s.unread = [] := by simp [Pumping.unread, none, chunk, input]
    exact .ended at_ rfl unread unread closed rfl same
  | @childOut byte next running at_ live room =>
    have written : s.delivered ++ s.outChunk ++ (s.stdout ++ [byte]) = s.written ++ [byte] := by
      simp [Pumping.written]
    exact .out at_ rfl written same
  | childPipe running at_ ended =>
    obtain ⟨code, exited⟩ := exited_of_ended ordered ended taken
    cases at_.symm.trans exited
  | @childErr byte next running at_ room =>
    refine .err at_ rfl rfl fun all warned => ?_
    obtain ⟨got, retained, rfl⟩ := warned
    exact ⟨got, retained, (List.append_assoc _ _ _).symm⟩
  | @readStdout read rest live empty some_ short stdout =>
    have written : s.delivered ++ read ++ rest = s.written := by simp [Pumping.written, empty, stdout]
    exact .idle rfl rfl written same
  | @writeOutput byte rest live chunk room =>
    have written : s.delivered ++ [byte] ++ rest ++ s.stdout = s.written := by simp [Pumping.written, chunk]
    exact .idle rfl rfl written same
  | failOutput => exact absurd rfl taken
  | @readStderr read rest live some_ short stderr =>
    refine .idle rfl rfl rfl fun all warned => ?_
    obtain ⟨got, retained, rfl⟩ := warned
    refine ⟨got ++ read, ?_, ?_⟩
    · show s.retained.keep read = _
      rw [retained, Retained.keep_keep]
    · rw [stderr, List.append_assoc]
  | kill failed => exact absurd failed taken
  | failInput => exact .idle rfl rfl rfl same
  | endOutput => exact .idle rfl rfl rfl same
  | endStderr => exact .idle rfl rfl rfl same
  | cancel => exact .idle rfl rfl rfl same
  | reapExited => exact .idle rfl rfl rfl same
  | wait => exact .idle rfl rfl rfl same
  | finish => exact .idle rfl rfl rfl same

/-- The child has the answer of one that runs alone before it: it has written a part of that, and
    what it reads and writes next is the rest. -/
structure Flows (job : PumpJob) (s : Pumping) : Prop where
  stdout : s.written ++ s.child.stdout s.unread = job.answer
  stderr : ∃ all, s.Warned all ∧ all ++ s.child.stderr s.unread = job.child.stderr job.input
  code : s.child.code s.unread = job.child.code job.input

theorem flows_start : Flows job (start job) where
  stdout := rfl
  stderr := ⟨[], ⟨[], (Retained.keep_nil _).symm, rfl⟩, rfl⟩
  code := rfl

theorem flows_advance (flows : Flows job s) (advance : Advance s s') : Flows job s' := by
  obtain ⟨stdout, ⟨all, warned, stderr⟩, code⟩ := flows
  cases advance with
  | idle child unread written warns =>
    rw [← child, ← unread] at stdout stderr code
    exact ⟨by rw [written, stdout], ⟨all, warns all warned, stderr⟩, code⟩
  | past was is_ closed written warns =>
    rw [was] at stdout stderr code
    exact ⟨by rw [written, is_]; exact stdout, ⟨all, warns all warned, by rw [is_]; exact stderr⟩,
      by rw [is_]; exact code⟩
  | read was is_ unread written warns =>
    rw [was, unread] at stdout stderr code
    exact ⟨by rw [written, is_]; exact stdout, ⟨all, warns all warned, by rw [is_]; exact stderr⟩,
      by rw [is_]; exact code⟩
  | ended was is_ unread unread' closed written warns =>
    rw [was, unread] at stdout stderr code
    exact ⟨by rw [written, is_, unread']; exact stdout,
      ⟨all, warns all warned, by rw [is_, unread']; exact stderr⟩,
      by rw [is_, unread']; exact code⟩
  | @out byte was unread written warns =>
    rw [was, ← unread] at stdout stderr code
    refine ⟨?_, ⟨all, warns all warned, stderr⟩, code⟩
    rw [written, List.append_assoc]
    exact stdout
  | @err byte was unread written warns =>
    rw [was, ← unread] at stdout stderr code
    refine ⟨by rw [written]; exact stdout, ⟨all ++ [byte], warns all warned, ?_⟩, code⟩
    rw [List.append_assoc]
    exact stderr

/-- What the client has got. -/
structure Took (job : PumpJob) (s : Pumping) : Prop where
  within : ∀ limit ∈ job.takes, s.delivered.length ≤ limit
  failed : s.stdoutEnd = some false →
    ∃ limit, job.takes = some limit ∧ limit < job.answer.length ∧ s.delivered = job.answer.take limit

theorem took_start : Took job (start job) where
  within limit _ := Nat.zero_le limit
  failed failed := nomatch failed

theorem took_step (flows : Flows job s) (took : Took job s) (live : s.stdoutEnd = none) (step : Step job s s') :
    Took job s' := by
  obtain ⟨within, failed⟩ := took
  cases step with
  | writeOutput _ chunk room =>
    refine ⟨fun limit takes => ?_, fun failed => nomatch live.symm.trans failed⟩
    have more := room limit takes
    rw [List.length_append, List.length_singleton]
    omega
  | @failOutput limit _ chunk takes full =>
    refine ⟨within, fun _ => ⟨limit, takes, ?_, ?_⟩⟩
    · have some_ := List.length_pos_of_ne_nil chunk
      have answer := congrArg List.length flows.stdout
      simp only [written, List.length_append] at answer
      omega
    · have length : s.delivered.length = limit := Nat.le_antisymm (within limit takes) full
      have answer := flows.stdout
      rw [written, List.append_assoc, List.append_assoc] at answer
      rw [← answer, ← length, List.take_left]
  | endOutput => exact ⟨within, nofun⟩
  | _ => exact ⟨within, failed⟩

/-- After its end nothing more is delivered. -/
theorem took_ended (took : Took job s) (ended : s.stdoutEnd ≠ none) (step : Step job s s') : Took job s' := by
  cases step with
  | writeOutput live => exact absurd live ended
  | failOutput live => exact absurd live ended
  | endOutput live => exact absurd live ended
  | _ => exact ⟨took.within, took.failed⟩

theorem not_takesAll_of_failed (took : Took job s) (failed : s.stdoutEnd = some false) : ¬job.TakesAll := by
  intro all
  obtain ⟨limit, takes, short, -⟩ := took.failed failed
  have long := all limit takes
  omega

/-- What the pump of the input has read of what the client sends. -/
structure Copies (job : PumpJob) (s : Pumping) : Prop where
  counts : s.stdinEnd = none → s.copied + s.chunk.length + s.input.length = job.input.length
  leaves : s.stdoutEnd ≠ some false → s.stdinEnd = none → s.child.leaves s.unread = job.child.leaves job.input
  ended : job.TakesAll → ∀ stdin, s.stdinEnd = some stdin → job.Copied stdin

theorem copies_start : Copies job (start job) where
  counts _ := Nat.zero_add _
  leaves _ _ := rfl
  ended _ _ ended := nomatch ended

theorem leaves_advance (advance : Advance s s') (live : s'.stdinEnd = none) :
    s'.child.leaves s'.unread = s.child.leaves s.unread := by
  cases advance with
  | idle child unread => rw [child, unread]
  | past was is_ closed => exact absurd live closed
  | read was is_ unread => rw [was, is_, unread]; rfl
  | ended was is_ unread unread' closed => exact absurd live closed
  | out was unread => rw [was, unread]; rfl
  | err was unread => rw [was, unread]; rfl

/-- The end of the input stays as it is. -/
theorem open_of_step (step : Step job s s') (live : s'.stdinEnd = none) : s.stdinEnd = none := by
  cases step with
  | brokenStdin => cases live
  | endInput => cases live
  | failInput => cases live
  | _ => exact live

theorem counts_step (copies : Copies job s) (step : Step job s s') :
    s'.stdinEnd = none → s'.copied + s'.chunk.length + s'.input.length = job.input.length := by
  intro live
  have counts := copies.counts
  cases step with
  | @readInput read rest live empty some_ short input =>
    have before := counts live
    rw [empty, input, List.length_append, List.length_nil] at before
    show s.copied + read.length + rest.length = _
    omega
  | @writeStdin byte rest live chunk =>
    have before := counts live
    rw [chunk, List.length_cons] at before
    show s.copied + 1 + rest.length + s.input.length = _
    omega
  | brokenStdin => cases live
  | endInput => cases live
  | failInput => cases live
  | _ => exact counts live

/-- A pump of the input that ends while the client takes the answer: it fails only with something
    left that the child has not read. -/
theorem ended_step (ordered : s.Ordered) (took : Took job s) (copies : Copies job s) (step : Step job s s') :
    job.TakesAll → ∀ stdin, s'.stdinEnd = some stdin → job.Copied stdin := by
  intro all stdin ended
  have taken : s.stdoutEnd ≠ some false := fun failed => not_takesAll_of_failed took failed all
  cases step with
  | readInput live => cases live.symm.trans ended
  | writeStdin live => cases live.symm.trans ended
  | brokenStdin live chunk gone =>
    cases ended
    refine ⟨nofun, fun leaves => ?_⟩
    obtain ⟨code, exited⟩ := exited_of_gone ordered gone taken
    have nothing := copies.leaves taken live
    rw [exited, leaves] at nothing
    have unread : s.stdin ++ s.chunk ++ s.input = [] := nothing
    rw [List.append_eq_nil_iff, List.append_eq_nil_iff] at unread
    exact absurd unread.1.2 chunk
  | endInput live empty why =>
    cases ended
    have counts := copies.counts live
    rw [empty, List.length_nil] at counts
    refine ⟨fun n copied => ?_, fun leaves _ => ?_⟩
    · cases copied
      omega
    · have input : s.input = [] := by
        rcases why with ⟨none, closed⟩ | cancelled
        · exact none
        · obtain ⟨code, exited⟩ := exited_of_ended ordered (ordered.cancelled cancelled) taken
          have nothing := copies.leaves taken live
          rw [exited, leaves] at nothing
          exact (List.append_eq_nil_iff.mp nothing).2
      rw [input, List.length_nil] at counts
      have copied : s.copied = job.input.length := by omega
      rw [copied]
  | failInput live empty none failed =>
    cases ended
    exact ⟨nofun, fun _ well => absurd failed (well _)⟩
  | _ => exact copies.ended all stdin ended

/-- The call under way, or returned. -/
structure Underway (job : PumpJob) (s : Pumping) : Prop where
  ordered : s.Ordered
  flows : s.stdoutEnd ≠ some false → Flows job s
  took : Took job s
  copies : Copies job s
  returned : s.result ≠ none → job.Done s

theorem underway_start : Underway job (start job) where
  ordered := ordered_start
  flows _ := flows_start
  took := took_start
  copies := copies_start
  returned some_ := absurd rfl some_

/-- The end of the output stays as it is. -/
theorem failed_step (failed : s.stdoutEnd = some false) (step : Step job s s') : s'.stdoutEnd = some false := by
  cases step with
  | failOutput live => cases live.symm.trans failed
  | endOutput live => cases live.symm.trans failed
  | _ => exact failed

theorem done_finish (underway : Underway job s) {stdin : Except String Nat} {stdout : Bool}
    (reaped : s.reaped = true) (endIn : s.stdinEnd = some stdin) (endOut : s.stdoutEnd = some stdout)
    (endErr : s.stderrEnd = true) :
    job.Done { s with result := some (pumpResult job.display job.expectedStdinBytes stdin stdout
      s.retained.text s.code) } := by
  obtain ⟨ordered, flows, took, copies, -⟩ := underway
  have gone : s.Gone := (ordered.reaped reaped).1
  cases stdout with
  | false =>
    have short := not_takesAll_of_failed took endOut
    obtain ⟨limit, takes, -, delivered⟩ := took.failed endOut
    refine ⟨gone, reaped, ?_, fun _ => rfl, fun all => absurd all short⟩
    show s.delivered = job.taken
    rw [delivered, PumpJob.taken, takes]
  | true =>
    obtain ⟨outChunk, noOut, running, code, exited⟩ := ordered.stdoutEnded endOut
    obtain ⟨out, ⟨all, ⟨got, retained, rfl⟩, err⟩, status⟩ := flows (by simp [endOut])
    obtain ⟨-, noErr⟩ := ordered.stderrEnded endErr
    rw [exited] at out err status
    have delivered : s.delivered = job.answer := by
      rw [written, outChunk, noOut] at out
      simpa [Child.stdout] using out
    have warned : got = job.child.stderr job.input := by
      rw [noErr] at err
      simpa [Child.stderr] using err
    have took_ : job.TakesAll := by
      intro limit takes
      rw [← delivered]
      exact took.within limit takes
    refine ⟨gone, reaped, ?_, fun short => absurd took_ short,
      fun all => ⟨stdin, copies.ended all stdin endIn, ?_⟩⟩
    · show s.delivered = job.taken
      cases takes : job.takes with
      | none => rw [delivered, PumpJob.taken, takes]
      | some limit =>
        rw [delivered, PumpJob.taken, takes]
        exact (List.take_of_length_le (took_ limit takes)).symm
    · have code_ : s.code = some (job.child.code job.input) := by
        rw [← status, Pumping.code, running, exited]
        rfl
      show some (pumpResult _ _ stdin true s.retained.text s.code) = _
      rw [retained, warned, code_]

theorem underway_step (underway : Underway job s) (step : Step job s s') : Underway job s' where
  ordered := ordered_step underway.ordered step
  flows taken := by
    have taken_ : s.stdoutEnd ≠ some false := fun failed => taken (failed_step failed step)
    exact flows_advance (underway.flows taken_) (advance_step underway.ordered step taken)
  took := by
    by_cases live : s.stdoutEnd = none
    · exact took_step (underway.flows (by simp [live])) underway.took live step
    · exact took_ended underway.took live step
  copies := {
    counts := counts_step underway.copies step
    leaves := by
      intro taken open_
      have taken_ : s.stdoutEnd ≠ some false := fun failed => taken (failed_step failed step)
      rw [leaves_advance (advance_step underway.ordered step taken) open_]
      exact underway.copies.leaves taken_ (open_of_step step open_)
    ended := ended_step underway.ordered underway.took underway.copies step }
  returned := by
    have live := live_of_step underway.ordered step
    cases step with
    | finish _ reaped stdin stdout stderr => exact fun _ => done_finish underway reaped stdin stdout stderr
    | _ => exact fun some_ => absurd live some_

/-- The child waits, or will wait, for more than the client sends while the client has taken all of
    the answer so far. -/
def Waiting (job : PumpJob) (s : Pumping) : Prop :=
  s.child.Starves job.takes s.unread s.written.length ∧ ∀ limit ∈ job.takes, s.written.length ≤ limit

theorem waiting_start : Waiting job (start job) ↔ job.child.Starves job.takes job.input 0 :=
  ⟨fun waiting => waiting.1, fun starves => ⟨starves, fun limit _ => Nat.zero_le limit⟩⟩

theorem waiting_advance (advance : Advance s s') (live : s'.stdinEnd = none) :
    Waiting job s' ↔ Waiting job s := by
  cases advance with
  | idle child unread written => rw [Waiting, Waiting, child, unread, written]
  | past was is_ closed => exact absurd live closed
  | read was is_ unread written =>
    rw [Waiting, Waiting, was, is_, unread, written]
    exact Iff.rfl
  | ended was is_ unread unread' closed => exact absurd live closed
  | @out byte was unread written =>
    rw [Waiting, Waiting, was, unread, written, List.length_append, List.length_singleton]
    constructor
    · rintro ⟨starves, within⟩
      exact ⟨⟨within, starves⟩, fun limit takes => Nat.le_of_succ_le (within limit takes)⟩
    · rintro ⟨⟨room, starves⟩, -⟩
      exact ⟨starves, room⟩
  | err was unread written =>
    rw [Waiting, Waiting, was, unread, written]
    exact Iff.rfl

theorem not_gone_of_waiting (ordered : s.Ordered) (live : s.stdoutEnd = none) (waiting : Waiting job s) :
    ¬s.Gone := by
  intro gone
  obtain ⟨code, exited⟩ := exited_of_gone ordered gone (by simp [live])
  have starves := waiting.1
  rw [exited] at starves
  exact starves

/-- A call whose child waits for a client that keeps the connection open. -/
structure Hanging (job : PumpJob) (s : Pumping) : Prop where
  ordered : s.Ordered
  stdin : s.stdinEnd = none
  stdout : s.stdoutEnd = none
  waiting : Waiting job s

theorem hanging_step (held : job.ending = .held) (hanging : Hanging job s) (step : Step job s s') :
    Hanging job s' := by
  obtain ⟨ordered, stdin, stdout, waiting⟩ := hanging
  have running := not_gone_of_waiting ordered stdout waiting
  have going : s.cancelled = false := by
    by_contra cancelled
    exact ordered.cancelled (by simpa using cancelled) stdout
  have open_ : s'.stdinEnd = none := by
    cases step with
    | brokenStdin live chunk gone => exact absurd gone running
    | endInput live empty why =>
      rcases why with ⟨-, closed⟩ | cancelled
      · cases held.symm.trans closed
      · cases going.symm.trans cancelled
    | failInput live empty none failed => cases held.symm.trans failed
    | _ => exact stdin
  have open' : s'.stdoutEnd = none := by
    cases step with
    | @failOutput limit live chunk takes full =>
      have within := waiting.2 limit takes
      have some_ := List.length_pos_of_ne_nil chunk
      simp only [written, List.length_append] at within
      omega
    | endOutput live chunk none gone => exact absurd gone running
    | _ => exact stdout
  have advance := advance_step ordered step (by simp [open'])
  exact ⟨ordered_step ordered step, open_, open', (waiting_advance advance open_).mpr waiting⟩

/-- A call that does not come to hang. -/
structure Moving (job : PumpJob) (s : Pumping) : Prop where
  underway : Underway job s
  fed : job.ending = .held → s.stdinEnd = none → s.stdoutEnd = none → ¬Waiting job s

theorem ended_of_step (step : Step job s s') (live : s'.stdoutEnd = none) : s.stdoutEnd = none := by
  cases step with
  | failOutput => cases live
  | endOutput => cases live
  | _ => exact live

theorem moving_step (moving : Moving job s) (step : Step job s s') : Moving job s' where
  underway := underway_step moving.underway step
  fed held open_ live := by
    have advance := advance_step moving.underway.ordered step (by simp [live])
    rw [waiting_advance advance open_]
    exact moving.fed held (open_of_step step open_) (ended_of_step step live)

/-- One step is left for what has not happened. -/
def toCome (happened : Bool) : Nat := if happened then 0 else 1

/-- A byte of the input is read, written and read again, and a byte of the output likewise. -/
def measure (s : Pumping) : Nat :=
  3 * s.child.most s.unread + 2 * s.input.length + s.chunk.length + 2 * s.stdout.length + s.outChunk.length +
    s.stderr.length + toCome s.stdinEnd.isSome + toCome s.stdoutEnd.isSome + toCome s.stderrEnd +
    toCome s.cancelled + toCome s.killed + toCome s.reaped + toCome s.result.isSome

theorem toCome_true : toCome true = 0 := rfl

theorem toCome_false : toCome false = 1 := rfl

theorem measure_step (ordered : s.Ordered) (step : Step job s s') : s'.measure < s.measure := by
  cases step with
  | @readInput read rest live empty some_ short input =>
    have same : ({ s with input := rest, chunk := read } : Pumping).unread = s.unread := by
      simp [unread, empty, input]
    have length := List.length_pos_of_ne_nil some_
    simp only [measure, same, empty, input, List.length_append, List.length_nil]
    omega
  | @writeStdin byte rest live chunk room running =>
    have same : ({ s with chunk := rest, stdin := s.stdin ++ [byte], copied := s.copied + 1 } : Pumping).unread =
        s.unread := by simp [unread, chunk]
    simp only [measure, same, chunk, List.length_cons]
    omega
  | brokenStdin live chunk gone =>
    have less := s.child.most_append s.stdin (s.chunk ++ s.input)
    simp only [measure, unread, live, List.append_nil, List.append_assoc, List.length_nil, Option.isSome_none,
      Option.isSome_some, toCome_true, toCome_false]
    omega
  | endInput live empty why =>
    have less := s.child.most_append s.stdin s.input
    simp only [measure, unread, live, empty, List.append_nil, List.length_nil, Option.isSome_none,
      Option.isSome_some, toCome_true, toCome_false]
    omega
  | failInput live empty none failed =>
    simp only [measure, unread, live, Option.isSome_none, Option.isSome_some, toCome_true, toCome_false]
    omega
  | @childRead next byte rest running at_ waiting =>
    simp only [measure, unread, at_, waiting, List.cons_append, Child.most]
    omega
  | @childEnd next running at_ none closed =>
    obtain ⟨chunk, input⟩ := ordered.stdinEnded closed
    simp only [measure, unread, at_, none, chunk, input, List.append_nil, Child.most]
    omega
  | @childOut byte next running at_ live room =>
    simp only [measure, unread, at_, Child.most, List.length_append, List.length_singleton]
    omega
  | childPipe running at_ ended =>
    simp only [measure, unread, running, toCome_true, toCome_false]
    omega
  | @childErr byte next running at_ room =>
    simp only [measure, unread, at_, Child.most, List.length_append, List.length_singleton]
    omega
  | @readStdout read rest live empty some_ short stdout =>
    have length := List.length_pos_of_ne_nil some_
    simp only [measure, unread, empty, stdout, List.length_append, List.length_nil]
    omega
  | @writeOutput byte rest live chunk room =>
    simp only [measure, unread, chunk, List.length_cons]
    omega
  | @failOutput limit live chunk takes full =>
    simp only [measure, unread, live, List.length_nil, Option.isSome_none, Option.isSome_some, toCome_true,
      toCome_false]
    omega
  | endOutput live chunk none gone =>
    simp only [measure, unread, live, Option.isSome_none, Option.isSome_some, toCome_true, toCome_false]
    omega
  | @readStderr read rest live some_ short stderr =>
    have length := List.length_pos_of_ne_nil some_
    simp only [measure, unread, stderr, List.length_append]
    omega
  | endStderr live none gone =>
    simp only [measure, unread, live, toCome_true, toCome_false]
    omega
  | cancel ended live =>
    simp only [measure, unread, live, toCome_true, toCome_false]
    omega
  | reapExited failed cancelled live gone =>
    simp only [measure, unread, live, toCome_true, toCome_false]
    omega
  | kill failed cancelled live running =>
    have alive : s.killed = false := by
      by_contra killed
      exact running (.inl (by simpa using killed))
    simp only [measure, unread, live, alive, toCome_true, toCome_false]
    omega
  | wait ended cancelled stdin stderr live gone =>
    simp only [measure, unread, live, toCome_true, toCome_false]
    omega
  | finish live reaped stdin stdout stderr =>
    simp only [measure, unread, live, Option.isSome_none, Option.isSome_some, toCome_true, toCome_false]
    omega

/-- The pump of the output takes what is there. -/
theorem step_of_output (live : s.stdoutEnd = none) (some_ : s.outChunk ≠ [] ∨ s.stdout ≠ []) :
    ∃ s', Step job s s' := by
  cases chunk : s.outChunk with
  | cons byte rest =>
    by_cases room : ∀ limit ∈ job.takes, s.delivered.length < limit
    · exact ⟨_, .writeOutput live chunk room⟩
    · push Not at room
      obtain ⟨limit, takes, full⟩ := room
      exact ⟨_, .failOutput live (by simp [chunk]) takes full⟩
  | nil =>
    have waiting : s.stdout ≠ [] := some_.resolve_left (absurd chunk)
    cases stdout : s.stdout with
    | nil => exact absurd stdout waiting
    | cons byte rest =>
      have short : [byte].length ≤ chunkBytes := by simp [chunkBytes]
      exact ⟨_, .readStdout live chunk (List.cons_ne_nil byte []) short stdout⟩

theorem step_of_stderr (live : s.stderrEnd = false) (some_ : s.stderr ≠ []) : ∃ s', Step job s s' := by
  cases stderr : s.stderr with
  | nil => exact absurd stderr some_
  | cons byte rest =>
    have short : [byte].length ≤ chunkBytes := by simp [chunkBytes]
    exact ⟨_, .readStderr live (List.cons_ne_nil byte []) short stderr⟩

/-- The pump of the input goes on while the child waits for it, unless the client holds. -/
theorem step_of_input (moving : Moving job s) (live : s.stdoutEnd = none) (running : ¬s.Gone)
    {next : Option UInt8 → Child} (at_ : s.child = .read next) (empty : s.stdin = []) (open_ : s.stdinEnd = none)
    (idle : s.outChunk = [] ∧ s.stdout = []) : ∃ s', Step job s s' := by
  have room : s.stdin.length < job.capacity := by rw [empty]; exact job.positive
  cases chunk : s.chunk with
  | cons byte rest => exact ⟨_, .writeStdin open_ chunk room running⟩
  | nil =>
    cases input : s.input with
    | cons byte rest =>
      have short : [byte].length ≤ chunkBytes := by simp [chunkBytes]
      exact ⟨_, .readInput open_ chunk (List.cons_ne_nil byte []) short input⟩
    | nil =>
      cases ending : job.ending with
      | closed => exact ⟨_, .endInput open_ chunk (.inl ⟨input, ending⟩)⟩
      | failed error => exact ⟨_, .failInput open_ chunk input ending⟩
      | held =>
        refine absurd ?_ (moving.fed ending open_ live)
        have unread : s.unread = [] := by rw [Pumping.unread, empty, chunk, input]; rfl
        have written : s.written = s.delivered := by simp [Pumping.written, idle]
        rw [Waiting, at_, unread, written]
        exact ⟨trivial, moving.underway.took.within⟩

/-- While the output goes on so does the call. -/
theorem step_of_streaming (moving : Moving job s) (live : s.stdoutEnd = none) : ∃ s', Step job s s' := by
  have ordered := moving.underway.ordered
  by_cases some_ : s.outChunk ≠ [] ∨ s.stdout ≠ []
  · exact step_of_output live some_
  push Not at some_
  by_cases gone : s.Gone
  · exact ⟨_, .endOutput live some_.1 some_.2 gone⟩
  have running : s.killed = false := by
    by_contra killed
    exact gone (.inl (by simpa using killed))
  have open_ : s.stderrEnd = false := by
    by_contra ended
    exact gone (ordered.stderrEnded (by simpa using ended)).1
  cases at_ : s.child with
  | read next =>
    cases stdin : s.stdin with
    | cons byte rest => exact ⟨_, .childRead running at_ stdin⟩
    | nil =>
      by_cases closed : s.stdinEnd = none
      · exact step_of_input moving live gone at_ stdin closed some_
      · exact ⟨_, .childEnd running at_ stdin closed⟩
  | out byte next =>
    have room : s.stdout.length < job.capacity := by rw [some_.2]; exact job.positive
    exact ⟨_, .childOut running at_ live room⟩
  | err byte next =>
    by_cases stderr : s.stderr = []
    · have room : s.stderr.length < job.capacity := by rw [stderr]; exact job.positive
      exact ⟨_, .childErr running at_ room⟩
    · exact step_of_stderr open_ stderr
  | exit code => exact absurd (gone_exit at_) gone

/-- After the output has ended the call winds up. -/
theorem step_of_winding (ordered : s.Ordered) (live : s.result = none) {delivered : Bool}
    (ended : s.stdoutEnd = some delivered) : ∃ s', Step job s s' := by
  have some_ : s.stdoutEnd ≠ none := by simp [ended]
  by_cases cancelled : s.cancelled = true
  swap
  · exact ⟨_, .cancel some_ (by simpa using cancelled)⟩
  by_cases gone : s.Gone
  swap
  · -- a process that is still there is killed, since the client has not taken its output
    have unreaped : s.reaped = false := by
      by_contra reaped
      exact gone (ordered.reaped (by simpa using reaped)).1
    cases delivered with
    | false => exact ⟨_, .kill ended cancelled unreaped gone⟩
    | true =>
      obtain ⟨-, -, -, exited⟩ := ordered.stdoutEnded ended
      exact absurd (.inr exited) gone
  cases stdin : s.stdinEnd with
  | none =>
    by_cases chunk : s.chunk = []
    · exact ⟨_, .endInput stdin chunk (.inr cancelled)⟩
    · exact ⟨_, .brokenStdin stdin chunk gone⟩
  | some copied =>
    by_cases stderr : s.stderrEnd = true
    swap
    · by_cases none : s.stderr = []
      · exact ⟨_, .endStderr (by simpa using stderr) none gone⟩
      · exact step_of_stderr (by simpa using stderr) none
    by_cases reaped : s.reaped = true
    · exact ⟨_, .finish live reaped stdin ended stderr⟩
    have unreaped : s.reaped = false := by simpa using reaped
    cases delivered with
    | false => exact ⟨_, .reapExited ended cancelled unreaped gone⟩
    | true => exact ⟨_, .wait ended cancelled (by simp [stdin]) stderr unreaped gone⟩

theorem step_of_moving (moving : Moving job s) (live : s.result = none) : ∃ s', Step job s s' := by
  cases ended : s.stdoutEnd with
  | none => exact step_of_streaming moving ended
  | some delivered => exact step_of_winding moving.underway.ordered live ended

end Pumping

namespace PumpJob

variable (job : PumpJob)

theorem not_completed_of_starved (starved : job.Starved) : ¬job.Completed := by
  have start : Pumping.Hanging job (Pumping.start job) :=
    ⟨Pumping.ordered_start, rfl, rfl, Pumping.waiting_start.mpr starved.2⟩
  have kept : ∀ s s', Pumping.Hanging job s → Pumping.Step job s s' → Pumping.Hanging job s' :=
    fun _ _ => Pumping.hanging_step starved.1
  have bad : ∀ s, Pumping.Hanging job s → ¬job.Done s := by
    intro s hanging done
    exact Pumping.not_gone_of_waiting hanging.ordered hanging.stdout hanging.waiting done.gone
  exact not_completes_of_invariant kept bad start

theorem completed_of_not_starved (fed : ¬job.Starved) : job.Completed := by
  have start : Pumping.Moving job (Pumping.start job) := by
    refine ⟨Pumping.underway_start, fun held _ _ waiting => ?_⟩
    exact fed ⟨held, Pumping.waiting_start.mp waiting⟩
  have kept : ∀ s s', Pumping.Moving job s → Pumping.Step job s s' → Pumping.Moving job s' :=
    fun _ _ => Pumping.moving_step
  have less : ∀ s s', Pumping.Moving job s → Pumping.Step job s s' → s'.measure < s.measure :=
    fun _ _ moving => Pumping.measure_step moving.underway.ordered
  have well : ∀ s, Pumping.Moving job s → Stuck (Pumping.Step job) s → job.Done s := by
    intro s moving stuck
    apply moving.underway.returned
    intro live
    obtain ⟨s', step⟩ := Pumping.step_of_moving moving live
    exact stuck s' step
  exact completes_of_invariant kept less well start

/-- The call comes to its end under every schedule, with its process gone, except where the child
    waits for a client that keeps the connection open. -/
theorem pump_completed_iff : job.Completed ↔ ¬job.Starved :=
  ⟨fun completed starved => job.not_completed_of_starved starved completed, job.completed_of_not_starved⟩

variable {job} {s : Pumping}

/-- A call that succeeds has delivered the whole answer of a child that succeeded, and has read
    what the request declared. -/
theorem whole_of_ok (done : job.Done s) (ok : s.result = some (.ok ())) :
    s.delivered = job.answer ∧ job.expectedStdinBytes ≤ job.input.length ∧ job.child.code job.input = 0 := by
  have all : job.TakesAll := by
    by_contra short
    cases ok.symm.trans (done.failed short)
  obtain ⟨stdin, copied, returned⟩ := done.returned all
  obtain ⟨rfl, success⟩ := pumpResult_ok (Option.some.inj (returned.symm.trans ok))
  refine ⟨?_, copied.atMost _ rfl, Option.some.inj success⟩
  rw [done.taken, PumpJob.taken]
  cases takes : job.takes with
  | none => rfl
  | some limit => exact List.take_of_length_le (all limit takes)

/-- A request that comes whole, to a child that reads all of it and succeeds, with a client that
    takes the answer, succeeds under every schedule. -/
theorem ok_of_done (done : job.Done s) (length : job.input.length = job.expectedStdinBytes)
    (well : ∀ error, job.ending ≠ .failed error) (reads : job.child.leaves job.input = [])
    (takes : job.TakesAll) (code : job.child.code job.input = 0) : s.result = some (.ok ()) := by
  obtain ⟨stdin, copied, returned⟩ := done.returned takes
  rw [returned, copied.whole reads well, pumpResult]
  simp [length, code]

end PumpJob

end Jeryu.Gitd
