import Jeryu.Library.Reader
import Jeryu.Gitd.Pack

/-!
The records of a push as they are read off the connection. The scan is resumed where it stopped
and asks for what it misses, and the records are parsed once they are complete; a push whose body
is already there is only parsed. Both see the same records.
-/

namespace Jeryu.Gitd

open KeyedMap Text

def MAX_RECEIVE_PACK_PRELUDE_BYTES : Nat := 1024 * 1024

inductive PreludeState where
  | complete (length : Nat)
  | need (bytes : Nat)
  deriving DecidableEq

/-- The scan from `offset`, and the offset it gets to. -/
def receivePackPreludeState (input : List UInt8) (offset : Nat) :
    Except GitdError (PreludeState × Nat) :=
  let remaining := input.length - offset
  if remaining < 4 then .ok (.need (4 - remaining), offset)
  else match pktLength ((input.drop offset).take 4) with
    | .error error => .error error
    | .ok length =>
      if length = 0 then .ok (.complete (offset + 4), offset)
      else if length = 1 ∨ length = 2 then receivePackPreludeState input (offset + 4)
      else if length = 3 then .error (.protocol "reserved pkt-line length 0003")
      else if remaining < length then .ok (.need (length - remaining), offset)
      else receivePackPreludeState input (offset + length)
termination_by input.length - offset

theorem receivePackPreludeState_need {input : List UInt8} {offset offset' needed : Nat}
    (state : receivePackPreludeState input offset = .ok (.need needed, offset')) : 0 < needed := by
  fun_induction receivePackPreludeState input offset with
  | case1 offset remaining short =>
    cases state
    omega
  | case2 => cases state
  | case3 => cases state
  | case4 _ _ _ _ _ _ _ ih => exact ih state
  | case5 => cases state
  | case6 offset remaining _ length _ _ _ _ cut =>
    cases state
    omega
  | case7 _ _ _ _ _ _ _ _ _ ih => exact ih state

/-- The loop of `read_receive_pack_prefix`: `received` is what has been read so far, and the scan
    has come to `offset`. -/
def receivePackPrefixLoop (reader : Reader UInt8) (contentLength : Nat) (received : List UInt8)
    (offset : Nat) : Except GitdError (List UInt8 × Reader UInt8) :=
  match _state : receivePackPreludeState received offset with
  | .error error => .error error
  | .ok (.complete preludeLen, _) =>
    if preludeLen > MAX_RECEIVE_PACK_PRELUDE_BYTES then
      .error (.protocol "receive-pack command prelude exceeds limit")
    else match ensureReceivePackPolicy (received.take preludeLen) with
      | .error error => .error error
      | .ok () => .ok (received, reader)
  | .ok (.need needed, offset) =>
    let nextLen := received.length + needed
    if nextLen > MAX_RECEIVE_PACK_PRELUDE_BYTES then
      .error (.protocol "receive-pack command prelude exceeds limit")
    else if nextLen > contentLength then
      .error (.protocol "receive-pack command prelude is truncated")
    else match _read : reader.readExact needed with
      | none =>
        .error (.protocol "receive-pack command prelude is truncated: failed to fill whole buffer")
      | some (more, reader) => receivePackPrefixLoop reader contentLength (received ++ more) offset
termination_by MAX_RECEIVE_PACK_PRELUDE_BYTES - received.length
decreasing_by
  have some_ := receivePackPreludeState_need _state
  have filled := (Reader.readExact_eq_some _read).1
  rw [List.length_append]
  omega

/-- What is read of a push before `git` gets it, `received` having come with the head of the
    request, and the reader behind it. -/
def readReceivePackPrefix (reader : Reader UInt8) (contentLength : Nat) (received : List UInt8) :
    Except GitdError (List UInt8 × Reader UInt8) :=
  if received.length > contentLength then
    .error (.protocol "receive-pack prefix exceeds Content-Length")
  else receivePackPrefixLoop reader contentLength received 0

/-- A packet before the flush: a control packet, or as many bytes as it says. -/
structure Packet (bytes : List UInt8) (length : Nat) : Prop where
  header : pktLength (bytes.take 4) = .ok length
  whole : 4 ≤ bytes.length
  size : (length = 1 ∨ length = 2) ∧ bytes.length = 4 ∨ 4 ≤ length ∧ bytes.length = length

inductive Packets : List UInt8 → Prop where
  | nil : Packets []
  | cons {packet rest : List UInt8} {length : Nat} : Packet packet length → Packets rest →
      Packets (packet ++ rest)

/-- The packets up to the first flush. -/
inductive CompletePrelude : List UInt8 → Prop where
  | flush {header : List UInt8} : header.length = 4 → pktLength header = .ok 0 →
      CompletePrelude header
  | packet {packet rest : List UInt8} {length : Nat} : Packet packet length →
      CompletePrelude rest → CompletePrelude (packet ++ rest)

section Packets

variable {packet packets left rest prelude input : List UInt8} {length length' : Nat}

theorem Packets.append (before : Packets packets) (after : Packets left) :
    Packets (packets ++ left) := by
  induction before with
  | nil => exact after
  | cons first _ ih =>
    rw [List.append_assoc]
    exact .cons first ih

theorem Packets.complete (before : Packets packets) (complete : CompletePrelude prelude) :
    CompletePrelude (packets ++ prelude) := by
  induction before with
  | nil => exact complete
  | cons first _ ih =>
    rw [List.append_assoc]
    exact .packet first ih

theorem CompletePrelude.four_le (complete : CompletePrelude prelude) : 4 ≤ prelude.length := by
  cases complete with
  | flush four _ => omega
  | packet first _ =>
    have whole := first.whole
    rw [List.length_append]
    omega

/-- What the first four bytes of a complete prelude say. -/
theorem CompletePrelude.header (complete : CompletePrelude prelude) :
    ∃ length, pktLength (prelude.take 4) = .ok length ∧ length ≠ 3 ∧
      (4 ≤ length → length ≤ prelude.length) := by
  cases complete with
  | flush four flush =>
    rw [List.take_of_length_le (by omega)]
    exact ⟨0, flush, by omega, by omega⟩
  | @packet packet rest length first _ =>
    have size := first.size
    refine ⟨length, ?_, by omega, fun _ => ?_⟩
    · rw [List.take_append_of_le_length first.whole]
      exact first.header
    · rw [List.length_append]
      omega

theorem take_of_isPrefix {count : Nat} (starts : prelude <+: input) (long : count ≤ prelude.length) :
    input.take count = prelude.take count := by
  obtain ⟨rest, rfl⟩ := starts
  exact List.take_append_of_le_length long

/-- Two packets at the start of one input are the same. -/
theorem Packet.unique {packet' : List UInt8} (first : Packet packet length)
    (first' : Packet packet' length') (starts : packet <+: input) (starts' : packet' <+: input) :
    packet' = packet := by
  have header := first.header
  have header' := first'.header
  rw [← take_of_isPrefix starts first.whole] at header
  rw [← take_of_isPrefix starts' first'.whole, header] at header'
  cases header'
  have same : packet'.length = packet.length := by
    have size := first.size
    have size' := first'.size
    omega
  exact (List.prefix_of_prefix_length_le starts' starts (le_of_eq same)).eq_of_length same

/-- What a complete prelude does after a packet. -/
theorem CompletePrelude.after (complete : CompletePrelude prelude) (first : Packet packet length)
    (starts : packet <+: input) (starts' : prelude <+: input) :
    ∃ rest, prelude = packet ++ rest ∧ CompletePrelude rest := by
  cases complete with
  | flush four flush =>
    have header := first.header
    rw [← take_of_isPrefix starts first.whole, take_of_isPrefix starts' (by omega),
      List.take_of_length_le (by omega), flush] at header
    cases header
    have size := first.size
    omega
  | packet other rest =>
    have same := first.unique other starts ((List.prefix_append _ _).trans starts')
    rw [same]
    exact ⟨_, rfl, rest⟩

theorem CompletePrelude.after_packets (complete : CompletePrelude prelude)
    (before : Packets packets) (starts : prelude <+: packets ++ left) :
    ∃ rest, prelude = packets ++ rest ∧ CompletePrelude rest ∧ rest <+: left := by
  induction before generalizing prelude with
  | nil => exact ⟨prelude, rfl, complete, starts⟩
  | cons first _ ih =>
    rw [List.append_assoc] at starts
    obtain ⟨more, rfl, after⟩ := complete.after first (List.prefix_append _ _) starts
    obtain ⟨rest, rfl, last, remains⟩ := ih after ((List.prefix_append_right_inj _).mp starts)
    exact ⟨rest, (List.append_assoc _ _ _).symm, last, remains⟩

/-- One input has one complete prelude. -/
theorem CompletePrelude.unique {prelude' : List UInt8} (complete : CompletePrelude prelude)
    (complete' : CompletePrelude prelude') (starts : prelude <+: input)
    (starts' : prelude' <+: input) : prelude' = prelude := by
  induction complete generalizing prelude' input with
  | @flush header four flush =>
    cases complete' with
    | flush four' _ =>
      have same := take_of_isPrefix starts (show 4 ≤ header.length by omega)
      rw [take_of_isPrefix starts' (by omega), List.take_of_length_le (by omega),
        List.take_of_length_le (by omega)] at same
      exact same
    | packet first rest =>
      have complete : CompletePrelude header := .flush four flush
      obtain ⟨rest, rfl, after⟩ := complete.after first ((List.prefix_append _ _).trans starts') starts
      have whole := first.whole
      have more := after.four_le
      rw [List.length_append] at four
      omega
  | @packet packet rest length first complete ih =>
    obtain ⟨rest', rfl, after⟩ := complete'.after first ((List.prefix_append _ _).trans starts) starts'
    obtain ⟨stream, rfl⟩ := starts
    rw [List.append_assoc] at starts'
    have same := ih after (List.prefix_append _ _) ((List.prefix_append_right_inj _).mp starts')
    rw [same]

end Packets

section Scan

variable {packets left prelude : List UInt8}

/-- What the scan says of an input it has come into: the prelude of every stream that continues
    the input ends where it says, or misses what it asks for, or is not there. -/
inductive Scans (start : Nat) (input : List UInt8) : Except GitdError (PreludeState × Nat) → Prop where
  | complete {prelude : List UInt8} {offset : Nat} : CompletePrelude prelude → prelude <+: input →
      Scans start input (.ok (.complete (start + prelude.length), offset))
  | need {packets left : List UInt8} {missing : Nat} : input = packets ++ left → Packets packets →
      0 < missing → (∀ prelude more, CompletePrelude prelude → prelude <+: left ++ more →
        left.length + missing ≤ prelude.length) →
      Scans start input (.ok (.need missing, start + packets.length))
  | error {error : GitdError} : (∀ prelude more, CompletePrelude prelude → ¬prelude <+: input ++ more) →
      Scans start input (.error error)

theorem Scans.need_here {input : List UInt8} {start missing : Nat} (some_ : 0 < missing)
    (misses : ∀ prelude more, CompletePrelude prelude → prelude <+: input ++ more →
      input.length + missing ≤ prelude.length) :
    Scans start input (.ok (.need missing, start)) :=
  .need (List.nil_append input).symm .nil some_ misses

theorem Scans.after {packet input : List UInt8} {start length : Nat}
    {outcome : Except GitdError (PreludeState × Nat)} (first : Packet packet length)
    (scans : Scans (start + packet.length) input outcome) : Scans start (packet ++ input) outcome := by
  cases scans with
  | @complete prelude offset complete starts =>
    have whole : start + packet.length + prelude.length = start + (packet ++ prelude).length := by
      rw [List.length_append, Nat.add_assoc]
    rw [whole]
    exact .complete (.packet first complete) ((List.prefix_append_right_inj _).mpr starts)
  | @need packets left missing split before some_ misses =>
    have whole : start + packet.length + packets.length = start + (packet ++ packets).length := by
      rw [List.length_append, Nat.add_assoc]
    rw [whole]
    refine .need ?_ (.cons first before) some_ misses
    rw [split, List.append_assoc]
  | error none =>
    refine .error fun prelude more complete starts => ?_
    rw [List.append_assoc] at starts
    obtain ⟨rest, rfl, after⟩ := complete.after first (List.prefix_append _ _) starts
    exact none rest more after ((List.prefix_append_right_inj _).mp starts)

/-- The scan goes on from where it stopped. -/
theorem receivePackPreludeState_scans (before input : List UInt8) :
    Scans before.length input (receivePackPreludeState (before ++ input) before.length) := by
  induction size : input.length using Nat.strong_induction_on generalizing before input with
  | _ long ih =>
    -- A packet that is there whole is passed over.
    have passed (count length : Nat) (some_ : 0 < count) (there : count ≤ input.length)
        (first : Packet (input.take count) length) :
        Scans before.length input
          (receivePackPreludeState (before ++ input) (before.length + count)) := by
      have taken : (input.take count).length = count := List.length_take_of_le there
      have less : (input.drop count).length < long := by
        rw [List.length_drop]
        omega
      have later := ih _ less (before ++ input.take count) (input.drop count) rfl
      rw [List.append_assoc, List.take_append_drop, List.length_append] at later
      have scans := later.after first
      rwa [List.take_append_drop, taken] at scans
    rw [receivePackPreludeState]
    simp only [List.length_append, Nat.add_sub_cancel_left, List.drop_left]
    by_cases short : input.length < 4
    · rw [if_pos short]
      refine .need_here (by omega) fun prelude more complete _ => ?_
      have four := complete.four_le
      omega
    rw [if_neg short]
    have said (prelude more : List UInt8) (complete : CompletePrelude prelude)
        (starts : prelude <+: input ++ more) : prelude.take 4 = input.take 4 := by
      rw [← take_of_isPrefix starts complete.four_le, List.take_append_of_le_length (by omega)]
    have four : (input.take 4).length = 4 := List.length_take_of_le (by omega)
    have again : (input.take 4).take 4 = input.take 4 := List.take_of_length_le (by omega)
    cases header : pktLength (input.take 4) with
    | error error =>
      refine .error fun prelude more complete starts => ?_
      obtain ⟨length, told, -⟩ := complete.header
      rw [said prelude more complete starts, header] at told
      cases told
    | ok length =>
      dsimp only
      by_cases flush : length = 0
      · rw [if_pos flush]
        rw [flush] at header
        have scans : Scans before.length input
            (.ok (.complete (before.length + (input.take 4).length), before.length)) :=
          .complete (.flush four header) (List.take_prefix 4 input)
        rwa [four] at scans
      rw [if_neg flush]
      by_cases control : length = 1 ∨ length = 2
      · rw [if_pos control]
        refine passed 4 length (by omega) (by omega) ⟨?_, by omega, .inl ⟨control, four⟩⟩
        rw [again]
        exact header
      rw [if_neg control]
      by_cases reserved : length = 3
      · rw [if_pos reserved]
        refine .error fun prelude more complete starts => ?_
        obtain ⟨length', told, other, -⟩ := complete.header
        rw [said prelude more complete starts, header] at told
        cases told
        exact other reserved
      rw [if_neg reserved]
      by_cases cut : input.length < length
      · rw [if_pos cut]
        refine .need_here (by omega) fun prelude more complete starts => ?_
        obtain ⟨length', told, -, holds⟩ := complete.header
        rw [said prelude more complete starts, header] at told
        cases told
        have whole := holds (by omega)
        omega
      · rw [if_neg cut]
        have taken : (input.take length).length = length := List.length_take_of_le (by omega)
        refine passed length length (by omega) (by omega) ⟨?_, by omega, .inr ⟨by omega, taken⟩⟩
        rw [List.take_take, Nat.min_eq_left (by omega)]
        exact header

end Scan

/-- The stream starts with the prelude, which keeps to the limit and to the body. -/
structure Streams (stream : List UInt8) (contentLength : Nat) (prelude : List UInt8) : Prop where
  complete : CompletePrelude prelude
  starts : prelude <+: stream
  limit : prelude.length ≤ MAX_RECEIVE_PACK_PRELUDE_BYTES
  body : prelude.length ≤ contentLength

/-- The scan has come to `offset` over whole packets. -/
def Passed (received : List UInt8) (offset : Nat) : Prop :=
  ∃ packets left, received = packets ++ left ∧ offset = packets.length ∧ Packets packets

section Loop

variable {reader last : Reader UInt8} {contentLength offset offset' : Nat}
variable {received prelude more taken : List UInt8}

theorem Passed.append (passed : Passed received offset) : Passed (received ++ more) offset := by
  obtain ⟨packets, left, rfl, rfl, before⟩ := passed
  exact ⟨packets, left ++ more, List.append_assoc _ _ _, rfl, before⟩

/-- A scan in the middle of a prelude is not at an error. -/
theorem Passed.not_error {error : GitdError} (passed : Passed received offset)
    (complete : CompletePrelude prelude) (starts : prelude <+: received ++ more) :
    receivePackPreludeState received offset ≠ .error error := by
  obtain ⟨packets, left, rfl, rfl, before⟩ := passed
  intro state
  have scans := receivePackPreludeState_scans packets left
  rw [state] at scans
  cases scans with
  | error none =>
    rw [List.append_assoc] at starts
    obtain ⟨rest, rfl, after, remains⟩ := complete.after_packets before starts
    exact none rest more after remains

/-- A scan that has come to the end has found the prelude. -/
theorem Passed.complete {preludeLen : Nat} (passed : Passed received offset)
    (state : receivePackPreludeState received offset = .ok (.complete preludeLen, offset')) :
    CompletePrelude (received.take preludeLen) ∧ preludeLen ≤ received.length := by
  obtain ⟨packets, left, rfl, rfl, before⟩ := passed
  have scans := receivePackPreludeState_scans packets left
  rw [state] at scans
  cases scans with
  | @complete prelude offset complete starts =>
    obtain ⟨rest, rfl⟩ := starts
    have whole : packets ++ (prelude ++ rest) = packets ++ prelude ++ rest :=
      (List.append_assoc _ _ _).symm
    have length : packets.length + prelude.length = (packets ++ prelude).length :=
      List.length_append.symm
    rw [whole, length, List.take_left]
    refine ⟨before.complete complete, ?_⟩
    simp only [List.length_append]
    omega

/-- It is the one of the stream. -/
theorem Passed.found {preludeLen : Nat} (passed : Passed received offset)
    (state : receivePackPreludeState received offset = .ok (.complete preludeLen, offset'))
    (complete : CompletePrelude prelude) (starts : prelude <+: received ++ more) :
    received.take preludeLen = prelude ∧ prelude.length = preludeLen ∧
      preludeLen ≤ received.length := by
  obtain ⟨found, inside⟩ := passed.complete state
  have same := complete.unique found starts
    ((List.take_prefix preludeLen received).trans (List.prefix_append _ _))
  refine ⟨same, ?_, inside⟩
  rw [← same, List.length_take_of_le inside]

/-- What the scan asks for belongs to the prelude, and it goes on behind the packets it passed. -/
theorem Passed.need {needed : Nat} (passed : Passed received offset)
    (state : receivePackPreludeState received offset = .ok (.need needed, offset')) :
    Passed received offset' ∧ ∀ prelude more, CompletePrelude prelude →
      prelude <+: received ++ more → received.length + needed ≤ prelude.length := by
  obtain ⟨packets, left, rfl, rfl, before⟩ := passed
  have scans := receivePackPreludeState_scans packets left
  rw [state] at scans
  cases scans with
  | @need packets' left' missing split passes _ misses =>
    have passes' : Packets (packets ++ packets') := before.append passes
    refine ⟨⟨packets ++ packets', left', ?_, List.length_append.symm, passes'⟩, ?_⟩
    · rw [split, List.append_assoc]
    · intro prelude more complete starts
      have whole : packets ++ left ++ more = packets ++ packets' ++ (left' ++ more) := by
        rw [split]
        simp only [List.append_assoc]
      rw [whole] at starts
      obtain ⟨rest, rfl, after, remains⟩ := complete.after_packets passes' starts
      have misses' := misses rest more after remains
      rw [split]
      simp only [List.length_append]
      omega

/-- The loop reads the prelude and no more than it has to, and answers as the policy does. -/
theorem receivePackPrefixLoop_reads (passed : Passed received offset)
    (streams : Streams (received ++ reader.rest) contentLength prelude) :
    ∃ last : Reader UInt8,
      last.rest = (received ++ reader.rest).drop (max received.length prelude.length) ∧
      receivePackPrefixLoop reader contentLength received offset =
        (ensureReceivePackPolicy prelude).map fun _ =>
          ((received ++ reader.rest).take (max received.length prelude.length), last) := by
  fun_induction receivePackPrefixLoop reader contentLength received offset with
  | case1 reader received offset error state =>
    exact absurd state (passed.not_error streams.complete streams.starts)
  | case2 reader received offset preludeLen offset' state beyond =>
    obtain ⟨-, length, -⟩ := passed.found state streams.complete streams.starts
    have limit := streams.limit
    omega
  | case3 reader received offset preludeLen offset' state within error denied =>
    obtain ⟨same, -, -⟩ := passed.found state streams.complete streams.starts
    rw [same] at denied
    rw [denied]
    exact ⟨⟨_, []⟩, rfl, rfl⟩
  | case4 reader received offset preludeLen offset' state within allowed =>
    obtain ⟨same, length, inside⟩ := passed.found state streams.complete streams.starts
    rw [same] at allowed
    have most : max received.length prelude.length = received.length := by omega
    refine ⟨reader, ?_, ?_⟩
    · rw [most, List.drop_left]
    · rw [allowed, most, List.take_left]
      rfl
  | case5 reader received offset needed offset' state nextLen beyond =>
    obtain ⟨-, needs⟩ := passed.need state
    have asked := needs prelude reader.rest streams.complete streams.starts
    have limit := streams.limit
    omega
  | case6 reader received offset needed offset' state nextLen within beyond =>
    obtain ⟨-, needs⟩ := passed.need state
    have asked := needs prelude reader.rest streams.complete streams.starts
    have body := streams.body
    omega
  | case7 reader received offset needed offset' state nextLen within inside ended =>
    obtain ⟨-, needs⟩ := passed.need state
    have asked := needs prelude reader.rest streams.complete streams.starts
    have there := streams.starts.length_le
    rw [List.length_append] at there
    obtain ⟨bytes, last, filled⟩ := Reader.exists_readExact (show needed ≤ reader.rest.length by omega)
    rw [ended] at filled
    cases filled
  | case8 reader received offset needed offset' state nextLen within inside more next filled ih =>
    obtain ⟨passes, needs⟩ := passed.need state
    have asked := needs prelude reader.rest streams.complete streams.starts
    obtain ⟨length, stream⟩ := Reader.readExact_eq_some filled
    have whole : received ++ more ++ next.rest = received ++ reader.rest := by
      rw [stream, List.append_assoc]
    have last := ih passes.append (by rwa [whole])
    have most : max (received ++ more).length prelude.length = max received.length prelude.length := by
      rw [List.length_append]
      omega
    rwa [whole, most] at last

/-- What the loop accepts starts with a prelude the policy allows. -/
theorem receivePackPrefixLoop_prelude (passed : Passed received offset)
    (within : received.length ≤ contentLength)
    (accepted : receivePackPrefixLoop reader contentLength received offset = .ok (taken, last)) :
    ∃ prelude, Streams (received ++ reader.rest) contentLength prelude ∧
      ensureReceivePackPolicy prelude = .ok () := by
  fun_induction receivePackPrefixLoop reader contentLength received offset with
  | case1 => cases accepted
  | case2 => cases accepted
  | case3 => cases accepted
  | case4 reader received offset preludeLen offset' state limit allowed =>
    obtain ⟨complete, inside⟩ := passed.complete state
    have length : (received.take preludeLen).length = preludeLen := List.length_take_of_le inside
    refine ⟨_, ⟨complete, ?_, by omega, by omega⟩, allowed⟩
    exact (List.take_prefix _ _).trans (List.prefix_append _ _)
  | case5 => cases accepted
  | case6 => cases accepted
  | case7 => cases accepted
  | case8 reader received offset needed offset' state nextLen limit inside more next filled ih =>
    obtain ⟨length, stream⟩ := Reader.readExact_eq_some filled
    have short : (received ++ more).length ≤ contentLength := by
      rw [List.length_append]
      omega
    have found := ih (passed.need state).1.append short accepted
    rwa [List.append_assoc, ← stream] at found

end Loop

section Parse

variable {prelude input : List UInt8} {records : Prelude} {fuel fuel' length : Nat}

/-- What the parser does with the first packet. -/
def Prelude.packet (records : Prelude) (length : Nat) (rest : List UInt8)
    (next : Prelude → List UInt8 → Except GitdError Prelude) : Except GitdError Prelude := do
  if length = 0 then return records
  if length = 1 || length = 2 then
    throw (.protocol "unexpected control packet in receive-pack prelude")
  if length = 3 then throw (.protocol "reserved pkt-line length 0003")
  if rest.length < length - 4 then throw (.protocol "pkt-line payload truncated")
  let records ← records.record (rest.take (length - 4))
  next records (rest.drop (length - 4))

theorem Prelude.read_succ (there : 4 ≤ input.length) (header : pktLength (input.take 4) = .ok length) :
    records.read (fuel + 1) input = records.packet length (input.drop 4) fun records rest =>
      records.read fuel rest := by
  cases input with
  | nil =>
    rw [List.length_nil] at there
    omega
  | cons first more =>
    rw [Prelude.read, if_neg (by omega), header]
    · rfl
    · exact fun empty => nomatch empty

/-- A packet that is there whole is read to its end. -/
theorem Packet.packet_eq {packet : List UInt8} (first : Packet packet length) (four : 4 ≤ length)
    (size : packet.length = length) (later rest : List UInt8)
    {next : Prelude → List UInt8 → Except GitdError Prelude} :
    records.packet length ((packet ++ later ++ rest).drop 4) next =
      (records.record (packet.drop 4)).bind fun records => next records (later ++ rest) := by
  have rest_eq : (packet ++ later ++ rest).drop 4 = packet.drop 4 ++ (later ++ rest) := by
    rw [List.append_assoc, List.drop_append_of_le_length first.whole]
  have payload : (packet.drop 4).length = length - 4 := by rw [List.length_drop, size]
  have taken : (packet.drop 4 ++ (later ++ rest)).take (length - 4) = packet.drop 4 := by
    rw [← payload, List.take_left]
  have left : (packet.drop 4 ++ (later ++ rest)).drop (length - 4) = later ++ rest := by
    rw [← payload, List.drop_left]
  have whole : ¬(packet.drop 4 ++ (later ++ rest)).length < length - 4 := by
    rw [List.length_append]
    omega
  unfold Prelude.packet
  rw [rest_eq, taken, left, if_neg (by omega), if_neg (by simp; omega), if_neg (by omega),
    if_neg whole]
  rfl

/-- The parser stops at the first flush, whatever follows. -/
theorem CompletePrelude.read (complete : CompletePrelude prelude) (rest rest' : List UInt8)
    (enough : prelude.length ≤ fuel) (enough' : prelude.length ≤ fuel') :
    records.read fuel (prelude ++ rest) = records.read fuel' (prelude ++ rest') := by
  induction complete generalizing records fuel fuel' with
  | @flush header four flush =>
    obtain ⟨fuel, rfl⟩ := Nat.exists_eq_succ_of_ne_zero (show fuel ≠ 0 by omega)
    obtain ⟨fuel', rfl⟩ := Nat.exists_eq_succ_of_ne_zero (show fuel' ≠ 0 by omega)
    have told (rest : List UInt8) : pktLength ((header ++ rest).take 4) = .ok 0 := by
      rw [List.take_append_of_le_length (by omega), List.take_of_length_le (by omega)]
      exact flush
    have long (rest : List UInt8) : 4 ≤ (header ++ rest).length := by
      rw [List.length_append]
      omega
    rw [Prelude.read_succ (long rest) (told rest), Prelude.read_succ (long rest') (told rest')]
    rfl
  | @packet packet later length first _ ih =>
    have whole := first.whole
    rw [List.length_append] at enough enough'
    obtain ⟨fuel, rfl⟩ := Nat.exists_eq_succ_of_ne_zero (show fuel ≠ 0 by omega)
    obtain ⟨fuel', rfl⟩ := Nat.exists_eq_succ_of_ne_zero (show fuel' ≠ 0 by omega)
    have told (rest : List UInt8) : pktLength ((packet ++ later ++ rest).take 4) = .ok length := by
      rw [List.append_assoc, List.take_append_of_le_length whole]
      exact first.header
    have long (rest : List UInt8) : 4 ≤ (packet ++ later ++ rest).length := by
      simp only [List.length_append]
      omega
    rw [Prelude.read_succ (long rest) (told rest), Prelude.read_succ (long rest') (told rest')]
    rcases first.size with ⟨control, -⟩ | ⟨four, size⟩
    · rcases control with rfl | rfl <;> rfl
    · rw [first.packet_eq four size later rest, first.packet_eq four size later rest']
      cases records.record (packet.drop 4) with
      | error error => rfl
      | ok records => exact ih (by omega) (by omega)

theorem receivePackCommands_append (complete : CompletePrelude prelude) (rest : List UInt8) :
    receivePackCommands (prelude ++ rest) = receivePackCommands prelude := by
  have same : (⟨[], []⟩ : Prelude).read (prelude ++ rest).length (prelude ++ rest) =
      (⟨[], []⟩ : Prelude).read prelude.length (prelude ++ []) := by
    apply complete.read
    · rw [List.length_append]
      omega
    · exact Nat.le_refl _
  unfold receivePackCommands
  rw [same, List.append_nil]

theorem receivePackCommands_of_isPrefix (complete : CompletePrelude prelude)
    (starts : prelude <+: input) : receivePackCommands input = receivePackCommands prelude := by
  obtain ⟨rest, rfl⟩ := starts
  exact receivePackCommands_append complete rest

theorem ensureReceivePackPolicy_of_isPrefix (complete : CompletePrelude prelude)
    (starts : prelude <+: input) : ensureReceivePackPolicy input = ensureReceivePackPolicy prelude := by
  unfold ensureReceivePackPolicy
  rw [receivePackCommands_of_isPrefix complete starts]

theorem ensureReceivePackPolicy_iff : ensureReceivePackPolicy input = .ok () ↔
    ∃ commands, receivePackCommands input = .ok commands ∧
      ∀ command ∈ commands, command.refName ≠ MAIN_REF := by
  constructor
  · exact ensureReceivePackPolicy_ok
  · intro ⟨commands, parsed, other⟩
    have none : commands.any (fun command => command.refName = MAIN_REF) = false := by
      simpa using other
    unfold ensureReceivePackPolicy
    simp only [parsed, bind, Except.bind, none]
    rfl

end Parse

/-- What is read of a push whose first bytes, `received`, came with the head of the request. -/
structure ReadsPrelude (received stream : List UInt8) (contentLength : Nat)
    (outcome : Except GitdError (List UInt8 × Reader UInt8)) : Prop where
  accepts : (∃ taken last, outcome = .ok (taken, last)) ↔ received.length ≤ contentLength ∧
    ∃ prelude, Streams stream contentLength prelude ∧ ∃ commands,
      receivePackCommands prelude = .ok commands ∧ ∀ command ∈ commands, command.refName ≠ MAIN_REF
  consumed : ∀ taken last, outcome = .ok (taken, last) → taken ++ last.rest = stream ∧
    ∃ prelude, Streams stream contentLength prelude ∧
      taken.length = max received.length prelude.length
  parsed : ∀ taken last, outcome = .ok (taken, last) →
    receivePackCommands taken = receivePackCommands (stream.take contentLength)
  buffered : received.length ≤ contentLength → ∀ prelude, Streams stream contentLength prelude →
    outcome.map (fun _ => ()) = ensureReceivePackPolicy (stream.take contentLength)

section Split

variable {reader last : Reader UInt8} {contentLength : Nat} {received prelude stream taken : List UInt8}

theorem Streams.body_starts (streams : Streams stream contentLength prelude) :
    prelude <+: stream.take contentLength :=
  List.prefix_take_iff.mpr ⟨streams.starts, streams.body⟩

theorem passed_start (received : List UInt8) : Passed received 0 :=
  ⟨[], received, rfl, rfl, .nil⟩

theorem readReceivePackPrefix_reads (within : received.length ≤ contentLength)
    (streams : Streams (received ++ reader.rest) contentLength prelude) :
    ∃ last : Reader UInt8,
      last.rest = (received ++ reader.rest).drop (max received.length prelude.length) ∧
      readReceivePackPrefix reader contentLength received =
        (ensureReceivePackPolicy prelude).map fun _ =>
          ((received ++ reader.rest).take (max received.length prelude.length), last) := by
  unfold readReceivePackPrefix
  rw [if_neg (by omega)]
  exact receivePackPrefixLoop_reads (passed_start received) streams

theorem readReceivePackPrefix_prelude
    (accepted : readReceivePackPrefix reader contentLength received = .ok (taken, last)) :
    received.length ≤ contentLength ∧ ∃ prelude,
      Streams (received ++ reader.rest) contentLength prelude ∧
        ensureReceivePackPolicy prelude = .ok () := by
  unfold readReceivePackPrefix at accepted
  split at accepted
  · cases accepted
  · next within =>
    have fits : received.length ≤ contentLength := by omega
    exact ⟨fits, receivePackPrefixLoop_prelude (passed_start received) fits accepted⟩

/-- A push is read alike in whatever pieces it comes, as far as the flush that ends its records. -/
theorem reads_prelude (reader : Reader UInt8) (contentLength : Nat) (received : List UInt8) :
    ReadsPrelude received (received ++ reader.rest) contentLength
      (readReceivePackPrefix reader contentLength received) := by
  constructor
  · constructor
    · intro ⟨taken, last, accepted⟩
      obtain ⟨within, prelude, streams, allowed⟩ := readReceivePackPrefix_prelude accepted
      exact ⟨within, prelude, streams, ensureReceivePackPolicy_iff.mp allowed⟩
    · intro ⟨within, prelude, streams, parsed⟩
      obtain ⟨last, -, outcome⟩ := readReceivePackPrefix_reads within streams
      rw [outcome, ensureReceivePackPolicy_iff.mpr parsed]
      exact ⟨_, _, rfl⟩
  · intro taken last accepted
    obtain ⟨within, prelude, streams, allowed⟩ := readReceivePackPrefix_prelude accepted
    obtain ⟨last', left, outcome⟩ := readReceivePackPrefix_reads within streams
    rw [accepted, allowed] at outcome
    cases outcome
    have long := streams.starts.length_le
    rw [List.length_append] at long
    refine ⟨?_, prelude, streams, ?_⟩
    · rw [left, List.take_append_drop]
    · rw [List.length_take_of_le]
      rw [List.length_append]
      omega
  · intro taken last accepted
    obtain ⟨within, prelude, streams, allowed⟩ := readReceivePackPrefix_prelude accepted
    obtain ⟨last', -, outcome⟩ := readReceivePackPrefix_reads within streams
    rw [accepted, allowed] at outcome
    cases outcome
    have starts : prelude <+: (received ++ reader.rest).take (max received.length prelude.length) :=
      List.prefix_take_iff.mpr ⟨streams.starts, Nat.le_max_right _ _⟩
    rw [receivePackCommands_of_isPrefix streams.complete starts,
      receivePackCommands_of_isPrefix streams.complete streams.body_starts]
  · intro within prelude streams
    obtain ⟨last, -, outcome⟩ := readReceivePackPrefix_reads within streams
    rw [outcome, ensureReceivePackPolicy_of_isPrefix streams.complete streams.body_starts]
    cases ensureReceivePackPolicy prelude <;> rfl

/-- A flush and a byte behind it, where the body is the flush alone. -/
theorem flush_streams : Streams [48, 48, 48, 48, 10] 4 [48, 48, 48, 48] where
  complete := .flush rfl (by decide +kernel)
  starts := ⟨[10], rfl⟩
  limit := by decide
  body := Nat.le_refl _

/-- More than the body with the head of the request is refused, whatever the records. -/
theorem not_reads_prelude : ¬∀ (reader : Reader UInt8) (contentLength : Nat) (received : List UInt8),
    (∃ taken last, readReceivePackPrefix reader contentLength received = .ok (taken, last)) ↔
      ∃ prelude, Streams (received ++ reader.rest) contentLength prelude ∧ ∃ commands,
        receivePackCommands prelude = .ok commands ∧
          ∀ command ∈ commands, command.refName ≠ MAIN_REF := by
  intro exact_
  have none : receivePackCommands [48, 48, 48, 48] = .ok [] := by decide +kernel
  obtain ⟨taken, last, accepted⟩ := (exact_ ⟨[], []⟩ 4 [48, 48, 48, 48, 10]).mpr
    ⟨_, flush_streams, [], none, fun command member => nomatch member⟩
  have refused : readReceivePackPrefix ⟨[], []⟩ 4 [48, 48, 48, 48, 10] =
      .error (.protocol "receive-pack prefix exceeds Content-Length") := rfl
  rw [refused] at accepted
  cases accepted

end Split

end Jeryu.Gitd
