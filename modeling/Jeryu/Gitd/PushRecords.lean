import Jeryu.Gitd.PktLines

/-!
What is a push before its packfile: shallow lines, then the commands, each in a packet, up to the
first flush. The parser takes that, in packets whose header may carry a sign.
-/

namespace Jeryu.Gitd

open KeyedMap Text Bytes

/-- Forty lowercase hexadecimal digits. -/
def Oid (value : String) : Prop :=
  value.toList.length = 40 ∧ ∀ c ∈ value.toList, '0' ≤ c ∧ c ≤ '9' ∨ 'a' ≤ c ∧ c ≤ 'f'

/-- The payload that holds a line, behind which one newline may stand. -/
def Line (payload : List UInt8) (line : String) : Prop :=
  payload = utf8 (line ++ "\n") ∨ payload = utf8 line ∧ ∀ shorter, line ≠ shorter ++ "\n"

namespace ReceivePackCommand

def text (command : ReceivePackCommand) : String :=
  command.oldOid ++ " " ++ command.newOid ++ " " ++ command.refName

structure Named (command : ReceivePackCommand) : Prop where
  old : Oid command.oldOid
  new : Oid command.newOid
  ref : ∃ name, name ≠ "" ∧ command.refName = "refs/" ++ name
  plain : ' ' ∉ command.refName.toList ∧ '\x00' ∉ command.refName.toList

end ReceivePackCommand

def ShallowLine (payload : List UInt8) (oid : String) : Prop :=
  Oid oid ∧ Line payload ("shallow " ++ oid)

/-- A command with the capabilities it may have behind a NUL. -/
def FirstCommand (payload : List UInt8) (command : ReceivePackCommand) : Prop :=
  command.Named ∧ (Line payload command.text ∨
    ∃ capabilities, Line payload (command.text ++ "\x00" ++ capabilities))

def LaterCommand (payload : List UInt8) (command : ReceivePackCommand) : Prop :=
  command.Named ∧ Line payload command.text

inductive Commands : List (List UInt8) → List ReceivePackCommand → Prop where
  | none : Commands [] []
  | some {payload : List UInt8} {command : ReceivePackCommand} {payloads : List (List UInt8)}
      {commands : List ReceivePackCommand} : FirstCommand payload command →
      List.Forall₂ LaterCommand payloads commands → Commands (payload :: payloads) (command :: commands)

/-- Shallow lines with distinct oids, then the commands. -/
def Records (payloads : List (List UInt8)) (commands : List ReceivePackCommand) : Prop :=
  ∃ shallow oids updates, payloads = shallow ++ updates ∧ oids.Nodup ∧
    List.Forall₂ ShallowLine shallow oids ∧ Commands updates commands

theorem isLowercaseSha1_iff {value : String} : isLowercaseSha1 value = true ↔ Oid value := by
  have digit {c : Char} : isLowercaseHexdigit c = true ↔ '0' ≤ c ∧ c ≤ '9' ∨ 'a' ≤ c ∧ c ≤ 'f' := by
    unfold isLowercaseHexdigit isAsciiDigit
    simp
  have one {c : Char} (lower : isLowercaseHexdigit c = true) : c.utf8Size = 1 := by
    have hex : isAsciiHexdigit c = true := by
      unfold isLowercaseHexdigit at lower
      unfold isAsciiHexdigit
      simp only [Bool.or_eq_true] at lower ⊢
      exact .inl lower
    obtain ⟨byte, encoded, -⟩ := encode_hexdigit hex
    have size := congrArg List.length encoded
    rwa [String.length_utf8EncodeChar] at size
  have bytes (chars : List Char) (lower : ∀ c ∈ chars, isLowercaseHexdigit c = true) :
      String.utf8Len chars = chars.length := by
    induction chars with
    | nil => rfl
    | cons c chars ih =>
      have below := ih fun d member => lower d (List.mem_cons_of_mem c member)
      have first := one (lower c List.mem_cons_self)
      show String.utf8Len chars + c.utf8Size = _
      rw [below, first, List.length_cons]
  have whole : all value isLowercaseHexdigit = true ↔ ∀ c ∈ value.toList, '0' ≤ c ∧ c ≤ '9' ∨ 'a' ≤ c ∧ c ≤ 'f' := by
    unfold all
    rw [List.all_eq_true]
    constructor
    · exact fun lower c member => digit.mp (lower c member)
    · exact fun lower c member => digit.mpr (lower c member)
  unfold isLowercaseSha1 Oid
  rw [Bool.and_eq_true, decide_eq_true_eq, whole, len_eq]
  constructor
  · intro ⟨size, lower⟩
    rw [bytes _ fun c member => digit.mpr (lower c member)] at size
    exact ⟨size, lower⟩
  · intro ⟨size, lower⟩
    rw [bytes _ fun c member => digit.mpr (lower c member)]
    exact ⟨size, lower⟩

section Records

variable {records records' : Prelude} {payload : List UInt8} {line oid text : String}
  {command : ReceivePackCommand}

theorem Oid.clean (oid_ : Oid oid) {c : Char} (other : ¬('0' ≤ c ∧ c ≤ '9' ∨ 'a' ≤ c ∧ c ≤ 'f')) :
    c ∉ oid.toList :=
  fun member => other (oid_.2 c member)

theorem line_iff : Line payload line ↔
    ∃ text, fromUtf8 payload = some text ∧ (stripSuffix text "\n").getD text = line := by
  constructor
  · rintro (rfl | ⟨rfl, other⟩)
    · refine ⟨line ++ "\n", fromUtf8_iff.mpr rfl, ?_⟩
      rw [stripSuffix_eq_some.mpr rfl]
      rfl
    · refine ⟨line, fromUtf8_iff.mpr rfl, ?_⟩
      cases strip : stripSuffix line "\n" with
      | none => rfl
      | some shorter => exact absurd (stripSuffix_eq_some.mp strip) (other shorter)
  · intro ⟨text, decoded, same⟩
    have bytes := fromUtf8_iff.mp decoded
    cases strip : stripSuffix text "\n" with
    | none =>
      rw [strip] at same
      cases same
      refine .inr ⟨bytes.symm, fun shorter ends => ?_⟩
      have ends : text = shorter ++ "\n" := ends
      rw [stripSuffix_eq_some.mpr ends] at strip
      cases strip
    | some shorter =>
      rw [strip] at same
      cases same
      rw [stripSuffix_eq_some.mp strip] at bytes
      exact .inl bytes.symm

theorem shallow_iff : records.shallow oid = .ok records' ↔ records.commands = [] ∧ Oid oid ∧
    oid ∉ records.shallowOids ∧ records' = { records with shallowOids := oid :: records.shallowOids } := by
  unfold Prelude.shallow Prelude.firstCommand
  by_cases first : records.commands = []
  · by_cases good : isLowercaseSha1 oid = true
    · by_cases again : oid ∈ records.shallowOids
      · simp [first, good, again]
      · have oid_ := isLowercaseSha1_iff.mp good
        simp [first, good, again, oid_, eq_comm]
    · have bad : ¬Oid oid := fun oid_ => good (isLowercaseSha1_iff.mpr oid_)
      simp [first, good, bad]
  · simp [first]

theorem commandText_iff : records.commandText line = .ok text ↔ '\x00' ∉ text.toList ∧
    (line = text ∨ records.commands = [] ∧ ∃ capabilities, line = text ++ "\x00" ++ capabilities) := by
  have whole {capabilities : String} : line = text ++ "\x00" ++ capabilities ↔
      line.toList = text.toList ++ '\x00' :: capabilities.toList := by
    rw [← String.toList_inj, String.toList_append, String.toList_append]
    simp
  unfold Prelude.commandText
  cases split : splitOnce line '\x00' with
  | none =>
    have clean := splitOnce_eq_none.mp split
    rw [Except.ok.injEq]
    constructor
    · rintro rfl
      exact ⟨clean, .inl rfl⟩
    · rintro ⟨-, same | ⟨-, capabilities, same⟩⟩
      · exact same
      · rw [whole.mp same] at clean
        simp at clean
  | some parts =>
    obtain ⟨before, after⟩ := parts
    obtain ⟨same, absent⟩ := splitOnce_eq_some.mp split
    have nul : '\x00' ∈ line.toList := by
      rw [same]
      simp
    have parts {capabilities : String} (clean : '\x00' ∉ text.toList)
        (line : line = text ++ "\x00" ++ capabilities) : before = text := by
      have other := splitOnce_eq_some.mpr ⟨whole.mp line, clean⟩
      rw [split] at other
      cases other
      rfl
    unfold Prelude.firstCommand
    by_cases first : records.commands = []
    · simp only [first, List.isEmpty_nil, if_true, Except.ok.injEq, true_and]
      constructor
      · rintro rfl
        exact ⟨absent, .inr ⟨after, whole.mpr same⟩⟩
      · rintro ⟨clean, rfl | ⟨capabilities, line⟩⟩
        · exact absurd nul clean
        · exact parts clean line
    · simp only [List.isEmpty_iff, first, if_false, reduceCtorEq, false_iff, false_and, or_false]
      rintro ⟨clean, rfl⟩
      exact clean nul

theorem fields_iff {oldOid newOid refName : String} : splitOn text ' ' = [oldOid, newOid, refName] ↔
    text = (⟨oldOid, newOid, refName⟩ : ReceivePackCommand).text ∧ ' ' ∉ oldOid.toList ∧
      ' ' ∉ newOid.toList ∧ ' ' ∉ refName.toList := by
  have whole : text.toList = [' '].intercalate [oldOid.toList, newOid.toList, refName.toList] ↔
      text = (⟨oldOid, newOid, refName⟩ : ReceivePackCommand).text := by
    unfold ReceivePackCommand.text
    rw [← String.toList_inj]
    simp [String.toList_append, List.intercalate]
  rw [splitOn_eq_iff]
  simp only [List.map_cons, List.map_nil, whole]
  simp [and_comm, and_assoc]

theorem refName_iff {refName : String} :
    (startsWith refName "refs/" && decide (len refName ≠ len "refs/")) = true ↔
      ∃ name, name ≠ "" ∧ refName = "refs/" ++ name := by
  have longer (name : String) : len ("refs/" ++ name) ≠ len "refs/" ↔ name ≠ "" := by
    unfold len
    rw [String.utf8ByteSize_append]
    have none : name.utf8ByteSize = 0 ↔ name = "" := String.utf8ByteSize_eq_zero_iff
    have some_ : name ≠ "" ↔ name.utf8ByteSize ≠ 0 := none.not.symm
    rw [some_]
    omega
  rw [Bool.and_eq_true, decide_eq_true_eq, startsWith_iff]
  constructor
  · rintro ⟨⟨name, rfl⟩, more⟩
    exact ⟨name, (longer name).mp more, rfl⟩
  · rintro ⟨name, some_, rfl⟩
    exact ⟨⟨name, rfl⟩, (longer name).mpr some_⟩

theorem guard_iff {oldOid newOid refName : String} :
    (isLowercaseSha1 oldOid && isLowercaseSha1 newOid && startsWith refName "refs/" &&
      decide (len refName ≠ len "refs/")) = true ↔
      Oid oldOid ∧ Oid newOid ∧ ∃ name, name ≠ "" ∧ refName = "refs/" ++ name := by
  rw [Bool.and_assoc, Bool.and_assoc, Bool.and_eq_true, Bool.and_eq_true, isLowercaseSha1_iff,
    isLowercaseSha1_iff, refName_iff]

theorem command_iff : records.command line = .ok records' ↔ ∃ command : ReceivePackCommand,
    command.Named ∧ (line = command.text ∨
      records.commands = [] ∧ ∃ capabilities, line = command.text ++ "\x00" ++ capabilities) ∧
      records' = { records with commands := records.commands ++ [command] } := by
  have space : ¬('0' ≤ ' ' ∧ ' ' ≤ '9' ∨ 'a' ≤ ' ' ∧ ' ' ≤ 'f') := by decide
  have nul : ¬('0' ≤ '\x00' ∧ '\x00' ≤ '9' ∨ 'a' ≤ '\x00' ∧ '\x00' ≤ 'f') := by decide
  have read : records.command line = .ok records' ↔ ∃ text oldOid newOid refName,
      records.commandText line = .ok text ∧ splitOn text ' ' = [oldOid, newOid, refName] ∧
        Oid oldOid ∧ Oid newOid ∧ (∃ name, name ≠ "" ∧ refName = "refs/" ++ name) ∧
          records' = { records with commands := records.commands ++ [⟨oldOid, newOid, refName⟩] } := by
    unfold Prelude.command
    cases parsed : records.commandText line with
    | error error => simp [bind, Except.bind]
    | ok text =>
      simp only [bind, Except.bind, Except.ok.injEq, exists_and_left, exists_eq_left']
      rw [show (text.toList.splitOnP (· = ' ')).map String.ofList = splitOn text ' ' from rfl]
      rcases splitOn text ' ' with _ | ⟨oldOid, _ | ⟨newOid, _ | ⟨refName, _ | ⟨more, rest⟩⟩⟩⟩
      · simp [throw, throwThe, MonadExceptOf.throw]
      · simp [throw, throwThe, MonadExceptOf.throw]
      · simp [throw, throwThe, MonadExceptOf.throw]
      · dsimp only
        split
        · next good =>
          have fields := guard_iff.mp good
          simp only [pure, Except.pure, Except.ok.injEq, List.cons.injEq, and_true]
          constructor
          · rintro rfl
            exact ⟨_, _, _, ⟨rfl, rfl, rfl⟩, fields.1, fields.2.1, fields.2.2, rfl⟩
          · rintro ⟨_, _, _, ⟨rfl, rfl, rfl⟩, -, -, -, rfl⟩
            rfl
        · next bad =>
          simp only [throw, throwThe, MonadExceptOf.throw, reduceCtorEq, List.cons.injEq, and_true, false_iff]
          rintro ⟨_, _, _, ⟨rfl, rfl, rfl⟩, old, new, ref, -⟩
          exact bad (guard_iff.mpr ⟨old, new, ref⟩)
      · simp [throw, throwThe, MonadExceptOf.throw]
  rw [read]
  constructor
  · rintro ⟨text, oldOid, newOid, refName, parsed, fields, old, new, ref, rfl⟩
    obtain ⟨clean, line⟩ := commandText_iff.mp parsed
    obtain ⟨rfl, -, -, plain⟩ := fields_iff.mp fields
    refine ⟨⟨oldOid, newOid, refName⟩, ⟨old, new, ref, plain, fun member => clean ?_⟩, line, rfl⟩
    unfold ReceivePackCommand.text
    rw [String.toList_append]
    exact List.mem_append_right _ member
  · rintro ⟨⟨oldOid, newOid, refName⟩, named, line, rfl⟩
    have plain := named.plain
    have clean : '\x00' ∉ (⟨oldOid, newOid, refName⟩ : ReceivePackCommand).text.toList := by
      have old := named.old.clean nul
      have new := named.new.clean nul
      unfold ReceivePackCommand.text
      simp [old, new, plain.2]
    refine ⟨_, oldOid, newOid, refName, commandText_iff.mpr ⟨clean, line⟩, ?_, named.old, named.new,
      named.ref, rfl⟩
    exact fields_iff.mpr ⟨rfl, named.old.clean space, named.new.clean space, plain.1⟩

theorem not_shallow (named : command.Named) (more : String) : "shallow " ++ oid ≠ command.text ++ more := by
  intro same
  have chars := congrArg String.toList same
  unfold ReceivePackCommand.text at chars
  simp only [String.toList_append, List.append_assoc] at chars
  have size := named.old.1
  cases old : command.oldOid.toList with
  | nil =>
    rw [old] at size
    cases size
  | cons c rest =>
    have lower := named.old.2 c (by rw [old]; exact List.mem_cons_self)
    rw [old] at chars
    have first : 's' = c := (List.cons.inj chars).1
    rw [← first] at lower
    revert lower
    decide

theorem record_iff : records.record payload = .ok records' ↔
    (∃ oid, ShallowLine payload oid ∧ records.commands = [] ∧ oid ∉ records.shallowOids ∧
      records' = { records with shallowOids := oid :: records.shallowOids }) ∨
    ∃ command, (LaterCommand payload command ∨ records.commands = [] ∧ FirstCommand payload command) ∧
      records' = { records with commands := records.commands ++ [command] } := by
  have shown : records.record payload = .ok records' ↔ ∃ line, Line payload line ∧
      ((∃ oid, line = "shallow " ++ oid ∧ records.shallow oid = .ok records') ∨
        (∀ oid, line ≠ "shallow " ++ oid) ∧ records.command line = .ok records') := by
    unfold Prelude.record
    cases decoded : fromUtf8 payload with
    | none =>
      simp only [reduceCtorEq, line_iff, decoded, false_and, exists_false]
    | some text =>
      have only {line : String} : Line payload line ↔ (stripSuffix text "\n").getD text = line := by
        rw [line_iff, decoded]
        simp
      simp only [only, exists_eq_left']
      cases strip : stripPrefix ((stripSuffix text "\n").getD text) "shallow " with
      | none =>
        have none (oid : String) : (stripSuffix text "\n").getD text ≠ "shallow " ++ oid := by
          intro same
          rw [stripPrefix_eq_some.mpr same] at strip
          cases strip
        simp [none]
      | some oid =>
        have same := stripPrefix_eq_some.mp strip
        have one (oid' : String) : (stripSuffix text "\n").getD text = "shallow " ++ oid' ↔ oid = oid' := by
          rw [← stripPrefix_eq_some, strip, Option.some.injEq]
        simp [one]
  rw [shown]
  constructor
  · rintro ⟨line, holds, ⟨oid, rfl, declared⟩ | ⟨-, updates⟩⟩
    · obtain ⟨first, oid_, fresh, rfl⟩ := shallow_iff.mp declared
      exact .inl ⟨oid, ⟨oid_, holds⟩, first, fresh, rfl⟩
    · obtain ⟨command, named, rfl | ⟨first, capabilities, rfl⟩, rfl⟩ := command_iff.mp updates
      · exact .inr ⟨command, .inl ⟨named, holds⟩, rfl⟩
      · exact .inr ⟨command, .inr ⟨first, named, .inr ⟨capabilities, holds⟩⟩, rfl⟩
  · have plain (command : ReceivePackCommand) (named : command.Named) (oid : String) :
        command.text ≠ "shallow " ++ oid := by
      have other : "shallow " ++ oid ≠ command.text ++ "" := not_shallow named ""
      rw [String.append_empty] at other
      exact other.symm
    rintro (⟨oid, ⟨oid_, holds⟩, first, fresh, rfl⟩ |
      ⟨command, ⟨named, holds⟩ | ⟨first, named, holds | ⟨capabilities, holds⟩⟩, rfl⟩)
    · exact ⟨_, holds, .inl ⟨oid, rfl, shallow_iff.mpr ⟨first, oid_, fresh, rfl⟩⟩⟩
    · exact ⟨_, holds, .inr ⟨plain command named, command_iff.mpr ⟨command, named, .inl rfl, rfl⟩⟩⟩
    · exact ⟨_, holds, .inr ⟨plain command named, command_iff.mpr ⟨command, named, .inl rfl, rfl⟩⟩⟩
    · refine ⟨_, holds, .inr ⟨fun oid => ?_, ?_⟩⟩
      · rw [String.append_assoc]
        exact (not_shallow named _).symm
      · exact command_iff.mpr ⟨command, named, .inr ⟨first, capabilities, rfl⟩, rfl⟩

end Records

section Runs

variable {records records' : Prelude} {payloads : List (List UInt8)} {input : List UInt8}
  {commands : List ReceivePackCommand}

theorem fold_cons {payload : List UInt8} :
    (payload :: payloads).foldlM Prelude.record records = .ok records' ↔
      ∃ next, records.record payload = .ok next ∧ payloads.foldlM Prelude.record next = .ok records' := by
  rw [List.foldlM_cons]
  cases records.record payload with
  | error error => simp [bind, Except.bind]
  | ok next => simp [bind, Except.bind]

/-- Behind a command come commands. -/
theorem later_fold (later : records.commands ≠ []) : payloads.foldlM Prelude.record records = .ok records' ↔
    ∃ commands, List.Forall₂ LaterCommand payloads commands ∧
      records' = { records with commands := records.commands ++ commands } := by
  induction payloads generalizing records with
  | nil =>
    simp only [List.foldlM_nil, pure, Except.pure, Except.ok.injEq, List.forall₂_nil_left_iff,
      exists_eq_left, List.append_nil]
    exact eq_comm
  | cons payload payloads ih =>
    rw [fold_cons]
    constructor
    · rintro ⟨next, read, rest⟩
      rcases record_iff.mp read with ⟨oid, -, first, -⟩ | ⟨command, holds | ⟨first, -⟩, rfl⟩
      · exact absurd first later
      · obtain ⟨commands, more, rfl⟩ := (ih (by simp)).mp rest
        refine ⟨command :: commands, .cons holds more, ?_⟩
        simp
      · exact absurd first later
    · rintro ⟨commands, holds, rfl⟩
      cases holds with
      | @cons _ command _ commands first more =>
        refine ⟨_, record_iff.mpr (.inr ⟨command, .inl first, rfl⟩), ?_⟩
        exact (ih (by simp)).mpr ⟨commands, more, by simp⟩

/-- Before the commands come shallow lines. -/
theorem first_fold (first : records.commands = []) : payloads.foldlM Prelude.record records = .ok records' ↔
    ∃ shallow oids updates commands, payloads = shallow ++ updates ∧ oids.Nodup ∧
      (∀ oid ∈ oids, oid ∉ records.shallowOids) ∧ List.Forall₂ ShallowLine shallow oids ∧
        Commands updates commands ∧
          records' = ⟨commands, oids.reverse ++ records.shallowOids⟩ := by
  induction payloads generalizing records with
  | nil =>
    simp only [List.foldlM_nil, pure, Except.pure, Except.ok.injEq]
    constructor
    · rintro rfl
      refine ⟨[], [], [], [], rfl, List.nodup_nil, fun _ member => (nomatch member), .nil, .none, ?_⟩
      rw [← first]
      rfl
    · rintro ⟨shallow, oids, updates, commands, none, -, -, declared, holds, rfl⟩
      obtain ⟨rfl, rfl⟩ := List.append_eq_nil_iff.mp none.symm
      cases declared
      cases holds
      rw [← first]
      rfl
  | cons payload payloads ih =>
    rw [fold_cons]
    constructor
    · rintro ⟨next, read, rest⟩
      rcases record_iff.mp read with ⟨oid, holds, -, fresh, rfl⟩ | ⟨command, holds, rfl⟩
      · have below := @ih { records with shallowOids := oid :: records.shallowOids } first
        obtain ⟨shallow, oids, updates, commands, rfl, nodup, other, declared, updated, rfl⟩ :=
          below.mp rest
        refine ⟨payload :: shallow, oid :: oids, updates, commands, rfl, ?_, ?_, .cons holds declared,
          updated, ?_⟩
        · refine List.nodup_cons.mpr ⟨fun member => ?_, nodup⟩
          exact other oid member List.mem_cons_self
        · refine List.forall_mem_cons.mpr ⟨fresh, fun oid' member listed => ?_⟩
          exact other oid' member (List.mem_cons_of_mem _ listed)
        · simp
      · obtain ⟨commands, more, rfl⟩ := (later_fold (by simp)).mp rest
        have holds : FirstCommand payload command := by
          rcases holds with later | ⟨-, holds⟩
          · exact ⟨later.1, .inl later.2⟩
          · exact holds
        refine ⟨[], [], _, command :: commands, rfl, List.nodup_nil, fun _ member => (nomatch member), .nil,
          .some holds more, ?_⟩
        simp [first]
    · rintro ⟨shallow, oids, updates, commands, whole, nodup, other, declared, holds, rfl⟩
      cases declared with
      | nil =>
        cases holds with
        | none => cases whole
        | @some _ command _ commands holds more =>
          cases whole
          refine ⟨_, record_iff.mpr (.inr ⟨command, .inr ⟨first, holds⟩, rfl⟩), ?_⟩
          exact (later_fold (by simp)).mpr ⟨commands, more, by simp [first]⟩
      | @cons _ oid shallow oids holds' declared =>
        cases whole
        have fresh := other oid List.mem_cons_self
        have below := @ih { records with shallowOids := oid :: records.shallowOids } first
        refine ⟨_, record_iff.mpr (.inl ⟨oid, holds', first, fresh, rfl⟩), below.mpr ?_⟩
        refine ⟨shallow, oids, updates, commands, rfl, (List.nodup_cons.mp nodup).2, ?_, declared, holds,
          by simp⟩
        intro oid' member listed
        rcases List.mem_cons.mp listed with rfl | listed
        · exact (List.nodup_cons.mp nodup).1 member
        · exact other oid' (List.mem_cons_of_mem _ member) listed

theorem records_iff : (∃ records', payloads.foldlM Prelude.record ⟨[], []⟩ = .ok records' ∧
    records'.commands = commands) ↔ Records payloads commands := by
  constructor
  · rintro ⟨records', read, rfl⟩
    obtain ⟨shallow, oids, updates, commands, whole, nodup, -, declared, holds, rfl⟩ :=
      (first_fold rfl).mp read
    exact ⟨shallow, oids, updates, whole, nodup, declared, holds⟩
  · rintro ⟨shallow, oids, updates, whole, nodup, declared, holds⟩
    refine ⟨⟨commands, oids.reverse ++ []⟩, (first_fold rfl).mpr ?_, rfl⟩
    exact ⟨shallow, oids, updates, commands, whole, nodup, fun _ _ listed => (nomatch listed), declared,
      holds, rfl⟩

/-- One turn of the loop over the records. -/
theorem read_iff_nextLine {fuel : Nat} (some_ : input ≠ []) :
    records.read (fuel + 1) input = .ok records' ↔
      (∃ rest, nextLine input = .ok (.flush, rest) ∧ records = records') ∨
        ∃ payload rest next, nextLine input = .ok (.data payload, rest) ∧
          records.record payload = .ok next ∧ next.read fuel rest = .ok records' := by
  cases input with
  | nil => exact absurd rfl some_
  | cons byte input =>
    conv => lhs; unfold Prelude.read
    unfold nextLine
    split
    · simp
    · generalize (byte :: input).take 4 = header
      generalize (byte :: input).drop 4 = input
      cases pktLength header with
      | error error => simp [bind, Except.bind]
      | ok length =>
        simp only [bind, Except.bind]
        by_cases zero : length = 0
        · simp [zero, pure, Except.pure]
        by_cases one : length = 1
        · simp [one, throw, throwThe, MonadExceptOf.throw]
        by_cases two : length = 2
        · simp [two, throw, throwThe, MonadExceptOf.throw]
        by_cases three : length = 3
        · simp [three, throw, throwThe, MonadExceptOf.throw]
        by_cases cut : input.length < length - 4
        · simp [zero, one, two, three, cut, throw, throwThe, MonadExceptOf.throw]
        · simp only [zero, one, two, three, cut, if_false, pure, Except.pure, decide_false, Bool.or_self,
            Bool.false_eq_true]
          cases read : records.record (input.take (length - 4)) with
          | error error => simp [read]
          | ok next => simp [read]

theorem read_iff {fuel : Nat} (long : input.length ≤ fuel) : records.read fuel input = .ok records' ↔
    ∃ frames payloads, PushFrames AnyHeader frames payloads input ∧
      payloads.foldlM Prelude.record records = .ok records' := by
  have ended (fuel : Nat) (records : Prelude) : records.read fuel [] = .ok records' ↔
      ∃ frames payloads, PushFrames AnyHeader frames payloads [] ∧
        payloads.foldlM Prelude.record records = .ok records' := by
    have done : records.read fuel [] = .ok records := by
      cases fuel <;> rfl
    rw [done]
    constructor
    · exact fun same => ⟨[], [], .ended, same⟩
    · rintro ⟨frames, payloads, push, folded⟩
      obtain ⟨-, rfl⟩ := push.unique .ended
      exact folded
  induction fuel generalizing records input with
  | zero =>
    obtain rfl := List.length_eq_zero_iff.mp (Nat.le_zero.mp long)
    exact ended 0 records
  | succ fuel ih =>
    by_cases none : input = []
    · rw [none]
      exact ended (fuel + 1) records
    rw [read_iff_nextLine none]
    constructor
    · rintro (⟨rest, line, rfl⟩ | ⟨payload, rest, next, line, read, more⟩)
      · obtain ⟨header, any, rfl⟩ := nextLine_iff.mp line
        simp only [PktLine.payload, List.append_nil]
        exact ⟨_, [], .flush any, rfl⟩
      · have shrinks := nextLine_shrinks line
        have shorter : rest.length ≤ fuel := by omega
        obtain ⟨header, any, rfl⟩ := nextLine_iff.mp line
        obtain ⟨frames, payloads, push, folded⟩ := (ih shorter).mp more
        exact ⟨_, _, .cons any push, fold_cons.mpr ⟨next, read, folded⟩⟩
    · rintro ⟨frames, payloads, push, folded⟩
      cases push with
      | ended => exact absurd rfl none
      | @flush header rest any =>
        have line : nextLine (header ++ PktLine.flush.payload ++ rest) = .ok (.flush, rest) :=
          nextLine_frame any rest
        simp only [PktLine.payload, List.append_nil] at line
        exact .inl ⟨rest, line, Except.ok.inj folded⟩
      | @cons header payload rest frames payloads any push =>
        have line : nextLine (header ++ payload ++ rest) = .ok (.data payload, rest) :=
          @nextLine_frame header (.data payload) any rest
        have shrinks := nextLine_shrinks line
        obtain ⟨next, read, more⟩ := fold_cons.mp folded
        exact .inr ⟨payload, rest, next, line, read, (ih (by omega)).mpr ⟨frames, payloads, push, more⟩⟩

end Runs

/-- What the parser takes for a push. -/
theorem receivePackCommands_iff {input : List UInt8} {commands : List ReceivePackCommand} :
    receivePackCommands input = .ok commands ↔
      ∃ frames payloads, PushFrames AnyHeader frames payloads input ∧ Records payloads commands := by
  have read : receivePackCommands input = .ok commands ↔
      ∃ records, (⟨[], []⟩ : Prelude).read input.length input = .ok records ∧ records.commands = commands := by
    unfold receivePackCommands
    cases (⟨[], []⟩ : Prelude).read input.length input with
    | error error => simp [Except.map]
    | ok records => simp [Except.map]
  rw [read]
  constructor
  · rintro ⟨records, done, same⟩
    obtain ⟨frames, payloads, push, folded⟩ := (read_iff (le_refl _)).mp done
    exact ⟨frames, payloads, push, records_iff.mp ⟨records, folded, same⟩⟩
  · rintro ⟨frames, payloads, push, holds⟩
    obtain ⟨records, folded, same⟩ := records_iff.mpr holds
    exact ⟨records, (read_iff (le_refl _)).mpr ⟨frames, payloads, push, folded⟩, same⟩

section Exactness

/-- A decoded input, and a push, one of whose packets has a sign in its header. -/
def SignedLines (input : List UInt8) : Prop :=
  ∃ frames, Decodes AnyHeader frames input ∧
    ∃ frame ∈ frames, SignedHeader frame.header frame.line.length

def SignedPush (input : List UInt8) : Prop :=
  ∃ frames payloads commands, PushFrames AnyHeader frames payloads input ∧ Records payloads commands ∧
    ∃ frame ∈ frames, SignedHeader frame.header frame.line.length

/-- The input is read as what its format says, and as nothing else. -/
structure ReadExactly (input : List UInt8) : Prop where
  lines : ∀ lines, decodeAll input = .ok lines ↔
    ∃ frames, Decodes HexHeader frames input ∧ frames.map Frame.line = lines
  push : ∀ commands, receivePackCommands input = .ok commands ↔
    ∃ frames payloads, PushFrames HexHeader frames payloads input ∧ Records payloads commands

variable {input : List UInt8} {frames : List Frame}

/-- Headers without a sign are in four digits. -/
theorem unsigned_headers (any : ∀ frame ∈ frames, AnyHeader frame.header frame.line.length)
    (unsigned : ¬∃ frame ∈ frames, SignedHeader frame.header frame.line.length) :
    ∀ frame ∈ frames, HexHeader frame.header frame.line.length := by
  intro frame member
  rcases any frame member with hex | signed
  · exact hex
  · exact absurd ⟨frame, member, signed⟩ unsigned

theorem any_headers (hex : ∀ frame ∈ frames, HexHeader frame.header frame.line.length) :
    ∀ frame ∈ frames, AnyHeader frame.header frame.line.length :=
  fun frame member => .inl (hex frame member)

theorem decodes_exactly_iff : (∀ lines, decodeAll input = .ok lines ↔
    ∃ frames, Decodes HexHeader frames input ∧ frames.map Frame.line = lines) ↔ ¬SignedLines input := by
  constructor
  · rintro exactly ⟨frames, decodes, frame, member, signed⟩
    obtain ⟨frames', decodes', -⟩ := (exactly _).mp (decodeAll_iff.mpr ⟨frames, decodes, rfl⟩)
    have hex := decodes'.headers
    rw [← decodes.unique (decodes'.mono (any_headers hex))] at hex
    exact (hex frame member).unsigned signed
  · intro unsigned lines
    rw [decodeAll_iff]
    constructor
    · rintro ⟨frames, decodes, same⟩
      have hex := unsigned_headers decodes.headers fun signed => unsigned ⟨frames, decodes, signed⟩
      exact ⟨frames, decodes.mono hex, same⟩
    · rintro ⟨frames, decodes, same⟩
      exact ⟨frames, decodes.mono (any_headers decodes.headers), same⟩

theorem push_exactly_iff : (∀ commands, receivePackCommands input = .ok commands ↔
    ∃ frames payloads, PushFrames HexHeader frames payloads input ∧ Records payloads commands) ↔
      ¬SignedPush input := by
  constructor
  · rintro exactly ⟨frames, payloads, commands, push, holds, frame, member, signed⟩
    obtain ⟨frames', payloads', push', -⟩ :=
      (exactly _).mp (receivePackCommands_iff.mpr ⟨frames, payloads, push, holds⟩)
    have hex := push'.headers
    rw [← (push.unique (push'.mono (any_headers hex))).1] at hex
    exact (hex frame member).unsigned signed
  · intro unsigned commands
    rw [receivePackCommands_iff]
    constructor
    · rintro ⟨frames, payloads, push, holds⟩
      have hex := unsigned_headers push.headers fun signed =>
        unsigned ⟨frames, payloads, commands, push, holds, signed⟩
      exact ⟨frames, payloads, push.mono hex, holds⟩
    · rintro ⟨frames, payloads, push, holds⟩
      exact ⟨frames, payloads, push.mono (any_headers push.headers), holds⟩

/-- Lines that fit come back, and what is read of an input is what its format says just where no
    packet has a sign in its header. -/
theorem read_exactly_iff (lines : List PktLine) (input : List UInt8) :
    ((∀ payload, .data payload ∈ lines → payload.length ≤ 65531) →
      decodeAll (lines.flatMap PktLine.encoded) = .ok lines) ∧
    (ReadExactly input ↔ ¬SignedLines input ∧ ¬SignedPush input) := by
  refine ⟨decodeAll_encoded lines, ?_⟩
  rw [← decodes_exactly_iff, ← push_exactly_iff]
  exact ⟨fun exactly => ⟨exactly.lines, exactly.push⟩, fun ⟨lines, push⟩ => ⟨lines, push⟩⟩

/-- `+004`, which is read as an empty packet. -/
theorem not_read_exactly : decodeAll [43, 48, 48, 52] = .ok [.data []] ∧ ¬ReadExactly [43, 48, 48, 52] := by
  have signed : SignedHeader [43, 48, 48, 52] 4 :=
    ⟨48, 48, 52, 0, 0, 4, rfl, .inl (by decide), .inl (by decide), .inl (by decide), rfl⟩
  have decodes : Decodes AnyHeader [⟨[43, 48, 48, 52], .data []⟩] [43, 48, 48, 52] :=
    .cons (.inr signed) .nil
  refine ⟨decodeAll_iff.mpr ⟨_, decodes, rfl⟩, fun exactly => ?_⟩
  exact decodes_exactly_iff.mp exactly.lines ⟨_, decodes, _, List.mem_singleton_self _, signed⟩

end Exactness

end Jeryu.Gitd
