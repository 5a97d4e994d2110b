import Jeryu.Gitd.Hooks

namespace Jeryu.Gitd

open KeyedMap Text

structure ReceivePackCommand where
  oldOid : String
  newOid : String
  refName : String
  deriving DecidableEq

def hexValue (c : Char) : Nat :=
  if isAsciiDigit c then c.toNat - 48 else (toAsciiLowercaseChar c).toNat - 87

/-- `usize::from_str_radix` in base 16, with the sign it takes. -/
def fromStrRadix16 (text : String) : Option Nat :=
  let digits := match text.toList with
    | '+' :: rest => rest
    | all => all
  if digits.isEmpty || !digits.all isAsciiHexdigit then none
  else some (digits.foldl (fun value c => value * 16 + hexValue c) 0)

def pktLength (header : List UInt8) : Except GitdError Nat :=
  match fromUtf8 header with
  | none => .error (.protocol "pkt-line length is not utf8")
  | some text =>
    match fromStrRadix16 text with
    | none => .error (.protocol s!"invalid pkt-line length: {text}")
    | some length => .ok length

def isLowercaseSha1 (value : String) : Bool := len value = 40 && all value isLowercaseHexdigit

/-- What the records before the flush have declared so far. -/
structure Prelude where
  commands : List ReceivePackCommand
  shallowOids : List String

namespace Prelude

def firstCommand (records : Prelude) : Bool := records.commands.isEmpty

def shallow (records : Prelude) (oid : String) : Except GitdError Prelude :=
  if !records.firstCommand then
    .error (.protocol "shallow declaration follows receive-pack command")
  else if !isLowercaseSha1 oid then .error (.protocol "invalid shallow declaration oid")
  else if records.shallowOids.contains oid then .error (.protocol "duplicate shallow declaration")
  else .ok { records with shallowOids := oid :: records.shallowOids }

/-- The part of a command record before the capabilities, which the first alone may carry. -/
def commandText (records : Prelude) (line : String) : Except GitdError String :=
  match splitOnce line '\x00' with
  | none => .ok line
  | some (command, _) =>
    if records.firstCommand then .ok command
    else .error (.protocol "capabilities appear after first receive-pack command")

def command (records : Prelude) (line : String) : Except GitdError Prelude := do
  let text ← records.commandText line
  match (text.toList.splitOnP (· = ' ')).map String.ofList with
  | [] => throw (.protocol "receive-pack command missing old oid")
  | [_] => throw (.protocol "receive-pack command missing new oid")
  | [_, _] => throw (.protocol "receive-pack command missing ref name")
  | [oldOid, newOid, refName] =>
    if isLowercaseSha1 oldOid && isLowercaseSha1 newOid && startsWith refName "refs/" &&
        len refName ≠ len "refs/" then
      return { records with commands := records.commands ++ [⟨oldOid, newOid, refName⟩] }
    else throw (.protocol "invalid receive-pack command record")
  | _ => throw (.protocol "invalid receive-pack command record")

def record (records : Prelude) (payload : List UInt8) : Except GitdError Prelude :=
  match fromUtf8 payload with
  | none => .error (.protocol "receive-pack prelude record is not valid utf8")
  | some text =>
    let line := (stripSuffix text "\n").getD text
    match stripPrefix line "shallow " with
    | some oid => records.shallow oid
    | none => records.command line

/-- The records up to the first flush or the end; a record takes four bytes at least, so `fuel`
    is the length of the input. -/
def read (records : Prelude) : Nat → List UInt8 → Except GitdError Prelude
  | 0, _ | _, [] => .ok records
  | fuel + 1, input =>
    if input.length < 4 then .error (.protocol "pkt-line missing length")
    else do
      let length ← pktLength (input.take 4)
      let rest := input.drop 4
      if length = 0 then return records
      if length = 1 || length = 2 then
        throw (.protocol "unexpected control packet in receive-pack prelude")
      if length = 3 then throw (.protocol "reserved pkt-line length 0003")
      if rest.length < length - 4 then throw (.protocol "pkt-line payload truncated")
      let records ← records.record (rest.take (length - 4))
      records.read fuel (rest.drop (length - 4))

end Prelude

def receivePackCommands (input : List UInt8) : Except GitdError (List ReceivePackCommand) :=
  ((⟨[], []⟩ : Prelude).read input.length input).map Prelude.commands

/-- The PR-only trunk, before `git receive-pack` runs. -/
def ensureReceivePackPolicy (body : List UInt8) : Except GitdError Unit := do
  let commands ← receivePackCommands body
  if commands.any fun command => command.refName = MAIN_REF then throw directPushDenied

namespace BareRepo

/-- `git receive-pack` on one command: it sets or deletes the ref the name comes to. -/
def take (bare : BareRepo) (command : ReceivePackCommand) : BareRepo :=
  match bare.finalRef command.refName with
  | none => bare
  | some final => bare.point final command.newOid

/-- The commands `git` accepts, one after the other. -/
def receivePack (bare : BareRepo) (accepted : List ReceivePackCommand) : BareRepo :=
  accepted.foldl take bare

end BareRepo

/-- What `git` gives the pre-receive hook to read. -/
def hookInput (commands : List ReceivePackCommand) : String :=
  String.join (commands.map fun command => hookLine command.oldOid command.newOid command.refName)

theorem ensureReceivePackPolicy_ok {body : List UInt8} (allowed : ensureReceivePackPolicy body = .ok ()) :
    ∃ commands, receivePackCommands body = .ok commands ∧
      ∀ command ∈ commands, command.refName ≠ MAIN_REF := by
  unfold ensureReceivePackPolicy at allowed
  cases parsed : receivePackCommands body with
  | error error =>
    rw [parsed] at allowed
    cases allowed
  | ok commands =>
    refine ⟨commands, rfl, fun command member same => ?_⟩
    have main : commands.any (fun command => command.refName = MAIN_REF) = true :=
      List.any_eq_true.mpr ⟨command, member, by simpa using same⟩
    rw [parsed] at allowed
    simp only [bind, Except.bind, main, if_true] at allowed
    cases allowed

end Jeryu.Gitd
