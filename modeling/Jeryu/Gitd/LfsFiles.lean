import Jeryu.Gitd.Lfs
import Mathlib.Logic.Function.Basic

/-!
Uploads to one LFS store, step by step on its files. No two live processes have one id; process ids
and clock readings may come again later.
-/

namespace Jeryu.Gitd

open KeyedMap Text

/-- `.{oid}.tmp.{pid}.{now}.{unique}`, beside the object. -/
structure TempName where
  oid : String
  pid : Nat
  now : Nat
  unique : Nat
  deriving DecidableEq

inductive LfsPath where
  | object (oid : String)
  | temp (name : TempName)
  deriving DecidableEq

def TEMP_NAME_ATTEMPTS : Nat := 64

/-- The upload's buffer. -/
def LFS_CHUNK_BYTES : Nat := 64 * 1024

inductive PutPhase where
  | preparing
  | opening (attempts : Nat)
  | copying
  | checked
  | dropping
  | renaming
  | syncing
  | cleaning (error : GitdError)
  | returned (answer : Except GitdError Nat)
  | crashed

namespace PutPhase

/-- The call still has steps to make. -/
def active : PutPhase → Bool
  | .returned _ | .crashed => false
  | _ => true

/-- Before the temporary file is open. -/
def early : PutPhase → Bool
  | .preparing | .opening _ => true
  | _ => false

/-- The temporary file holds what has been read. -/
def holding : PutPhase → Bool
  | .copying | .checked | .dropping | .renaming => true
  | _ => false

/-- Size and digest have been found right. -/
def verified : PutPhase → Bool
  | .checked | .dropping | .renaming | .syncing | .returned (.ok _) => true
  | _ => false

/-- The object has been seen in its place. -/
def placed : PutPhase → Bool
  | .dropping | .syncing | .returned (.ok _) => true
  | _ => false

end PutPhase

/-- One call of `put_reader_with_limit`. -/
structure LfsPut where
  pid : Nat
  oid : String
  expectedSize : Option Nat
  maxSize : Nat
  /-- The temporary file, under the name it was made with. -/
  file : Option (TempName × Nat)
  /-- What the reader has given. -/
  bytes : List UInt8
  /-- Whether the file system has failed the call. -/
  failed : Bool
  phase : PutPhase

namespace LfsPut

def tooLarge (put : LfsPut) : GitdError :=
  .lfs s!"LFS object {put.oid} is larger than the configured limit of {put.maxSize} bytes"

def reserved (put : LfsPut) : GitdError :=
  .lfs s!"could not reserve a fresh upload name for {put.oid}"

/-- The checks before any file is touched. -/
def enter (pid : Nat) (oid : String) (expectedSize : Option Nat) (maxSize : Nat) : LfsPut :=
  match normalizeOid oid with
  | .error error => ⟨pid, oid, expectedSize, maxSize, none, [], false, .returned (.error error)⟩
  | .ok oid =>
    let put : LfsPut := ⟨pid, oid, expectedSize, maxSize, none, [], false, .preparing⟩
    if expectedSize.any (fun size => maxSize < size) then
      { put with phase := .returned (.error put.tooLarge) }
    else put

/-- The call gives up for an error of the file system. -/
def fails (put : LfsPut) (phase : PutPhase) : LfsPut := { put with failed := true, phase }

/-- Whether the next bytes may be taken. -/
def room (put : LfsPut) (chunk : List UInt8) : Except GitdError Unit :=
  if 2 ^ 64 ≤ put.bytes.length + chunk.length then .error (.lfs "LFS object size overflowed u64")
  else if put.maxSize < put.bytes.length + chunk.length then .error put.tooLarge
  else .ok ()

/-- The bytes have gone into the file, or only some of them. -/
def copied (put : LfsPut) (chunk : List UInt8) (stored : Nat) : LfsPut :=
  if stored < chunk.length then put.fails (.cleaning .io)
  else { put with bytes := put.bytes ++ chunk }

/-- Size and digest, once all is read. -/
def verdict (sha256Hex : List UInt8 → String) (put : LfsPut) : Except GitdError Unit :=
  let total := put.bytes.length
  let actual := sha256Hex put.bytes
  if put.expectedSize.any (fun size => total ≠ size) then
    .error (.lfs s!"size mismatch for {put.oid}: expected {put.expectedSize.getD total}, got {total}")
  else if actual ≠ put.oid then .error (.lfs s!"sha256 mismatch: expected {put.oid}, got {actual}")
  else .ok ()

def judged (sha256Hex : List UInt8 → String) (put : LfsPut) : LfsPut :=
  match put.verdict sha256Hex with
  | .ok () => { put with phase := .checked }
  | .error error => { put with phase := .cleaning error }

/-- The process of the call has died. -/
def crash (pid : Nat) (put : LfsPut) : LfsPut :=
  if put.pid = pid ∧ put.phase.active then { put with phase := .crashed } else put

end LfsPut

/-- The files of a store by inode, the live processes with their counters, and the calls. -/
structure LfsFiles where
  entries : LfsPath → Option Nat
  contents : Nat → List UInt8
  nextInode : Nat
  counters : Nat → Option Nat
  puts : Nat → Option LfsPut

namespace LfsFiles

def start : LfsFiles := ⟨fun _ => none, fun _ => [], 0, fun _ => none, fun _ => none⟩

def set (store : LfsFiles) (id : Nat) (put : LfsPut) : LfsFiles :=
  { store with puts := Function.update store.puts id (some put) }

/-- The next number of the process is taken. -/
def count (store : LfsFiles) (pid unique : Nat) : LfsFiles :=
  { store with counters := Function.update store.counters pid (some (unique + 1)) }

def create (store : LfsFiles) (name : TempName) : LfsFiles :=
  { store with
    entries := Function.update store.entries (.temp name) (some store.nextInode)
    contents := Function.update store.contents store.nextInode []
    nextInode := store.nextInode + 1 }

def append (store : LfsFiles) (inode : Nat) (bytes : List UInt8) : LfsFiles :=
  { store with contents := Function.update store.contents inode (store.contents inode ++ bytes) }

def unlink (store : LfsFiles) (path : LfsPath) : LfsFiles :=
  { store with entries := Function.update store.entries path none }

def rename (store : LfsFiles) (name : TempName) (inode : Nat) (oid : String) : LfsFiles :=
  { store with
    entries := Function.update (Function.update store.entries (.temp name) none) (.object oid) (some inode) }

/-- What anything may do next. A file operation fails or does all it should, but for a write, which
    may stop half way. -/
inductive Step (sha256Hex : List UInt8 → String) (store : LfsFiles) : LfsFiles → Prop where
  | startProcess {pid : Nat} (free : store.counters pid = none) :
      Step sha256Hex store { store with counters := Function.update store.counters pid (some 0) }
  | crash {pid : Nat} :
      Step sha256Hex store { store with
        counters := Function.update store.counters pid none
        puts := fun id => (store.puts id).map (LfsPut.crash pid) }
  | enter {id pid : Nat} {oid : String} {expectedSize : Option Nat} {maxSize : Nat}
      (new : store.puts id = none) (runs : store.counters pid ≠ none) :
      Step sha256Hex store (store.set id (.enter pid oid expectedSize maxSize))
  | createDir {id : Nat} {put : LfsPut} {made : Bool} (here : store.puts id = some put)
      (phase : put.phase = .preparing) :
      Step sha256Hex store (store.set id
        (if made then { put with phase := .opening TEMP_NAME_ATTEMPTS }
          else put.fails (.returned (.error .io))))
  | exhausted {id : Nat} {put : LfsPut} (here : store.puts id = some put)
      (phase : put.phase = .opening 0) :
      Step sha256Hex store (store.set id { put with phase := .returned (.error put.reserved) })
  | taken {id now unique attempts : Nat} {put : LfsPut} (here : store.puts id = some put)
      (phase : put.phase = .opening (attempts + 1)) (counter : store.counters put.pid = some unique)
      (exists_ : store.entries (.temp ⟨put.oid, put.pid, now, unique⟩) ≠ none) :
      Step sha256Hex store
        ((store.count put.pid unique).set id { put with phase := .opening attempts })
  | unopened {id unique attempts : Nat} {put : LfsPut} (here : store.puts id = some put)
      (phase : put.phase = .opening (attempts + 1)) (counter : store.counters put.pid = some unique) :
      Step sha256Hex store
        ((store.count put.pid unique).set id (put.fails (.returned (.error .io))))
  | opened {id now unique attempts : Nat} {put : LfsPut} (here : store.puts id = some put)
      (phase : put.phase = .opening (attempts + 1)) (counter : store.counters put.pid = some unique)
      (free : store.entries (.temp ⟨put.oid, put.pid, now, unique⟩) = none) :
      Step sha256Hex store
        (((store.count put.pid unique).create ⟨put.oid, put.pid, now, unique⟩).set id
          { put with file := some (⟨put.oid, put.pid, now, unique⟩, store.nextInode), phase := .copying })
  | refused {id : Nat} {put : LfsPut} {chunk : List UInt8} {error : GitdError}
      (here : store.puts id = some put) (phase : put.phase = .copying)
      (some_ : 0 < chunk.length) (most : chunk.length ≤ LFS_CHUNK_BYTES)
      (full : put.room chunk = .error error) :
      Step sha256Hex store (store.set id { put with phase := .cleaning error })
  | copied {id inode stored : Nat} {name : TempName} {put : LfsPut} {chunk : List UInt8}
      (here : store.puts id = some put) (phase : put.phase = .copying)
      (some_ : 0 < chunk.length) (most : chunk.length ≤ LFS_CHUNK_BYTES)
      (room : put.room chunk = .ok ()) (file : put.file = some (name, inode)) :
      Step sha256Hex store ((store.append inode (chunk.take stored)).set id (put.copied chunk stored))
  | readFailed {id : Nat} {put : LfsPut} (here : store.puts id = some put)
      (phase : put.phase = .copying) :
      Step sha256Hex store (store.set id { put with phase := .cleaning .io })
  | readAll {id : Nat} {put : LfsPut} {synced : Bool} (here : store.puts id = some put)
      (phase : put.phase = .copying) :
      Step sha256Hex store (store.set id
        (if synced then put.judged sha256Hex else put.fails (.cleaning .io)))
  | looked {id : Nat} {put : LfsPut} {found : Bool} (here : store.puts id = some put)
      (phase : put.phase = .checked)
      (really : found = true → store.entries (.object put.oid) ≠ none) :
      Step sha256Hex store (store.set id { put with phase := if found then .dropping else .renaming })
  | dropped {id inode : Nat} {name : TempName} {put : LfsPut} (here : store.puts id = some put)
      (phase : put.phase = .dropping) (file : put.file = some (name, inode))
      (exists_ : store.entries (.temp name) ≠ none) :
      Step sha256Hex store ((store.unlink (.temp name)).set id
        { put with phase := .returned (.ok put.bytes.length) })
  | undropped {id : Nat} {put : LfsPut} (here : store.puts id = some put)
      (phase : put.phase = .dropping) :
      Step sha256Hex store (store.set id (put.fails (.cleaning .io)))
  | renamed {id inode there : Nat} {name : TempName} {put : LfsPut} (here : store.puts id = some put)
      (phase : put.phase = .renaming) (file : put.file = some (name, inode))
      (exists_ : store.entries (.temp name) = some there) :
      Step sha256Hex store ((store.rename name there put.oid).set id { put with phase := .syncing })
  | unrenamed {id : Nat} {put : LfsPut} (here : store.puts id = some put)
      (phase : put.phase = .renaming) :
      Step sha256Hex store (store.set id (put.fails (.cleaning .io)))
  | synced {id : Nat} {put : LfsPut} {done : Bool} (here : store.puts id = some put)
      (phase : put.phase = .syncing) :
      Step sha256Hex store (store.set id
        (if done then { put with phase := .returned (.ok put.bytes.length) }
          else put.fails (.cleaning .io)))
  | cleaned {id inode : Nat} {name : TempName} {put : LfsPut} {error : GitdError}
      (here : store.puts id = some put) (phase : put.phase = .cleaning error)
      (file : put.file = some (name, inode)) :
      Step sha256Hex store ((store.unlink (.temp name)).set id
        { put with phase := .returned (.error error) })
  | uncleaned {id : Nat} {put : LfsPut} {error : GitdError} (here : store.puts id = some put)
      (phase : put.phase = .cleaning error) :
      Step sha256Hex store (store.set id (put.fails (.returned (.error error))))

inductive Reachable (sha256Hex : List UInt8 → String) : LfsFiles → Prop where
  | start : Reachable sha256Hex .start
  | step {store store' : LfsFiles} (reached : Reachable sha256Hex store)
      (steps : store.Step sha256Hex store') : Reachable sha256Hex store'

/-- The object's bytes. -/
def object (store : LfsFiles) (oid : String) : Option (List UInt8) :=
  (store.entries (.object oid)).map store.contents

/-- What a caller counts on. -/
structure Addressed (sha256Hex : List UInt8 → String) (store : LfsFiles) : Prop where
  objects : ∀ oid bytes, store.object oid = some bytes → sha256Hex bytes = oid
  accepted : ∀ id put total, store.puts id = some put → put.phase = .returned (.ok total) →
    store.object put.oid = some put.bytes ∧ total = put.bytes.length ∧ total ≤ put.maxSize ∧
      ∀ size, put.expectedSize = some size → total = size
  refused : ∀ id put error, store.puts id = some put → put.phase = .returned (.error error) →
    put.failed = false → ∀ name inode, put.file = some (name, inode) →
      ∀ path, store.entries path ≠ some inode

section Keeping

variable {sha256Hex : List UInt8 → String} {store store' : LfsFiles} {id : Nat} {put : LfsPut}

/-- What the files are, calls or none. -/
structure Filed (sha256Hex : List UInt8 → String) (store : LfsFiles) : Prop where
  objects : ∀ oid bytes, store.object oid = some bytes → sha256Hex bytes = oid
  single : ∀ path path' inode, store.entries path = some inode → store.entries path' = some inode →
    path = path'
  bounded : ∀ path inode, store.entries path = some inode → inode < store.nextInode

/-- What holds of a call at each point. -/
structure Fits (sha256Hex : List UInt8 → String) (store : LfsFiles) (put : LfsPut) : Prop where
  early : put.phase.early = true → put.file = none ∧ put.bytes = []
  bound : ∀ name inode, put.file = some (name, inode) → inode < store.nextInode
  named : put.phase.active = true → ∀ name inode, put.file = some (name, inode) →
    name.pid = put.pid ∧ ∃ counter, store.counters put.pid = some counter ∧ name.unique < counter
  holding : put.phase.holding = true → ∃ name inode, put.file = some (name, inode) ∧
    store.entries (.temp name) = some inode ∧ store.contents inode = put.bytes ∧
    put.bytes.length ≤ put.maxSize
  verified : put.phase.verified = true →
    put.verdict sha256Hex = .ok () ∧ put.bytes.length ≤ put.maxSize
  placed : put.phase.placed = true → store.object put.oid = some put.bytes
  answer : ∀ total, put.phase = .returned (.ok total) → total = put.bytes.length
  cleaning : ∀ error, put.phase = .cleaning error → put.failed = false →
    ∃ name inode, put.file = some (name, inode) ∧ store.entries (.temp name) = some inode
  refused : ∀ error, put.phase = .returned (.error error) → put.failed = false →
    ∀ name inode, put.file = some (name, inode) → ∀ path, store.entries path ≠ some inode

/-- Two calls never share a file, nor a name while both go on. -/
def Apart (put other : LfsPut) : Prop :=
  ∀ name inode name' inode', put.file = some (name, inode) → other.file = some (name', inode') →
    inode ≠ inode' ∧ (put.phase.active = true → other.phase.active = true → name ≠ name')

theorem Apart.symm {other : LfsPut} (apart : Apart put other) : Apart other put := by
  intro name inode name' inode' file file'
  obtain ⟨inodes, names⟩ := apart name' inode' name inode file' file
  exact ⟨inodes.symm, fun active active' => (names active' active).symm⟩

structure Sound (sha256Hex : List UInt8 → String) (store : LfsFiles) : Prop where
  filed : store.Filed sha256Hex
  fits : ∀ id put, store.puts id = some put → store.Fits sha256Hex put
  apart : ∀ id id' put put', store.puts id = some put → store.puts id' = some put' → id ≠ id' →
    Apart put put'

/-- What a call relies on is as it was. -/
structure Frame (store store' : LfsFiles) (put : LfsPut) : Prop where
  inodes : store.nextInode ≤ store'.nextInode
  counters : put.phase.active = true → ∀ counter, store.counters put.pid = some counter →
    ∃ counter', store'.counters put.pid = some counter' ∧ counter ≤ counter'
  held : put.phase.active = true → ∀ name inode, put.file = some (name, inode) →
    store.entries (.temp name) = some inode →
    store'.entries (.temp name) = some inode ∧ store'.contents inode = store.contents inode
  object : put.phase.verified = true → store.object put.oid = some put.bytes →
    store'.object put.oid = some put.bytes
  gone : ∀ name inode, put.file = some (name, inode) → (∀ path, store.entries path ≠ some inode) →
    ∀ path, store'.entries path ≠ some inode

theorem PutPhase.active_of_holding {phase : PutPhase} (holding : phase.holding = true) :
    phase.active = true := by
  cases phase <;> simp_all [PutPhase.holding, PutPhase.active]

theorem PutPhase.verified_of_placed {phase : PutPhase} (placed : phase.placed = true) :
    phase.verified = true := by
  cases phase with
  | returned answer => cases answer <;> simp_all [PutPhase.placed, PutPhase.verified]
  | _ => simp_all [PutPhase.placed, PutPhase.verified]

theorem Fits.frame (fits : store.Fits sha256Hex put) (frame : Frame store store' put) :
    store'.Fits sha256Hex put where
  early := fits.early
  bound := fun name inode file => Nat.lt_of_lt_of_le (fits.bound name inode file) frame.inodes
  named := by
    intro active name inode file
    obtain ⟨pid, counter, here, below⟩ := fits.named active name inode file
    obtain ⟨counter', there, more⟩ := frame.counters active counter here
    exact ⟨pid, counter', there, Nat.lt_of_lt_of_le below more⟩
  holding := by
    intro holding
    obtain ⟨name, inode, file, entry, bytes, within⟩ := fits.holding holding
    obtain ⟨entry', same⟩ := frame.held (PutPhase.active_of_holding holding) name inode file entry
    exact ⟨name, inode, file, entry', same.trans bytes, within⟩
  verified := fits.verified
  placed := fun placed => frame.object (PutPhase.verified_of_placed placed) (fits.placed placed)
  answer := fits.answer
  cleaning := by
    intro error phase clean
    obtain ⟨name, inode, file, entry⟩ := fits.cleaning error phase clean
    have active : put.phase.active = true := by rw [phase]; rfl
    exact ⟨name, inode, file, (frame.held active name inode file entry).1⟩
  refused := by
    intro error phase clean name inode file
    exact frame.gone name inode file (fits.refused error phase clean name inode file)

/-- The list of calls is no part of what a call relies on. -/
theorem Fits.set (fits : store.Fits sha256Hex put) (id : Nat) (new : LfsPut) :
    (store.set id new).Fits sha256Hex put :=
  ⟨fits.early, fits.bound, fits.named, fits.holding, fits.verified, fits.placed, fits.answer,
    fits.cleaning, fits.refused⟩

/-- One call goes on, on files that the others find as they were. -/
theorem Sound.set {new : LfsPut} (sound : store.Sound sha256Hex) (filed : store'.Filed sha256Hex)
    (puts : store'.puts = store.puts)
    (frame : ∀ other held, other ≠ id → store.puts other = some held → Frame store store' held)
    (fits : store'.Fits sha256Hex new)
    (apart : ∀ other held, other ≠ id → store.puts other = some held → Apart new held) :
    (store'.set id new).Sound sha256Hex where
  filed := ⟨filed.objects, filed.single, filed.bounded⟩
  fits := by
    intro other held there
    by_cases same : other = id
    · subst same
      have new_ : new = held := by simpa [LfsFiles.set] using there
      rw [← new_]
      exact fits.set other new
    · have before : store.puts other = some held := by
        simpa [LfsFiles.set, Function.update_of_ne same, puts] using there
      have kept := (sound.fits other held before).frame (frame other held same before)
      exact kept.set id new
  apart := by
    intro other other' held held' there there' differ
    by_cases same : other = id
    · subst same
      have new_ : new = held := by simpa [LfsFiles.set] using there
      have before : store.puts other' = some held' := by
        simpa [LfsFiles.set, Function.update_of_ne (Ne.symm differ), puts] using there'
      rw [← new_]
      exact apart other' held' (Ne.symm differ) before
    · have before : store.puts other = some held := by
        simpa [LfsFiles.set, Function.update_of_ne same, puts] using there
      by_cases same' : other' = id
      · subst same'
        have new_ : new = held' := by simpa [LfsFiles.set] using there'
        rw [← new_]
        exact (apart other held same before).symm
      · have before' : store.puts other' = some held' := by
          simpa [LfsFiles.set, Function.update_of_ne same', puts] using there'
        exact sound.apart other other' held held' before before' differ

/-- A call that goes on keeps to its file. -/
theorem Sound.apart_of_same {new : LfsPut} (sound : store.Sound sha256Hex)
    (here : store.puts id = some put) (file : new.file = put.file)
    (active : new.phase.active = true → put.phase.active = true) :
    ∀ other held, other ≠ id → store.puts other = some held → Apart new held := by
  intro other held differ there name inode name' inode' mine theirs
  rw [file] at mine
  obtain ⟨inodes, names⟩ := sound.apart id other put held here there (Ne.symm differ) name inode name' inode'
    mine theirs
  exact ⟨inodes, fun new held => names (active new) held⟩

theorem Frame.refl (store : LfsFiles) (put : LfsPut) : Frame store store put where
  inodes := Nat.le_refl _
  counters := fun _ counter here => ⟨counter, here, Nat.le_refl _⟩
  held := fun _ _ _ _ entry => ⟨entry, rfl⟩
  object := fun _ there => there
  gone := fun _ _ _ gone => gone

theorem Frame.count {pid unique : Nat} (counter : store.counters pid = some unique) :
    Frame store (store.count pid unique) put where
  inodes := Nat.le_refl _
  counters := by
    intro _ counter' here
    by_cases same : put.pid = pid
    · rw [same, counter] at here
      cases here
      exact ⟨unique + 1, by simp [LfsFiles.count, same], Nat.le_succ _⟩
    · exact ⟨counter', by simp [LfsFiles.count, Function.update_of_ne same, here], Nat.le_refl _⟩
  held := fun _ _ _ _ entry => ⟨entry, rfl⟩
  object := fun _ there => there
  gone := fun _ _ _ gone => gone

/-- A step of a call that touches no file. -/
theorem Sound.quiet {new : LfsPut} (sound : store.Sound sha256Hex) (here : store.puts id = some put)
    (fits : store.Fits sha256Hex new) (file : new.file = put.file)
    (active : new.phase.active = true → put.phase.active = true) : (store.set id new).Sound sha256Hex :=
  sound.set sound.filed rfl (fun _ held _ _ => Frame.refl store held) fits
    (sound.apart_of_same here file active)

/-- A call the file system has failed counts on nothing but its own name. -/
theorem Fits.fails (fits : store.Fits sha256Hex put) {phase : PutPhase} (late : phase.early = false)
    (active : phase.active = true → put.phase.active = true) (holding : phase.holding = false)
    (verified : phase.verified = false) : store.Fits sha256Hex (put.fails phase) where
  early := fun early => absurd early (by simp [LfsPut.fails, late])
  bound := fits.bound
  named := fun here => fits.named (active here)
  holding := fun here => absurd here (by simp [LfsPut.fails, holding])
  verified := fun here => absurd here (by simp [LfsPut.fails, verified])
  placed := fun here => absurd (PutPhase.verified_of_placed here) (by simp [LfsPut.fails, verified])
  answer := by
    intro total here
    have here : phase = .returned (.ok total) := here
    rw [here] at verified
    cases verified
  cleaning := fun _ _ clean => nomatch clean
  refused := fun _ _ clean => nomatch clean

end Keeping

section Files

variable {sha256Hex : List UInt8 → String} {store store' : LfsFiles} {id : Nat} {put held : LfsPut}
variable {name : TempName} {inode : Nat}

theorem Filed.unlink (filed : store.Filed sha256Hex) (name : TempName) :
    (store.unlink (.temp name)).Filed sha256Hex where
  objects := by
    intro oid bytes there
    exact filed.objects oid bytes (by simpa [LfsFiles.object, LfsFiles.unlink] using there)
  single := by
    intro path path' inode here there
    simp only [LfsFiles.unlink, Function.update_apply] at here there
    split at here
    · cases here
    · split at there
      · cases there
      · exact filed.single path path' inode here there
  bounded := by
    intro path inode here
    simp only [LfsFiles.unlink, Function.update_apply] at here
    split at here
    · cases here
    · exact filed.bounded path inode here

/-- A name taken away is the name of no other call that goes on. -/
theorem Frame.unlink (other : held.phase.active = true → ∀ name' inode', held.file = some (name', inode') →
    name' ≠ name) : Frame store (store.unlink (.temp name)) held where
  inodes := Nat.le_refl _
  counters := fun _ counter here => ⟨counter, here, Nat.le_refl _⟩
  held := by
    intro active name' inode' file entry
    have apart := other active name' inode' file
    exact ⟨by simp [LfsFiles.unlink, apart, entry], rfl⟩
  object := by
    intro _ there
    simpa [LfsFiles.object, LfsFiles.unlink, Function.update_apply] using there
  gone := by
    intro _ inode' _ gone path here
    simp only [LfsFiles.unlink, Function.update_apply] at here
    split at here
    · cases here
    · exact gone path here

/-- A temporary file is no object. -/
theorem Filed.object_append (filed : store.Filed sha256Hex) (entry : store.entries (.temp name) = some inode)
    (oid : String) (bytes : List UInt8) : (store.append inode bytes).object oid = store.object oid := by
  unfold LfsFiles.object
  cases there : store.entries (.object oid) with
  | none => simp [LfsFiles.append, there]
  | some inode' =>
    have differ : inode' ≠ inode := by
      intro same
      subst same
      cases filed.single _ _ _ entry there
    simp [LfsFiles.append, there, Function.update_of_ne differ]

theorem Filed.append (filed : store.Filed sha256Hex) (entry : store.entries (.temp name) = some inode)
    (bytes : List UInt8) : (store.append inode bytes).Filed sha256Hex where
  objects := by
    intro oid held there
    rw [filed.object_append entry] at there
    exact filed.objects oid held there
  single := filed.single
  bounded := filed.bounded

theorem Frame.append (filed : store.Filed sha256Hex) (entry : store.entries (.temp name) = some inode)
    (bytes : List UInt8) (other : ∀ name' inode', held.file = some (name', inode') → inode' ≠ inode) :
    Frame store (store.append inode bytes) held where
  inodes := Nat.le_refl _
  counters := fun _ counter here => ⟨counter, here, Nat.le_refl _⟩
  held := by
    intro _ name' inode' file there
    have apart := other name' inode' file
    exact ⟨there, by simp [LfsFiles.append, Function.update_of_ne apart]⟩
  object := by
    intro _ there
    rw [filed.object_append entry]
    exact there
  gone := fun _ _ _ gone => gone

theorem Filed.object_create (filed : store.Filed sha256Hex) (oid : String) :
    (store.create name).object oid = store.object oid := by
  unfold LfsFiles.object
  cases there : store.entries (.object oid) with
  | none => simp [LfsFiles.create, there]
  | some inode =>
    have below := filed.bounded _ _ there
    have differ : inode ≠ store.nextInode := by omega
    simp [LfsFiles.create, there, Function.update_of_ne differ]

theorem Filed.create (filed : store.Filed sha256Hex) (name : TempName) :
    (store.create name).Filed sha256Hex where
  objects := by
    intro oid bytes there
    rw [filed.object_create] at there
    exact filed.objects oid bytes there
  single := by
    intro path path' inode here there
    simp only [LfsFiles.create, Function.update_apply] at here there
    split at here
    · next same =>
      split at there
      · next same' => exact same.trans same'.symm
      · have below := filed.bounded _ _ there
        cases here
        omega
    · have below := filed.bounded _ _ here
      split at there
      · cases there
        omega
      · exact filed.single path path' inode here there
  bounded := by
    intro path inode here
    simp only [LfsFiles.create, Function.update_apply] at here ⊢
    split at here
    · cases here
      omega
    · have below := filed.bounded path inode here
      omega

theorem Frame.create (filed : store.Filed sha256Hex) (free : store.entries (.temp name) = none)
    (bound : ∀ name' inode', held.file = some (name', inode') → inode' < store.nextInode) :
    Frame store (store.create name) held where
  inodes := Nat.le_succ _
  counters := fun _ counter here => ⟨counter, here, Nat.le_refl _⟩
  held := by
    intro _ name' inode' file entry
    have apart : name' ≠ name := by
      intro same
      rw [same, free] at entry
      cases entry
    have below := bound name' inode' file
    have differ : inode' ≠ store.nextInode := by omega
    exact ⟨by simp [LfsFiles.create, apart, entry],
      by simp [LfsFiles.create, Function.update_of_ne differ]⟩
  object := by
    intro _ there
    rw [filed.object_create]
    exact there
  gone := by
    intro name' inode' file gone path here
    simp only [LfsFiles.create, Function.update_apply] at here
    split at here
    · have below := bound name' inode' file
      cases here
      omega
    · exact gone path here

theorem object_rename (name : TempName) (inode : Nat) (oid other : String) :
    (store.rename name inode oid).object other =
      if other = oid then some (store.contents inode) else store.object other := by
  by_cases same : other = oid
  · subst same
    simp [LfsFiles.object, LfsFiles.rename]
  · simp [LfsFiles.object, LfsFiles.rename, same]

/-- A file that has the digest becomes the object. -/
theorem Filed.rename (filed : store.Filed sha256Hex) (entry : store.entries (.temp name) = some inode)
    {oid : String} (digest : sha256Hex (store.contents inode) = oid) :
    (store.rename name inode oid).Filed sha256Hex where
  objects := by
    intro other bytes there
    rw [object_rename] at there
    split at there
    · next same =>
      cases there
      exact digest.trans same.symm
    · exact filed.objects other bytes there
  single := by
    intro path path' inode' here there
    simp only [LfsFiles.rename, Function.update_apply] at here there
    by_cases first : path = .object oid
    · by_cases second : path' = .object oid
      · exact first.trans second.symm
      · rw [if_pos first] at here
        rw [if_neg second] at there
        cases here
        split at there
        · cases there
        · next differ => exact absurd (filed.single path' _ _ there entry) differ
    · rw [if_neg first] at here
      split at here
      · cases here
      · next differ =>
        by_cases second : path' = .object oid
        · rw [if_pos second] at there
          cases there
          exact absurd (filed.single path _ _ here entry) differ
        · rw [if_neg second] at there
          split at there
          · cases there
          · exact filed.single path path' inode' here there
  bounded := by
    intro path inode' here
    simp only [LfsFiles.rename, Function.update_apply] at here
    split at here
    · cases here
      exact filed.bounded _ _ entry
    · split at here
      · cases here
      · exact filed.bounded path inode' here

theorem verdict_ok (well : put.verdict sha256Hex = .ok ()) :
    sha256Hex put.bytes = put.oid ∧ ∀ size, put.expectedSize = some size → put.bytes.length = size := by
  unfold LfsPut.verdict at well
  dsimp only at well
  split at well
  · cases well
  · next sizes =>
    split at well
    · cases well
    · next digest =>
      refine ⟨not_not.mp digest, ?_⟩
      intro size expected
      rw [expected] at sizes
      simpa using sizes

/-- Another call with the same digest has the same bytes. -/
theorem Frame.rename (injective : Function.Injective sha256Hex) {oid : String}
    (digest : sha256Hex (store.contents inode) = oid) (fits : store.Fits sha256Hex held)
    (other : ∀ name' inode', held.file = some (name', inode') →
      inode' ≠ inode ∧ (held.phase.active = true → name' ≠ name)) :
    Frame store (store.rename name inode oid) held where
  inodes := Nat.le_refl _
  counters := fun _ counter here => ⟨counter, here, Nat.le_refl _⟩
  held := by
    intro active name' inode' file there
    have apart := (other name' inode' file).2 active
    exact ⟨by simp [LfsFiles.rename, apart, there], rfl⟩
  object := by
    intro verified there
    rw [object_rename]
    by_cases same : held.oid = oid
    · have right := (verdict_ok (fits.verified verified).1).1
      have bytes : store.contents inode = held.bytes := injective (by rw [digest, right, same])
      rw [if_pos same, bytes]
    · rw [if_neg same]
      exact there
  gone := by
    intro name' inode' file gone path here
    simp only [LfsFiles.rename, Function.update_apply] at here
    split at here
    · cases here
      exact (other name' _ file).1 rfl
    · split at here
      · cases here
      · exact gone path here

end Files

end LfsFiles

end Jeryu.Gitd
