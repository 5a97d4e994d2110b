import Jeryu.Gitd.LfsFiles
import Jeryu.Gitd.Namespaces

/-!
Uploads leave the LFS store content-addressed, and a batch answer says what it holds.
-/

namespace Jeryu.Gitd

open KeyedMap Text

namespace LfsFiles

section Steps

variable {sha256Hex : List UInt8 → String} {store store' : LfsFiles} {id : Nat} {put : LfsPut}

theorem room_ok {chunk : List UInt8} (room : put.room chunk = .ok ()) :
    put.bytes.length + chunk.length ≤ put.maxSize := by
  unfold LfsPut.room at room
  split at room
  · cases room
  · split at room
    · cases room
    · next within => omega

/-- A call that has not opened its file yet, or has returned without one. -/
theorem Fits.unopened {put : LfsPut} (file : put.file = none) (bytes : put.bytes = []) (holding : put.phase.holding = false)
    (verified : put.phase.verified = false) (cleaning : ∀ error, put.phase ≠ .cleaning error) :
    store.Fits sha256Hex put where
  early := fun _ => ⟨file, bytes⟩
  bound := by simp [file]
  named := by simp [file]
  holding := by simp [holding]
  verified := by simp [verified]
  placed := fun placed => by simp [PutPhase.verified_of_placed placed] at verified
  answer := by
    intro total here
    rw [here] at verified
    cases verified
  cleaning := fun error here => absurd here (cleaning error)
  refused := by simp [file]

theorem fits_enter (pid : Nat) (oid : String) (expectedSize : Option Nat) (maxSize : Nat) :
    store.Fits sha256Hex (.enter pid oid expectedSize maxSize) ∧
      (LfsPut.enter pid oid expectedSize maxSize).file = none := by
  unfold LfsPut.enter
  split
  · exact ⟨.unopened rfl rfl rfl rfl (by simp), rfl⟩
  · dsimp only
    split
    · exact ⟨.unopened rfl rfl rfl rfl (by simp), rfl⟩
    · exact ⟨.unopened rfl rfl rfl rfl (by simp), rfl⟩

theorem apart_of_unopened {other : LfsPut} (file : put.file = none) : Apart put other := by
  intro name inode name' inode' mine
  rw [file] at mine
  cases mine

/-- A call gives up over what it has read. -/
theorem Fits.clean (fits : store.Fits sha256Hex put) (copying : put.phase = .copying)
    (error : GitdError) : store.Fits sha256Hex { put with phase := .cleaning error } where
  early := fun early => nomatch early
  bound := fits.bound
  named := fun _ => fits.named (by rw [copying]; rfl)
  holding := fun holding => nomatch holding
  verified := fun verified => nomatch verified
  placed := fun placed => nomatch placed
  answer := fun _ here => nomatch here
  cleaning := by
    intro _ _ _
    obtain ⟨name, inode, file, entry, -⟩ := fits.holding (by rw [copying]; rfl)
    exact ⟨name, inode, file, entry⟩
  refused := fun _ here => nomatch here

theorem Fits.checked (fits : store.Fits sha256Hex put) (copying : put.phase = .copying)
    (well : put.verdict sha256Hex = .ok ()) : store.Fits sha256Hex { put with phase := .checked } where
  early := fun early => nomatch early
  bound := fits.bound
  named := fun _ => fits.named (by rw [copying]; rfl)
  holding := fun _ => fits.holding (by rw [copying]; rfl)
  verified := by
    intro _
    obtain ⟨-, -, -, -, -, within⟩ := fits.holding (by rw [copying]; rfl)
    exact ⟨well, within⟩
  placed := fun placed => nomatch placed
  answer := fun _ here => nomatch here
  cleaning := fun _ here => nomatch here
  refused := fun _ here => nomatch here

/-- The call that looks finds its own bytes in place, if it finds any. -/
theorem Fits.looked (injective : Function.Injective sha256Hex) (filed : store.Filed sha256Hex)
    (fits : store.Fits sha256Hex put) (checked : put.phase = .checked) {found : Bool}
    (really : found = true → store.entries (.object put.oid) ≠ none) :
    store.Fits sha256Hex { put with phase := if found then .dropping else .renaming } where
  early := fun early => by cases found <;> cases early
  bound := fits.bound
  named := fun _ => fits.named (by rw [checked]; rfl)
  holding := fun _ => fits.holding (by rw [checked]; rfl)
  verified := fun _ => fits.verified (by rw [checked]; rfl)
  placed := by
    intro placed
    cases found with
    | false => cases placed
    | true =>
      obtain ⟨inode, there⟩ := Option.ne_none_iff_exists'.mp (really rfl)
      have object : store.object put.oid = some (store.contents inode) := by
        simp [LfsFiles.object, there]
      have digest := filed.objects _ _ object
      have right := (verdict_ok (fits.verified (by rw [checked]; rfl)).1).1
      have bytes : store.contents inode = put.bytes := injective (digest.trans right.symm)
      rw [bytes] at object
      exact object
  answer := fun _ here => by cases found <;> cases here
  cleaning := fun _ here => by cases found <;> cases here
  refused := fun _ here => by cases found <;> cases here

/-- The call answers once the object is in place. -/
theorem Fits.answered (fits : store.Fits sha256Hex put) (placed : put.phase.placed = true) :
    store.Fits sha256Hex { put with phase := .returned (.ok put.bytes.length) } where
  early := fun early => nomatch early
  bound := fits.bound
  named := fun active => nomatch active
  holding := fun holding => nomatch holding
  verified := fun _ => fits.verified (PutPhase.verified_of_placed placed)
  placed := fun _ => fits.placed placed
  answer := by
    intro total here
    cases here
    rfl
  cleaning := fun _ here => nomatch here
  refused := fun _ here => nomatch here

theorem Sound.others {other : Nat} {held : LfsPut} {name : TempName} {inode : Nat}
    (sound : store.Sound sha256Hex) (here : store.puts id = some put) (file : put.file = some (name, inode))
    (active : put.phase.active = true) (differ : other ≠ id) (there : store.puts other = some held) :
    ∀ name' inode', held.file = some (name', inode') →
      inode' ≠ inode ∧ (held.phase.active = true → name' ≠ name) := by
  intro name' inode' theirs
  have apart := sound.apart other id held put there here differ name' inode' name inode theirs file
  exact ⟨apart.1, fun going => apart.2 going active⟩

/-- The call takes its own name away. -/
theorem Sound.unlink {new : LfsPut} {name : TempName} {inode : Nat} (sound : store.Sound sha256Hex)
    (here : store.puts id = some put) (file : put.file = some (name, inode))
    (active : put.phase.active = true) (done : new.phase.active = false) (same : new.file = put.file)
    (fits : (store.unlink (.temp name)).Fits sha256Hex new) :
    ((store.unlink (.temp name)).set id new).Sound sha256Hex := by
  refine sound.set (sound.filed.unlink name) rfl ?_ fits ?_
  · intro other held differ there
    exact .unlink fun going name' inode' theirs =>
      (sound.others here file active differ there name' inode' theirs).2 going
  · intro other held differ there
    have inactive : new.phase.active = true → put.phase.active = true := by simp [done]
    exact sound.apart_of_same here same inactive other held differ there

/-- The last step of a call that has given up. -/
theorem Sound.cleaned {name : TempName} {inode : Nat} {error : GitdError} (sound : store.Sound sha256Hex)
    (here : store.puts id = some put) (phase : put.phase = .cleaning error)
    (file : put.file = some (name, inode)) :
    ((store.unlink (.temp name)).set id { put with phase := .returned (.error error) }).Sound sha256Hex := by
  have fits := sound.fits id put here
  refine sound.unlink here file (by rw [phase]; rfl) rfl rfl ?_
  refine ⟨fun early => (nomatch early), fits.bound, fun active => (nomatch active),
    fun holding => (nomatch holding), fun verified => (nomatch verified), fun placed => (nomatch placed),
    fun _ answer => (nomatch answer), fun _ cleaning => (nomatch cleaning), ?_⟩
  intro _ _ clean name' inode' file' path there
  have file' : put.file = some (name', inode') := file'
  rw [file] at file'
  cases file'
  obtain ⟨name', inode', same, entry⟩ := fits.cleaning error phase clean
  rw [file] at same
  cases same
  simp only [LfsFiles.unlink, Function.update_apply] at there
  split at there
  · cases there
  · next differ => exact differ (sound.filed.single path _ _ there entry)

/-- A call that has taken a number, and no file. -/
theorem Sound.counted {new : LfsPut} {unique : Nat} (sound : store.Sound sha256Hex)
    (counter : store.counters put.pid = some unique) (fits : store.Fits sha256Hex new)
    (file : new.file = none) : ((store.count put.pid unique).set id new).Sound sha256Hex := by
  have filed : (store.count put.pid unique).Filed sha256Hex :=
    ⟨sound.filed.objects, sound.filed.single, sound.filed.bounded⟩
  refine sound.set filed rfl ?_ (fits.frame (.count counter)) (fun _ _ _ _ => apart_of_unopened file)
  exact fun _ _ _ _ => .count counter

theorem Sound.startProcess {pid : Nat} (sound : store.Sound sha256Hex) (free : store.counters pid = none) :
    ({ store with counters := Function.update store.counters pid (some 0) } : LfsFiles).Sound sha256Hex := by
  refine ⟨⟨sound.filed.objects, sound.filed.single, sound.filed.bounded⟩, ?_, sound.apart⟩
  intro id put there
  have fits := sound.fits id put there
  refine fits.frame ⟨Nat.le_refl _, ?_, fun _ _ _ _ entry => ⟨entry, rfl⟩, fun _ there => there,
    fun _ _ _ gone => gone⟩
  intro _ counter here
  have differ : put.pid ≠ pid := by
    intro same
    rw [same, free] at here
    cases here
  exact ⟨counter, by simp [Function.update_of_ne differ, here], Nat.le_refl _⟩

theorem crash_file (pid : Nat) (put : LfsPut) : (put.crash pid).file = put.file := by
  unfold LfsPut.crash
  split <;> rfl

theorem crash_active {pid : Nat} {put : LfsPut} (active : (put.crash pid).phase.active = true) :
    put.crash pid = put ∧ put.pid ≠ pid ∧ put.phase.active = true := by
  unfold LfsPut.crash at active ⊢
  split at active
  · cases active
  · next spared =>
    rw [if_neg spared]
    exact ⟨rfl, fun same => spared ⟨same, active⟩, active⟩

theorem Sound.crash {pid : Nat} (sound : store.Sound sha256Hex) :
    ({ store with
      counters := Function.update store.counters pid none
      puts := fun id => (store.puts id).map (LfsPut.crash pid) } : LfsFiles).Sound sha256Hex := by
  refine ⟨⟨sound.filed.objects, sound.filed.single, sound.filed.bounded⟩, ?_, ?_⟩
  · intro id put there
    obtain ⟨old, before, crashed⟩ := Option.map_eq_some_iff.mp there
    subst crashed
    have fits := sound.fits id old before
    by_cases hit : old.pid = pid ∧ old.phase.active = true
    · have dies : old.crash pid = { old with phase := .crashed } := by simp [LfsPut.crash, hit]
      rw [dies]
      exact ⟨fun here => (nomatch here), fits.bound, fun here => (nomatch here), fun here => (nomatch here),
        fun here => (nomatch here), fun here => (nomatch here), fun _ here => (nomatch here),
        fun _ here => (nomatch here), fun _ here => (nomatch here)⟩
    · have lives : old.crash pid = old := by simp [LfsPut.crash, hit]
      rw [lives]
      refine fits.frame ⟨Nat.le_refl _, ?_, fun _ _ _ _ entry => ⟨entry, rfl⟩, fun _ there => there,
        fun _ _ _ gone => gone⟩
      intro active counter here
      have differ : old.pid ≠ pid := fun same => hit ⟨same, active⟩
      exact ⟨counter, by simp [Function.update_of_ne differ, here], Nat.le_refl _⟩
  · intro id id' put put' there there' differ name inode name' inode' file file'
    obtain ⟨old, before, crashed⟩ := Option.map_eq_some_iff.mp there
    obtain ⟨old', before', crashed'⟩ := Option.map_eq_some_iff.mp there'
    subst crashed crashed'
    rw [crash_file] at file file'
    obtain ⟨inodes, names⟩ := sound.apart id id' old old' before before' differ name inode name' inode' file file'
    exact ⟨inodes, fun active active' => names (crash_active active).2.2 (crash_active active').2.2⟩

/-- The file is new, and its name is one no live call has. -/
theorem Sound.opened {now unique : Nat} (sound : store.Sound sha256Hex)
    (counter : store.counters put.pid = some unique) (bytes : put.bytes = [])
    (free : store.entries (.temp ⟨put.oid, put.pid, now, unique⟩) = none) :
    (((store.count put.pid unique).create ⟨put.oid, put.pid, now, unique⟩).set id
      { put with file := some (⟨put.oid, put.pid, now, unique⟩, store.nextInode), phase := .copying }).Sound
      sha256Hex := by
  have filed : (store.count put.pid unique).Filed sha256Hex :=
    ⟨sound.filed.objects, sound.filed.single, sound.filed.bounded⟩
  refine sound.set (filed.create _) rfl ?_ ?_ ?_
  · intro other held _ there
    have fits := sound.fits other held there
    have counted : Frame store (store.count put.pid unique) held := .count counter
    have created : Frame (store.count put.pid unique)
        ((store.count put.pid unique).create ⟨put.oid, put.pid, now, unique⟩) held :=
      .create filed free fits.bound
    refine ⟨Nat.le_trans counted.inodes created.inodes, counted.counters, created.held, created.object,
      created.gone⟩
  · refine ⟨fun here => (nomatch here), ?_, ?_, ?_, fun here => (nomatch here), fun here => (nomatch here),
      fun _ here => (nomatch here), fun _ here => (nomatch here), fun _ here => (nomatch here)⟩
    · intro name inode file
      cases file
      exact Nat.lt_succ_self _
    · intro _ name inode file
      cases file
      exact ⟨rfl, unique + 1, by simp [LfsFiles.create, LfsFiles.count], Nat.lt_succ_self _⟩
    · intro _
      refine ⟨_, _, rfl, ?_, ?_, ?_⟩
      · simp [LfsFiles.create, LfsFiles.count]
      · simp [LfsFiles.create, LfsFiles.count, bytes]
      · simp [bytes]
  · intro other held _ there name inode name' inode' mine theirs
    cases mine
    have fits := sound.fits other held there
    have below := fits.bound name' inode' theirs
    refine ⟨by omega, ?_⟩
    intro _ active same
    obtain ⟨pid, counter', counts, under⟩ := fits.named active name' inode' theirs
    rw [← same] at pid under
    have pid : put.pid = held.pid := pid
    rw [← pid, counter] at counts
    cases counts
    exact Nat.lt_irrefl _ under

/-- The file holds what has been read, and no more. -/
theorem Sound.copied {chunk : List UInt8} {stored inode : Nat} {name : TempName}
    (sound : store.Sound sha256Hex) (here : store.puts id = some put) (copying : put.phase = .copying)
    (room : put.room chunk = .ok ()) (file : put.file = some (name, inode)) :
    ((store.append inode (chunk.take stored)).set id (put.copied chunk stored)).Sound sha256Hex := by
  have fits := sound.fits id put here
  have active : put.phase.active = true := by
    rw [copying]
    rfl
  obtain ⟨name', inode', file', entry, holds, -⟩ := fits.holding (by rw [copying]; rfl)
  rw [file] at file'
  cases file'
  have others {other : Nat} {held : LfsPut} (differ : other ≠ id) (there : store.puts other = some held) :
      ∀ name' inode', held.file = some (name', inode') → inode' ≠ inode := fun name' inode' theirs =>
    (sound.others here file active differ there name' inode' theirs).1
  have kept : (store.append inode (chunk.take stored)).Fits sha256Hex (put.fails (.cleaning .io)) := by
    have failing : store.Fits sha256Hex (put.fails (.cleaning .io)) := fits.fails rfl (fun _ => active) rfl rfl
    exact ⟨failing.early, failing.bound, failing.named, fun holding => (nomatch holding),
      fun verified => (nomatch verified), fun placed => (nomatch placed), fun _ answer => (nomatch answer),
      fun _ _ clean => (nomatch clean), fun _ _ clean => (nomatch clean)⟩
  have file_ : (put.copied chunk stored).file = put.file := by
    unfold LfsPut.copied
    split <;> rfl
  refine sound.set (sound.filed.append entry _) rfl ?_ ?_
    (sound.apart_of_same here file_ fun _ => active)
  · intro other held differ there
    exact .append sound.filed entry _ (others differ there)
  · unfold LfsPut.copied
    split
    · exact kept
    · next whole =>
      have all : chunk.take stored = chunk := List.take_of_length_le (by omega)
      refine ⟨fun early => ?_, fits.bound, fun _ => fits.named active, fun _ => ?_, fun verified => ?_,
        fun placed => ?_, fun _ answer => ?_, fun _ cleaning => ?_, fun _ refused => ?_⟩
      · simp [copying, PutPhase.early] at early
      · refine ⟨name, inode, file, entry, ?_, ?_⟩
        · simp [LfsFiles.append, all, holds]
        · have within := room_ok room
          simpa using within
      · simp [copying, PutPhase.verified] at verified
      · simp [copying, PutPhase.placed] at placed
      · simp [copying] at answer
      · simp [copying] at cleaning
      · simp [copying] at refused

/-- What has been read and verified becomes the object. -/
theorem Sound.renamed {inode there : Nat} {name : TempName} (injective : Function.Injective sha256Hex)
    (sound : store.Sound sha256Hex) (here : store.puts id = some put) (moving : put.phase = .renaming)
    (file : put.file = some (name, inode)) (exists_ : store.entries (.temp name) = some there) :
    ((store.rename name there put.oid).set id { put with phase := .syncing }).Sound sha256Hex := by
  have fits := sound.fits id put here
  have active : put.phase.active = true := by
    rw [moving]
    rfl
  obtain ⟨name', inode', file', entry, holds, -⟩ := fits.holding (by rw [moving]; rfl)
  rw [file] at file'
  cases file'
  rw [exists_] at entry
  cases entry
  have verified := fits.verified (by rw [moving]; rfl)
  have digest : sha256Hex (store.contents inode) = put.oid := by
    rw [holds]
    exact (verdict_ok verified.1).1
  refine sound.set (sound.filed.rename exists_ digest) rfl ?_ ?_
    (sound.apart_of_same here rfl fun _ => active)
  · intro other held differ there
    exact .rename injective digest (sound.fits other held there) (sound.others here file active differ there)
  · refine ⟨fun early => (nomatch early), fits.bound, fun _ => fits.named active,
      fun holding => (nomatch holding), fun _ => verified, fun _ => ?_, fun _ answer => (nomatch answer),
      fun _ cleaning => (nomatch cleaning), fun _ refused => (nomatch refused)⟩
    rw [object_rename, if_pos rfl, holds]

theorem Sound.step (injective : Function.Injective sha256Hex) (sound : store.Sound sha256Hex)
    (steps : store.Step sha256Hex store') : store'.Sound sha256Hex := by
  cases steps with
  | startProcess free => exact sound.startProcess free
  | crash => exact sound.crash
  | @enter id pid oid expectedSize maxSize new runs =>
    obtain ⟨fits, file⟩ := @fits_enter sha256Hex store pid oid expectedSize maxSize
    exact sound.set sound.filed rfl (fun _ held _ _ => Frame.refl store held) fits
      (fun _ _ _ _ => apart_of_unopened file)
  | @createDir id put made here phase =>
    have fits := sound.fits id put here
    obtain ⟨file, bytes⟩ := fits.early (by rw [phase]; rfl)
    cases made with
    | true => exact sound.quiet here (.unopened file bytes rfl rfl (by simp)) rfl (fun _ => by rw [phase]; rfl)
    | false => exact sound.quiet here (fits.fails rfl (by simp [PutPhase.active]) rfl rfl) rfl (by simp [LfsPut.fails, PutPhase.active])
  | @exhausted id put here phase =>
    have fits := sound.fits id put here
    obtain ⟨file, bytes⟩ := fits.early (by rw [phase]; rfl)
    exact sound.quiet here (.unopened file bytes rfl rfl (by simp)) rfl (fun _ => by rw [phase]; rfl)
  | @taken id now unique attempts put here phase counter exists_ =>
    have fits := sound.fits id put here
    obtain ⟨file, bytes⟩ := fits.early (by rw [phase]; rfl)
    exact sound.counted counter (.unopened file bytes rfl rfl (by simp)) file
  | @unopened id unique attempts put here phase counter =>
    have fits := sound.fits id put here
    obtain ⟨file, bytes⟩ := fits.early (by rw [phase]; rfl)
    exact sound.counted counter (.unopened file bytes rfl rfl (by simp [LfsPut.fails])) file
  | @opened id now unique attempts put here phase counter free =>
    have fits := sound.fits id put here
    exact sound.opened counter (fits.early (by rw [phase]; rfl)).2 free
  | @refused id put chunk error here phase some_ most full =>
    have fits := sound.fits id put here
    exact sound.quiet here (fits.clean phase error) rfl (fun _ => by rw [phase]; rfl)
  | @copied id inode stored name put chunk here phase some_ most room file =>
    exact sound.copied here phase room file
  | @readFailed id put here phase =>
    have fits := sound.fits id put here
    exact sound.quiet here (fits.clean phase .io) rfl (fun _ => by rw [phase]; rfl)
  | @readAll id put synced here phase =>
    have fits := sound.fits id put here
    have active : put.phase.active = true := by
      rw [phase]
      rfl
    cases synced with
    | false => exact sound.quiet here (fits.fails rfl (fun _ => active) rfl rfl) rfl (fun _ => active)
    | true =>
      simp only [if_true, LfsPut.judged]
      cases well : put.verdict sha256Hex with
      | ok judged => exact sound.quiet here (fits.checked phase well) rfl (fun _ => active)
      | error error => exact sound.quiet here (fits.clean phase error) rfl (fun _ => active)
  | @looked id put found here phase really =>
    have fits := sound.fits id put here
    exact sound.quiet here (fits.looked injective sound.filed phase really) rfl (fun _ => by rw [phase]; rfl)
  | @dropped id inode name put here phase file exists_ =>
    have fits := sound.fits id put here
    have answered := fits.answered (by rw [phase]; rfl)
    refine sound.unlink here file (by rw [phase]; rfl) rfl rfl ?_
    exact answered.frame (.unlink (by simp [PutPhase.active]))
  | @undropped id put here phase =>
    have fits := sound.fits id put here
    have active : put.phase.active = true := by
      rw [phase]
      rfl
    exact sound.quiet here (fits.fails rfl (fun _ => active) rfl rfl) rfl (fun _ => active)
  | @renamed id inode there name put here phase file exists_ =>
    exact sound.renamed injective here phase file exists_
  | @unrenamed id put here phase =>
    have fits := sound.fits id put here
    have active : put.phase.active = true := by
      rw [phase]
      rfl
    exact sound.quiet here (fits.fails rfl (fun _ => active) rfl rfl) rfl (fun _ => active)
  | @synced id put done here phase =>
    have fits := sound.fits id put here
    have active : put.phase.active = true := by
      rw [phase]
      rfl
    cases done with
    | true => exact sound.quiet here (fits.answered (by rw [phase]; rfl)) rfl (fun _ => active)
    | false => exact sound.quiet here (fits.fails rfl (fun _ => active) rfl rfl) rfl (fun _ => active)
  | @cleaned id inode name put error here phase file =>
    exact sound.cleaned here phase file
  | @uncleaned id put error here phase =>
    have fits := sound.fits id put here
    exact sound.quiet here (fits.fails rfl (by simp [PutPhase.active]) rfl rfl) rfl
      (by simp [LfsPut.fails, PutPhase.active])

end Steps

theorem Reachable.sound {sha256Hex : List UInt8 → String} {store : LfsFiles}
    (injective : Function.Injective sha256Hex) (reached : Reachable sha256Hex store) :
    store.Sound sha256Hex := by
  induction reached with
  | start =>
    have empty : ∀ path, LfsFiles.start.entries path = none := fun _ => rfl
    refine ⟨⟨?_, ?_, ?_⟩, ?_, ?_⟩
    · intro oid bytes there
      simp [LfsFiles.object, empty] at there
    · intro path path' inode here
      cases here
    · intro path inode here
      cases here
    · intro id put there
      cases there
    · intro id id' put put' there
      cases there
  | step _ steps ih => exact ih.step injective steps

theorem Sound.addressed {sha256Hex : List UInt8 → String} {store : LfsFiles}
    (sound : store.Sound sha256Hex) : store.Addressed sha256Hex where
  objects := sound.filed.objects
  accepted := by
    intro id put total there returned
    have fits := sound.fits id put there
    have object := fits.placed (by rw [returned]; rfl)
    obtain ⟨well, within⟩ := fits.verified (by rw [returned]; rfl)
    have total_ := fits.answer total returned
    subst total_
    exact ⟨object, rfl, within, (verdict_ok well).2⟩
  refused := by
    intro id put error there returned clean
    exact (sound.fits id put there).refused error returned clean

end LfsFiles

section Batch

variable {oid oid' : String} {bare : BareRepo} {store : LfsFiles}

theorem lowercase_hexdigit {c : Char} (digit : isAsciiHexdigit c = true) :
    isAsciiHexdigit (toAsciiLowercaseChar c) = true ∧
      toAsciiLowercaseChar (toAsciiLowercaseChar c) = toAsciiLowercaseChar c := by
  by_cases upper : isAsciiUppercase c = true
  · have below : c.toNat ≤ 70 := by
      simp only [isAsciiHexdigit, isAsciiDigit, isAsciiUppercase, Bool.or_eq_true, Bool.and_eq_true,
        decide_eq_true_eq, Char.le_def, UInt32.le_iff_toNat_le] at digit upper
      have digits : ('9' : Char).val.toNat = 57 := rfl
      have lower : ('a' : Char).val.toNat = 97 := rfl
      have letters : ('Z' : Char).val.toNat = 90 := rfl
      have first : ('A' : Char).val.toNat = 65 := rfl
      have last : ('F' : Char).val.toNat = 70 := rfl
      have value : c.val.toNat = c.toNat := rfl
      omega
    have hex : ∀ n < 71, 65 ≤ n → isAsciiHexdigit (Char.ofNat (n + 32)) = true ∧
        isAsciiUppercase (Char.ofNat (n + 32)) = false := by decide
    have above : 65 ≤ c.toNat := by
      simp only [isAsciiUppercase, Bool.and_eq_true, decide_eq_true_eq, Char.le_def,
        UInt32.le_iff_toNat_le] at upper
      exact upper.1
    obtain ⟨lower, plain⟩ := hex c.toNat (by omega) above
    have once : toAsciiLowercaseChar c = Char.ofNat (c.toNat + 32) := by
      simp [toAsciiLowercaseChar, upper]
    rw [once]
    exact ⟨lower, by simp [toAsciiLowercaseChar, plain]⟩
  · have same : toAsciiLowercaseChar c = c := by simp [toAsciiLowercaseChar, upper]
    rw [same]
    exact ⟨digit, same⟩

/-- An object id in its one spelling stays as it is. -/
theorem normalizeOid_again (normal : normalizeOid oid = .ok oid') : normalizeOid oid' = .ok oid' := by
  unfold normalizeOid at normal
  split at normal
  · next well =>
    cases normal
    simp only [Bool.and_eq_true, decide_eq_true_eq, Text.all, List.all_eq_true] at well
    obtain ⟨length, digits⟩ := well
    have hex : ∀ c ∈ oid.toList.map toAsciiLowercaseChar, isAsciiHexdigit c = true := by
      intro c member
      obtain ⟨d, there, rfl⟩ := List.mem_map.mp member
      exact (lowercase_hexdigit (digits d there)).1
    have again : (oid.toList.map toAsciiLowercaseChar).map toAsciiLowercaseChar =
        oid.toList.map toAsciiLowercaseChar := by
      rw [List.map_map]
      apply List.map_congr_left
      intro c there
      exact (lowercase_hexdigit (digits c there)).2
    have size : len (toAsciiLowercase oid) = 64 := by
      rw [len_eq] at length ⊢
      rw [toAsciiLowercase, String.toList_ofList, utf8Len_map_toAsciiLowercaseChar]
      exact length
    have chars : Text.all (toAsciiLowercase oid) isAsciiHexdigit = true := by
      simp only [Text.all, toAsciiLowercase, String.toList_ofList, List.all_eq_true]
      exact hex
    unfold normalizeOid
    rw [if_pos (by simp [size, chars])]
    simp only [toAsciiLowercase, String.toList_ofList, again]
  · cases normal

/-- The repository's objects are those of the store. -/
def LfsFiles.Holds (store : LfsFiles) (bare : BareRepo) : Prop :=
  ∀ oid, bare.lfsObjects.lookup oid = store.object oid

/-- What a batch answer offers for one object. -/
structure Offered (store : LfsFiles) (operation : String) (maxObjectBytes : Nat)
    (object : LfsBatchObject) (answer : LfsBatchObjectResponse) : Prop where
  download : (∃ action, ("download", action) ∈ answer.actions) ↔
    operation = "download" ∧ object.size ≤ maxObjectBytes ∧
      ∃ bytes, store.object answer.oid = some bytes ∧ bytes.length = object.size
  upload : (∃ action, ("upload", action) ∈ answer.actions) ↔
    operation = "upload" ∧ object.size ≤ maxObjectBytes ∧ store.object answer.oid = none
  oid : normalizeOid object.oid = .ok answer.oid

theorem lfsSize_eq (held : store.Holds bare) (normal : normalizeOid oid = .ok oid) :
    bare.lfsSize oid = .ok ((store.object oid).map List.length) := by
  simp [BareRepo.lfsSize, BareRepo.lfsGet, normal, held oid, bind, Except.bind, pure, Except.pure]

theorem batchObject_offered {upload : Bool} {objectsUrl : String} {header : Option (String × String)}
    {maxObjectBytes : Nat} {object : LfsBatchObject} {answer : LfsBatchObjectResponse} {operation : String}
    (held : store.Holds bare)
    (asked : (upload = true ∧ operation = "upload") ∨ (upload = false ∧ operation = "download"))
    (answers : bare.batchObject upload objectsUrl header maxObjectBytes object = .ok answer) :
    Offered store operation maxObjectBytes object answer := by
  unfold BareRepo.batchObject at answers
  cases normal : normalizeOid object.oid with
  | error error => simp [normal, bind, Except.bind] at answers
  | ok oid =>
    have again := normalizeOid_again normal
    have size := lfsSize_eq held again
    simp only [normal, bind, Except.bind] at answers
    split at answers
    · next large =>
      cases answers
      refine ⟨?_, ?_, normal⟩
      · simp [LfsBatchObjectResponse.withError]
        omega
      · simp [LfsBatchObjectResponse.withError]
        omega
    · next fits =>
      have within : object.size ≤ maxObjectBytes := by omega
      rcases asked with ⟨rfl, rfl⟩ | ⟨rfl, rfl⟩
      · simp only [if_true, BareRepo.uploadBatchObject, size, bind, Except.bind, pure, Except.pure] at answers
        cases there : store.object oid with
        | none =>
          simp only [there, Option.map_none] at answers
          cases answers
          refine ⟨?_, ?_, normal⟩
          · simp
          · simp [LfsBatchObjectResponse.new, there, within]
        | some bytes =>
          simp only [there, Option.map_some] at answers
          split at answers <;> cases answers
          · exact ⟨by simp [LfsBatchObjectResponse.withError],
              by simp [LfsBatchObjectResponse.withError, there], normal⟩
          · exact ⟨by simp [LfsBatchObjectResponse.new],
              by simp [LfsBatchObjectResponse.new, there], normal⟩
      · simp only [Bool.false_eq_true, if_false, BareRepo.downloadBatchObject, size, bind, Except.bind, pure,
          Except.pure] at answers
        cases there : store.object oid with
        | none =>
          simp only [there, Option.map_none] at answers
          cases answers
          exact ⟨by simp [LfsBatchObjectResponse.withError, there],
            by simp [LfsBatchObjectResponse.withError], normal⟩
        | some bytes =>
          simp only [there, Option.map_some] at answers
          split at answers
          · next differs =>
            cases answers
            exact ⟨by simp [LfsBatchObjectResponse.withError, there, differs],
              by simp [LfsBatchObjectResponse.withError], normal⟩
          · next same =>
            cases answers
            exact ⟨by simp [LfsBatchObjectResponse.new, there, within, not_not.mp same],
              by simp [LfsBatchObjectResponse.new], normal⟩

theorem mapM_each {α β ε : Type} {f : α → Except ε β} {xs : List α} {ys : List β}
    (maps : xs.mapM f = .ok ys) : List.Forall₂ (fun x y => f x = .ok y) xs ys := by
  induction xs generalizing ys with
  | nil =>
    cases maps
    exact .nil
  | cons x rest ih =>
    rw [List.mapM_cons] at maps
    rcases first : f x with error | y
    · simp [first, bind, Except.bind] at maps
    · rcases others : rest.mapM f with error | zs
      · simp [first, others, bind, Except.bind] at maps
      · simp only [first, others, bind, Except.bind, pure, Except.pure, Except.ok.injEq] at maps
        subst maps
        exact .cons first (ih others)

theorem batchResponseFor_offered {request : LfsBatchRequest} {objectsUrl : String}
    {authHeader : Option String} {maxObjectBytes : Nat} {response : LfsBatchResponse}
    (held : store.Holds bare)
    (answers : bare.batchResponseFor request objectsUrl authHeader maxObjectBytes = .ok response) :
    List.Forall₂ (Offered store request.operation maxObjectBytes) request.objects response.objects := by
  unfold BareRepo.batchResponseFor at answers
  simp only [bind, Except.bind, pure, Except.pure, throw, throwThe, MonadExceptOf.throw] at answers
  split at answers
  · cases answers
  · split at answers
    · cases answers
    · have each {upload : Bool}
          (asked : (upload = true ∧ request.operation = "upload") ∨
            (upload = false ∧ request.operation = "download"))
          (maps : request.objects.mapM
            (bare.batchObject upload objectsUrl (authHeader.map authActionHeader) maxObjectBytes) =
              .ok response.objects) :
          List.Forall₂ (Offered store request.operation maxObjectBytes) request.objects response.objects :=
        (mapM_each maps).imp fun _ _ answered => batchObject_offered held asked answered
      by_cases up : request.operation = "upload"
      · simp only [if_pos up] at answers
        cases maps : request.objects.mapM
          (bare.batchObject true objectsUrl (authHeader.map authActionHeader) maxObjectBytes) with
        | error error => simp [maps] at answers
        | ok objects =>
          simp only [maps, Except.ok.injEq] at answers
          subst answers
          exact each (.inl ⟨rfl, up⟩) maps
      · by_cases down : request.operation = "download"
        · simp only [if_neg up, if_pos down] at answers
          cases maps : request.objects.mapM
            (bare.batchObject false objectsUrl (authHeader.map authActionHeader) maxObjectBytes) with
          | error error => simp [maps] at answers
          | ok objects =>
            simp only [maps, Except.ok.injEq] at answers
            subst answers
            exact each (.inr ⟨rfl, down⟩) maps
        · simp [if_neg up, if_neg down] at answers

/-- The store is content-addressed, and a batch answer says what it holds. -/
theorem lfs_store_addressed {sha256Hex : List UInt8 → String} (injective : Function.Injective sha256Hex)
    (reached : LfsFiles.Reachable sha256Hex store) :
    store.Addressed sha256Hex ∧
      ∀ bare request objectsUrl authHeader maxObjectBytes response, store.Holds bare →
        bare.batchResponseFor request objectsUrl authHeader maxObjectBytes = .ok response →
          List.Forall₂ (Offered store request.operation maxObjectBytes) request.objects response.objects := by
  refine ⟨(reached.sound injective).addressed, ?_⟩
  intro bare request objectsUrl authHeader maxObjectBytes response held answers
  exact batchResponseFor_offered held answers

end Batch

namespace LfsDemo

def digest : List UInt8 → String := sha256Hex RegistryDemo.sha256

def bytes : List UInt8 := List.replicate 31 7

def oid : String := digest bytes

def put (file : Option (TempName × Nat)) (read : List UInt8) (phase : PutPhase) : LfsPut :=
  ⟨1, oid, some 31, 100, file, read, false, phase⟩

def file : Option (TempName × Nat) := some (⟨oid, 1, 5, 0⟩, 0)

theorem entered : LfsPut.enter 1 oid (some 31) 100 = put none [] .preparing := by
  have normal : normalizeOid oid = .ok oid := by decide +kernel
  simp [LfsPut.enter, normal, put]

theorem judged : (put file bytes .copying).judged digest = put file bytes .checked := by
  have well : (put file bytes .copying).verdict digest = .ok () := by decide +kernel
  unfold LfsPut.judged
  rw [well]
  rfl

/-- One upload, from its first step to its last. -/
theorem uploaded : ∃ store, LfsFiles.Reachable digest store ∧ store.object oid = some bytes ∧
    store.puts 0 = some (put file bytes (.returned (.ok 31))) := by
  have started := LfsFiles.Reachable.step .start (@LfsFiles.Step.startProcess digest _ 1 rfl)
  have enters := started.step (@LfsFiles.Step.enter digest _ 0 1 oid (some 31) 100 rfl (by simp))
  rw [entered] at enters
  have dirs := enters.step (@LfsFiles.Step.createDir digest _ 0 _ true rfl rfl)
  have opens := dirs.step (@LfsFiles.Step.opened digest _ 0 5 0 63 _ rfl rfl rfl rfl)
  have copies := opens.step
    (@LfsFiles.Step.copied digest _ 0 0 31 _ _ bytes rfl rfl (by decide) (by decide) (by decide +kernel) rfl)
  have reads := copies.step (@LfsFiles.Step.readAll digest _ 0 (put file bytes .copying) true rfl rfl)
  rw [if_pos rfl, judged] at reads
  have looks := reads.step (@LfsFiles.Step.looked digest _ 0 _ false rfl rfl (by simp))
  have renames := looks.step (@LfsFiles.Step.renamed digest _ 0 0 0 _ _ rfl rfl rfl rfl)
  have answers := renames.step (@LfsFiles.Step.synced digest _ 0 _ true rfl rfl)
  exact ⟨_, answers, rfl, rfl⟩

end LfsDemo

theorem lfs_store_addressed_demo :
    ∃ store : LfsFiles, store.object LfsDemo.oid = some LfsDemo.bytes ∧
      store.puts 0 = some (LfsDemo.put LfsDemo.file LfsDemo.bytes (.returned (.ok 31))) ∧
      store.Addressed LfsDemo.digest := by
  obtain ⟨store, reached, object, answered⟩ := LfsDemo.uploaded
  have addressed := (lfs_store_addressed RegistryDemo.digest.hex_injective reached).1
  exact ⟨store, object, answered, addressed⟩

end Jeryu.Gitd
