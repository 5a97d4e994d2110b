import Jeryu.Gitd.Pack

/-!
Who moves the trunk. A push moves the ref its command's name comes to, whatever the name; the ref
service puts the ref that moves to the rules.
-/

namespace Jeryu.Gitd

open KeyedMap Text

namespace BareRepo

/-- The object a name comes to. -/
def oidAt (bare : BareRepo) (name : String) : Option String := (bare.finalRef name).bind bare.valueAt

/-- Another name of the trunk. -/
def Aliased (bare : BareRepo) (name : String) : Prop :=
  name ≠ MAIN_REF ∧ ∃ trunk, bare.finalRef MAIN_REF = some trunk ∧ bare.finalRef name = some trunk

end BareRepo

/-- What a ref set to this object points at. -/
def asked (oid : String) : Option String := if isZeroOid oid then none else some oid

section Refs

variable {bare : BareRepo} {name other final oid : String}

theorem follow_direct {depth : Nat} (comes : bare.follow depth name = some final) :
    bare.isSymbolic final = false := by
  induction depth generalizing name with
  | zero => cases comes
  | succ depth ih =>
    unfold BareRepo.follow at comes
    split at comes
    · exact ih comes
    · next direct =>
      cases comes
      unfold BareRepo.isSymbolic
      split
      · next target symbolic => exact absurd symbolic (direct target)
      · rfl

theorem lookup_point : (bare.point final oid).refs.lookup other =
    if other = final then (asked oid).map RefTarget.oid else bare.refs.lookup other := by
  unfold BareRepo.point asked
  by_cases zero : isZeroOid oid = true
  · simp [zero, HashMap.lookup_erase_if]
  · simp [zero, HashMap.lookup_insert_if]

theorem follow_of_direct {depth : Nat} (direct : bare.isSymbolic name = false) :
    bare.follow (depth + 1) name = some name := by
  unfold BareRepo.isSymbolic at direct
  unfold BareRepo.follow
  split at direct
  · cases direct
  · rfl

/-- Setting a direct ref leaves every chain of symbolic refs as it is. -/
theorem follow_point {depth : Nat} (direct : bare.isSymbolic final = false) :
    (bare.point final oid).follow depth name = bare.follow depth name := by
  induction depth generalizing name with
  | zero => rfl
  | succ depth ih =>
    by_cases same : name = final
    · subst same
      have still : (bare.point name oid).isSymbolic name = false := by
        unfold BareRepo.isSymbolic
        rw [lookup_point, if_pos rfl]
        cases asked oid <;> rfl
      rw [follow_of_direct still, follow_of_direct direct]
    · unfold BareRepo.follow
      rw [lookup_point, if_neg same]
      split
      · exact ih
      · rfl

theorem valueAt_point : (bare.point final oid).valueAt other =
    if other = final then asked oid else bare.valueAt other := by
  unfold BareRepo.valueAt
  rw [lookup_point]
  by_cases same : other = final
  · rw [if_pos same, if_pos same]
    cases asked oid <;> rfl
  · rw [if_neg same, if_neg same]

theorem oidAt_point (direct : bare.isSymbolic final = false) :
    (bare.point final oid).oidAt other =
      if bare.finalRef other = some final then asked oid else bare.oidAt other := by
  unfold BareRepo.oidAt
  have same : (bare.point final oid).finalRef other = bare.finalRef other := follow_point direct
  rw [same]
  cases comes : bare.finalRef other with
  | none => simp
  | some ends =>
    simp only [Option.bind_some, Option.some.injEq]
    exact valueAt_point

end Refs

section Pushes

variable {bare : BareRepo} {command : ReceivePackCommand} {commands accepted : List ReceivePackCommand}

theorem finalRef_take {name : String} : (bare.take command).finalRef name = bare.finalRef name := by
  unfold BareRepo.take
  cases comes : bare.finalRef command.refName with
  | none => rfl
  | some final => exact follow_point (follow_direct comes)

/-- A command moves the trunk when its name comes to it. -/
theorem oidAt_take : (bare.take command).oidAt MAIN_REF =
    if ∃ trunk, bare.finalRef MAIN_REF = some trunk ∧ bare.finalRef command.refName = some trunk then
      asked command.newOid
    else bare.oidAt MAIN_REF := by
  unfold BareRepo.take
  cases comes : bare.finalRef command.refName with
  | none => simp
  | some final =>
    dsimp only
    rw [oidAt_point (follow_direct comes)]
    by_cases same : bare.finalRef MAIN_REF = some final
    · simp [same]
    · rw [if_neg same, if_neg]
      rintro ⟨trunk, main, ends⟩
      exact same (main.trans ends.symm)

/-- Commands that leave the trunk or set it to what it is leave it, in any number. -/
theorem oidAt_receivePack (still : ∀ command ∈ accepted,
      (∃ trunk, bare.finalRef MAIN_REF = some trunk ∧ bare.finalRef command.refName = some trunk) →
        asked command.newOid = bare.oidAt MAIN_REF) :
    (bare.receivePack accepted).oidAt MAIN_REF = bare.oidAt MAIN_REF := by
  induction accepted generalizing bare with
  | nil => rfl
  | cons command rest ih =>
    have first : (bare.take command).oidAt MAIN_REF = bare.oidAt MAIN_REF := by
      rw [oidAt_take]
      split
      · next reaches => exact still command List.mem_cons_self reaches
      · rfl
    refine Eq.trans (ih fun other member reaches => ?_) first
    simp only [finalRef_take] at reaches
    rw [first]
    exact still other (List.mem_cons_of_mem _ member) reaches

end Pushes

section Service

variable {git : Git} {service : RefService} {id : RepoId} {bare bare' : BareRepo}
variable {actor name newOid : String} {oldOid : Option String}

theorem bind_ok {ε α β : Type} {first : Except ε α} {next : α → Except ε β} {value : β}
    (done : (first >>= next) = .ok value) : ∃ found, first = .ok found ∧ next found = .ok value := by
  cases first with
  | error error => cases done
  | ok found => exact ⟨found, rfl, done⟩

theorem evaluateAll_ok {rules : List ProtectedRefRule} {change : RefChange} :
    ProtectedRefRule.evaluateAll rules change = .ok () ↔
      ∀ rule ∈ rules, rule.evaluate change = .ok () := by
  induction rules with
  | nil => simp [ProtectedRefRule.evaluateAll]
  | cons rule rest ih =>
    unfold ProtectedRefRule.evaluateAll
    cases decided : rule.evaluate change with
    | error error => simp [bind, Except.bind, decided]
    | ok done => simpa [bind, Except.bind, decided] using ih

theorem updateRef_moves {final : String} (moved : bare.updateRef git name newOid (oldOid.getD ZERO_OID) =
      .ok bare') (comes : bare.finalRef name = some final) : bare' = bare.point final newOid := by
  unfold BareRepo.updateRef at moved
  rw [comes] at moved
  dsimp only at moved
  split at moved
  · exact (Except.ok.inj moved).symm
  · cases moved

/-- The rules have allowed the change of the ref the trunk comes to. -/
def RefService.Allowed (service : RefService) (bare bare' : BareRepo) (actor : String) : Prop :=
  ∃ change : RefChange, bare.finalRef MAIN_REF = some change.refName ∧ change.actor = actor ∧
    bare'.oidAt MAIN_REF = asked change.newOid ∧
    ∀ rule ∈ service.protectedRefs, rule.evaluate change = .ok ()

/-- The trunk has a name that reads the same without what stands around it. -/
def BareRepo.TrunkPlain (bare : BareRepo) : Prop :=
  ∀ trunk, bare.finalRef MAIN_REF = some trunk → trim trunk = trunk ∧ trunk ≠ ""

/-- Where the ref service stops following. -/
theorem resolveFrom_ok {asked current resolved : String} {hops : Nat}
    (resolves : resolveFrom git bare asked hops current = .ok resolved) :
    bare.symbolicRef resolved = none ∨ ∃ target, bare.symbolicRef resolved = some target ∧
      (trim target = "" ∨ trim target = resolved) := by
  induction hops generalizing current with
  | zero => cases resolves
  | succ hops ih =>
    unfold resolveFrom at resolves
    split at resolves
    · next direct =>
      cases resolves
      exact .inl direct
    · next target symbolic =>
      split at resolves
      · next stops =>
        cases resolves
        exact .inr ⟨target, symbolic, by simpa using stops⟩
      · obtain ⟨-, -, goesOn⟩ := bind_ok resolves
        exact ih goesOn

theorem resolved_trunk {resolved trunk : String} (plain : bare.TrunkPlain)
    (resolves : resolveSymbolicRef git bare name = .ok resolved)
    (main : bare.finalRef MAIN_REF = some trunk) (comes : bare.finalRef resolved = some trunk) :
    resolved = trunk := by
  obtain ⟨same, named⟩ := plain trunk main
  by_cases symbolic : bare.isSymbolic resolved = true
  · have target : bare.symbolicRef resolved = some trunk := by
      unfold BareRepo.symbolicRef
      rw [if_pos symbolic, comes]
    rcases resolveFrom_ok resolves with direct | ⟨target', ends, blank | still⟩
    · rw [target] at direct
      cases direct
    · cases target.symm.trans ends
      exact absurd (same.symm.trans blank) named
    · cases target.symm.trans ends
      exact still.symm.trans same
  · have direct : bare.finalRef resolved = some resolved :=
      follow_of_direct (Bool.eq_false_iff.mpr symbolic)
    exact Option.some.inj (direct.symm.trans comes)

theorem change_ok {change : RefChange} (asks : service.change bare actor name newOid oldOid = .ok change) :
    change.actor = actor ∧ change.refName = name ∧ change.newOid = newOid ∧
      change.oldOid = oldOid.getD ZERO_OID := by
  obtain ⟨force, -, same⟩ := bind_ok asks
  cases same
  exact ⟨rfl, rfl, rfl, rfl⟩

/-- The ref service moves the trunk only once its rules have allowed it. -/
theorem updateRef_trunk (plain : bare.TrunkPlain) (updates : service.updateRef id bare actor name newOid oldOid = .ok bare')
    (moved : bare'.oidAt MAIN_REF ≠ bare.oidAt MAIN_REF) : service.Allowed bare bare' actor := by
  obtain ⟨-, -, updates⟩ := bind_ok updates
  obtain ⟨-, -, updates⟩ := bind_ok updates
  obtain ⟨resolved, resolves, updates⟩ := bind_ok updates
  obtain ⟨change, asks, updates⟩ := bind_ok updates
  obtain ⟨⟨⟩, allowed, updates⟩ := bind_ok updates
  obtain ⟨sameActor, sameName, sameOid, -⟩ := change_ok asks
  cases comes : bare.finalRef resolved with
  | none =>
    unfold BareRepo.updateRef at updates
    rw [comes] at updates
    cases updates
  | some final =>
    cases updateRef_moves updates comes
    have after := @oidAt_point bare MAIN_REF final newOid (follow_direct comes)
    by_cases main : bare.finalRef MAIN_REF = some final
    · rw [if_pos main] at after
      refine ⟨change, ?_, sameActor, by rw [after, sameOid], evaluateAll_ok.mp allowed⟩
      rw [sameName, resolved_trunk plain resolves main comes]
      exact main
    · rw [if_neg main] at after
      exact absurd after moved

/-- A merge moves the base through the ref service. -/
theorem mergePull_updates {baseRef baseOid headOid message mergeOid : String} {requireFastForward : Bool}
    {fastForward : Bool} (merges : service.mergePull id bare actor baseRef baseOid headOid message
      requireFastForward = .ok (bare', mergeOid, fastForward)) :
    ∃ objects, service.updateRef id { bare with objects } actor baseRef mergeOid (some baseOid) =
      .ok bare' := by
  unfold RefService.mergePull at merges
  obtain ⟨-, -, merges⟩ := bind_ok merges
  obtain ⟨-, -, merges⟩ := bind_ok merges
  split at merges
  · cases merges
  · obtain ⟨-, -, merges⟩ := bind_ok merges
    obtain ⟨-, -, merges⟩ := bind_ok merges
    obtain ⟨isAncestor, -, merges⟩ := bind_ok merges
    split at merges
    · cases merges
    · obtain ⟨⟨made, forward⟩, -, merges⟩ := bind_ok merges
      obtain ⟨updated, updates, merges⟩ := bind_ok merges
      cases merges
      cases fastForward with
      | true => exact ⟨bare.objects, updates⟩
      | false => exact ⟨_, updates⟩

/-- A request body the prelude's policy takes, and its commands, whose lines the guard takes. -/
structure Pushed (guard : PreReceiveGuard) (id : RepoId) (bare : BareRepo) (actor : String)
    (body : List UInt8) (commands : List ReceivePackCommand) : Prop where
  policy : ensureReceivePackPolicy body = .ok ()
  parsed : receivePackCommands body = .ok commands
  guarded : (guard.evaluateLines id bare actor (hookInput commands)).isOk = true

/-- A push leaves the trunk, whichever of its commands `git` accepts, if and only if no other name
    of the trunk is set to anything but what the trunk is. Otherwise the trunk moves where the ref
    service's rules have allowed it. -/
theorem trunk_moves {guard : PreReceiveGuard} {body : List UInt8} {commands : List ReceivePackCommand}
    (pushed : Pushed guard id bare actor body commands) :
    ((∀ accepted, accepted.Sublist commands →
        (bare.receivePack accepted).oidAt MAIN_REF = bare.oidAt MAIN_REF) ↔
      ∀ command ∈ commands, bare.Aliased command.refName →
        asked command.newOid = bare.oidAt MAIN_REF) ∧
    (bare.TrunkPlain →
      (∀ service : RefService, ∀ id' actor' name newOid oldOid bare',
        service.updateRef id' bare actor' name newOid oldOid = .ok bare' →
        bare'.oidAt MAIN_REF ≠ bare.oidAt MAIN_REF → service.Allowed bare bare' actor') ∧
      ∀ service : RefService, ∀ id' actor' baseRef baseOid headOid message requireFastForward bare'
        mergeOid fastForward, service.mergePull id' bare actor' baseRef baseOid headOid message
          requireFastForward = .ok (bare', mergeOid, fastForward) →
        bare'.oidAt MAIN_REF ≠ bare.oidAt MAIN_REF → service.Allowed bare bare' actor') := by
  refine ⟨⟨fun still command member aliased => ?_, fun still accepted sub => ?_⟩, fun plain => ⟨?_, ?_⟩⟩
  · obtain ⟨-, trunk, main, comes⟩ := aliased
    have alone := still [command] (List.singleton_sublist.mpr member)
    have moved : (bare.receivePack [command]).oidAt MAIN_REF = asked command.newOid := by
      show (bare.take command).oidAt MAIN_REF = _
      rw [oidAt_take, if_pos ⟨trunk, main, comes⟩]
    exact moved.symm.trans alone
  · obtain ⟨commands', parsed, off⟩ := ensureReceivePackPolicy_ok pushed.policy
    cases pushed.parsed.symm.trans parsed
    refine oidAt_receivePack fun command member reaches => ?_
    have named := sub.subset member
    exact still command named ⟨off command named, reaches⟩
  · exact fun service id' actor' name newOid oldOid bare' updates moved =>
      updateRef_trunk plain updates moved
  · intro service id' actor' baseRef baseOid headOid message requireFastForward bare' mergeOid
      fastForward merges moved
    obtain ⟨objects, updates⟩ := mergePull_updates merges
    exact @updateRef_trunk service id' { bare with objects } bare' actor' baseRef mergeOid _ plain updates moved

end Service

section Demo

def oldTrunk : String := "1111111111111111111111111111111111111111"

def newTrunk : String := "2222222222222222222222222222222222222222"

/-- A trunk, and a branch that is another name of it. -/
def aliased : BareRepo where
  refs := ((∅ : HashMap String RefTarget).insert MAIN_REF (.oid oldTrunk)).insert "refs/heads/alias"
    (.symbolic MAIN_REF)
  objects := [oldTrunk, newTrunk]
  lfsObjects := ∅
  archived := false
  preReceive := true

/-- `git` where the new object descends from the old one. -/
def fastForwards : Git where
  checkRefFormat _ := true
  isAncestor _ _ _ := .ok true
  verifyCommit _ _ := .ok ()
  mergeTree _ _ _ := .error (.mergeConflict "")
  commitTree _ _ _ _ _ := .error (.mergeConflict "")
  rejectOversizedRawBlobs _ _ := .ok ()
  pointsAt bare _ oid := bare.objects.contains oid

def defaultGuard : PreReceiveGuard := ⟨fastForwards, ProtectedRefRule.defaultPhase1Rules⟩

def demoId : RepoId := ⟨"acme", "demo"⟩

def moveAlias : ReceivePackCommand := ⟨oldTrunk, newTrunk, "refs/heads/alias"⟩

def moveAliasBody : List UInt8 :=
  ("0075" ++ oldTrunk ++ " " ++ newTrunk ++ " refs/heads/alias\x00 report-status0000").toUTF8.toList

theorem moveAlias_parsed : receivePackCommands moveAliasBody = .ok [moveAlias] := by decide +kernel

theorem moveAlias_policy : ensureReceivePackPolicy moveAliasBody = .ok () := by
  unfold ensureReceivePackPolicy
  rw [moveAlias_parsed]
  decide

theorem moveAlias_guarded :
    (defaultGuard.evaluateLines demoId aliased "mallory" (hookInput [moveAlias])).isOk = true := by
  decide +kernel

theorem moveAlias_pushed :
    Pushed defaultGuard demoId aliased "mallory" moveAliasBody [moveAlias] :=
  ⟨moveAlias_policy, moveAlias_parsed, moveAlias_guarded⟩

/-- Everything lets the push through, and it moves the trunk. -/
theorem pushed_alias_moves_trunk : ∃ guard id bare actor body commands,
    Pushed guard id bare actor body commands ∧
    (bare.receivePack commands).oidAt MAIN_REF ≠ bare.oidAt MAIN_REF :=
  ⟨defaultGuard, demoId, aliased, "mallory", moveAliasBody, [moveAlias], moveAlias_pushed,
    by decide +kernel⟩

theorem moveAlias_trunk : ∃ bare, bare = aliased ∧
    ¬∀ command ∈ [moveAlias], bare.Aliased command.refName →
      asked command.newOid = bare.oidAt MAIN_REF := by
  refine ⟨aliased, rfl, fun same => ?_⟩
  have still := (trunk_moves moveAlias_pushed).1.mpr same [moveAlias] (List.Sublist.refl _)
  revert still
  decide +kernel

end Demo

end Jeryu.Gitd
