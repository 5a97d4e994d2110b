import Jeryu.Gitd.Trunk
import Jeryu.Library.LastSection

/-!
Server-side ref updates and merges, one `git` process after the other, while other writers move the
refs between them and any of the processes may fail.
-/

namespace Jeryu.Gitd

open KeyedMap Text LockProgram

/-- How a process or a file of a call turns out: as it should, with a failure of its own, or not
    even started. -/
inductive Fault where
  | none
  | fails
  | io
  deriving DecidableEq

/-- What a call runs and writes, apart from the refs themselves. -/
inductive GitStep where
  | checkBase
  | verifyBase
  | verifyHead
  | mergeBase
  | mergeTree
  | commitTree
  | checkName
  | symbolicRef (hops : Nat)
  | checkTarget (hops : Nat)
  | forceBase
  | updateRef
  | pushMarker
  deriving DecidableEq

abbrev Faults := GitStep → Fault

/-- `git` over objects that are named by what they hold. -/
structure ObjectGit extends Git where
  parents : String → List String
  descends : String → String → Bool
  ancestor : ∀ bare base head, isAncestor bare base head = .ok (descends base head)
  committed : ∀ bare tree base head message oid,
    commitTree bare tree base head message = .ok oid → parents oid = [base, head] ∧ isZeroOid oid = false
  acyclic : ∀ oid base head, parents oid = [base, head] → oid ≠ base

/-- The repository, and the refs that merges have moved with the object each was moved from, which
    no call looks at. -/
structure Served where
  bare : BareRepo
  moved : List (String × String)

structure MergeOutcome where
  mergeOid : String
  fastForward : Bool
  deriving DecidableEq

structure RefUpdate where
  actor : String
  name : String
  newOid : String
  oldOid : Option String
  faults : Faults

structure PullMerge where
  actor : String
  baseRef : String
  baseOid : String
  headOid : String
  message : String
  requireFastForward : Bool
  faults : Faults

abbrev Process (α : Type) := ExceptT GitdError (Program Served) α

/-- A process that only looks at the repository. -/
def look {α : Type} (fault : Fault) (failed : Except GitdError α) (answer : BareRepo → Except GitdError α) :
    Process α :=
  match fault with
  | .none => ExceptT.mk (.read fun s => .done (answer s.bare))
  | .fails => ExceptT.mk (.done failed)
  | .io => throw .io

def refuse (when : Bool) (error : GitdError) : Process Unit :=
  if when then throw error else pure ()

/-- `validate_ref_name`; `git check-ref-format` comes last. -/
def validateName (git : Git) (fault : Fault) (name : String) : Process Unit :=
  match fault with
  | .none => ExceptT.mk (.done (validateRefName git name))
  | .fails => ExceptT.mk (.done (validateRefName { git with checkRefFormat := fun _ => false } name))
  | .io =>
    ExceptT.mk (.done ((validateRefName { git with checkRefFormat := fun _ => false } name).mapError fun error =>
      if error = .gitCommandFailed "git check-ref-format" then .io else error))

/-- The name to go on with, unless the chain ends. -/
def nextHop (current : String) (found : Option String) : Option String :=
  (found.map trim).filter fun target => !(target = "" || target = current)

/-- `git symbolic-ref`, hop by hop. A process that fails is taken for the end of the chain. -/
def resolveHops (git : Git) (faults : Faults) (asked : String) : Nat → String → Process String
  | 0, _ => throw (.invalidInput s!"symbolic ref {asked} does not resolve to a direct ref")
  | hops + 1, current => do
    let found ← look (faults (.symbolicRef hops)) (.ok none) fun bare => .ok (bare.symbolicRef current)
    match nextHop current found with
    | none => return current
    | some target =>
      validateName git (faults (.checkTarget hops)) target
      resolveHops git faults asked hops target

/-- `git` whose `merge-base` turns out so. A failure of it reads as "no ancestor". -/
def Git.withAncestry (git : Git) (fault : Fault) : Git :=
  match fault with
  | .none => git
  | .fails => { git with isAncestor := fun _ _ _ => .ok false }
  | .io => { git with isAncestor := fun _ _ _ => .error .io }

namespace Served

/-- After `git update-ref`. -/
def swapped (git : Git) (name newOid oldOid : String) (merging : Bool) (s : Served) : Served :=
  match s.bare.updateRef git name newOid oldOid with
  | .ok bare =>
    let entry := ((s.bare.finalRef name).getD name, oldOid)
    ⟨bare, if merging && newOid ≠ oldOid then entry :: s.moved else s.moved⟩
  | .error _ => s

/-- After `git commit-tree`. -/
def committed (made : Except GitdError String) (s : Served) : Served :=
  match made with
  | .ok oid => { s with bare := { s.bare with objects := oid :: s.bare.objects } }
  | .error _ => s

end Served

/-- `git update-ref`, and the marker and the receipt of the push, which come after the swap. -/
def swap (git : Git) (faults : Faults) (name newOid oldOid : String) (merging : Bool) : Process Unit :=
  match faults .updateRef with
  | .io => throw .io
  | .fails => throw (.gitCommandFailed "git update-ref")
  | .none =>
    ExceptT.mk (.write (Served.swapped git name newOid oldOid merging) fun s =>
      .done (match s.bare.updateRef git name newOid oldOid with
        | .ok _ => if faults .pushMarker = .none then .ok () else .error .io
        | .error error => .error error))

def commit (git : Git) (fault : Fault) (tree base head message : String) : Process String :=
  match fault with
  | .io => throw .io
  | .fails => throw (.gitCommandFailed "git commit-tree")
  | .none =>
    ExceptT.mk (.write (fun s => s.committed (git.commitTree s.bare tree base head message)) fun s =>
      .done (git.commitTree s.bare tree base head message))

/-- The ref service of a repository. -/
structure RefServer where
  git : ObjectGit
  protectedRefs : List ProtectedRefRule
  id : RepoId

namespace RefServer

variable (server : RefServer)

def service (fault : Fault) : RefService := ⟨server.git.toGit.withAncestry fault, server.protectedRefs⟩

def updateRef (actor name newOid : String) (oldOid : Option String) (faults : Faults) (merging : Bool) :
    Process Unit := do
  validateName server.git.toGit (faults .checkName) name
  look .none (.ok ()) fun bare => bare.ensureWritable server.id
  let resolved ← resolveHops server.git.toGit faults name MAX_SYMREF_DEPTH name
  let change ← look .none (.error .io) fun bare =>
    (server.service (faults .forceBase)).change bare actor resolved newOid oldOid
  ExceptT.mk (.done (ProtectedRefRule.evaluateAll server.protectedRefs change))
  swap server.git.toGit faults resolved newOid (oldOid.getD ZERO_OID) merging

def verify (fault : Fault) (oid : String) : Process Unit :=
  look fault (.error (.invalidInput s!"oid is not a commit in this repository: {oid}")) fun bare =>
    server.git.verifyCommit bare oid

/-- The object the base is to move to. -/
def mergedOid (merge : PullMerge) (fastForward : Bool) : Process String :=
  if fastForward then pure merge.headOid
  else do
    let tree ← look (merge.faults .mergeTree) (.error (.gitCommandFailed "git merge-tree")) fun bare =>
      server.git.mergeTree bare merge.baseOid merge.headOid
    commit server.git.toGit (merge.faults .commitTree) tree merge.baseOid merge.headOid merge.message

def mergePull (merge : PullMerge) : Process MergeOutcome := do
  validateName server.git.toGit (merge.faults .checkBase) merge.baseRef
  look .none (.ok ()) fun bare => bare.ensureWritable server.id
  refuse (isZeroOid merge.baseOid || isZeroOid merge.headOid) (.invalidInput "merge requires non-zero base and head oids")
  server.verify (merge.faults .verifyBase) merge.baseOid
  server.verify (merge.faults .verifyHead) merge.headOid
  let fastForward ← look .none (.ok false) fun bare =>
    (server.git.toGit.withAncestry (merge.faults .mergeBase)).isAncestor bare merge.baseOid merge.headOid
  refuse (merge.requireFastForward && !fastForward) .nonFastForwardRequired
  let mergeOid ← server.mergedOid merge fastForward
  server.updateRef merge.actor merge.baseRef mergeOid (some merge.baseOid) merge.faults true
  return ⟨mergeOid, fastForward⟩

end RefServer

inductive RefCall where
  | update (update : RefUpdate)
  | merge (merge : PullMerge)

namespace RefCall

abbrev Reply : RefCall → Type
  | update _ => Except GitdError Unit
  | merge _ => Except GitdError MergeOutcome

def faults : RefCall → Faults
  | update asked => asked.faults
  | merge asked => asked.faults

def Refused : (call : RefCall) → call.Reply → Prop
  | update _, reply => ∃ error, reply = .error error
  | merge _, reply => ∃ error, reply = .error error

def Accepted : (call : RefCall) → Option call.Reply → Prop
  | update _, reply => reply = some (.ok ())
  | merge _, reply => ∃ outcome, reply = some (.ok outcome)

end RefCall

def RefServer.program (server : RefServer) : (call : RefCall) → Program Served call.Reply
  | .update asked => (server.updateRef asked.actor asked.name asked.newOid asked.oldOid asked.faults false).run
  | .merge asked => (server.mergePull asked).run

/-- The refs read the same. -/
def SameRefs (bare bare' : BareRepo) : Prop := ∀ name, bare'.refs.lookup name = bare.refs.lookup name

/-- A name comes to another one by symbolic refs of repositories that are seen. -/
inductive Leads (seen : BareRepo → Prop) : String → String → Prop where
  | here (name : String) : Leads seen name name
  | hop {bare : BareRepo} {name target resolved : String} : seen bare → bare.symbolicRef name = some target →
      Leads seen (trim target) resolved → Leads seen name resolved

/-- The merge is what it is called. -/
structure Meant (git : ObjectGit) (merge : PullMerge) (outcome : MergeOutcome) : Prop where
  forward : outcome.fastForward = true → outcome.mergeOid = merge.headOid
  made : outcome.fastForward = false → git.parents outcome.mergeOid = [merge.baseOid, merge.headOid]
  descends : outcome.fastForward = true ↔ git.descends merge.baseOid merge.headOid = true
  linear : merge.requireFastForward = true → outcome.fastForward = true

/-- The swap of a direct ref that a name comes to; `merging` is for the record of merges. -/
def Swaps (git : Git) (seen : BareRepo → Prop) (name oldOid newOid : String) (merging : Bool) (s s' : Served) : Prop :=
  ∃ resolved final bare, Leads seen name resolved ∧ s.bare.finalRef resolved = some final ∧
    s.bare.updateRef git resolved newOid oldOid = .ok bare ∧
    s' = ⟨bare, if merging && newOid ≠ oldOid then (final, oldOid) :: s.moved else s.moved⟩

def Quiet (s s' : Served) : Prop := SameRefs s.bare s'.bare ∧ s'.moved = s.moved

section Sections

variable {seen : BareRepo → Prop} {α : Type} {R : Served → Served → Option (Except GitdError α) → Prop}

theorem quiet_refl (s : Served) : Quiet s s := ⟨fun _ => rfl, rfl⟩

theorem look_meets {fault : Fault} {failed : Except GitdError α} {answer : BareRepo → Except GitdError α}
    {answers : α → Prop} (fails : fault = .fails → ∀ a, failed = .ok a → answers a)
    (found : fault = .none → ∀ bare, seen bare → ∀ a, answer bare = .ok a → answers a) :
    (look fault failed answer).run.Meets (fun s => seen s.bare) R fun result => ∀ a, result = .ok a → answers a := by
  cases fault with
  | none => exact fun s here => found rfl s.bare here
  | fails => exact fails rfl
  | io => exact fun a same => (nomatch same)

theorem bind_meets {β : Type} {R : Served → Served → Option (Except GitdError β) → Prop}
    {Q : Except GitdError β → Prop} (errors : ∀ error, Q (.error error)) {answers : α → Prop} {p : Process α}
    {f : α → Process β} (first : p.run.Meets (fun s => seen s.bare) (fun s s' _ => ∀ reply, R s s' reply)
      fun result => ∀ a, result = .ok a → answers a)
    (rest : ∀ a, answers a → (f a).run.Meets (fun s => seen s.bare) R Q) :
    (p >>= f).run.Meets (fun s => seen s.bare) R Q := by
  apply Program.Meets.bind_run _ rest
  exact first.mono (fun _ here => here) (fun _ _ _ _ keeps => keeps) fun result answered =>
    ⟨fun error _ => errors error, answered⟩

theorem nextHop_some {current target : String} {found : Option String} (goesOn : nextHop current found = some target) :
    ∃ named, found = some named ∧ trim named = target :=
  Option.map_eq_some_iff.mp (Option.filter_eq_some_iff.mp goesOn).1

theorem resolveHops_meets {R : Served → Served → Option (Except GitdError String) → Prop} (git : Git) (faults : Faults)
    (asked : String) (hops : Nat) (current : String) :
    (resolveHops git faults asked hops current).run.Meets (fun s => seen s.bare) R
      fun result => ∀ resolved, result = .ok resolved → Leads seen current resolved := by
  have errors (current : String) : ∀ error, ∀ resolved, (.error error : Except GitdError String) = .ok resolved →
      Leads seen current resolved := fun _ _ same => (nomatch same)
  induction hops generalizing current with
  | zero => exact errors current _
  | succ hops ih =>
    have here : ∀ resolved, (.ok current : Except GitdError String) = .ok resolved → Leads seen current resolved := by
      intro resolved same
      cases same
      exact .here current
    have first : (look (faults (.symbolicRef hops)) (.ok none) fun bare => .ok (bare.symbolicRef current)).run.Meets
        (fun s => seen s.bare) (fun s s' _ => ∀ reply, R s s' reply) fun result => ∀ found, result = .ok found →
          ∀ target, found = some target → ∃ bare, seen bare ∧ bare.symbolicRef current = some target := by
      apply look_meets
      · intro _ found same target some_
        cases same
        cases some_
      · intro _ bare there found same target some_
        cases same
        exact ⟨bare, there, some_⟩
    apply bind_meets (errors current) first
    intro found hop
    cases goesOn : nextHop current found with
    | none => exact here
    | some target =>
      obtain ⟨named, some_, rfl⟩ := nextHop_some goesOn
      obtain ⟨bare, there, symbolic⟩ := hop named some_
      have checked : (validateName git (faults (.checkTarget hops)) (trim named)).run.Meets (fun s => seen s.bare)
          (fun s s' _ => ∀ reply, R s s' reply) fun result => ∀ a, result = .ok a → True := by
        cases faults (.checkTarget hops) <;> exact fun _ _ => True.intro
      apply bind_meets (errors current) checked
      intro _ _
      refine (ih (trim named)).mono (fun _ here => here) (fun _ _ _ _ keeps => keeps) fun result leads => ?_
      exact fun resolved same => .hop there symbolic (leads resolved same)

theorem bind_answersBy {β : Type} {P : Except GitdError β → Prop} {A : Served → Served → Except GitdError β → Prop}
    (errors : ∀ error, ¬P (.error error)) {answers : α → Prop} {p : Process α} {f : α → Process β}
    (first : p.run.Meets (fun s => seen s.bare) (fun _ _ _ => True) fun result => ∀ a, result = .ok a → answers a)
    (rest : ∀ a, answers a → (f a).run.AnswersBy (fun s => seen s.bare) P A) :
    (p >>= f).run.AnswersBy (fun s => seen s.bare) P A :=
  .bind_run errors first rest

/-- What comes without a section. -/
theorem done_meets {R : Served → Served → Option (Except GitdError α) → Prop} {result : Except GitdError α}
    {answers : α → Prop} (answered : ∀ a, result = .ok a → answers a) :
    (ExceptT.mk (.done result) : Process α).run.Meets (fun s => seen s.bare) R
      fun result => ∀ a, result = .ok a → answers a :=
  answered

variable {git : Git} {faults : Faults} {asked name newOid oldOid : String} {merging : Bool}

theorem validateName_quiet {R : Served → Served → Option (Except GitdError Unit) → Prop} {fault : Fault} :
    (validateName git fault name).run.Meets (fun s => seen s.bare) R fun result => ∀ a, result = .ok a → True := by
  cases fault <;> exact fun _ _ => True.intro

theorem swap_meets (leads : Leads seen asked name) :
    (swap git faults name newOid oldOid merging).run.Meets (fun s => seen s.bare)
      (fun s s' reply => Quiet s s' ∨ Swaps git seen asked oldOid newOid merging s s' ∧
        (faults .pushMarker = .none → reply = some (.ok ()))) fun _ => True := by
  unfold swap
  cases faults .updateRef with
  | io => exact True.intro
  | fails => exact True.intro
  | none =>
    intro s _
    refine ⟨?_, True.intro⟩
    cases moved : s.bare.updateRef git name newOid oldOid with
    | error error =>
      left
      rw [Served.swapped, moved]
      exact quiet_refl s
    | ok bare =>
      right
      refine ⟨?_, fun marked => ?_⟩
      · cases comes : s.bare.finalRef name with
        | none =>
          unfold BareRepo.updateRef at moved
          rw [comes] at moved
          cases moved
        | some final =>
          refine ⟨name, final, bare, leads, comes, moved, ?_⟩
          rw [Served.swapped, moved, comes]
          rfl
      · simp only [Program.reply, moved, if_pos marked]

theorem swap_answersBy (leads : Leads seen asked name) :
    (swap git faults name newOid oldOid merging).run.AnswersBy (fun s => seen s.bare) (fun result => result = .ok ())
      fun s s' _ => Swaps git seen asked oldOid newOid merging s s' := by
  unfold swap
  cases faults .updateRef with
  | io => exact fun ok => (nomatch ok)
  | fails => exact fun ok => (nomatch ok)
  | none =>
    intro s _
    cases moved : s.bare.updateRef git name newOid oldOid with
    | error error =>
      right
      have refused : ¬(.error error : Except GitdError Unit) = .ok () := fun same => (nomatch same)
      simpa only [Program.AnswersBy, moved] using refused
    | ok bare =>
      refine .inl ⟨_, rfl, ?_⟩
      cases comes : s.bare.finalRef name with
      | none =>
        unfold BareRepo.updateRef at moved
        rw [comes] at moved
        cases moved
      | some final =>
        refine ⟨name, final, bare, leads, comes, moved, ?_⟩
        rw [Served.swapped, moved, comes]
        rfl

variable {server : RefServer} {actor : String} {old : Option String}

theorem change_looks {R : Served → Served → Option (Except GitdError RefChange) → Prop} (service : RefService) :
    (look .none (.error .io) fun bare => service.change bare actor name newOid old).run.Meets
      (fun s => seen s.bare) R fun result => ∀ a, result = .ok a → True :=
  look_meets (fun fails => (nomatch fails)) fun _ _ _ _ _ => True.intro

theorem writable_looks {R : Served → Served → Option (Except GitdError Unit) → Prop} (id : RepoId) :
    (look .none (.ok ()) fun bare => bare.ensureWritable id).run.Meets (fun s => seen s.bare) R
      fun result => ∀ a, result = .ok a → True :=
  look_meets (fun fails => (nomatch fails)) fun _ _ _ _ _ => True.intro

theorem updateRef_meets : (server.updateRef actor name newOid old faults merging).run.Meets (fun s => seen s.bare)
    (fun s s' reply => Quiet s s' ∨ Swaps server.git.toGit seen name (old.getD ZERO_OID) newOid merging s s' ∧
      (faults .pushMarker = .none → reply = some (.ok ()))) fun _ => True := by
  have errors : ∀ error : GitdError, (fun _ => True) (.error error : Except GitdError Unit) := fun _ => True.intro
  apply bind_meets errors validateName_quiet
  intro _ _
  apply bind_meets errors (writable_looks server.id)
  intro _ _
  apply bind_meets errors (resolveHops_meets server.git.toGit faults name MAX_SYMREF_DEPTH name)
  intro resolved leads
  apply bind_meets errors (change_looks _)
  intro change _
  apply bind_meets errors (done_meets fun _ _ => True.intro)
  intro _ _
  exact swap_meets leads

theorem updateRef_answersBy : (server.updateRef actor name newOid old faults merging).run.AnswersBy
    (fun s => seen s.bare) (fun result => result = .ok ())
    fun s s' _ => Swaps server.git.toGit seen name (old.getD ZERO_OID) newOid merging s s' := by
  have errors : ∀ error : GitdError, ¬(.error error : Except GitdError Unit) = .ok () := fun _ same => (nomatch same)
  apply bind_answersBy errors validateName_quiet
  intro _ _
  apply bind_answersBy errors (writable_looks server.id)
  intro _ _
  apply bind_answersBy errors (resolveHops_meets server.git.toGit faults name MAX_SYMREF_DEPTH name)
  intro resolved leads
  apply bind_answersBy errors (change_looks _)
  intro change _
  apply bind_answersBy errors (done_meets fun _ _ => True.intro)
  intro _ _
  exact swap_answersBy leads

theorem refuse_meets {R : Served → Served → Option (Except GitdError Unit) → Prop} {when : Bool} {error : GitdError} :
    (refuse when error).run.Meets (fun s => seen s.bare) R fun result => ∀ a, result = .ok a → when = false := by
  cases when with
  | false => exact fun _ _ => rfl
  | true => exact fun a same => (nomatch same)

theorem committed_quiet (made : Except GitdError String) (s : Served) : Quiet s (s.committed made) := by
  cases made with
  | error error => exact quiet_refl s
  | ok oid => exact ⟨fun _ => rfl, rfl⟩

theorem commit_meets {R : Served → Served → Option (Except GitdError String) → Prop} {fault : Fault}
    {tree base head message : String} (quiet : ∀ s s' reply, Quiet s s' → R s s' reply) :
    (commit git fault tree base head message).run.Meets (fun s => seen s.bare) R
      fun result => ∀ oid, result = .ok oid → ∃ bare, git.commitTree bare tree base head message = .ok oid := by
  unfold commit
  cases fault with
  | io => exact fun oid same => (nomatch same)
  | fails => exact fun oid same => (nomatch same)
  | none =>
    intro s _
    exact ⟨quiet _ _ _ (committed_quiet _ s), fun oid made => ⟨s.bare, made⟩⟩

variable {merge : PullMerge}

theorem verify_looks {R : Served → Served → Option (Except GitdError Unit) → Prop} {fault : Fault} {oid : String} :
    (server.verify fault oid).run.Meets (fun s => seen s.bare) R fun result => ∀ a, result = .ok a → True :=
  look_meets (fun _ _ _ => True.intro) fun _ _ _ _ _ => True.intro

/-- What is known of the object of a merge. -/
def Makes (git : ObjectGit) (merge : PullMerge) (fastForward : Bool) (mergeOid : String) : Prop :=
  if fastForward then mergeOid = merge.headOid
  else git.parents mergeOid = [merge.baseOid, merge.headOid] ∧ isZeroOid mergeOid = false

theorem mergedOid_meets {R : Served → Served → Option (Except GitdError String) → Prop} {fastForward : Bool}
    (quiet : ∀ s s' reply, Quiet s s' → R s s' reply) :
    (server.mergedOid merge fastForward).run.Meets (fun s => seen s.bare) R
      fun result => ∀ oid, result = .ok oid → Makes server.git merge fastForward oid := by
  cases fastForward with
  | true =>
    intro oid same
    cases same
    rfl
  | false =>
    have errors : ∀ error, ∀ oid, (.error error : Except GitdError String) = .ok oid → Makes server.git merge false oid :=
      fun _ _ same => (nomatch same)
    have looks : (look (merge.faults .mergeTree) (.error (.gitCommandFailed "git merge-tree")) fun bare =>
        server.git.mergeTree bare merge.baseOid merge.headOid).run.Meets (fun s => seen s.bare)
          (fun s s' _ => ∀ reply, R s s' reply) fun result => ∀ tree, result = .ok tree → True :=
      look_meets (fun _ _ _ => True.intro) fun _ _ _ _ _ => True.intro
    apply bind_meets errors looks
    intro tree _
    refine (commit_meets quiet).mono (fun _ here => here) (fun _ _ _ _ keeps => keeps) fun result answered oid same => ?_
    obtain ⟨bare, made⟩ := answered oid same
    exact server.git.committed bare tree merge.baseOid merge.headOid merge.message oid made

/-- Whether the base is behind the head, as the merge goes on to take it. -/
theorem ancestry_looks {R : Served → Served → Option (Except GitdError Bool) → Prop} {fault : Fault} {base head : String} :
    (look .none (.ok false) fun bare => (server.git.toGit.withAncestry fault).isAncestor bare base head).run.Meets
      (fun s => seen s.bare) R fun result => ∀ forward, result = .ok forward →
        (fault = .fails → server.git.descends base head = false) → forward = server.git.descends base head := by
  apply look_meets
  · exact fun fails => (nomatch fails)
  · intro _ bare _ forward found sure
    cases fault with
    | none => exact Except.ok.inj (found.symm.trans (server.git.ancestor bare base head))
    | fails => exact (Except.ok.inj found).symm.trans (sure rfl).symm
    | io => cases found

theorem mergePull_meets : (server.mergePull merge).run.Meets (fun s => seen s.bare)
    (fun s s' reply => Quiet s s' ∨ ∃ newOid, Swaps server.git.toGit seen merge.baseRef merge.baseOid newOid true s s' ∧
      (merge.faults .pushMarker = .none → ∃ outcome, reply = some (.ok outcome))) fun _ => True := by
  have errors : ∀ error : GitdError, (fun _ => True) (.error error : Except GitdError MergeOutcome) := fun _ => True.intro
  apply bind_meets errors validateName_quiet
  intro _ _
  apply bind_meets errors (writable_looks server.id)
  intro _ _
  apply bind_meets errors refuse_meets
  intro _ _
  apply bind_meets errors verify_looks
  intro _ _
  apply bind_meets errors verify_looks
  intro _ _
  apply bind_meets errors ancestry_looks
  intro fastForward _
  apply bind_meets errors refuse_meets
  intro _ _
  apply bind_meets errors (mergedOid_meets fun _ _ _ quiet _ => .inl quiet)
  intro mergeOid _
  apply Program.Meets.map_run
  refine updateRef_meets.mono (fun _ here => here) (fun s s' reply _ moved => ?_) fun _ _ => True.intro
  rcases moved with quiet | ⟨swaps, answers⟩
  · exact .inl quiet
  · refine .inr ⟨mergeOid, swaps, fun marked => ⟨⟨mergeOid, fastForward⟩, ?_⟩⟩
    rw [answers marked]
    rfl

/-- What a merge may be sure of. -/
def PullMerge.Sure (git : ObjectGit) (merge : PullMerge) : Prop :=
  merge.headOid ≠ merge.baseOid ∧
    (merge.faults .mergeBase = .fails → git.descends merge.baseOid merge.headOid = false)

/-- A merge that is made, with the section it is made in. -/
def Made (git : ObjectGit) (seen : BareRepo → Prop) (merge : PullMerge) (s s' : Served) (outcome : MergeOutcome) : Prop :=
  Swaps git.toGit seen merge.baseRef merge.baseOid outcome.mergeOid true s s' ∧
    isZeroOid merge.baseOid = false ∧ isZeroOid outcome.mergeOid = false ∧ (merge.Sure git → Meant git merge outcome)

theorem makes_meant {fastForward : Bool} {mergeOid : String} (makes : Makes server.git merge fastForward mergeOid)
    (descends : fastForward = server.git.descends merge.baseOid merge.headOid)
    (linear : (merge.requireFastForward && !fastForward) = false) :
    Meant server.git merge ⟨mergeOid, fastForward⟩ := by
  cases fastForward with
  | true => exact ⟨fun _ => makes, fun made => (nomatch made), by simp [← descends], fun _ => rfl⟩
  | false =>
    refine ⟨fun forward => (nomatch forward), fun _ => makes.1, by simp [← descends], fun required => ?_⟩
    rw [required] at linear
    cases linear

theorem mergePull_answersBy : (server.mergePull merge).run.AnswersBy (fun s => seen s.bare)
    (fun result => ∃ outcome, result = .ok outcome)
    fun s s' result => ∃ outcome, result = .ok outcome ∧ Made server.git seen merge s s' outcome := by
  have errors : ∀ error : GitdError, ¬∃ outcome, (.error error : Except GitdError MergeOutcome) = .ok outcome :=
    fun _ ⟨_, same⟩ => (nomatch same)
  apply bind_answersBy errors validateName_quiet
  intro _ _
  apply bind_answersBy errors (writable_looks server.id)
  intro _ _
  apply bind_answersBy errors refuse_meets
  intro _ named
  obtain ⟨baseNamed, headNamed⟩ := Bool.or_eq_false_iff.mp named
  apply bind_answersBy errors verify_looks
  intro _ _
  apply bind_answersBy errors verify_looks
  intro _ _
  apply bind_answersBy errors ancestry_looks
  intro fastForward forward
  apply bind_answersBy errors refuse_meets
  intro _ linear
  apply bind_answersBy errors (mergedOid_meets fun _ _ _ _ => True.intro)
  intro mergeOid makes
  apply Program.AnswersBy.map_run
  have mergeNamed : isZeroOid mergeOid = false := by
    cases fastForward with
    | true => exact makes ▸ headNamed
    | false => exact makes.2
  refine updateRef_answersBy.mono ?_ ?_
  · rintro result ⟨outcome, same⟩
    cases result with
    | error error => cases same
    | ok _ => rfl
  · rintro s s' result ⟨outcome, same⟩ swaps
    cases result with
    | error error => cases same
    | ok _ => exact ⟨_, rfl, swaps, baseNamed, mergeNamed, fun sure => makes_meant makes (forward sure.2) linear⟩

/-- An update that `git` lets through. -/
structure Moves (seen : BareRepo → Prop) (name oldOid newOid final : String) (s s' : Served) : Prop where
  leads : ∃ resolved, Leads seen name resolved ∧ s.bare.finalRef resolved = some final
  before : s.bare.valueAt final = some oldOid
  after : s'.bare.valueAt final = some newOid
  others : ∀ other, other ≠ final → s'.bare.refs.lookup other = s.bare.refs.lookup other

theorem updateRef_old {bare bare' : BareRepo} {final : String} (comes : bare.finalRef name = some final)
    (moved : bare.updateRef git name newOid oldOid = .ok bare') (named : isZeroOid oldOid = false) :
    bare.valueAt final = some oldOid := by
  unfold BareRepo.updateRef at moved
  rw [comes] at moved
  dsimp only at moved
  split at moved
  · next fits =>
    have value : (bare.valueAt final).getD ZERO_OID = oldOid := by simpa using (Bool.and_eq_true_iff.mp fits).1
    cases found : bare.valueAt final with
    | some oid =>
      rw [found] at value
      exact congrArg some value
    | none =>
      rw [found] at value
      have zero : isZeroOid ZERO_OID = true := by decide
      have same : ZERO_OID = oldOid := value
      rw [same, named] at zero
      cases zero
  · cases moved

theorem updateRef_point {bare bare' : BareRepo} {final : String} (comes : bare.finalRef name = some final)
    (moved : bare.updateRef git name newOid oldOid = .ok bare') : bare' = bare.point final newOid := by
  have from_old : bare.updateRef git name newOid ((some oldOid).getD ZERO_OID) = .ok bare' := moved
  exact updateRef_moves from_old comes

theorem Swaps.moves {s s' : Served} (swaps : Swaps git seen name oldOid newOid true s s')
    (oldNamed : isZeroOid oldOid = false) (newNamed : isZeroOid newOid = false) :
    ∃ final, Moves seen name oldOid newOid final s s' ∧
      s'.moved = if newOid ≠ oldOid then (final, oldOid) :: s.moved else s.moved := by
  obtain ⟨resolved, final, bare, leads, comes, moved, rfl⟩ := swaps
  have value := updateRef_old comes moved oldNamed
  cases updateRef_point comes moved
  refine ⟨final, ⟨⟨resolved, leads, comes⟩, value, ?_, fun other differs => ?_⟩, by simp⟩
  · rw [valueAt_point, if_pos rfl, asked, newNamed]
    rfl
  · rw [lookup_point, if_neg differs]

end Sections

section Alone

variable {α : Type} {server : RefServer} {s : Served} {git : Git}

/-- The process, with nothing between its sections, comes to the result. -/
def ComesTo (p : Process Unit) (s : Served) (result : Except GitdError BareRepo) : Prop :=
  Prod.map id Served.bare (p.run.exec s) = (result.map fun _ => (), result.toOption.getD s.bare)

theorem look_alone (failed : Except GitdError α) (answer : BareRepo → Except GitdError α) :
    (look .none failed answer).run.exec s = (answer s.bare, s) := rfl

theorem validateName_alone (name : String) :
    (validateName git .none name).run.exec s = (validateRefName git name, s) := rfl

theorem ComesTo.bind {p : Process α} {f : α → Process Unit} {answer : Except GitdError α}
    {rest : α → Except GitdError BareRepo} (first : p.run.exec s = (answer, s))
    (goes : ∀ a, answer = .ok a → ComesTo (f a) s (rest a)) : ComesTo (p >>= f) s (answer >>= rest) := by
  unfold ComesTo
  rw [Program.exec_bind_run, first]
  cases answer with
  | error error => rfl
  | ok a => exact goes a rfl

theorem resolveHops_alone {faults : Faults} (flawless : ∀ step, faults step = .none) (asked : String) (hops : Nat)
    (current : String) : (resolveHops git faults asked hops current).run.exec s =
      (resolveFrom git s.bare asked hops current, s) := by
  induction hops generalizing current with
  | zero => rfl
  | succ hops ih =>
    unfold resolveHops resolveFrom
    rw [flawless, Program.exec_bind_run, look_alone]
    dsimp only
    cases s.bare.symbolicRef current with
    | none => rfl
    | some target =>
      dsimp only
      by_cases ends : (trim target = "" || trim target = current) = true
      · have stops : nextHop current (some target) = none := by
          unfold nextHop
          exact Option.filter_some_neg (congrArg not ends)
        rw [stops, if_pos ends]
        rfl
      · have goesOn : nextHop current (some target) = some (trim target) := by
          unfold nextHop
          exact Option.filter_some_pos (congrArg not (Bool.eq_false_iff.mpr ends))
        rw [goesOn, if_neg ends]
        dsimp only
        rw [flawless, Program.exec_bind_run, validateName_alone]
        cases validateRefName git (trim target) with
        | error error => rfl
        | ok _ => exact ih (trim target)

theorem swap_alone {faults : Faults} (flawless : ∀ step, faults step = .none) (name newOid oldOid : String) (merging : Bool) :
    ComesTo (swap git faults name newOid oldOid merging) s (s.bare.updateRef git name newOid oldOid) := by
  unfold ComesTo swap
  rw [flawless]
  show Prod.map id Served.bare (_, Served.swapped git name newOid oldOid merging s) = _
  unfold Served.swapped
  cases s.bare.updateRef git name newOid oldOid with
  | error error => rfl
  | ok bare =>
    dsimp only
    rw [if_pos (flawless _)]
    rfl

/-- An update that nothing disturbs is the ref service's. -/
theorem updateRef_alone {faults : Faults} (flawless : ∀ step, faults step = .none) (actor name newOid : String)
    (oldOid : Option String) (merging : Bool) :
    ComesTo (server.updateRef actor name newOid oldOid faults merging) s
      ((server.service .none).updateRef server.id s.bare actor name newOid oldOid) := by
  have forced : server.service (faults .forceBase) = server.service .none := by rw [flawless]
  unfold RefServer.updateRef RefService.updateRef
  rw [flawless .checkName, forced]
  apply ComesTo.bind (validateName_alone name)
  intro _ _
  apply ComesTo.bind (look_alone _ _)
  intro _ _
  apply ComesTo.bind (resolveHops_alone flawless name MAX_SYMREF_DEPTH name)
  intro resolved _
  apply ComesTo.bind (look_alone _ _)
  intro change _
  apply ComesTo.bind rfl
  intro _ _
  exact swap_alone flawless resolved newOid (oldOid.getD ZERO_OID) merging

end Alone

/-- No ref goes back to an object that a merge has moved it from. -/
def NoReturn (s s' : Served) : Prop :=
  ∀ entry ∈ s.moved, s.bare.valueAt entry.1 ≠ some entry.2 → s'.bare.valueAt entry.1 ≠ some entry.2

/-- The calls that enter, each with its faults, and the other writers between the sections. -/
def RefServer.pool (server : RefServer) (enters : RefCall → Prop) (others : Served → Served → Prop) :
    System Served RefCall.Reply where
  program := server.program
  ambient s s' := s'.moved = s.moved ∧ others s s'
  admits _ call := enters call

/-- The calls of a careful run. -/
def RefCall.Sure (git : ObjectGit) : RefCall → Prop
  | .update _ => True
  | .merge asked => asked.Sure git

/-- The sections of a careful run: where a ref has moved, the push is recorded. -/
def Careful (call : RefCall) (update : Served → Served) (s : Served) : Prop :=
  (¬SameRefs s.bare (update s).bare → call.faults .pushMarker = .none) ∧ NoReturn s (update s)

section Claim

variable (server : RefServer) (allows : RefCall → (Served → Served) → Served → Prop)
variable (run : Nat → Config Served RefCall.Reply)

/-- The section of the run in which a merge moves its base. -/
def MergesAt (k i : Nat) (merge : PullMerge) (outcome : MergeOutcome) (final : String) : Prop :=
  (run k).Takes allows i (.merge merge) (some (.ok outcome)) (run (k + 1)) ∧
    Moves (fun bare => ∃ l ≤ k, (run l).shared.bare = bare) merge.baseRef merge.baseOid outcome.mergeOid final
      (run k).shared (run (k + 1)).shared

/-- A server-side ref update is atomic, and a merge means what it says. -/
structure AtomicMerges (n : Nat) : Prop where
  refused : ∀ i call reply, (run n).Answered i call reply → call.Refused reply → ∀ k < n, ∀ answer,
    (run k).Takes allows i call answer (run (k + 1)) → SameRefs (run k).shared.bare (run (k + 1)).shared.bare
  merged : ∀ i merge outcome, (run n).Answered i (.merge merge) (.ok outcome) →
    Meant server.git merge outcome ∧ ∃ k < n, ∃ final, MergesAt allows run k i merge outcome final
  once : ∀ i j k l merge merge' outcome outcome' final, k < n → l < n → i ≠ j →
    MergesAt allows run k i merge outcome final → MergesAt allows run l j merge' outcome' final →
      merge.baseOid ≠ merge'.baseOid

end Claim

section Careful

/-- What a section of a call does. -/
def Acts (git : ObjectGit) (seen : BareRepo → Prop) : (call : RefCall) → Served → Served → Option call.Reply → Prop
  | .update asked, s, s', reply =>
    Quiet s s' ∨ Swaps git.toGit seen asked.name (asked.oldOid.getD ZERO_OID) asked.newOid false s s' ∧
      (asked.faults .pushMarker = .none → reply = some (.ok ()))
  | .merge asked, s, s', reply =>
    Quiet s s' ∨ ∃ newOid, Swaps git.toGit seen asked.baseRef asked.baseOid newOid true s s' ∧
      (asked.faults .pushMarker = .none → ∃ outcome, reply = some (.ok outcome))

/-- What an accepted merge has done. -/
def AnswersMerge (git : ObjectGit) (seen : BareRepo → Prop) : (call : RefCall) → Served → Served → call.Reply → Prop
  | .update _, _, _, _ => True
  | .merge asked, s, s', reply => ∃ outcome, reply = .ok outcome ∧ Made git seen asked s s' outcome

/-- An accepted merge. -/
def Merged : (call : RefCall) → call.Reply → Prop
  | .update _, _ => False
  | .merge _, reply => ∃ outcome, reply = .ok outcome

variable {server : RefServer} {seen : BareRepo → Prop}

theorem program_meets (call : RefCall) :
    (server.program call).Meets (fun s => seen s.bare) (Acts server.git seen call) fun _ => True := by
  cases call with
  | update asked => exact updateRef_meets
  | merge asked => exact mergePull_meets

theorem program_answersBy (call : RefCall) :
    (server.program call).AnswersBy (fun s => seen s.bare) (Merged call) (AnswersMerge server.git seen call) := by
  cases call with
  | update asked => exact Program.answersBy_never _
  | merge asked => exact mergePull_answersBy

variable {call : RefCall} {s s' : Served} {reply : Option call.Reply}

theorem Acts.refs (acts : Acts server.git seen call s s' reply) :
    SameRefs s.bare s'.bare ∨ (call.faults .pushMarker = .none → call.Accepted reply) := by
  cases call with
  | update asked => exact acts.imp (fun quiet => quiet.1) fun swapped => swapped.2
  | merge asked => exact acts.imp (fun quiet => quiet.1) fun ⟨_, _, answers⟩ => answers

theorem Swaps.records {git : Git} {name oldOid newOid : String} {merging : Bool}
    (swaps : Swaps git seen name oldOid newOid merging s s') : ∀ entry ∈ s.moved, entry ∈ s'.moved := by
  obtain ⟨resolved, final, bare, -, -, -, rfl⟩ := swaps
  intro entry member
  dsimp only
  split
  · exact List.mem_cons_of_mem _ member
  · exact member

theorem Acts.records (acts : Acts server.git seen call s s' reply) : ∀ entry ∈ s.moved, entry ∈ s'.moved := by
  cases call with
  | update asked =>
    rcases acts with ⟨-, same⟩ | ⟨swaps, -⟩
    · rw [same]
      exact fun _ member => member
    · exact swaps.records
  | merge asked =>
    rcases acts with ⟨-, same⟩ | ⟨_, swaps, -⟩
    · rw [same]
      exact fun _ member => member
    · exact swaps.records

theorem accepted_not_refused (accepted : call.Accepted reply) : ∃ result, reply = some result ∧ ¬call.Refused result := by
  cases call with
  | update asked => exact ⟨_, accepted, fun ⟨_, same⟩ => (nomatch same)⟩
  | merge asked =>
    obtain ⟨outcome, same⟩ := accepted
    exact ⟨_, same, fun ⟨_, same⟩ => (nomatch same)⟩

theorem Meant.oid_ne {git : ObjectGit} {merge : PullMerge} {outcome : MergeOutcome} (meant : Meant git merge outcome)
    (sure : merge.Sure git) : outcome.mergeOid ≠ merge.baseOid := by
  cases forward : outcome.fastForward with
  | true =>
    rw [meant.forward forward]
    exact sure.1
  | false => exact git.acyclic _ _ _ (meant.made forward)

variable {run : Nat → Config Served RefCall.Reply} {n k i : Nat} {merge : PullMerge} {outcome : MergeOutcome}
variable (lasts : Lasts (server.pool (RefCall.Sure server.git) NoReturn) Careful run n) (fresh : (run 0).tasks = [])
include lasts fresh

theorem sure_of_answered (answered : (run n).Answered i (.merge merge) (.ok outcome)) : merge.Sure server.git := by
  have every : ∀ call ∈ (run n).tasks.map Task.call, call.Sure server.git :=
    lasts.entered fresh (fun _ _ admitted => admitted) (Nat.le_refl n)
  exact every _ (List.mem_map_of_mem (List.mem_of_getElem? answered))

theorem refused_careful {call : RefCall} {reply : call.Reply} (answered : (run n).Answered i call reply)
    (refused : call.Refused reply) (before : k < n) {answer : Option call.Reply}
    (takes : (run k).Takes Careful i call answer (run (k + 1))) :
    SameRefs (run k).shared.bare (run (k + 1)).shared.bare := by
  have acts : Acts server.git (fun _ => True) call (run k).shared (run (k + 1)).shared answer :=
    lasts.takes fresh program_meets (fun _ _ => True.intro) before takes
  rcases acts.refs with same | answers
  · exact same
  · by_contra moved
    obtain ⟨update, ⟨recorded, -⟩, same⟩ := takes.allowed
    rw [← same] at recorded
    obtain ⟨result, rfl, accepted⟩ := accepted_not_refused (answers (recorded moved))
    have later : (run n).Answered i call result := lasts.answered takes.answered before (Nat.le_refl n)
    cases answered.symm.trans later
    exact accepted refused

/-- An accepted merge has moved its base in a section of the run. -/
theorem merged_careful (answered : (run n).Answered i (.merge merge) (.ok outcome)) :
    Meant server.git merge outcome ∧ ∃ k < n, ∃ final, MergesAt Careful run k i merge outcome final := by
  have sure := sure_of_answered lasts fresh answered
  -- The section is the one that answers, so the names lead where they led up to then.
  obtain ⟨k, before, answers, first⟩ := lasts.first fresh answered
  have shorter : Lasts (server.pool (RefCall.Sure server.git) NoReturn) Careful run (k + 1) :=
    fun l earlier => lasts l (Nat.lt_of_lt_of_le earlier before)
  let seen : BareRepo → Prop := fun bare => ∃ l ≤ k, (run l).shared.bare = bare
  have programs (call : RefCall) : (server.program call).AnswersBy (fun s => seen s.bare) (Merged call)
      (AnswersMerge server.git seen call) := program_answersBy call
  obtain ⟨l, earlier, takes, outcome', same, swaps, baseNamed, mergeNamed, meant⟩ :=
    shorter.answeredBy fresh programs (fun l earlier => ⟨l, Nat.le_of_lt_succ earlier, rfl⟩) answers ⟨outcome, rfl⟩
  cases same
  have last : l = k := by
    rcases Nat.lt_or_ge l k with before | after
    · exact absurd takes.answered (first (l + 1) before)
    · exact Nat.le_antisymm (Nat.le_of_lt_succ earlier) after
  subst last
  obtain ⟨final, moves, -⟩ := swaps.moves baseNamed mergeNamed
  exact ⟨meant sure, l, before, final, takes, moves⟩

/-- A merge is recorded in the section it moves its base in. -/
theorem recorded_careful {final : String} (before : k < n) (merges : MergesAt Careful run k i merge outcome final) :
    (final, merge.baseOid) ∈ (run (k + 1)).shared.moved ∧
      (run (k + 1)).shared.bare.valueAt final ≠ some merge.baseOid := by
  obtain ⟨takes, moves⟩ := merges
  have shorter : Lasts (server.pool (RefCall.Sure server.git) NoReturn) Careful run (k + 1) :=
    fun l earlier => lasts l (Nat.lt_of_lt_of_le earlier before)
  have sure := sure_of_answered shorter fresh takes.answered
  have differs : outcome.mergeOid ≠ merge.baseOid :=
    (merged_careful shorter fresh takes.answered).1.oid_ne sure
  have leaves : (run (k + 1)).shared.bare.valueAt final ≠ some merge.baseOid := by
    rw [moves.after]
    exact fun same => differs (Option.some.inj same)
  refine ⟨?_, leaves⟩
  have acts : Acts server.git (fun _ => True) (.merge merge) (run k).shared (run (k + 1)).shared (some (.ok outcome)) :=
    lasts.takes fresh program_meets (fun _ _ => True.intro) before takes
  rcases acts with ⟨same, -⟩ | ⟨newOid, ⟨resolved, ends, bare, -, comes, moved, new⟩, -⟩
  · have still : (run (k + 1)).shared.bare.valueAt final = (run k).shared.bare.valueAt final := by
      unfold BareRepo.valueAt
      rw [same final]
    exact absurd (still.trans moves.before) leaves
  · cases updateRef_point comes moved
    have after : (run (k + 1)).shared.bare.valueAt final =
        if final = ends then asked newOid else (run k).shared.bare.valueAt final := by
      rw [new]
      exact valueAt_point
    rcases Decidable.em (final = ends) with rfl | elsewhere
    · rw [if_pos rfl, moves.after] at after
      have moving : newOid ≠ merge.baseOid := by
        rintro rfl
        unfold asked at after
        split at after
        · cases after
        · exact differs (Option.some.inj after)
      rw [new]
      simp [moving]
    · rw [if_neg elsewhere] at after
      exact absurd (after.trans moves.before) leaves

/-- A merge's base does not come back to where the merge has found it. -/
theorem leaves_careful {final : String} {l : Nat} (order : k < l) (before : l ≤ n)
    (merges : MergesAt Careful run k i merge outcome final) :
    (run l).shared.bare.valueAt final ≠ some merge.baseOid := by
  obtain ⟨recorded, leaves⟩ := recorded_careful lasts fresh (Nat.lt_of_lt_of_le order before) merges
  have kept := lasts.along (T := fun s s' => ∀ entry ∈ s.moved, entry ∈ s'.moved ∧
    (s.bare.valueAt entry.1 ≠ some entry.2 → s'.bare.valueAt entry.1 ≠ some entry.2))
    (fun _ _ member => ⟨member, id⟩)
    (fun _ _ _ first second entry member =>
      ⟨(second entry (first entry member).1).1, (second entry (first entry member).1).2 ∘ (first entry member).2⟩)
    (fun _ _ ⟨same, others⟩ entry member => ⟨same ▸ member, others entry member⟩)
    (fun k before i call reply takes entry member => by
      have acts : Acts server.git (fun _ => True) call (run k).shared (run (k + 1)).shared reply :=
        lasts.takes fresh program_meets (fun _ _ => True.intro) before takes
      obtain ⟨update, ⟨-, noReturn⟩, same⟩ := takes.allowed
      rw [← same] at noReturn
      exact ⟨acts.records entry member, noReturn entry member⟩)
    order before
  exact (kept _ recorded).2 leaves

/-- In a careful run every update is atomic, and every merge means what it says. -/
theorem careful_merges : AtomicMerges server Careful run n := by
  refine ⟨fun i call reply answered refused k before answer takes =>
    refused_careful lasts fresh answered refused before takes, fun i merge outcome answered =>
    merged_careful lasts fresh answered, ?_⟩
  intro i j k l merge merge' outcome outcome' final before before' differ merges merges' same
  rcases Nat.lt_trichotomy k l with earlier | rfl | later
  · have gone := leaves_careful lasts fresh earlier (Nat.le_of_lt before') merges
    rw [same] at gone
    exact gone merges'.2.before
  · exact differ (merges.1.same merges'.1)
  · have gone := leaves_careful lasts fresh later (Nat.le_of_lt before) merges'
    rw [← same] at gone
    exact gone merges.2.before

end Careful

section Demo

/-- `git` where the new trunk descends from the old one. -/
def demoGit : ObjectGit where
  toGit := fastForwards
  parents _ := []
  descends _ _ := true
  ancestor _ _ _ := rfl
  committed _ _ _ _ _ _ made := nomatch made
  acyclic _ _ _ same := nomatch same

def mergeServer : RefServer := ⟨demoGit, ProtectedRefRule.defaultPhase1Rules, demoId⟩

/-- A merge that forwards the trunk. -/
def forwardTrunk (faults : Faults) : RefCall :=
  .merge ⟨"bench", MAIN_REF, oldTrunk, newTrunk, "Merge", true, faults⟩

/-- The merge up to its swap, on its own. -/
def forwarding (faults : Faults) (server : System Served RefCall.Reply) : Config Served RefCall.Reply :=
  Config.play server ⟨⟨aliased, []⟩, []⟩ (.enter (forwardTrunk faults) :: List.replicate 7 (.advance 0))

/-- Nothing goes wrong. -/
def flawless : Faults := fun _ => .none

/-- The file of the push marker cannot be written. -/
def unmarked : Faults := fun step => if step = .pushMarker then .io else .none

section Forwarding

variable {enters : RefCall → Prop} {others : Served → Served → Prop} {faults : Faults}
variable {allows : RefCall → (Served → Served) → Served → Prop}

/-- Up to its swap a merge takes no section under the lock. -/
theorem forwarding_plays (entering : enters (forwardTrunk faults)) {waiting : Nat}
    (looks : ∀ k < waiting, (((Config.play (mergeServer.pool enters others) ⟨⟨aliased, []⟩, []⟩
      (.enter (forwardTrunk faults) :: List.replicate k (.advance 0))).tasks[0]?).any
        fun task => task.rest.locks) = false) :
    Config.Plays (mergeServer.pool enters others) allows ⟨⟨aliased, []⟩, []⟩
      (.enter (forwardTrunk faults) :: List.replicate waiting (.advance 0)) := by
  induction waiting with
  | zero => exact ⟨entering, True.intro⟩
  | succ waiting ih =>
    have first := ih fun k before => looks k (Nat.lt_succ_of_lt before)
    have idle := looks waiting (Nat.lt_succ_self waiting)
    rw [List.replicate_succ', ← List.cons_append, plays_append]
    refine ⟨first, fun call update next running => ?_, True.intro⟩
    rw [running] at idle
    cases idle

end Forwarding

def carefulPool : System Served RefCall.Reply := mergeServer.pool (RefCall.Sure demoGit) NoReturn

def freePool : System Served RefCall.Reply := mergeServer.pool (fun _ => True) fun _ _ => True

theorem flawless_idle : ∀ k < 7, (((Config.play carefulPool ⟨⟨aliased, []⟩, []⟩
    (.enter (forwardTrunk flawless) :: List.replicate k (.advance 0))).tasks[0]?).any
      fun task => task.rest.locks) = false := by decide +kernel

theorem unmarked_idle : ∀ k < 7, (((Config.play freePool ⟨⟨aliased, []⟩, []⟩
    (.enter (forwardTrunk unmarked) :: List.replicate k (.advance 0))).tasks[0]?).any
      fun task => task.rest.locks) = false := by decide +kernel

/-- A merge that has moved the trunk to the head. -/
def forwarded : (call : RefCall) → call.Reply → Bool
  | .update _, _ => false
  | .merge _, .ok outcome => outcome = ⟨newTrunk, true⟩
  | .merge _, .error _ => false

def failed : (call : RefCall) → call.Reply → Bool
  | .update _, reply => !reply.isOk
  | .merge _, reply => !reply.isOk

theorem failed_refused {call : RefCall} {reply : call.Reply} (fails : failed call reply = true) : call.Refused reply := by
  cases call with
  | update asked =>
    cases reply with
    | error error => exact ⟨error, rfl⟩
    | ok _ => cases fails
  | merge asked =>
    cases reply with
    | error error => exact ⟨error, rfl⟩
    | ok _ => cases fails

theorem flawless_answers : ∃ reply, forwarded (forwardTrunk flawless) reply = true ∧
    (forwarding flawless carefulPool).Writes 0 (forwardTrunk flawless) (some reply)
      ((forwarding flawless carefulPool).turn carefulPool (.advance 0)) := by
  apply Config.call_answers
  · unfold forwarding
    rw [Config.play_calls]
    rfl
  · decide +kernel

theorem unmarked_answers : ∃ reply, failed (forwardTrunk unmarked) reply = true ∧
    (forwarding unmarked freePool).Writes 0 (forwardTrunk unmarked) (some reply)
      ((forwarding unmarked freePool).turn freePool (.advance 0)) := by
  apply Config.call_answers
  · unfold forwarding
    rw [Config.play_calls]
    rfl
  · decide +kernel

/-- A merge forwards the trunk in a careful run. -/
theorem forward_merges : ∃ run n, Lasts (mergeServer.pool (RefCall.Sure demoGit) NoReturn) Careful run n ∧
    (∃ i merge, (run n).Answered i (.merge merge) (.ok ⟨newTrunk, true⟩)) ∧
      AtomicMerges mergeServer Careful run n := by
  have sure : RefCall.Sure demoGit (forwardTrunk flawless) := ⟨by decide, fun fails => (nomatch fails)⟩
  have goes : Run carefulPool Careful ⟨⟨aliased, []⟩, []⟩ (forwarding flawless carefulPool) :=
    play_run (forwarding_plays sure flawless_idle)
  obtain ⟨reply, forwards, writes⟩ := flawless_answers
  have unmoved : (forwarding flawless carefulPool).shared.moved = [] := rfl
  have allowed (update : Served → Served) :
      Careful (forwardTrunk flawless) update (forwarding flawless carefulPool).shared :=
    ⟨fun _ => rfl, fun entry member => nomatch unmoved ▸ member⟩
  obtain ⟨run, n, lasts, start, -, -, takes⟩ := goes.takes writes fun update _ => allowed update
  have merged : reply = .ok ⟨newTrunk, true⟩ := by
    cases reply with
    | error error => cases forwards
    | ok outcome => exact congrArg Except.ok (of_decide_eq_true forwards)
  refine ⟨run, n + 1, lasts, ⟨0, _, merged ▸ takes.answered⟩, careful_merges lasts ?_⟩
  rw [start]

/-- The trunk has moved, and the merge fails: the marker of the push cannot be written. -/
theorem unmarked_merge_moves : ∃ server run n,
    Lasts (RefServer.pool server (fun _ => True) fun _ _ => True) (fun _ _ _ => True) run n ∧ (run 0).tasks = [] ∧
      ¬AtomicMerges server (fun _ _ _ => True) run n := by
  have goes : Run freePool (fun _ _ _ => True) ⟨⟨aliased, []⟩, []⟩ (forwarding unmarked freePool) :=
    play_run (forwarding_plays True.intro unmarked_idle)
  obtain ⟨reply, fails, writes⟩ := unmarked_answers
  obtain ⟨run, n, lasts, start, before, after, takes⟩ := goes.takes writes fun _ _ => True.intro
  refine ⟨mergeServer, run, n + 1, lasts, by rw [start], fun atomic => ?_⟩
  have same := atomic.refused 0 _ reply takes.answered (failed_refused fails) n (Nat.lt_succ_self n) _ takes MAIN_REF
  rw [before, after] at same
  revert same
  decide +kernel

end Demo

end Jeryu.Gitd
