import Jeryu.Gitd.Trunk

/-!
Where the guard of the pre-receive hook and the ref service decide a change of a direct ref alike.
-/

namespace Jeryu.Gitd

open KeyedMap Text

/-- The predecessor the ref service is given: an absent ref has none. -/
def predecessor (prior : String) : Option String := if isZeroOid prior then none else some prior

def isHexOid (oid : String) : Prop := len oid = 40 ∧ all oid isAsciiHexdigit = true

/-- A change of a direct ref off the trunk, by someone no rule exempts: the prior object is the
    one the ref has, and `git` would store the next one there. -/
structure Proposed (git : Git) (rules : List ProtectedRefRule) (bare : BareRepo)
    (actor name prior next : String) : Prop where
  bound : ∀ rule ∈ rules, rule.bypassActors.contains actor = false
  direct : bare.isSymbolic name = false
  offTrunk : name ≠ MAIN_REF
  /-- A ref name holds no space and no control character. -/
  printable : ∀ c ∈ name.toList, 32 < c.toNat
  current : (bare.valueAt name).getD ZERO_OID = prior
  priorOid : isHexOid prior
  nextOid : isHexOid next
  stores : isZeroOid next = true ∨ git.pointsAt bare name next = true
  /-- The objects pushed are small enough. -/
  small : ∀ oids, git.rejectOversizedRawBlobs bare oids = .ok ()

/-- The guard takes the line of the change. -/
def GuardTakes (git : Git) (rules : List ProtectedRefRule) (id : RepoId) (bare : BareRepo)
    (actor name prior next : String) : Prop :=
  ((⟨git, rules⟩ : PreReceiveGuard).evaluateLines id bare actor (hookLine prior next name)).isOk = true

/-- The ref service makes the change. -/
def ServiceTakes (git : Git) (rules : List ProtectedRefRule) (id : RepoId) (bare : BareRepo)
    (actor name prior next : String) : Prop :=
  ((⟨git, rules⟩ : RefService).updateRef id bare actor name next (predecessor prior)).isOk = true

/-- Some rule forbids the ref to move by force. -/
def ForceDenied (rules : List ProtectedRefRule) (name : String) : Prop :=
  ∃ rule ∈ rules, rule.denyForce = true ∧ matchesPattern rule.pattern name = true

def DeleteDenied (rules : List ProtectedRefRule) (name : String) : Prop :=
  ∃ rule ∈ rules, rule.denyDelete = true ∧ matchesPattern rule.pattern name = true

/-- `git` can tell, and says that the move is a fast-forward. -/
def FastForward (git : Git) (bare : BareRepo) (prior next : String) : Prop :=
  git.isAncestor bare prior next = .ok true

/-- The name as the guard reads it off the line. -/
def readAs (name : String) : Option String :=
  match splitWhitespace name with
  | [read] => some read
  | _ => none

section Rules

variable {git : Git} {rules : List ProtectedRefRule} {id : RepoId} {bare : BareRepo}
variable {actor name prior next : String} {change : RefChange}

theorem evaluate_ok {rule : ProtectedRefRule} (bound : rule.bypassActors.contains change.actor = false) :
    rule.evaluate change = .ok () ↔ ¬(matchesPattern rule.pattern change.refName = true ∧
      (rule.denyDelete = true ∧ change.operation = .delete ∨
        rule.denyForce = true ∧ change.force = true)) := by
  unfold ProtectedRefRule.evaluate
  cases matches_ : matchesPattern rule.pattern change.refName with
  | false => simp
  | true =>
    rw [bound]
    simp only [Bool.not_true, Bool.or_self, Bool.false_eq_true, if_false, true_and]
    by_cases deletes : (rule.denyDelete && decide (change.operation = .delete)) = true
    · rw [if_pos deletes]
      simp only [Bool.and_eq_true, decide_eq_true_eq] at deletes
      simp [deletes]
    · rw [if_neg deletes]
      simp only [Bool.and_eq_true, decide_eq_true_eq] at deletes
      by_cases forces : (rule.denyForce && change.force) = true
      · rw [if_pos forces]
        simp only [Bool.and_eq_true] at forces
        simp [forces]
      · rw [if_neg forces]
        simp only [Bool.and_eq_true] at forces
        simp [deletes, forces]

/-- The rules let a change pass when none forbids the delete and none the force. -/
theorem evaluateAll_iff (bound : ∀ rule ∈ rules, rule.bypassActors.contains change.actor = false) :
    ProtectedRefRule.evaluateAll rules change = .ok () ↔
      ¬(change.operation = .delete ∧ DeleteDenied rules change.refName) ∧
      ¬(change.force = true ∧ ForceDenied rules change.refName) := by
  rw [evaluateAll_ok]
  constructor
  · intro every
    refine ⟨?_, ?_⟩
    · rintro ⟨deletes, rule, member, denies, matches_⟩
      exact (evaluate_ok (bound rule member)).mp (every rule member)
        ⟨matches_, .inl ⟨denies, deletes⟩⟩
    · rintro ⟨forces, rule, member, denies, matches_⟩
      exact (evaluate_ok (bound rule member)).mp (every rule member)
        ⟨matches_, .inr ⟨denies, forces⟩⟩
  · rintro ⟨noDelete, noForce⟩ rule member
    refine (evaluate_ok (bound rule member)).mpr ?_
    rintro ⟨matches_, ⟨denies, deletes⟩ | ⟨denies, forces⟩⟩
    · exact noDelete ⟨deletes, rule, member, denies, matches_⟩
    · exact noForce ⟨forces, rule, member, denies, matches_⟩

theorem evaluateAll_isOk {α : Type} {value : α} : ((do
      ProtectedRefRule.evaluateAll rules change
      return value : Except GitdError α)).isOk = true ↔
      ProtectedRefRule.evaluateAll rules change = .ok () := by
  cases ProtectedRefRule.evaluateAll rules change <;> simp [bind, Except.bind, pure, Except.pure, Except.isOk, Except.toBool]

end Rules

section Oids

variable {oid : String}

theorem zero_eq (zero : isZeroOid oid = true) : oid = ZERO_OID := by
  unfold isZeroOid all at zero
  simp only [Bool.and_eq_true, decide_eq_true_eq, List.all_eq_true] at zero
  obtain ⟨size, zeros⟩ := zero
  have replicated := List.eq_replicate_length.mpr zeros
  have measured (n : Nat) : String.utf8Len (List.replicate n '0') = n := by
    induction n with
    | zero => rfl
    | succ n ih =>
      rw [List.replicate_succ, String.utf8Len_cons, ih]
      rfl
  rw [len_eq, replicated, measured] at size
  have same : oid.toList = ZERO_OID.toList := by
    rw [replicated, size]
    decide
  exact String.toList_inj.mp same

theorem hex_solid (hex : isHexOid oid) : ∀ c ∈ oid.toList, isWhitespace c = false ∧ 32 < c.toNat := by
  intro c member
  have digit := List.all_eq_true.mp hex.2 c member
  unfold isAsciiHexdigit isAsciiDigit at digit
  unfold isWhitespace
  simp only [Bool.or_eq_true, Bool.and_eq_true, decide_eq_true_eq, Char.le_def, UInt32.le_iff_toNat_le] at digit
  have value : c.val.toNat = c.toNat := rfl
  have bounds : ('0' : Char).val.toNat = 48 ∧ ('9' : Char).val.toNat = 57 ∧ ('a' : Char).val.toNat = 97 ∧
      ('f' : Char).val.toNat = 102 ∧ ('A' : Char).val.toNat = 65 ∧ ('F' : Char).val.toNat = 70 := by
    decide
  obtain ⟨zero, nine, a, f, A, F⟩ := bounds
  rw [zero, nine, a, f, A, F, value] at digit
  refine ⟨?_, ?_⟩
  · simp only [Bool.or_eq_false_iff, Bool.and_eq_false_iff, decide_eq_false_iff_not]
    omega
  · omega

theorem hex_ofList {digits : List Char} (size : String.utf8Len digits = 40)
    (hex : digits.all isAsciiHexdigit = true) : isHexOid (String.ofList digits) := by
  refine ⟨?_, ?_⟩
  · rw [len_eq, String.toList_ofList, size]
  · unfold all
    rw [String.toList_ofList, hex]

theorem hex_words (hex : isHexOid oid) : words oid.toList = [oid.toList] := by
  refine words_of_solid (fun c member => (hex_solid hex c member).1) fun blank => ?_
  have size := hex.1
  rw [len_eq, blank] at size
  cases size

end Oids

section Guard

variable {git : Git} {rules : List ProtectedRefRule} {id : RepoId} {bare : BareRepo}
variable {actor name prior next : String}

/-- The change a line asks for, as the guard sees it. -/
def guardChange (git : Git) (bare : BareRepo) (actor prior next read : String) : RefChange :=
  let operation : RefOperation :=
    if isZeroOid next then .delete else if isZeroOid prior then .create else .update
  let ancestor := match git.isAncestor bare prior next with
    | .ok ancestor => ancestor
    | .error _ => false
  { actor, refName := read, oldOid := prior, newOid := next, operation
    force := operation = .update && !ancestor }

theorem triplet_isOk (priorOid : isHexOid prior) (nextOid : isHexOid next) {line : Nat} {read : String} :
    ((⟨git, rules⟩ : PreReceiveGuard).triplet bare actor line prior next read).isOk = true ↔
      validateRefName git read = .ok () ∧ read ≠ MAIN_REF ∧
        ProtectedRefRule.evaluateAll rules (guardChange git bare actor prior next read) = .ok () := by
  unfold PreReceiveGuard.triplet validateObjectId
  simp only [priorOid.1, priorOid.2, nextOid.1, nextOid.2, decide_true, Bool.and_self, if_true, bind,
    Except.bind]
  cases validateRefName git read with
  | error error => simp [Except.isOk, Except.toBool]
  | ok valid =>
    by_cases main : read = MAIN_REF
    · simp [main, Except.isOk, Except.toBool, throw, throwThe, MonadExceptOf.throw]
    · simp only [main, if_false, ne_eq, not_false_eq_true, true_and]
      exact evaluateAll_isOk

theorem hookLine_lines (priorOid : isHexOid prior) (nextOid : isHexOid next)
    (printable : ∀ c ∈ name.toList, 32 < c.toNat) : ∃ text, lines (hookLine prior next name) = [text] ∧
      splitWhitespace text = prior :: next :: splitWhitespace name := by
  have whole : hookLine prior next name =
      String.ofList ((prior.toList ++ ' ' :: (next.toList ++ ' ' :: name.toList)) ++ ['\n']) := by
    refine String.toList_inj.mp ?_
    unfold hookLine
    simp [String.toList_append]
  have visible : ∀ c ∈ prior.toList ++ ' ' :: (next.toList ++ ' ' :: name.toList), 32 ≤ c.toNat := by
    intro c member
    simp only [List.mem_append, List.mem_cons] at member
    rcases member with member | rfl | member | rfl | member
    · exact (hex_solid priorOid c member).2.le
    · decide
    · exact (hex_solid nextOid c member).2.le
    · decide
    · exact (printable c member).le
  refine ⟨String.ofList (prior.toList ++ ' ' :: (next.toList ++ ' ' :: name.toList)), ?_, ?_⟩
  · rw [whole]
    refine lines_line (fun member => ?_) fun ends => ?_
    · exact absurd (visible _ member) (by decide)
    · exact absurd (visible _ (List.mem_of_getLast? ends)) (by decide)
  · rw [splitWhitespace_eq, splitWhitespace_eq, String.toList_ofList, words_append (by decide),
      words_append (by decide), hex_words priorOid, hex_words nextOid]
    simp

/-- What the guard looks at: the name it reads, and never the archive mark's repository. -/
theorem guardTakes_iff (proposed : Proposed git rules bare actor name prior next) :
    GuardTakes git rules id bare actor name prior next ↔ bare.archived = false ∧
      ∃ read, readAs name = some read ∧ validateRefName git read = .ok () ∧ read ≠ MAIN_REF ∧
        ProtectedRefRule.evaluateAll rules (guardChange git bare actor prior next read) = .ok () := by
  obtain ⟨text, one, split⟩ := hookLine_lines proposed.priorOid proposed.nextOid proposed.printable
  have trimmed : splitWhitespace (trim text) = prior :: next :: splitWhitespace name := by
    rw [splitWhitespace_trim, split]
  have present : trim text ≠ "" := fun blank => by
    rw [blank] at trimmed
    cases trimmed
  unfold GuardTakes PreReceiveGuard.evaluateLines BareRepo.ensureWritable
  cases bare.archived with
  | true => simp [bind, Except.bind, Except.isOk, Except.toBool]
  | false =>
    simp only [Bool.false_eq_true, if_false, true_and, bind, Except.bind, one]
    unfold PreReceiveGuard.triplets
    rw [if_neg present, trimmed]
    unfold readAs
    rcases splitWhitespace name with _ | ⟨read, _ | ⟨more, others⟩⟩
    · simp [Except.isOk, Except.toBool]
    · have decided := @triplet_isOk git rules bare actor prior next proposed.priorOid proposed.nextOid 1 read
      simp only [Option.some.injEq, exists_eq_left', ← decided]
      cases (⟨git, rules⟩ : PreReceiveGuard).triplet bare actor 1 prior next read with
      | error error => simp [bind, Except.bind, Except.isOk, Except.toBool]
      | ok change =>
        simp [bind, Except.bind, Except.isOk, Except.toBool, PreReceiveGuard.triplets, proposed.small, pure,
          Except.pure]
    · simp [Except.isOk, Except.toBool]

end Guard

section Service

variable {git : Git} {rules : List ProtectedRefRule} {id : RepoId} {bare : BareRepo}
variable {actor name prior next : String}

/-- The service puts a change to the rules that they let pass. -/
def ServicePasses (git : Git) (rules : List ProtectedRefRule) (bare : BareRepo)
    (actor name prior next : String) : Prop :=
  ∃ change, (⟨git, rules⟩ : RefService).change bare actor name next (predecessor prior) = .ok change ∧
    ProtectedRefRule.evaluateAll rules change = .ok ()

theorem stored_isOk (proposed : Proposed git rules bare actor name prior next) :
    (bare.updateRef git name next ((predecessor prior).getD ZERO_OID)).isOk = true := by
  have direct : bare.finalRef name = some name := follow_of_direct proposed.direct
  have prior_is : (predecessor prior).getD ZERO_OID = prior := by
    unfold predecessor
    split
    · next zero => exact (zero_eq zero).symm
    · rfl
  have takes : ((bare.valueAt name).getD ZERO_OID = prior && (isZeroOid next || git.pointsAt bare name next)) =
      true := by
    rw [proposed.current]
    rcases proposed.stores with zero | stores
    · simp [zero]
    · simp [stores]
  unfold BareRepo.updateRef
  rw [direct, prior_is]
  dsimp only
  rw [if_pos takes]
  rfl

theorem resolve_direct (direct : bare.isSymbolic name = false) :
    resolveSymbolicRef git bare name = .ok name := by
  have still : bare.symbolicRef name = none := by
    unfold BareRepo.symbolicRef
    simp [direct]
  unfold resolveSymbolicRef MAX_SYMREF_DEPTH resolveFrom
  rw [still]

theorem serviceTakes_iff (proposed : Proposed git rules bare actor name prior next) :
    ServiceTakes git rules id bare actor name prior next ↔ bare.archived = false ∧
      validateRefName git name = .ok () ∧ ServicePasses git rules bare actor name prior next := by
  have stored := stored_isOk proposed
  unfold ServiceTakes RefService.updateRef BareRepo.ensureWritable ServicePasses
  dsimp only
  cases validateRefName git name with
  | error error => simp [bind, Except.bind, Except.isOk, Except.toBool]
  | ok valid =>
    cases bare.archived with
    | true => simp [bind, Except.bind, Except.isOk, Except.toBool]
    | false =>
      simp only [bind, Except.bind, Bool.false_eq_true, if_false, resolve_direct proposed.direct, true_and]
      cases (⟨git, rules⟩ : RefService).change bare actor name next (predecessor prior) with
      | error error => simp [Except.isOk, Except.toBool]
      | ok change =>
        simp only [Except.ok.injEq, exists_eq_left']
        cases ProtectedRefRule.evaluateAll rules change with
        | error error => simp [Except.isOk, Except.toBool]
        | ok passed => simpa using stored

theorem servicePasses_of_error {error : GitdError} {operation : RefOperation}
    (operates : operation = if isZeroOid next then .delete
      else if (predecessor prior).isSome then .update else .create)
    (forces : forceUpdate git bare name next (predecessor prior) operation = .error error) :
    ¬ServicePasses git rules bare actor name prior next := by
  rintro ⟨change, asks, -⟩
  unfold RefService.change at asks
  dsimp only at asks
  rw [← operates, forces] at asks
  cases asks

theorem servicePasses_of_force {force : Bool} {operation : RefOperation}
    (bound : ∀ rule ∈ rules, rule.bypassActors.contains actor = false)
    (operates : operation = if isZeroOid next then .delete
      else if (predecessor prior).isSome then .update else .create)
    (forces : forceUpdate git bare name next (predecessor prior) operation = .ok force) :
    ServicePasses git rules bare actor name prior next ↔
      ¬(operation = .delete ∧ DeleteDenied rules name) ∧ ¬(force = true ∧ ForceDenied rules name) := by
  let change : RefChange :=
    { actor, refName := name, oldOid := (predecessor prior).getD ZERO_OID, newOid := next, operation, force }
  have asks : (⟨git, rules⟩ : RefService).change bare actor name next (predecessor prior) = .ok change := by
    unfold RefService.change
    dsimp only
    rw [← operates, forces]
    rfl
  rw [← @evaluateAll_iff rules change bound]
  constructor
  · rintro ⟨change', asks', passes⟩
    cases asks.symm.trans asks'
    exact passes
  · exact fun passes => ⟨change, asks, passes⟩

/-- Creating or deleting a ref moves nothing by force. -/
theorem servicePasses_ends (bound : ∀ rule ∈ rules, rule.bypassActors.contains actor = false)
    (ends : isZeroOid prior = true ∨ isZeroOid next = true) :
    ServicePasses git rules bare actor name prior next ↔
      ¬(isZeroOid next = true ∧ DeleteDenied rules name) := by
  rw [@servicePasses_of_force git rules bare actor name prior next false _ bound rfl ?_]
  · rcases ends with zero | zero
    · by_cases deletes : isZeroOid next = true <;> simp [deletes, predecessor, zero]
    · simp [zero]
  · unfold forceUpdate predecessor
    rcases ends with zero | zero
    · simp [zero]
    · split <;> simp [zero]

/-- An existing ref moved, by its namespace. -/
theorem servicePasses_update (bound : ∀ rule ∈ rules, rule.bypassActors.contains actor = false)
    (present : isZeroOid prior = false) (keeps : isZeroOid next = false) :
    ServicePasses git rules bare actor name prior next ↔
      if startsWith name "refs/tags/" = true then ¬ForceDenied rules name
      else if startsWith name "refs/heads/" = true then FastForward git bare prior next ∨
        git.isAncestor bare prior next = .ok false ∧ ¬ForceDenied rules name
      else True := by
  have operates : (.update : RefOperation) = if isZeroOid next then .delete
      else if (predecessor prior).isSome then .update else .create := by
    simp [keeps, predecessor, present]
  have asks : forceUpdate git bare name next (predecessor prior) .update =
      if startsWith name "refs/tags/" then .ok true
      else if !startsWith name "refs/heads/" then .ok false
      else (git.isAncestor bare prior next).map not := by
    simp [forceUpdate, predecessor, present, keeps]
  by_cases tag : startsWith name "refs/tags/" = true
  · rw [if_pos tag] at asks ⊢
    simpa using servicePasses_of_force bound operates asks
  · rw [if_neg tag] at asks ⊢
    by_cases head : startsWith name "refs/heads/" = true
    · rw [if_neg (by simp [head])] at asks
      rw [if_pos head]
      unfold FastForward
      cases ancestry : git.isAncestor bare prior next with
      | error error =>
        rw [ancestry] at asks
        simpa using servicePasses_of_error operates asks
      | ok ancestor =>
        rw [ancestry] at asks
        have passes := @servicePasses_of_force git rules bare actor name prior next _ _ bound operates asks
        cases ancestor <;> simpa using passes
    · rw [if_pos (by simp [head])] at asks
      rw [if_neg head]
      simpa using servicePasses_of_force bound operates asks

end Service

section Guarded

variable {git : Git} {rules : List ProtectedRefRule} {bare : BareRepo}
variable {actor prior next read : String}

theorem guardPasses_ends (bound : ∀ rule ∈ rules, rule.bypassActors.contains actor = false)
    (ends : isZeroOid prior = true ∨ isZeroOid next = true) :
    ProtectedRefRule.evaluateAll rules (guardChange git bare actor prior next read) = .ok () ↔
      ¬(isZeroOid next = true ∧ DeleteDenied rules read) := by
  rw [@evaluateAll_iff rules (guardChange git bare actor prior next read) bound]
  unfold guardChange
  dsimp only
  rcases ends with zero | zero
  · by_cases deletes : isZeroOid next = true <;> simp [deletes, zero]
  · simp [zero]

theorem guardPasses_update (bound : ∀ rule ∈ rules, rule.bypassActors.contains actor = false)
    (present : isZeroOid prior = false) (keeps : isZeroOid next = false) :
    ProtectedRefRule.evaluateAll rules (guardChange git bare actor prior next read) = .ok () ↔
      (FastForward git bare prior next ∨ ¬ForceDenied rules read) := by
  rw [@evaluateAll_iff rules (guardChange git bare actor prior next read) bound]
  unfold guardChange FastForward
  simp only [present, keeps, Bool.false_eq_true, if_false, reduceCtorEq, false_and, not_false_eq_true,
    true_and, decide_true, Bool.true_and, Bool.not_eq_true']
  cases git.isAncestor bare prior next with
  | error error => simp
  | ok ancestor => cases ancestor <;> simp

end Guarded

/-- The two layers' rules for a move come to the same: a tag that fast-forwards is under no rule
    against force, an ancestry of branches can be asked for or is not needed, and elsewhere a move
    under such a rule fast-forwards. -/
def Alike (git : Git) (rules : List ProtectedRefRule) (bare : BareRepo) (name prior next : String) : Prop :=
  isZeroOid prior = true ∨ isZeroOid next = true ∨
    if startsWith name "refs/tags/" = true then
      ¬(FastForward git bare prior next ∧ ForceDenied rules name)
    else if startsWith name "refs/heads/" = true then
      (∃ ancestor, git.isAncestor bare prior next = .ok ancestor) ∨ ForceDenied rules name
    else ForceDenied rules name → FastForward git bare prior next

/-- The rules as the guard puts them: a move is by force unless `git` says that it fast-forwards. -/
def GuardLets (git : Git) (rules : List ProtectedRefRule) (bare : BareRepo) (prior next name : String) : Prop :=
  if isZeroOid prior = true ∨ isZeroOid next = true then ¬(isZeroOid next = true ∧ DeleteDenied rules name)
  else FastForward git bare prior next ∨ ¬ForceDenied rules name

/-- The rules as the ref service puts them: it asks `git` about branches only. -/
def ServiceLets (git : Git) (rules : List ProtectedRefRule) (bare : BareRepo) (prior next name : String) : Prop :=
  if isZeroOid prior = true ∨ isZeroOid next = true then ¬(isZeroOid next = true ∧ DeleteDenied rules name)
  else if startsWith name "refs/tags/" = true then ¬ForceDenied rules name
  else if startsWith name "refs/heads/" = true then FastForward git bare prior next ∨
    git.isAncestor bare prior next = .ok false ∧ ¬ForceDenied rules name
  else True

/-- The name has white space in it that a ref name may hold: what the guard reads instead is a ref
    off the trunk that the guard's rules let move, if and only if the service's rules let the ref
    itself move. -/
def ReadsElse (git : Git) (rules : List ProtectedRefRule) (bare : BareRepo) (name prior next : String) : Prop :=
  (∃ read, readAs name = some read ∧ validateRefName git read = .ok () ∧ read ≠ MAIN_REF ∧
    GuardLets git rules bare prior next read) ↔
  validateRefName git name = .ok () ∧ ServiceLets git rules bare prior next name

/-- The repository is archived; or the guard reads the name as it is, and `git` refuses it or the
    rules come to the same; or it reads something else, and the rules happen to agree. -/
def Coincide (git : Git) (rules : List ProtectedRefRule) (bare : BareRepo) (name prior next : String) : Prop :=
  bare.archived = true ∨
  (readAs name = some name ∧
    (validateRefName git name ≠ .ok () ∨ Alike git rules bare name prior next)) ∨
  (readAs name ≠ some name ∧ ReadsElse git rules bare name prior next)

section Layers

variable {git : Git} {rules : List ProtectedRefRule} {id : RepoId} {bare : BareRepo}
variable {actor name prior next : String}

theorem guardPasses_iff (bound : ∀ rule ∈ rules, rule.bypassActors.contains actor = false) {read : String} :
    ProtectedRefRule.evaluateAll rules (guardChange git bare actor prior next read) = .ok () ↔
      GuardLets git rules bare prior next read := by
  unfold GuardLets
  by_cases ends : isZeroOid prior = true ∨ isZeroOid next = true
  · rw [if_pos ends]
    exact guardPasses_ends bound ends
  · rw [if_neg ends]
    simp only [not_or, Bool.not_eq_true] at ends
    exact guardPasses_update bound ends.1 ends.2

theorem servicePasses_iff (bound : ∀ rule ∈ rules, rule.bypassActors.contains actor = false) :
    ServicePasses git rules bare actor name prior next ↔ ServiceLets git rules bare prior next name := by
  unfold ServiceLets
  by_cases ends : isZeroOid prior = true ∨ isZeroOid next = true
  · rw [if_pos ends]
    exact servicePasses_ends bound ends
  · rw [if_neg ends]
    simp only [not_or, Bool.not_eq_true] at ends
    exact servicePasses_update bound ends.1 ends.2

theorem lets_alike : (GuardLets git rules bare prior next name ↔ ServiceLets git rules bare prior next name) ↔
    Alike git rules bare name prior next := by
  unfold GuardLets ServiceLets Alike
  by_cases ends : isZeroOid prior = true ∨ isZeroOid next = true
  · simp only [if_pos ends, iff_self, true_iff]
    exact ends.elim .inl fun zero => .inr (.inl zero)
  · simp only [if_neg ends]
    simp only [not_or, Bool.not_eq_true] at ends
    simp only [ends.1, ends.2, Bool.false_eq_true, false_or]
    by_cases tag : startsWith name "refs/tags/" = true
    · simp only [tag, if_true]
      tauto
    · simp only [tag, Bool.false_eq_true, if_false]
      by_cases head : startsWith name "refs/heads/" = true
      · simp only [head, if_true]
        unfold FastForward
        cases git.isAncestor bare prior next with
        | error error => simp
        | ok ancestor => cases ancestor <;> simp
      · simp only [head, Bool.false_eq_true, if_false]
        tauto

/-- The guard takes what the ref service takes if and only if the two coincide. -/
theorem layers_agree_iff (proposed : Proposed git rules bare actor name prior next) :
    (GuardTakes git rules id bare actor name prior next ↔
      ServiceTakes git rules id bare actor name prior next) ↔
    Coincide git rules bare name prior next := by
  rw [guardTakes_iff proposed, serviceTakes_iff proposed, servicePasses_iff proposed.bound]
  simp only [guardPasses_iff proposed.bound]
  unfold Coincide
  cases bare.archived with
  | true => simp
  | false =>
    simp only [true_and, Bool.false_eq_true, false_or]
    by_cases reads : readAs name = some name
    · simp only [reads, Option.some.injEq, exists_eq_left', true_and, ne_eq, not_true_eq_false,
        false_and, or_false]
      rw [← lets_alike]
      have off := proposed.offTrunk
      by_cases valid : validateRefName git name = .ok ()
      · simp [valid, off]
      · simp [valid]
    · simp only [reads, false_and, false_or, ne_eq, not_false_eq_true, true_and]
      exact Iff.rfl

end Layers

section Demo

def oldTag : String := String.ofList (List.replicate 40 '1')

def newTag : String := String.ofList (List.replicate 40 '2')

/-- A repository with a tag. -/
def tagged : BareRepo where
  refs := (∅ : HashMap String RefTarget).insert "refs/tags/v1" (.oid oldTag)
  objects := [oldTag, newTag]
  lfsObjects := ∅
  archived := false
  preReceive := true

theorem tag_proposed : Proposed fastForwards ProtectedRefRule.defaultPhase1Rules tagged "mallory"
    "refs/tags/v1" oldTag newTag where
  bound := by decide
  direct := by decide +kernel
  offTrunk := by decide +kernel
  printable c member := by
    have visible : "refs/tags/v1".toList.all (fun c => decide (32 < c.toNat)) = true := by decide +kernel
    simpa using List.all_eq_true.mp visible c member
  current := by decide +kernel
  priorOid := hex_ofList (by decide) (by decide)
  nextOid := hex_ofList (by decide) (by decide)
  stores := .inr (by decide +kernel)
  small _ := rfl

theorem tag_taken : GuardTakes fastForwards ProtectedRefRule.defaultPhase1Rules demoId tagged "mallory"
    "refs/tags/v1" oldTag newTag := by
  unfold GuardTakes
  decide +kernel

theorem tag_refused : ¬ServiceTakes fastForwards ProtectedRefRule.defaultPhase1Rules demoId tagged
    "mallory" "refs/tags/v1" oldTag newTag := by
  unfold ServiceTakes
  decide +kernel

/-- A tag that fast-forwards passes the guard and not the ref service. -/
theorem fast_forward_tag_disagrees : ∃ git rules id bare actor name prior next,
    Proposed git rules bare actor name prior next ∧ rules = ProtectedRefRule.defaultPhase1Rules ∧
      GuardTakes git rules id bare actor name prior next ∧
      ¬ServiceTakes git rules id bare actor name prior next :=
  ⟨_, _, demoId, _, _, _, _, _, tag_proposed, rfl, tag_taken, tag_refused⟩

theorem fast_forward_tag_apart : ∃ bare, bare = tagged ∧
    ¬Coincide fastForwards ProtectedRefRule.defaultPhase1Rules bare "refs/tags/v1" oldTag newTag :=
  ⟨tagged, rfl, fun alike =>
    tag_refused ((layers_agree_iff tag_proposed |>.mpr alike).mp tag_taken)⟩

end Demo

end Jeryu.Gitd
