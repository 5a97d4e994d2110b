import Jeryu.Gitd.Namespaces

/-!
Several handles on one credential file: when no credential is lost.
-/

namespace Jeryu.Gitd

open KeyedMap Text

section Keeping

variable {sha256 : List UInt8 → List UInt8}

/-- The credential of the call is good for what it was made for. -/
def Copy.Resolves (copy : Copy sha256) : Grant → Prop
  | .pat pat owner scopes =>
    copy.registry.verifyPat (sha256Hex sha256) pat.token = some ⟨owner, scopes⟩
  | .sshKey fingerprint owner =>
    copy.registry.sshKeys.lookup fingerprint = some ⟨owner, [SCOPE_READ, SCOPE_WRITE]⟩

theorem Hex.token_solid {pat : Pat} (id : Hex pat.id) (secret : Hex pat.secret) :
    trim pat.token = pat.token := by
  have start : "jpat_".toList.all (fun c => !isWhitespace c) = true := by decide +kernel
  have bar : "_".toList.all (fun c => !isWhitespace c) = true := by decide +kernel
  refine trim_solid ?_
  intro c member
  simp only [Pat.token, String.toList_append, List.mem_append] at member
  rcases member with ((first | middle) | between) | last
  · simpa using List.all_eq_true.mp start c first
  · exact hexdigit_solid (id c middle)
  · simpa using List.all_eq_true.mp bar c between
  · exact hexdigit_solid (secret c last)

/-- Both calls were about one key. -/
def Grant.SameKey (grant other : Grant) : Prop :=
  ∃ fingerprint, grant.fingerprint = some fingerprint ∧ other.fingerprint = some fingerprint

/-- The last call about the key of `grant`, or any call about another thing. -/
def Listed (grants : List Grant) : Grant → Prop
  | .pat pat owner scopes => .pat pat owner scopes ∈ grants
  | .sshKey fingerprint owner => LastRegistered grants fingerprint owner

theorem listed_last (grants : List Grant) (grant : Grant) : Listed (grants ++ [grant]) grant := by
  cases grant with
  | pat => exact List.mem_append_right _ List.mem_cons_self
  | sshKey => exact lastRegistered_snoc.mpr (.inl rfl)

theorem Listed.snoc {grants : List Grant} {grant next : Grant} (listed : Listed grants grant)
    (other : ¬ next.SameKey grant) : Listed (grants ++ [next]) grant := by
  cases grant with
  | pat => exact List.mem_append_left _ listed
  | sshKey fingerprint owner =>
    refine lastRegistered_snoc.mpr (.inr ⟨fun same => other ⟨fingerprint, same, rfl⟩, listed⟩)

/-- What a handle had read before the call it is in. -/
def Handle.Based (grants : List Grant) (handle : Handle sha256) : Prop :=
  match handle.flush with
  | none => handle.copy.grants <+: grants
  | some flush => ∃ base, handle.copy.grants = base ++ [flush.grant] ∧ base <+: grants

theorem Handle.Based.more {grants grants' : List Grant} {handle : Handle sha256}
    (based : handle.Based grants) (more : grants <+: grants') : handle.Based grants' := by
  obtain ⟨copy, _ | flush⟩ := handle
  · exact List.IsPrefix.trans based more
  · obtain ⟨base, same, within⟩ := based
    exact ⟨base, same, within.trans more⟩

theorem Copy.Drawn.resolves (digest : Digest sha256) {drawn : List (List UInt8)} {copy : Copy sha256}
    (sound : copy.Drawn drawn) {grant : Grant} (listed : Listed copy.grants grant) :
    copy.Resolves grant := by
  cases grant with
  | pat minted owner scopes =>
    have hex := sound.distinct.hex _ _ _ listed
    exact (Copy.verifyPat_iff digest sound.distinct).mpr
      ⟨minted, listed, .inl (hex.1.token_solid hex.2.1)⟩
  | sshKey fingerprint owner =>
    show copy.registry.sshKeys.lookup fingerprint = _
    rw [copy.entered]
    exact lookup_recordsOf.mpr ⟨owner, listed, rfl⟩

namespace Registrars

/-- What a caller counts on. -/
structure Keeps (store : Registrars sha256) : Prop where
  opens : ∃ copy, store.read = .ok copy
  found : ∀ before answer after, store.answers = before ++ answer :: after → answer.ok = true →
    (∀ later ∈ after, later.ok = true → ¬ later.grant.SameKey answer.grant) →
    ∀ copy, store.read = .ok copy → copy.Resolves answer.grant
  refused : ∀ answer ∈ store.answers, answer.ok = false →
    (∀ other ∈ store.answers, other.ok = true → other.grant ≠ answer.grant) →
    (∀ copy, store.read = .ok copy → ¬ copy.Resolves answer.grant) ∧
      ∀ handle, store.handles answer.handle = some handle → ¬ handle.copy.Resolves answer.grant

/-- The calls whose records the file holds. -/
def durable (store : Registrars sha256) : List Grant :=
  match store.stored with
  | some (.whole copy) => copy.grants
  | _ => []

/-- No write or rename fails, and a rename puts in place what its own call wrote, made from all
    that the file holds. -/
def Clean (store : Registrars sha256) : RegistryEvent → Prop
  | .write _ outcome => outcome = .done
  | .rename name done => done = true ∧ ∃ copy flush, store.handles name = some ⟨copy, flush⟩ ∧
      store.temp = some (.whole copy) ∧ store.durable <+: copy.grants
  | _ => True

inductive CleanlyReachable : Registrars sha256 → Prop where
  | start : CleanlyReachable .start
  | step {store store' : Registrars sha256} {event : RegistryEvent}
      (reached : CleanlyReachable store) (clean : store.Clean event)
      (steps : store.step event = some store') : CleanlyReachable store'

theorem CleanlyReachable.reachable {store : Registrars sha256} (reached : store.CleanlyReachable) :
    store.Reachable := by
  induction reached with
  | start => exact .start
  | step _ _ steps ih => exact .step ih steps

/-- What clean steps keep. -/
structure Undisturbed (store : Registrars sha256) : Prop where
  whole : store.stored = none ∨ ∃ copy, store.stored = some (.whole copy)
  allOk : ∀ answer ∈ store.answers, answer.ok = true
  based : ∀ name handle, store.handles name = some handle → handle.Based store.durable
  listed : ∀ before answer after, store.answers = before ++ answer :: after →
    (∀ later ∈ after, ¬ later.grant.SameKey answer.grant) → Listed store.durable answer.grant

theorem undisturbed_start : (start : Registrars sha256).Undisturbed where
  whole := .inl rfl
  allOk := by
    intro answer member
    cases member
  based := by
    intro name handle held
    cases held
  listed := by
    intro before answer after same
    simp [start] at same

variable {store store' : Registrars sha256}

theorem Undisturbed.set (quiet : store.Undisturbed) {name : Nat} {handle : Option (Handle sha256)}
    (based : ∀ new, handle = some new → new.Based store.durable) : (store.set name handle).Undisturbed where
  whole := quiet.whole
  allOk := quiet.allOk
  based := by
    intro other held there
    by_cases same : other = name
    · subst same
      simp only [Registrars.set, Function.update_self] at there
      exact based held there
    · simp only [Registrars.set, Function.update_of_ne same] at there
      exact quiet.based other held there
  listed := quiet.listed

theorem Undisturbed.drew (quiet : store.Undisturbed) (drawn : List (List UInt8)) :
    ({ store with drawn := drawn } : Registrars sha256).Undisturbed :=
  ⟨quiet.whole, quiet.allOk, quiet.based, quiet.listed⟩

/-- A clean rename. -/
theorem Undisturbed.replace (quiet : store.Undisturbed) {name : Nat} {copy : Copy sha256} {grant : Grant}
    (pending : store.handles name = some ⟨copy, some ⟨grant, true⟩⟩)
    (within : store.durable <+: copy.grants) :
    ({ store.answered name copy grant true with stored := some (.whole copy), temp := none } :
      Registrars sha256).Undisturbed := by
  obtain ⟨base, ends, below⟩ := quiet.based _ _ pending
  have grows : store.durable = copy.grants ∨ store.durable ++ [grant] = copy.grants := by
    rw [ends] at within ⊢
    rcases List.prefix_concat_iff.mp within with same | within
    · exact .inl same
    · have equal : store.durable = base := within.eq_of_length (Nat.le_antisymm within.length_le below.length_le)
      exact .inr (by rw [equal])
  refine ⟨.inr ⟨copy, rfl⟩, ?_, ?_, ?_⟩
  · intro answer member
    rcases List.mem_append.mp member with member | last
    · exact quiet.allOk answer member
    · rw [List.mem_singleton.mp last]
  · intro other handle held
    by_cases same : other = name
    · subst same
      simp only [answered, Registrars.set, Function.update_self, Option.some.injEq] at held
      subst held
      exact List.prefix_rfl
    · simp only [answered, Registrars.set, Function.update_of_ne same] at held
      exact (quiet.based other handle held).more within
  · intro before answer after split others
    rcases List.eq_nil_or_concat after with rfl | ⟨init, last, rfl⟩
    · have final := List.append_inj' split rfl
      have same : answer.grant = grant := by
        rw [← List.cons.inj final.2 |>.1]
      show Listed copy.grants answer.grant
      rw [same, ends]
      exact listed_last base grant
    · rw [List.concat_eq_append, ← List.cons_append, ← List.append_assoc] at split
      have final := List.append_inj' split rfl
      have last_ : last.grant = grant := by
        rw [← List.cons.inj final.2 |>.1]
      have old := quiet.listed before answer init final.1 fun later member => others later (by simp [member])
      show Listed copy.grants answer.grant
      rcases grows with same | same
      · exact same ▸ old
      · rw [← same]
        exact old.snoc (last_ ▸ others last (by simp))

theorem Undisturbed.read (quiet : store.Undisturbed) :
    ∃ copy, store.read = .ok copy ∧ copy.grants = store.durable := by
  rcases quiet.whole with none | ⟨copy, whole⟩
  · exact ⟨.empty, by simp [Registrars.read, none], by simp [durable, none, Copy.empty]⟩
  · exact ⟨copy, by simp [Registrars.read, whole], by simp [durable, whole]⟩

theorem Undisturbed.move {event : RegistryEvent} (quiet : store.Undisturbed)
    (moves : store.Move event store') (clean : store.Clean event) : store'.Undisturbed := by
  cases moves with
  | unopened => exact quiet
  | opened absent reads =>
    obtain ⟨copy, same, held⟩ := quiet.read
    rw [same] at reads
    cases reads
    refine quiet.set ?_
    rintro _ ⟨⟩
    exact held ▸ List.prefix_rfl
  | unminted => exact quiet.drew _
  | minting idle unseen mints =>
    obtain ⟨-, -, -, rfl⟩ := Copy.mintPat_ok mints
    refine (quiet.drew _).set ?_
    rintro _ ⟨⟩
    exact ⟨_, rfl, quiet.based _ _ idle⟩
  | unregistered => exact quiet
  | registering idle registers =>
    obtain ⟨-, rfl⟩ := Copy.registerSshKey_ok registers
    refine quiet.set ?_
    rintro _ ⟨⟩
    exact ⟨_, rfl, quiet.based _ _ idle⟩
  | @wrote name copy grant _ pending =>
    cases clean
    have held : (store.set name (some ⟨copy, some ⟨grant, true⟩⟩)).Undisturbed := by
      have old := quiet.based _ _ pending
      refine quiet.set ?_
      rintro _ ⟨⟩
      exact old
    exact ⟨held.whole, held.allOk, held.based, held.listed⟩
  | @renamed name copy grant done pending =>
    obtain ⟨rfl, copy', flush', same, temp, within⟩ := clean
    rw [pending] at same
    cases same
    have replaced : store.renameTemp name copy grant true =
        { store.answered name copy grant true with stored := some (.whole copy), temp := none } := by
      simp only [renameTemp, temp]
    rw [replaced]
    exact quiet.replace pending within
  | closed =>
    refine quiet.set ?_
    rintro _ ⟨⟩

theorem CleanlyReachable.undisturbed (reached : store.CleanlyReachable) : store.Undisturbed := by
  induction reached with
  | start => exact undisturbed_start
  | step _ clean steps ih => exact ih.move (step_move steps) clean

/-- No credential is lost, and none is left behind by a call that failed. -/
theorem registry_keeps (digest : Digest sha256) (reached : store.CleanlyReachable) : store.Keeps := by
  have quiet := reached.undisturbed
  obtain ⟨copy, reads, same⟩ := quiet.read
  refine ⟨⟨copy, reads⟩, ?_, ?_⟩
  · intro before answer after split ok others copy' reads'
    cases reads.symm.trans reads'
    have quietOk (later : Answer) (member : later ∈ after) : later.ok = true :=
      quiet.allOk later (by rw [split]; simp [member])
    have listed := quiet.listed before answer after split fun later member =>
      others later member (quietOk later member)
    rw [← same] at listed
    rcases holds_read reads with held | rfl
    · exact (reached.reachable.drawn digest held).resolves digest listed
    · have nothing : (Copy.empty : Copy sha256).Drawn [] := .empty
      exact nothing.resolves digest listed
  · intro answer member refused
    rw [quiet.allOk answer member] at refused
    cases refused

theorem mint_step {name : Nat} {copy : Copy sha256} {owner : String} {scopes : List String}
    {draws : Fin 8 → List UInt8} {secret : List UInt8}
    (idle : store.handles name = some ⟨copy, none⟩) (unseen : store.Unseen draws secret) :
    store.step (.mintPat name owner scopes draws secret) =
      some (store.beginMint name copy owner scopes draws secret) := by
  simp only [step, idle, if_pos unseen]

end Registrars

end Keeping

namespace RegistryDemo

def pat' : Pat := ⟨String.ofList ((randomToken sha256 [10]).toList.take 16), randomToken sha256 [19]⟩

def draws' : Fin 8 → List UInt8 := fun n => [UInt8.ofNat (n.val + 10)]

def grant : Grant := .pat pat "acme" [SCOPE_READ]

def grant' : Grant := .pat pat' "other" [SCOPE_READ]

def twoOpen : Registrars sha256 :=
  (Registrars.start.set 0 (some ⟨.empty, none⟩)).set 1 (some ⟨.empty, none⟩)

def firstMinted : Registrars sha256 :=
  let store := twoOpen.beginMint 0 .empty "acme" [SCOPE_READ] draws [9]
  (store.writeTemp 0 (Copy.empty.enter grant) grant .done).renameTemp 0 (Copy.empty.enter grant) grant true

/-- Two handles, opened before either mints. -/
def bothMinted : Registrars sha256 :=
  let store := firstMinted.beginMint 1 .empty "other" [SCOPE_READ] draws' [19]
  (store.writeTemp 1 (Copy.empty.enter grant') grant' .done).renameTemp 1 (Copy.empty.enter grant') grant' true

theorem twoOpen_reached : twoOpen.CleanlyReachable := by
  have one : (Registrars.start.set 0 (some ⟨.empty, none⟩) : Registrars sha256).CleanlyReachable :=
    @Registrars.CleanlyReachable.step _ _ _ (.openRegistry 0) .start trivial rfl
  exact @Registrars.CleanlyReachable.step _ _ _ (.openRegistry 1) one trivial rfl

theorem firstMinted_reached : firstMinted.CleanlyReachable := by
  have begun : (twoOpen.beginMint 0 .empty "acme" [SCOPE_READ] draws [9]).CleanlyReachable :=
    @Registrars.CleanlyReachable.step _ _ _ (.mintPat 0 "acme" [SCOPE_READ] draws [9]) twoOpen_reached
      trivial (Registrars.mint_step rfl (by decide))
  have written := @Registrars.CleanlyReachable.step _ _ _ (.write 0 .done) begun rfl rfl
  refine @Registrars.CleanlyReachable.step _ _ _ (.rename 0 true) written ?_ rfl
  exact ⟨rfl, Copy.empty.enter grant, _, rfl, rfl, List.nil_prefix⟩

theorem bothMinted_reached : bothMinted.Reachable := by
  have begun : (firstMinted.beginMint 1 .empty "other" [SCOPE_READ] draws' [19]).Reachable :=
    .step firstMinted_reached.reachable (Registrars.mint_step rfl (by decide))
  have written := @Registrars.Reachable.step _ _ _ (.write 1 .done) begun rfl
  exact @Registrars.Reachable.step _ _ _ (.rename 1 true) written rfl

end RegistryDemo

/-- After the first token was minted. -/
theorem registry_keeps_demo : RegistryDemo.firstMinted.Keeps :=
  Registrars.registry_keeps RegistryDemo.digest RegistryDemo.firstMinted_reached

/-- The second of two handles writes over what the first has minted. -/
theorem second_handle_loses_token :
    RegistryDemo.bothMinted.Reachable ∧ ¬ RegistryDemo.bothMinted.Keeps := by
  refine ⟨RegistryDemo.bothMinted_reached, fun keeps => ?_⟩
  have resolves := keeps.found [] ⟨0, RegistryDemo.grant, true⟩ [⟨1, RegistryDemo.grant', true⟩] rfl rfl
    (by rintro later member - ⟨fingerprint, -, keyed⟩; cases keyed)
    (Copy.empty.enter RegistryDemo.grant') rfl
  have distinct := (RegistryDemo.bothMinted_reached.drawn RegistryDemo.digest (.stored rfl)).distinct
  obtain ⟨pat, member, -⟩ := (Copy.verifyPat_iff RegistryDemo.digest distinct).mp resolves
  simp [Copy.enter, Copy.empty, RegistryDemo.grant'] at member

end Jeryu.Gitd
