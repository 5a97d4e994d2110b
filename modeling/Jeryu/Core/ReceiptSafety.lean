import Jeryu.Core.Receipts

namespace Jeryu.Core

open KeyedMap HashMap LockProgram Relation Journal

section Reviews

variable {call : Call} {core core' : ForgeCore} {owner repo author : String} {number : Nat}
variable {request : CreateReviewRequest} {dismissedReviewId : Option Uuid}

/-- A review is refused, or committed: with the receipt that asks for it before it, where it takes
    an administrator's authority. -/
theorem recordReviewLocked_cases (core : ForgeCore) (owner repo author : String) (number : Nat)
    (request : CreateReviewRequest) (dismissedReviewId : Option Uuid) :
    (∃ error, recordReviewLocked owner repo number author request dismissedReviewId core =
      .refuse error) ∨
    ∃ review draws, review.key = (owner, repo, number) ∧
      ((review.dismissalAuthority = none ∧
          recordReviewLocked owner repo number author request dismissedReviewId core =
            .commit [] draws (writeReview core review request.comments) none (review, false)) ∨
        (review.dismissalAuthority.isSome = true ∧ ∃ entry, entry.Requests review ∧
          recordReviewLocked owner repo number author request dismissedReviewId core =
            .commit [entry] draws (writeReview core review request.comments) none (review, true))) := by
  unfold recordReviewLocked
  dsimp only
  split
  · exact .inl ⟨_, rfl⟩
  · split
    · exact .inl ⟨_, rfl⟩
    · split
      · exact .inl ⟨_, rfl⟩
      · next authority allowed =>
        cases authority with
        | none => exact .inr ⟨_, _, rfl, .inl ⟨rfl, rfl⟩⟩
        | some granted =>
          dsimp only
          split
          · exact .inl ⟨_, rfl⟩
          · next receipt =>
            have asked := auditReceipt_ok receipt
            refine .inr ⟨_, _, rfl, .inr ⟨rfl, _, ?_, rfl⟩⟩
            rw [asked]
            exact ⟨rfl, rfl, rfl⟩

theorem AuditEntry.Requests.ordinary {entry : AuditEntry} {row : Review}
    (asks : entry.Requests row) : entry.Ordinary := by
  obtain ⟨named, phase, -⟩ := asks
  refine ⟨fun closes => ?_, fun closes => ?_⟩
  · cases phase.symm.trans closes.2
  · exact override_ne_dismissal (closes.1.symm.trans named)

/-- The row that is written is asked for by a receipt before it, or needs none. -/
theorem requested_writeReview {review : Review} {comments : List ReviewCommentInput}
    {journal : List Written} (requested : core.state.Requested journal)
    (asked : review.dismissalAuthority.isSome = true →
      ∃ entry, Written.receipt entry ∈ journal ∧ entry.Requests review) :
    (writeReview core review comments).Requested journal := by
  have pushed : ({ core.state with
      reviews := core.state.reviews.push review.key review } : State).Requested journal :=
    requested.push asked
  unfold State.Requested at pushed ⊢
  rw [writeReview_reviews]
  exact pushed

/-- How a commit under no receipt of its own leaves memory and journal. -/
theorem Outcome.leaves_commit {α : Type} (attached : core.storage.isSome = true)
    (audits : List AuditEntry) (draws : Nat) (next : State) (value : α) {left : ForgeCore}
    (leaves : left = (commit audits draws next none value : Outcome α).leaves core) :
    (left.state = next ∨ left.state = core.state) ∧
      (left.journal = core.journal ++ (audits.map .receipt ++ [.snapshot next none]) ∨
        left.journal = core.journal ++ audits.map .receipt) := by
  have journal := Outcome.leaves_journal (commit audits draws next none value : Outcome α) core
  have recorded : core.recorded (audits.map Written.receipt) = audits.map .receipt := by
    unfold ForgeCore.recorded
    rw [if_pos attached]
  rw [← leaves] at journal
  simp only [Outcome.writes, recorded] at journal
  constructor
  · rw [leaves]
    simp only [Outcome.leaves, Outcome.settle]
    split
    · exact .inl rfl
    · exact .inr rfl
  · split at journal
    · exact .inl journal
    · exact .inr (journal.trans (by rw [List.append_nil]))

/-- A commit of rows that were asked for. -/
theorem ForgeCore.Receipted.commit {α : Type} {audits : List AuditEntry} {draws : Nat} {next : State}
    {value : α} (receipted : core.Receipted) (effect : Effect call core core') (onDisk : core.OnDisk)
    (leaves : core' = (Outcome.commit audits draws next none value : Outcome α).leaves core)
    (ordinary : ∀ entry ∈ audits, entry.Ordinary)
    (requested : next.Requested (core.journal ++ audits.map .receipt)) : core'.Receipted := by
  have onward := effect.onward onDisk
  have settled (id : Uuid) (old : id < core.uuids) (merged : core.Settled id) : core'.Settled id :=
    effect.settled merged old
  have plain (write : Written) (member : write ∈ audits.map Written.receipt) : write.Plain core := by
    obtain ⟨entry, carried, rfl⟩ := List.mem_map.mp member
    exact (ordinary entry carried).plain
  obtain ⟨memory, journal⟩ := Outcome.leaves_commit onDisk.attached audits draws next value leaves
  have asked (more : List Written) (prior : core.journal ++ audits.map .receipt ⊆ more) :
      core'.state.Requested more := by
    rcases memory with same | same
    · rw [same]
      exact requested.mono prior
    · rw [same]
      exact receipted.requested.mono (List.Subset.trans (List.subset_append_left _ _) prior)
  rcases journal with written | written
  · refine receipted.step onward written (fun before write prior => ?_) (asked _ ?_) settled
      fun write member id overrides => ?_
    · rcases prefix_append prior with earlier | ⟨more, rfl, last⟩
      · have member : write ∈ audits.map Written.receipt := earlier.subset (by simp)
        exact (plain write member).backed onward (List.subset_append_left _ _)
      · obtain ⟨rfl, rfl⟩ := prefix_singleton last
        rw [List.append_nil]
        exact ⟨requested, fun entry none => (nomatch none)⟩
    · rw [written, ← List.append_assoc]
      exact List.subset_append_left _ _
    · rcases List.mem_append.mp member with receipt | snapshot
      · exact absurd overrides (plain write receipt).not_overrides
      · cases List.mem_singleton.mp snapshot
        exact overrides.elim
  · refine receipted.step onward written (fun before write prior => ?_) (asked _ ?_) settled
      fun write member id overrides => absurd overrides (plain write member).not_overrides
    · have member : write ∈ audits.map Written.receipt := prior.subset (by simp)
      exact (plain write member).backed onward (List.subset_append_left _ _)
    · rw [written]
      exact List.Subset.refl _

theorem dismissReview_receipted {actor : String} {request : DismissReviewRequest}
    {reply : Option (Except Failure Review)}
    (sect : Section (.dismissReview owner repo number actor request) core core' reply)
    (onDisk : core.OnDisk) (receipted : core.Receipted) (closes : core.Closes core') :
    core'.Receipted := by
  have effect := section_effect onDisk.coherent sect
  have onward := effect.onward onDisk
  have settled (id : Uuid) (old : id < core.uuids) (merged : core.Settled id) : core'.Settled id :=
    effect.settled merged old
  cases sect with
  | audit entry audited =>
    have written := core.logged_journal [entry]
    have recorded : core.recorded ([entry].map Written.receipt) = [.receipt entry] := by
      unfold ForgeCore.recorded
      rw [if_pos onDisk.attached]
      rfl
    rw [recorded] at written
    refine receipted.plain onward written (fun write member => ?_) receipted.requested settled
    cases List.mem_singleton.mp member
    refine ⟨Call.Audited.not_override audited fun forges => forges.elim, closes entry ?_⟩
    rw [written, List.drop_left]
    exact member
  | refused audited => exact receipted
  | profile profiled => cases profiled
  | dismissReview =>
    rcases recordReviewLocked_cases core owner repo actor number
      { body := some request.reason, event := .dismissed, comments := []
        expectedHeadSha := some request.expectedHeadSha } (some request.reviewId) with
      ⟨error, refused⟩ | ⟨review, draws, -, ⟨unauthorized, plain⟩ | ⟨granted, entry, asks, audited⟩⟩
    · rw [refused]
      exact receipted
    · refine receipted.commit effect onDisk (by rw [plain])
        (fun _ none => absurd none List.not_mem_nil) ?_
      refine requested_writeReview (by simpa using receipted.requested) fun granted => ?_
      rw [unauthorized] at granted
      cases granted
    · refine receipted.commit effect onDisk (by rw [audited]) (fun other member => ?_) ?_
      · cases List.mem_singleton.mp member
        exact asks.ordinary
      · refine requested_writeReview (receipted.requested.mono (List.subset_append_left _ _)) fun _ => ?_
        exact ⟨entry, List.mem_append_right _ (by simp), asks⟩

/-- The answer that an administrator's dismissal was recorded is so. -/
theorem recordReviewLocked_dismissed {review : Review}
    (effect : Effect call core
      ((recordReviewLocked owner repo number author request dismissedReviewId core).leaves core))
    (onDisk : core.OnDisk)
    (answers : (recordReviewLocked owner repo number author request dismissedReviewId core).answers
      core = .ok (review, true)) :
    review.auditDetail.Dismissed
      ((recordReviewLocked owner repo number author request dismissedReviewId core).leaves core)
      ((recordReviewLocked owner repo number author request dismissedReviewId core).leaves
        core).journal := by
  have after := effect.onDisk onDisk
  rcases recordReviewLocked_cases core owner repo author number request dismissedReviewId with
    ⟨error, refused⟩ | ⟨row, draws, keyed, ⟨unauthorized, plain⟩ | ⟨granted, entry, asks, audited⟩⟩
  · rw [refused] at answers
    cases answers
  · rw [plain] at answers
    simp only [Outcome.answers, Outcome.settle] at answers
    split at answers
    · cases answers
    · cases answers
  · rw [audited] at answers after ⊢
    have journal := Outcome.leaves_journal
      (.commit [entry] draws (writeReview core row request.comments) none (row, true)) core
    simp only [Outcome.answers, Outcome.settle] at answers
    split at answers
    · next persisted =>
      cases answers
      rw [core.persist_logged] at persisted
      have committed := ForgeCore.persist_commits persisted onDisk.attached
      have state : ((Outcome.commit [entry] draws (writeReview core review request.comments) none
          (review, true)).leaves core).state = writeReview core review request.comments := by
        simp only [Outcome.leaves, Outcome.settle]
        rw [core.persist_logged, persisted]
      generalize (Outcome.commit [entry] draws (writeReview core review request.comments) none
        (review, true)).leaves core = left at after journal state ⊢
      simp only [Outcome.writes, if_pos committed] at journal
      obtain ⟨deployments, tables⟩ := ForgeCore.tables_snapshot journal
      rw [← state] at tables journal
      have stored : left.state.reviews.lookup review.key =
          some ((core.state.reviews.lookup review.key).getD [] ++ [review]) := by
        rw [state, writeReview_reviews, lookup_push, if_pos rfl]
      have here : left.state.DismissedAt review.auditDetail (Scoped.slug review.key) :=
        ⟨review.pullNumber, _, review, stored, by simp, granted, rfl⟩
      obtain ⟨live, found⟩ := after.state.rooted.reviews _ _ stored
      refine ⟨live.id, ⟨.snapshot left.state none, ?_, _, live, found, rfl, here⟩,
        after.state.coherent.identified.repoIds _ _ found,
        ForgeCore.keeps_committed (dismissed_stays _) after.state ⟨deployments, tables⟩ found here⟩
      rw [journal]
      simp
    · cases answers

end Reviews

/-- From `seen` on, whatever runs between its sections, the method answers well only where `Q`
    holds. -/
structure Method.Leaves {α : Type} (method : Method α) (Q : ForgeCore → α → Prop)
    (seen : ForgeCore) : Prop where
  ends : method.run.EndsFrom ForgeCore.Onward (fun core reply => ∀ a, reply = .ok a → Q core a) seen

/-- From `seen` on, whatever runs between its sections, each section moves the core along `R`. -/
structure Method.MovesFrom {α : Type} (method : Method α) (R : ForgeCore → ForgeCore → Prop)
    (seen : ForgeCore) : Prop where
  meets : method.run.MeetsFrom ForgeCore.Onward (fun core core' _ => R core core') seen

namespace Method

variable {α β : Type} {seen : ForgeCore} {P : ForgeCore → α → Prop} {Q : ForgeCore → β → Prop}
variable {R : ForgeCore → ForgeCore → Prop} {method : Method α} {f : α → Method β}

theorem leaves_pure {a : β} (holds : Q seen a) : (pure a : Method β).Leaves Q seen :=
  ⟨fun _ same => Except.ok.inj same ▸ holds⟩

theorem leaves_throw (failure : Failure) : (throw failure : Method β).Leaves Q seen :=
  ⟨fun _ same => nomatch same⟩

theorem leaves_reading {g : ForgeCore → Except ForgeError α}
    (holds : ∀ core, seen.Onward core → ∀ a, g core = .ok a → P core a) :
    (reading g).Leaves P seen :=
  ⟨fun core ahead a same => holds core ahead a (mapError_eq_ok.mp same)⟩

theorem leaves_locked {g : ForgeCore → Outcome α}
    (holds : ∀ core, seen.Onward core → ∀ a, (g core).answers core = .ok a →
      P ((g core).leaves core) a) : (locked g).Leaves P seen :=
  ⟨fun core ahead a same => holds core ahead a same⟩

theorem ReadOnly.leaves (readOnly : method.ReadOnly) :
    method.Leaves (fun core _ => seen.Onward core) seen := by
  have moves : method.run.MeetsFrom ForgeCore.Onward (fun s s' _ => s.Onward s') seen :=
    (readOnly.meets.meetsFrom seen).mono fun _ _ _ none => none.elim
  have ends := moves.ends_ahead (fun _ _ _ => .trans) (.refl seen)
  exact ⟨ends.mono fun core reply ahead _ _ => ahead⟩

theorem Leaves.bind (first : method.Leaves P seen)
    (rest : ∀ a core, P core a → (f a).Leaves Q core) : (method >>= f).Leaves Q seen := by
  refine ⟨Program.EndsFrom.bind first.ends fun reply core holds => ?_⟩
  cases reply with
  | ok a => exact (rest a core (holds a rfl)).ends
  | error failure => exact fun _ same => nomatch same

/-- What a method left, whatever is told of it afterwards. -/
theorem Leaves.inspect {after : Except Failure α → Method Unit} (first : method.Leaves P seen)
    (quiet : ∀ a, after (.ok a) = pure ()) : (method.inspect after).Leaves P seen := by
  refine ⟨Program.EndsFrom.bind first.ends fun reply core holds => ?_⟩
  cases reply with
  | ok a =>
    rw [quiet]
    exact holds
  | error failure =>
    refine Program.EndsFrom.bind (Program.endsFrom_of_every (fun _ _ => True.intro) _ _) ?_
    intro told later _
    cases told with
    | ok _ => exact fun _ same => nomatch same
    | error failure => exact fun _ same => nomatch same

theorem movesFrom_pure (a : α) : (pure a : Method α).MovesFrom R seen := ⟨True.intro⟩

theorem movesFrom_throw (failure : Failure) : (throw failure : Method α).MovesFrom R seen :=
  ⟨True.intro⟩

theorem MovesFrom.ite {p : Prop} [Decidable p] {yes no : Method α} (left : yes.MovesFrom R seen)
    (right : no.MovesFrom R seen) : (if p then yes else no).MovesFrom R seen := by
  split
  · exact left
  · exact right

/-- An early refusal in a `do` block. -/
theorem movesFrom_unless {p : Prop} [Decidable p] {failure : Failure} {rest : Unit → Method β}
    (after : (rest ()).MovesFrom R seen) :
    (if p then (throw failure : Method Unit) >>= fun r => rest r else rest ()).MovesFrom R seen :=
  MovesFrom.ite ⟨True.intro⟩ after

theorem ReadOnly.movesFrom_bind (readOnly : method.ReadOnly)
    (rest : ∀ a core, seen.Onward core → (f a).MovesFrom R core) : (method >>= f).MovesFrom R seen := by
  refine ⟨Program.MeetsFrom.bind (P := fun _ => True) (fun _ _ _ => .trans) .refl (fun _ => True.intro)
    ((readOnly.meets.meetsFrom seen).mono fun _ _ _ none => none.elim) fun reply core ahead => ?_⟩
  cases reply with
  | ok a => exact (rest a core ahead).meets
  | error failure => exact True.intro

theorem movesFrom_ofExcept_bind (result : Except ForgeError α)
    (rest : ∀ a, (f a).MovesFrom R seen) : (ofExcept result >>= f).MovesFrom R seen := by
  cases result with
  | ok a => exact ⟨(rest a).meets⟩
  | error error => exact ⟨True.intro⟩

theorem movesFrom_locked {g : ForgeCore → Outcome α}
    (moved : ∀ core, seen.Onward core → R core ((g core).leaves core)) : (locked g).MovesFrom R seen :=
  ⟨fun core ahead => ⟨moved core ahead, True.intro⟩⟩

theorem movesFrom_locked_bind {g : ForgeCore → Outcome α}
    (moved : ∀ core, seen.Onward core → R core ((g core).leaves core))
    (rest : ∀ core, seen.Onward core → ∀ a, (g core).answers core = .ok a →
      (f a).MovesFrom R ((g core).leaves core)) : (locked g >>= f).MovesFrom R seen := by
  refine ⟨fun core ahead => ⟨moved core ahead, ?_⟩⟩
  have after := rest core ahead
  show (ExceptT.bindCont f ((g core).settle core).1 : Program _ _).MeetsFrom _ _ _
  unfold Outcome.answers at after
  cases answered : ((g core).settle core).1 with
  | ok a => exact (after a answered).meets
  | error failure => exact True.intro

theorem MovesFrom.ignored (first : method.MovesFrom R seen) : method.ignored.MovesFrom R seen :=
  ⟨Program.MeetsFrom.bind_any (first.meets.mono fun _ _ _ moved _ => moved) fun _ _ => True.intro⟩

theorem MovesFrom.bind_any (first : method.MovesFrom R seen) (rest : ∀ a core, (f a).MovesFrom R core) :
    (method >>= f).MovesFrom R seen := by
  refine ⟨Program.MeetsFrom.bind_any (first.meets.mono fun _ _ _ moved _ => moved) fun reply core => ?_⟩
  cases reply with
  | ok a => exact (rest a core).meets
  | error failure => exact True.intro

theorem MovesFrom.inspect {after : Except Failure α → Method Unit} (first : method.MovesFrom R seen)
    (rest : ∀ reply core, (after reply).MovesFrom R core) :
    (method.inspect after).MovesFrom R seen := by
  refine ⟨Program.MeetsFrom.bind_any (first.meets.mono fun _ _ _ moved _ => moved) fun reply core => ?_⟩
  refine Program.MeetsFrom.bind_any ((rest reply core).meets.mono fun _ _ _ moved _ => moved)
    fun told later => ?_
  cases told with
  | ok _ => exact True.intro
  | error failure => exact True.intro

end Method

section Closing

variable {call : Call} {core core' seen : ForgeCore} {writes : List Written}
variable {owner repo author actor action subject : String} {number : Nat} {phase : AuditPhase}
variable {detail : AuditDetail}

theorem ForgeCore.closes_of_open (journal : core'.journal = core.journal ++ writes)
    (unclosed : ∀ entry, Written.receipt entry ∈ writes → ¬entry.ClosesDismissal) :
    core.Closes core' := by
  intro entry member closing
  rw [journal, List.drop_left] at member
  exact absurd closing (unclosed entry member)

theorem ForgeCore.closes_same (journal : core'.journal = core.journal) : core.Closes core' := by
  intro entry member
  rw [journal, List.drop_length] at member
  cases member

/-- A commit appends the receipts that go before it, and its snapshot. -/
theorem Outcome.closes_commit {α : Type} {audits : List AuditEntry} {draws : Nat} {next : State}
    {carried : Option AuditEntry} {value : α} (unclosed : ∀ entry ∈ audits, ¬entry.ClosesDismissal) :
    core.Closes ((commit audits draws next carried value : Outcome α).leaves core) := by
  refine ForgeCore.closes_of_open (Outcome.leaves_journal _ core) fun other member => ?_
  rcases List.mem_append.mp member with receipt | snapshot
  · obtain ⟨entry, among, same⟩ := List.mem_map.mp (ForgeCore.mem_recorded receipt)
    cases same
    exact unclosed other among
  · split at snapshot
    · cases List.mem_singleton.mp snapshot
    · cases snapshot

theorem recordReviewLocked_closes (core : ForgeCore) (owner repo author : String) (number : Nat)
    (request : CreateReviewRequest) (dismissedReviewId : Option Uuid) :
    core.Closes
      ((recordReviewLocked owner repo number author request dismissedReviewId core).leaves core) := by
  rcases recordReviewLocked_cases core owner repo author number request dismissedReviewId with
    ⟨error, refused⟩ | ⟨row, draws, -, ⟨-, plain⟩ | ⟨-, entry, asks, audited⟩⟩
  · rw [refused]
    exact ForgeCore.closes_same rfl
  · rw [plain]
    exact Outcome.closes_commit fun _ none => absurd none List.not_mem_nil
  · rw [audited]
    refine Outcome.closes_commit fun other member => ?_
    cases List.mem_singleton.mp member
    exact asks.ordinary.1

theorem appendAuditWith_movesFrom
    (told : action = dismissalAuditAction → phase = .completed → ∀ core, seen.Onward core →
      detail.Dismissed core core.journal) :
    (appendAuditWith actor action subject phase detail).MovesFrom ForgeCore.Closes seen := by
  refine Method.movesFrom_locked fun core ahead => ?_
  cases receipt : core.auditReceipt actor action subject phase detail with
  | error error =>
    exact ForgeCore.closes_same rfl
  | ok entry =>
    have known := auditReceipt_ok receipt
    intro other member closing
    have journal : ((Outcome.direct [entry] core.state ()).leaves core).journal =
        core.journal ++ core.recorded [.receipt entry] := core.logged_journal [entry]
    rw [journal, List.drop_left] at member
    cases List.mem_singleton.mp (ForgeCore.mem_recorded member)
    rw [known] at closing ⊢
    exact told closing.1 closing.2 core ahead

theorem appendAuditAs_movesFrom (unclosed : phase ≠ .completed) :
    (appendAuditAs actor action subject phase).MovesFrom ForgeCore.Closes seen :=
  appendAuditWith_movesFrom fun _ completed => absurd completed unclosed

/-- The calls that close dismissals. -/
def Call.Reviews : Call → Prop
  | .createReview .. | .dismissReview .. => True
  | _ => False

theorem Call.Audited.not_dismissal (audited : call.Audited action phase) (unforged : ¬call.Forges)
    (other : ¬call.Reviews) : ¬(action = dismissalAuditAction ∧ phase = .completed) := by
  rintro ⟨named, completed⟩
  cases audited with
  | appendAuditAs => exact unforged ⟨completed, .inl named⟩
  | createReview | dismissReview => exact other True.intro
  | setRepositoryArchived | setDefaultBranchProtectionOptOut | deleteBranchProtection
  | rekeyEncodedBranchProtections | recordPullRequestBase | requestedOverride | refusedOverride
  | finalizeMergeWithOverride | renameRepository => exact absurd named (by decide +kernel)

theorem Effect.closes (effect : Effect call core core') (unforged : ¬call.Forges)
    (other : ¬call.Reviews) : core.Closes core' := by
  obtain ⟨writes, journal, known⟩ := effect.written
  refine ForgeCore.closes_of_open journal fun entry member => ?_
  exact Call.Audited.not_dismissal (known _ member).2 unforged other

theorem recordReview_movesFrom (call : Call) {request : CreateReviewRequest} {dismissedReviewId : Option Uuid}
    (onDisk : seen.OnDisk)
    (effects : ∀ core : ForgeCore, core.OnDisk → Effect call core
      ((recordReviewLocked owner repo number author request dismissedReviewId core).leaves core)) :
    (recordReview owner repo number author request dismissedReviewId).MovesFrom ForgeCore.Closes
      seen := by
  unfold recordReview
  refine (ensureRepositoryWritable_readOnly owner repo).movesFrom_bind fun _ first ahead => ?_
  refine Method.movesFrom_ofExcept_bind _ fun _ => ?_
  refine Method.movesFrom_locked_bind
    (fun core _ => recordReviewLocked_closes core owner repo author number request dismissedReviewId)
    fun core later reply answers => ?_
  obtain ⟨review, audited⟩ := reply
  cases audited with
  | false => exact Method.movesFrom_pure review
  | true =>
    have found := later.onDisk (ahead.onDisk onDisk)
    have dismissed := recordReviewLocked_dismissed (effects core found) found answers
    have closing : (appendAuditWith author dismissalAuditAction s!"{owner}/{repo}#{number}" .completed
        review.auditDetail).MovesFrom ForgeCore.Closes
          ((recordReviewLocked owner repo number author request dismissedReviewId core).leaves core) :=
      appendAuditWith_movesFrom fun _ _ last onward =>
        dismissed.onward onward onward.journal.subset
    exact closing.ignored.bind_any fun _ _ => Method.movesFrom_pure review

theorem createReview_movesFrom {request : CreateReviewRequest} (onDisk : seen.OnDisk) :
    (createReview owner repo number author request).MovesFrom ForgeCore.Closes seen := by
  unfold createReview
  split
  · exact Method.movesFrom_throw _
  · refine recordReview_movesFrom (.createReview owner repo number author request) onDisk
      fun core found => ?_
    exact recordReviewLocked_effect found.coherent rfl (fun none => (nomatch none)) .createReview

theorem dismissReview_movesFrom {request : DismissReviewRequest} (onDisk : seen.OnDisk) :
    (dismissReview owner repo number actor request).MovesFrom ForgeCore.Closes seen := by
  have refused {targetId : Uuid} (core : ForgeCore) :
      (auditRefusedDismissal owner repo number actor targetId).MovesFrom ForgeCore.Closes core := by
    unfold auditRefusedDismissal
    refine Method.ReadOnly.movesFrom_bind (Method.writes_reading _) fun author later _ => ?_
    refine Method.MovesFrom.ite ?_ (Method.movesFrom_pure _)
    exact (appendAuditAs_movesFrom (by decide)).ignored
  unfold dismissReview
  refine Method.movesFrom_unless (Method.movesFrom_unless ?_)
  refine Method.MovesFrom.inspect (recordReview_movesFrom
    (.dismissReview owner repo number actor request) onDisk fun core found => ?_) ?_
  · exact recordReviewLocked_effect found.coherent rfl (fun _ => True.intro) .dismissReview
  · intro reply core
    cases reply with
    | ok _ => exact Method.movesFrom_pure _
    | error _ => exact refused core

/-- What the sections of a call say of dismissals is so. -/
theorem Call.movesFrom (call : Call) (unforged : ¬call.Forges) (onDisk : seen.OnDisk) :
    call.method.MovesFrom ForgeCore.Closes seen := by
  have plain (other : ¬call.Reviews) : call.method.MovesFrom ForgeCore.Closes seen := by
    have sections := (call_writes call).meets.meetsFrom (T := ForgeCore.Onward) seen
    refine ⟨sections.mono_of onDisk (fun _ _ found ahead => ahead.onDisk found)
      (fun _ _ _ found sect => (section_effect found.coherent sect).onward found)
      fun _ _ _ found sect => ?_⟩
    exact (section_effect found.coherent sect).closes unforged other
  cases call with
  | createReview owner repo number author request =>
    change (Core.createReview owner repo number author request).MovesFrom _ _
    exact createReview_movesFrom onDisk
  | dismissReview owner repo number actor request =>
    change (Core.dismissReview owner repo number actor request).MovesFrom _ _
    exact dismissReview_movesFrom onDisk
  | _ => exact plain fun reviews => reviews

end Closing

section Promises

variable {seen : ForgeCore} {owner repo : String} {number : Nat}

/-- The receipt that asks for the override is in the journal. -/
def MergeOverridePermit.Asked (permit : MergeOverridePermit) (journal : List Written) : Prop :=
  ∃ entry, Written.receipt entry ∈ journal ∧ entry.action = mergeOverrideAction ∧
    entry.phase = .requested ∧ entry.actor = permit.actor ∧ entry.subject = permit.subject ∧
    entry.detail = permit.auditDetail none

/-- What is so once the call has answered. -/
def Call.Promises : (call : Call) → ForgeCore → call.Reply → Prop
  | .prepareMergeOverride .., core, reply =>
    ∀ answer, reply = .ok answer → answer.2.Asked core.journal
  | _, _, _ => True

theorem prepareMergeOverride_leaves {request : MergeOverrideRequest} (onDisk : seen.OnDisk) :
    (prepareMergeOverride owner repo number request).Leaves
      (fun core answer => answer.2.Asked core.journal) seen := by
  unfold prepareMergeOverride
  refine Method.Leaves.inspect ?_ fun _ => rfl
  unfold prepareMergeOverrideInner
  refine (ensureRepositoryWritable_readOnly owner repo).leaves.bind fun _ first ahead => ?_
  refine (requireStorage_readOnly _).leaves.bind fun _ second later => ?_
  split
  · exact Method.leaves_throw _
  · have found : second.OnDisk := later.onDisk (ahead.onDisk onDisk)
    refine Method.Leaves.bind (Method.leaves_reading (P := fun core _ => core.OnDisk)
      fun core read _ _ => read.onDisk found) fun answer third here => ?_
    obtain ⟨target, permit⟩ := answer
    refine Method.Leaves.bind (P := fun core _ => permit.Asked core.journal)
      (Method.leaves_locked fun core last _ answers => ?_) fun _ core asked => Method.leaves_pure asked
    have attached := (last.onDisk here).attached
    cases receipt : core.auditReceipt permit.actor mergeOverrideAction permit.subject .requested
      (permit.auditDetail none) with
    | error error =>
      simp only [receipt] at answers
      cases answers
    | ok entry =>
      have known := auditReceipt_ok receipt
      refine ⟨entry, ?_, by rw [known], by rw [known], by rw [known], by rw [known], by rw [known]⟩
      have journal : ((Outcome.direct [entry] core.state ()).leaves core).journal =
          core.journal ++ core.recorded [.receipt entry] := core.logged_journal [entry]
      show _ ∈ ((Outcome.direct [entry] core.state ()).leaves core).journal
      rw [journal]
      unfold ForgeCore.recorded
      rw [if_pos attached]
      exact List.mem_append_right _ List.mem_cons_self

theorem MergeOverridePermit.Asked.mono {permit : MergeOverridePermit} {journal more : List Written}
    (asked : permit.Asked journal) (prior : journal ⊆ more) : permit.Asked more := by
  obtain ⟨entry, member, rest⟩ := asked
  exact ⟨entry, prior member, rest⟩

theorem Call.promises_cases (call : Call) :
    (∃ owner repo number request, call = .prepareMergeOverride owner repo number request) ∨
      ∀ core reply, call.Promises core reply := by
  cases call with
  | prepareMergeOverride owner repo number request => exact .inl ⟨owner, repo, number, request, rfl⟩
  | _ => exact .inr fun _ _ => True.intro

theorem Call.promises (call : Call) (onDisk : seen.OnDisk) :
    call.method.run.EndsFrom ForgeCore.Onward call.Promises seen := by
  rcases call.promises_cases with ⟨owner, repo, number, request, rfl⟩ | every
  · change (Core.prepareMergeOverride owner repo number request).run.EndsFrom _
      (fun core reply => ∀ answer, reply = .ok answer → answer.2.Asked core.journal) _
    exact (prepareMergeOverride_leaves onDisk).ends
  · exact Program.endsFrom_of_every every _ _

theorem Call.Promises.onward {call : Call} {core core' : ForgeCore} {reply : call.Reply}
    (promises : call.Promises core reply) (onward : core.Onward core') : call.Promises core' reply := by
  cases call with
  | prepareMergeOverride =>
    exact fun answer same => (promises answer same).mono onward.journal.subset
  | _ => exact True.intro

end Promises

end Jeryu.Core
