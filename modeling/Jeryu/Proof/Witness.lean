import Mathlib.Data.List.Perm.Basic
import Jeryu.Proof.Engine

/-!
What evidence a witness takes. Of two entries for one lane only the later one is looked at, so a
lane that failed and passed is judged by the order of the list.
-/

namespace Jeryu.Proof

open KeyedMap KeyedFold

section Evidence

variable {evidence evidence' : List ProofEvidence} {name : String} {entry : ProofEvidence}

theorem lookup_evidenceByLane (evidence : List ProofEvidence) (name : String) :
    (evidenceByLane evidence).lookup name = standing ProofEvidence.lane .put evidence name :=
  @lookup_foldl_applyAt _ _ _ _ ProofEvidence.lane Action.put evidence name

theorem lookup_none : (evidenceByLane evidence).lookup name = none ↔
    ∀ entry ∈ evidence, entry.lane ≠ name := by
  rw [lookup_evidenceByLane, standing_put_eq_none]

theorem lookup_some (found : (evidenceByLane evidence).lookup name = some entry) :
    entry ∈ evidence ∧ entry.lane = name := by
  rw [lookup_evidenceByLane] at found
  obtain ⟨before, event, after, rfl, own, put, -⟩ := (standing_eq_some_iff _ _).mp found
  cases put
  exact ⟨by simp, own⟩

end Evidence

/-- Some entry for the lane passed. -/
def Passed (evidence : List ProofEvidence) (name : String) : Prop :=
  ∃ entry ∈ evidence, entry.lane = name ∧ entry.success = true

/-- Some entry for the lane failed. -/
def Failed (evidence : List ProofEvidence) (name : String) : Prop :=
  ∃ entry ∈ evidence, entry.lane = name ∧ entry.success = false

/-- Every required lane has evidence, and none of it failed. -/
def Clean (lanes : List ProofLane) (evidence : List ProofEvidence) : Prop :=
  ∀ lane ∈ lanes, lane.required = true →
    (∃ entry ∈ evidence, entry.lane = lane.name) ∧ ¬Failed evidence lane.name

/-- Whether an entry is for a lane the plan requires. -/
def concerns (lanes : List ProofLane) (entry : ProofEvidence) : Bool :=
  lanes.any fun lane => lane.required && lane.name == entry.lane

/-- A witness is given for clean evidence alone, in whatever order it is listed. -/
structure Judges (plan : ProofPlan) (evidence : List ProofEvidence) : Prop where
  clean : ∀ listed, listed.Perm evidence → ∀ id now,
    (∃ witness, verify plan listed id now = .ok witness) ↔ Clean plan.lanes evidence
  order : ∀ listed, listed.Perm evidence → ∀ id now,
    verify plan listed id now = verify plan evidence id now
  failed : ∀ entry ∈ evidence, concerns plan.lanes entry = true → entry.success = false →
    ∀ listed, listed.Perm evidence → ∀ id now, ∃ blocker, verify plan listed id now = .error blocker
  others : ∀ listed, (listed.filter (concerns plan.lanes)).Perm (evidence.filter (concerns plan.lanes)) →
    ∀ id now, verify plan listed id now = verify plan evidence id now

/-- A required lane of which evidence passed and failed comes after one of which none passed. -/
def Settled (lanes : List ProofLane) (evidence : List ProofEvidence) : Prop :=
  ∀ before lane after, lanes = before ++ lane :: after → lane.required = true →
    Passed evidence lane.name → Failed evidence lane.name →
      ∃ earlier ∈ before, earlier.required = true ∧ ¬Passed evidence earlier.name

section Verdict

variable {evidence listed : List ProofEvidence} {name : String} {lane : ProofLane}
variable {lanes before after : List ProofLane} {plan : ProofPlan}

theorem passed_perm (same : listed.Perm evidence) : Passed listed name ↔ Passed evidence name := by
  unfold Passed
  simp only [same.mem_iff]

theorem failed_perm (same : listed.Perm evidence) : Failed listed name ↔ Failed evidence name := by
  unfold Failed
  simp only [same.mem_iff]

theorem Clean.cons : Clean (lane :: lanes) evidence ↔
    (lane.required = true → (∃ entry ∈ evidence, entry.lane = lane.name) ∧ ¬Failed evidence lane.name) ∧
      Clean lanes evidence := by
  unfold Clean
  exact List.forall_mem_cons

theorem lookup_passed (passed : Passed evidence name) (unfailed : ¬Failed evidence name) :
    ∃ entry, (evidenceByLane evidence).lookup name = some entry ∧ entry.success = true := by
  cases found : (evidenceByLane evidence).lookup name with
  | none =>
    obtain ⟨entry, member, own, -⟩ := passed
    exact absurd own (lookup_none.mp found entry member)
  | some entry =>
    obtain ⟨member, own⟩ := lookup_some found
    refine ⟨entry, rfl, ?_⟩
    cases outcome : entry.success with
    | true => rfl
    | false => exact absurd ⟨entry, member, own, outcome⟩ unfailed

theorem lookup_failed (unpassed : ¬Passed evidence name) :
    (evidenceByLane evidence).lookup name = none ∨
      ∃ entry, (evidenceByLane evidence).lookup name = some entry ∧ entry.success = false := by
  cases found : (evidenceByLane evidence).lookup name with
  | none => exact .inl rfl
  | some entry =>
    obtain ⟨member, own⟩ := lookup_some found
    refine .inr ⟨entry, rfl, ?_⟩
    cases outcome : entry.success with
    | true => exact absurd ⟨entry, member, own, outcome⟩ unpassed
    | false => rfl

theorem checkLanes_skip {byLane : HashMap String ProofEvidence} (free : lane.required = false) :
    checkLanes byLane (lane :: lanes) = checkLanes byLane lanes := by
  rw [checkLanes, free]
  rfl

theorem checkLanes_passed (required : lane.required = true) (passed : Passed evidence lane.name)
    (unfailed : ¬Failed evidence lane.name) :
    checkLanes (evidenceByLane evidence) (lane :: lanes) = checkLanes (evidenceByLane evidence) lanes := by
  obtain ⟨entry, found, success⟩ := lookup_passed passed unfailed
  rw [checkLanes, if_pos required, found]
  exact if_pos success

/-- What stops the check at a lane that did not pass. -/
theorem checkLanes_stops (lanes : List ProofLane) (required : lane.required = true) (unpassed : ¬Passed evidence lane.name) :
    checkLanes (evidenceByLane evidence) (lane :: lanes) = .error (.missingEvidence lane.name) ∧
        ¬Failed evidence lane.name ∨
      checkLanes (evidenceByLane evidence) (lane :: lanes) = .error (.failedLane lane.name) ∧
        Failed evidence lane.name := by
  rcases lookup_failed unpassed with found | ⟨entry, found, failure⟩
  · left
    refine ⟨?_, fun ⟨entry, member, own, _⟩ => lookup_none.mp found entry member own⟩
    rw [checkLanes, if_pos required, found]
  · right
    obtain ⟨member, own⟩ := lookup_some found
    refine ⟨?_, entry, member, own, failure⟩
    rw [checkLanes, if_pos required, found]
    simp [failure]

theorem Settled.tail (settled : Settled (lane :: lanes) evidence)
    (free : lane.required = true → Passed evidence lane.name) : Settled lanes evidence := by
  intro before later after split required passed failed
  obtain ⟨earlier, member, required', unpassed⟩ :=
    settled (lane :: before) later after (by rw [split, List.cons_append]) required passed failed
  rcases List.mem_cons.mp member with rfl | inside
  · exact absurd (free required') unpassed
  · exact ⟨earlier, inside, required', unpassed⟩

theorem Settled.head (settled : Settled (lane :: lanes) evidence) (required : lane.required = true)
    (passed : Passed evidence lane.name) : ¬Failed evidence lane.name := by
  intro failed
  obtain ⟨earlier, member, -⟩ := settled [] lane lanes rfl required passed failed
  cases member

/-- Settled evidence is accepted where it is clean. -/
theorem checkLanes_ok (settled : Settled lanes evidence) :
    checkLanes (evidenceByLane evidence) lanes = .ok () ↔ Clean lanes evidence := by
  induction lanes with
  | nil => simp [checkLanes, Clean]
  | cons lane rest ih =>
    rw [Clean.cons]
    cases required : lane.required with
    | false =>
      rw [checkLanes_skip required]
      simpa using ih (settled.tail (by simp [required]))
    | true =>
      by_cases passed : Passed evidence lane.name
      · have unfailed := settled.head required passed
        have ⟨entry, member, own, _⟩ := passed
        rw [checkLanes_passed required passed unfailed, ih (settled.tail fun _ => passed)]
        simp only [true_implies]
        exact (and_iff_right ⟨⟨entry, member, own⟩, unfailed⟩).symm
      · have unclean : ¬((∃ entry ∈ evidence, entry.lane = lane.name) ∧ ¬Failed evidence lane.name) := by
          intro ⟨⟨entry, member, own⟩, unfailed⟩
          cases outcome : entry.success with
          | true => exact passed ⟨entry, member, own, outcome⟩
          | false => exact unfailed ⟨entry, member, own, outcome⟩
        rcases checkLanes_stops rest required passed with ⟨stops, -⟩ | ⟨stops, -⟩ <;>
          simp [stops, unclean]

/-- The lists hold the same outcomes for the lanes a plan requires. -/
def Agree (lanes : List ProofLane) (listed evidence : List ProofEvidence) : Prop :=
  ∀ lane ∈ lanes, lane.required = true →
    (Passed listed lane.name ↔ Passed evidence lane.name) ∧
      (Failed listed lane.name ↔ Failed evidence lane.name)

/-- Settled evidence is judged alike in every order. -/
theorem checkLanes_agree (settled : Settled lanes evidence) (agree : Agree lanes listed evidence) :
    checkLanes (evidenceByLane listed) lanes = checkLanes (evidenceByLane evidence) lanes := by
  induction lanes with
  | nil => rfl
  | cons lane rest ih =>
    have later : Agree rest listed evidence := fun other member => agree other (List.mem_cons_of_mem _ member)
    cases required : lane.required with
    | false =>
      rw [checkLanes_skip required, checkLanes_skip required]
      exact ih (settled.tail (by simp [required])) later
    | true =>
      obtain ⟨passes, fails⟩ := agree lane List.mem_cons_self required
      by_cases passed : Passed evidence lane.name
      · have unfailed := settled.head required passed
        rw [checkLanes_passed required passed unfailed,
          checkLanes_passed required (passes.mpr passed) (fails.not.mpr unfailed)]
        exact ih (settled.tail fun _ => passed) later
      · rcases checkLanes_stops rest required passed with ⟨stops, failed⟩ | ⟨stops, failed⟩ <;>
          rcases checkLanes_stops rest required (passes.not.mpr passed) with ⟨stops', failed'⟩ |
            ⟨stops', failed'⟩
        · rw [stops, stops']
        · exact absurd (fails.mp failed') failed
        · exact absurd (fails.mpr failed) failed'
        · rw [stops, stops']

end Verdict

section Orders

variable {evidence listed : List ProofEvidence} {name : String} {lane : ProofLane}
variable {lanes before after : List ProofLane} {plan : ProofPlan} {outcome : Bool}

/-- The entries with the one outcome behind all others. -/
def last (outcome : Bool) (evidence : List ProofEvidence) : List ProofEvidence :=
  evidence.filter (fun entry => entry.success != outcome) ++
    evidence.filter fun entry => !(entry.success != outcome)

theorem last_perm (outcome : Bool) (evidence : List ProofEvidence) :
    (last outcome evidence).Perm evidence := List.filter_append_perm _ _

/-- Listed behind all others, an outcome decides on every lane that has it. -/
theorem lookup_last {entry entry' : ProofEvidence} (member : entry ∈ evidence)
    (own : entry.lane = name) (has : entry.success = outcome)
    (found : (evidenceByLane (last outcome evidence)).lookup name = some entry') :
    entry'.success = outcome := by
  have sorted : (last outcome evidence).Pairwise
      fun a b => a.success = outcome → b.success = outcome := by
    refine List.pairwise_append.mpr ⟨?_, ?_, ?_⟩
    · exact List.pairwise_of_forall_mem_list fun a inside b _ same => by
        simpa [same] using (List.mem_filter.mp inside).2
    · exact List.pairwise_of_forall_mem_list fun a _ b inside _ => by
        simpa using (List.mem_filter.mp inside).2
    · intro a _ b inside _
      simpa using (List.mem_filter.mp inside).2
  rw [lookup_evidenceByLane] at found
  obtain ⟨before, event, after, split, same, put, left⟩ := (standing_eq_some_iff _ _).mp found
  cases put
  have inside : entry ∈ last outcome evidence := (last_perm outcome evidence).mem_iff.mpr member
  rw [split] at inside sorted
  rcases List.mem_append.mp inside with front | back
  · exact (List.pairwise_append.mp sorted).2.2 entry front entry' List.mem_cons_self has
  · rcases List.mem_cons.mp back with rfl | later
    · exact has
    · have equal := Action.leaves_put.mp (left entry later own)
      rw [← equal]
      exact has

/-- With the passed entries last, no lane fails of which evidence passed. -/
theorem failed_last (stops : checkLanes (evidenceByLane (last true evidence)) lanes =
    .error (.failedLane name)) : ¬Passed evidence name := by
  intro ⟨entry, member, own, success⟩
  induction lanes with
  | nil => cases stops
  | cons lane rest ih =>
    rw [checkLanes] at stops
    split at stops
    · split at stops
      · cases stops
      · next entry' found =>
        split at stops
        · exact ih stops
        · next failure =>
          cases stops
          exact failure (lookup_last member own success found)
    · exact ih stops

/-- With the failed entries last, the check stops at the first lane of which evidence failed. -/
theorem stops_last (required : lane.required = true) (passed : Passed evidence lane.name)
    (failed : Failed evidence lane.name)
    (free : ∀ earlier ∈ before, earlier.required = true → Passed evidence earlier.name) :
    ∃ name, Passed evidence name ∧
      checkLanes (evidenceByLane (last false evidence)) (before ++ lane :: after) =
        .error (.failedLane name) := by
  have stops (lane : ProofLane) (rest : List ProofLane) (required : lane.required = true)
      (failed : Failed evidence lane.name) :
      checkLanes (evidenceByLane (last false evidence)) (lane :: rest) = .error (.failedLane lane.name) := by
    obtain ⟨entry, member, own, failure⟩ := failed
    rw [checkLanes, if_pos required]
    cases found : (evidenceByLane (last false evidence)).lookup lane.name with
    | none => exact absurd own (lookup_none.mp found entry ((last_perm _ _).mem_iff.mpr member))
    | some entry' => simp [lookup_last member own failure found]
  induction before with
  | nil => exact ⟨lane.name, passed, stops lane after required failed⟩
  | cons first rest ih =>
    have later := ih fun earlier member => free earlier (List.mem_cons_of_mem _ member)
    rw [List.cons_append]
    cases needed : first.required with
    | false =>
      rw [checkLanes_skip needed]
      exact later
    | true =>
      have passes := free first List.mem_cons_self needed
      by_cases fails : Failed evidence first.name
      · exact ⟨first.name, passes, stops first _ needed fails⟩
      · have same := last_perm false evidence
        rw [checkLanes_passed needed ((passed_perm same).mpr passes) ((failed_perm same).not.mpr fails)]
        exact later

end Orders

section Judging

variable {evidence listed : List ProofEvidence} {name : String} {lanes : List ProofLane}
variable {plan : ProofPlan} {id : String} {now : Nat}

theorem verify_ok : (∃ witness, verify plan evidence id now = .ok witness) ↔
    checkLanes (evidenceByLane evidence) plan.lanes = .ok () := by
  unfold verify
  cases checkLanes (evidenceByLane evidence) plan.lanes with
  | error blocker => simp [Except.map]
  | ok all => simp [Except.map]

theorem verify_error {blocker : ProofBlocker} : verify plan evidence id now = .error blocker ↔
    checkLanes (evidenceByLane evidence) plan.lanes = .error blocker := by
  unfold verify
  cases checkLanes (evidenceByLane evidence) plan.lanes with
  | error blocker => simp [Except.map]
  | ok all => simp [Except.map]

theorem concerns_iff {entry : ProofEvidence} : concerns lanes entry = true ↔
    ∃ lane ∈ lanes, lane.required = true ∧ lane.name = entry.lane := by
  simp [concerns, List.any_eq_true]

/-- Only the entries for required lanes are told apart. -/
theorem agree_of_perm (same : (listed.filter (concerns lanes)).Perm (evidence.filter (concerns lanes))) :
    Agree lanes listed evidence := by
  intro lane member required
  have mem_iff (entry : ProofEvidence) (own : entry.lane = lane.name) :
      entry ∈ listed ↔ entry ∈ evidence := by
    have concerned : concerns lanes entry = true :=
      concerns_iff.mpr ⟨lane, member, required, own.symm⟩
    have both := @List.Perm.mem_iff _ entry _ _ same
    simpa only [List.mem_filter, concerned, and_true] using both
  have alike (outcome : Bool) :
      (∃ entry ∈ listed, entry.lane = lane.name ∧ entry.success = outcome) ↔
        ∃ entry ∈ evidence, entry.lane = lane.name ∧ entry.success = outcome := by
    constructor
    · exact fun ⟨entry, inside, own, found⟩ => ⟨entry, (mem_iff entry own).mp inside, own, found⟩
    · exact fun ⟨entry, inside, own, found⟩ => ⟨entry, (mem_iff entry own).mpr inside, own, found⟩
  exact ⟨alike true, alike false⟩

theorem verify_agree (settled : Settled plan.lanes evidence) (agree : Agree plan.lanes listed evidence) :
    verify plan listed id now = verify plan evidence id now := by
  unfold verify
  rw [checkLanes_agree settled agree]

/-- Evidence is judged as it should be in every order exactly where no lane that both passed and
    failed is reached. -/
theorem judges_iff (plan : ProofPlan) (evidence : List ProofEvidence) :
    Judges plan evidence ↔ Settled plan.lanes evidence := by
  constructor
  · intro judges before lane after split required passed failed
    by_contra free
    have passes : ∀ earlier ∈ before, earlier.required = true → Passed evidence earlier.name := by
      intro earlier member needed
      by_contra unpassed
      exact free ⟨earlier, member, needed, unpassed⟩
    obtain ⟨name, passed', stops⟩ := stops_last required passed failed passes
    rw [← split] at stops
    have first := judges.order (last false evidence) (last_perm _ _) "" 0
    have second := judges.order (last true evidence) (last_perm _ _) "" 0
    rw [verify_error.mpr stops] at first
    rw [← first] at second
    exact failed_last (verify_error.mp second) passed'
  · intro settled
    have order (listed : List ProofEvidence) (same : listed.Perm evidence) (id : String) (now : Nat) :
        verify plan listed id now = verify plan evidence id now :=
      verify_agree settled (agree_of_perm (same.filter _))
    constructor
    · intro listed same id now
      rw [order listed same id now, verify_ok]
      exact checkLanes_ok settled
    · exact order
    · intro entry member concerned failure listed same id now
      rw [order listed same id now]
      cases judged : verify plan evidence id now with
      | error blocker => exact ⟨blocker, rfl⟩
      | ok witness =>
        have clean := (checkLanes_ok settled).mp (verify_ok.mp ⟨witness, judged⟩)
        obtain ⟨lane, inside, required, own⟩ := concerns_iff.mp concerned
        exact absurd ⟨entry, member, own.symm, failure⟩ (clean lane inside required).2
    · exact fun listed same id now => verify_agree settled (agree_of_perm same)

end Judging

/-- One lane, which has to pass. -/
def unitPlan : ProofPlan where
  repo := "acme/demo"
  pr := "1"
  headSha := "2222"
  paths := ["src/lib.rs"]
  owners := ["@core"]
  lanes := [⟨"unit", ["cargo test"], true⟩]

/-- A lane that failed is taken to have passed once it is also listed as passed. -/
theorem not_judges : ¬∀ (plan : ProofPlan) (evidence : List ProofEvidence), Judges plan evidence := by
  intro judges
  have judged := judges unitPlan [⟨"unit", false⟩, ⟨"unit", true⟩]
  have accepted : verify unitPlan [⟨"unit", false⟩, ⟨"unit", true⟩] "receipt_0000000000000001" 0 =
      .ok (witnessOf unitPlan "receipt_0000000000000001" 0) := rfl
  have clean := (judged.clean _ (List.Perm.refl _) _ _).mp ⟨_, accepted⟩
  obtain ⟨-, unfailed⟩ := clean ⟨"unit", ["cargo test"], true⟩ List.mem_cons_self rfl
  exact unfailed ⟨⟨"unit", false⟩, List.mem_cons_self, rfl, rfl⟩

end Jeryu.Proof
