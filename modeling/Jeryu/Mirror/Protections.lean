import Jeryu.Mirror.Archive

/-!
The protection of a branch, as an export has it: nested as in GitHub's REST answers, or flat.
-/

namespace Jeryu.Mirror

open Json

/-- The nested field, unless it is missing or null. -/
def nested (value : Value) (key inner : String) : Option Value :=
  match value.pointer key inner with
  | some .null => none
  | found => found

/-- What is read at the nested field, else at the flat one. -/
def nestedOr {α : Type} (value : Value) (key inner flat : String) (read : Value → Option α) (default : α) : α :=
  (((nested value key inner).or (value.get flat)).bind read).getD default

section Meaning

variable (value : Value)

/-- What a protection requires and allows, in either shape. -/
def meantReviews : UInt64 :=
  nestedOr value "required_pull_request_reviews" "required_approving_review_count" "required_reviews" Value.asU64 0

def meantContexts : List String :=
  strings (nestedOr value "required_status_checks" "contexts" "required_status_checks" Value.asArray [])

def meantFlag (key : String) : Bool := nestedOr value key "enabled" key Value.asBool false

/-- The imported rule is no weaker than the protection. -/
structure NeverWeaker (rule : ProtectedBranchArchive) : Prop where
  reviews : (meantReviews value).toNat ≤ rule.requiredReviews.toNat
  contexts : ∀ context ∈ meantContexts value, context ∈ rule.requiredStatusChecks
  linearHistory : meantFlag value "required_linear_history" = true → rule.linearHistory = true
  forcePushes : rule.allowForcePushes = true → meantFlag value "allow_force_pushes" = true
  deletions : rule.allowDeletions = true → meantFlag value "allow_deletions" = true

/-- Where the nested field is null or missing, the flat one is what counts. -/
structure FallsBack (rule : ProtectedBranchArchive) : Prop where
  reviews : nested value "required_pull_request_reviews" "required_approving_review_count" = none →
    rule.requiredReviews.toNat = (((value.get "required_reviews").bind Value.asU64).getD 0).toNat
  contexts : nested value "required_status_checks" "contexts" = none →
    rule.requiredStatusChecks = strings (array value "required_status_checks")
  linearHistory : nested value "required_linear_history" "enabled" = none →
    rule.linearHistory = flag value "required_linear_history" false
  forcePushes : nested value "allow_force_pushes" "enabled" = none →
    rule.allowForcePushes = flag value "allow_force_pushes" false
  deletions : nested value "allow_deletions" "enabled" = none →
    rule.allowDeletions = flag value "allow_deletions" false

/-- Every field stands where the import looks for it, and the count fits. -/
structure Readable : Prop where
  reviews : (meantReviews value).toNat < 2 ^ 32
  notNull : value.pointer "required_pull_request_reviews" "required_approving_review_count" = some .null →
    ((value.get "required_reviews").bind Value.asU64).getD 0 = 0
  contexts : nested value "required_status_checks" "contexts" = none → strings (array value "required_status_checks") = []
  linearHistory : nested value "required_linear_history" "enabled" ≠ some (.bool true)

end Meaning

section Reading

variable {value : Value}

theorem nested_none_iff {key inner : String} : nested value key inner = none ↔
    value.pointer key inner = none ∨ value.pointer key inner = some .null := by
  unfold nested
  rcases value.pointer key inner with _ | found
  · simp
  · cases found <;> simp

theorem nested_some {key inner : String} {found : Value} (there : nested value key inner = some found) :
    value.pointer key inner = some found := by
  unfold nested at there
  split at there
  · cases there
  · exact there

/-- A flag that is an object has no flat value. -/
theorem flag_of_nested {key inner : String} {found : Value} (there : nested value key inner = some found) :
    flag value key false = false := by
  have object := nested_some there
  unfold Value.pointer at object
  unfold flag
  cases child : value.get key with
  | none => rfl
  | some child' =>
    rw [child] at object
    cases child' with
    | object _ => rfl
    | _ => simp [Value.get] at object

theorem meantFlag_of_none {key : String} (absent : nested value key "enabled" = none) :
    meantFlag value key = flag value key false := by
  unfold meantFlag nestedOr flag
  rw [absent]
  rfl

/-- A flat flag that is set is what the protection means. -/
theorem meantFlag_of_flag {key : String} (set_ : flag value key false = true) : meantFlag value key = true := by
  cases there : nested value key "enabled" with
  | none => rw [meantFlag_of_none there, set_]
  | some found =>
    rw [flag_of_nested there] at set_
    cases set_

theorem meantFlag_of_some {key : String} {found : Value} (there : nested value key "enabled" = some found) :
    meantFlag value key = true ↔ found = .bool true := by
  unfold meantFlag nestedOr
  rw [there]
  cases found <;> simp [Value.asBool]

end Reading

section Import

variable (value : Value)

theorem parsed_reviews_of_none (absent : value.pointer "required_pull_request_reviews" "required_approving_review_count" = none) :
    (parseProtectedBranch value).requiredReviews = (meantReviews value).toUInt32 := by
  have missing := nested_none_iff.2 (.inl absent)
  simp only [parseProtectedBranch, meantReviews, nestedOr, absent, missing, Option.none_or]

theorem parsed_reviews_of_some {found : Value}
    (there : nested value "required_pull_request_reviews" "required_approving_review_count" = some found) :
    (parseProtectedBranch value).requiredReviews = (meantReviews value).toUInt32 := by
  simp only [parseProtectedBranch, meantReviews, nestedOr, there, nested_some there, Option.some_or]

/-- A null is read as no number. -/
theorem parsed_reviews_of_null (null : value.pointer "required_pull_request_reviews" "required_approving_review_count" = some .null) :
    (parseProtectedBranch value).requiredReviews = 0 := by
  simp [parseProtectedBranch, null, Value.asU64]

theorem meantReviews_of_none (absent : nested value "required_pull_request_reviews" "required_approving_review_count" = none) :
    meantReviews value = ((value.get "required_reviews").bind Value.asU64).getD 0 := by
  simp [meantReviews, nestedOr, absent]

theorem parsed_contexts_of_some {found : Value} (there : nested value "required_status_checks" "contexts" = some found) :
    (parseProtectedBranch value).requiredStatusChecks = meantContexts value := by
  simp only [parseProtectedBranch, meantContexts, nestedOr, there, nested_some there, Option.some_or, Option.bind_some]
  cases found.asArray <;> rfl

theorem parsed_contexts_of_none (absent : nested value "required_status_checks" "contexts" = none) :
    (parseProtectedBranch value).requiredStatusChecks = [] := by
  rcases nested_none_iff.1 absent with missing | null
  · simp [parseProtectedBranch, missing]
  · simp [parseProtectedBranch, null, Value.asArray]

theorem meantContexts_of_none (absent : nested value "required_status_checks" "contexts" = none) :
    meantContexts value = strings (array value "required_status_checks") := by
  simp [meantContexts, nestedOr, absent, array]

theorem toUInt32_toNat (n : UInt64) (fits : n.toNat < 2 ^ 32) : n.toUInt32.toNat = n.toNat := by
  rw [UInt64.toNat_toUInt32]
  exact Nat.mod_eq_of_lt fits

theorem parsed_reviews (readable : Readable value) :
    (parseProtectedBranch value).requiredReviews.toNat = (meantReviews value).toNat := by
  cases there : nested value "required_pull_request_reviews" "required_approving_review_count" with
  | some found => rw [parsed_reviews_of_some value there, toUInt32_toNat _ readable.reviews]
  | none =>
    rcases nested_none_iff.1 there with missing | null
    · rw [parsed_reviews_of_none value missing, toUInt32_toNat _ readable.reviews]
    · rw [parsed_reviews_of_null value null, meantReviews_of_none value there, readable.notNull null]
      rfl

theorem parsed_contexts (readable : Readable value) : (parseProtectedBranch value).requiredStatusChecks = meantContexts value := by
  cases there : nested value "required_status_checks" "contexts" with
  | some found => exact parsed_contexts_of_some value there
  | none => rw [parsed_contexts_of_none value there, meantContexts_of_none value there, readable.contexts there]

/-- Importing a protection does not weaken it just when every field is where the import looks for it. -/
theorem import_keeps_iff : NeverWeaker value (parseProtectedBranch value) ∧ FallsBack value (parseProtectedBranch value) ↔
    Readable value := by
  constructor
  · rintro ⟨strong, falls⟩
    constructor
    case reviews =>
      have small : (parseProtectedBranch value).requiredReviews.toNat < 2 ^ 32 := UInt32.toNat_lt _
      have atLeast := strong.reviews
      omega
    case notNull =>
      intro null
      have flat := falls.reviews (nested_none_iff.2 (.inr null))
      rw [parsed_reviews_of_null value null] at flat
      exact UInt64.toNat_inj.1 flat.symm
    case contexts =>
      intro absent
      rw [← falls.contexts absent, parsed_contexts_of_none value absent]
    case linearHistory =>
      intro enabled
      have linear := strong.linearHistory ((meantFlag_of_some enabled).2 rfl)
      rw [show (parseProtectedBranch value).linearHistory = flag value "required_linear_history" false from rfl,
        flag_of_nested enabled] at linear
      cases linear
  · intro readable
    constructor
    · constructor
      case reviews => rw [parsed_reviews value readable]
      case contexts =>
        intro context meant
        rwa [parsed_contexts value readable]
      case linearHistory =>
        intro meant
        cases there : nested value "required_linear_history" "enabled" with
        | none => rwa [meantFlag_of_none there] at meant
        | some found =>
          obtain rfl := (meantFlag_of_some there).1 meant
          exact absurd there readable.linearHistory
      case forcePushes => exact meantFlag_of_flag
      case deletions => exact meantFlag_of_flag
    · constructor
      case reviews =>
        intro absent
        rw [parsed_reviews value readable, meantReviews_of_none value absent]
      case contexts =>
        intro absent
        rw [parsed_contexts value readable, meantContexts_of_none value absent]
      case linearHistory => exact fun _ => rfl
      case forcePushes => exact fun _ => rfl
      case deletions => exact fun _ => rfl

end Import

/-- A branch with a linear history, as GitHub answers it. -/
def linearMain : Value :=
  .object [("name", .string "main"), ("required_linear_history", .object [("enabled", .bool true)])]

theorem linear_history_lost : meantFlag linearMain "required_linear_history" = true ∧
    (parseProtectedBranch linearMain).linearHistory = false ∧
      ¬ (NeverWeaker linearMain (parseProtectedBranch linearMain) ∧ FallsBack linearMain (parseProtectedBranch linearMain)) := by
  refine ⟨rfl, rfl, fun kept => ?_⟩
  cases kept.1.linearHistory rfl

end Jeryu.Mirror
