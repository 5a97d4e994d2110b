import Mathlib.Data.List.Forall2
import Jeryu.Mirror.Bundle

/-!
What of a webhook's secret gets into an archive.
-/

namespace Jeryu.Mirror

open Json Text

/-- Two values of one shape, whose fields are equal or related. -/
inductive Alike (R : String → Value → Value → Prop) : Value → Value → Prop where
  | same (value : Value) : Alike R value value
  | object {fields fields' : List (String × Value)}
      (each : List.Forall₂ (fun field field' => field.1 = field'.1 ∧
        (field.2 = field'.2 ∨ R field.1 field.2 field'.2)) fields fields') :
      Alike R (.object fields) (.object fields')

/-- Two arrays whose items are equal or related. -/
inductive ItemsAlike (R : Value → Value → Prop) : Value → Value → Prop where
  | array {items items' : List Value}
      (each : List.Forall₂ (fun item item' => item = item' ∨ R item item') items items') :
      ItemsAlike R (.array items) (.array items')

def SecretAlike (key : String) (value value' : Value) : Prop :=
  key = "secret" ∧ ∃ s s', value = .string s ∧ value' = .string s' ∧ s ≠ "" ∧ s' ≠ ""

/-- The secret is in the `config`, or beside the rest if there is none. -/
def WebhookAlike (hook hook' : Value) : Prop :=
  if (hook.get "config").isSome then
    Alike (fun key config config' => key = "config" ∧ Alike SecretAlike config config') hook hook'
  else Alike SecretAlike hook hook'

def RepoAlike : Value → Value → Prop :=
  Alike fun key hooks hooks' => (key = "hooks" ∨ key = "webhooks") ∧ ItemsAlike WebhookAlike hooks hooks'

/-- Two exports that differ in webhook secrets only. -/
def ExportAlike : Value → Value → Prop :=
  Alike fun key repos repos' =>
    (key = "repositories" ∨ key = "repos") ∧ ItemsAlike RepoAlike repos repos'

/-- No archive and no bundle tells the two exports apart. -/
structure Sealed (texts : Texts) (encoding : Encoding) (value value' : Value) : Prop where
  archives : ∀ stamp,
    archiveFromGithubValue texts stamp value = archiveFromGithubValue texts stamp value'
  bundles : ∀ stamp archive archive', archiveFromGithubValue texts stamp value = .ok archive →
    archiveFromGithubValue texts stamp value' = .ok archive' →
      writeBundle encoding archive = writeBundle encoding archive'

theorem Alike.get {R : String → Value → Value → Prop} {value value' : Value} (alike : Alike R value value')
    (key : String) :
    value.get key = value'.get key ∨
      ∃ child child', value.get key = some child ∧ value'.get key = some child' ∧ R key child child' := by
  cases alike with
  | same => exact .inl rfl
  | object each =>
    simp only [Value.get]
    induction each with
    | nil => exact .inl rfl
    | @cons field field' fields fields' head _ ih =>
      obtain ⟨name, child⟩ := field
      obtain ⟨name', child'⟩ := field'
      obtain ⟨rfl, related⟩ := head
      by_cases same : key = name
      · subst same
        simp only [List.lookup_cons_self, Option.some.injEq]
        rcases related with equal | related
        · exact .inl equal
        · exact .inr ⟨child, child', rfl, rfl, related⟩
      · have other : (key == name) = false := beq_false_of_ne same
        simpa only [List.lookup_cons, other] using ih

/-- Fields that the relation says nothing of. -/
theorem Alike.get_eq {R : String → Value → Value → Prop} {value value' : Value}
    (alike : Alike R value value') {key : String} (none : ∀ child child', ¬ R key child child') :
    value.get key = value'.get key := by
  rcases alike.get key with same | ⟨child, child', -, -, related⟩
  · exact same
  · exact absurd related (none child child')

/-- Whether there is a secret. -/
def hasSecret (config : Value) : Bool := ((config.str "secret").map fun s => decide (s ≠ "")).getD false

/-- All that is read of a webhook's settings. -/
theorem config_alike {config config' : Value} (alike : Alike SecretAlike config config') :
    (∀ key, key ≠ "secret" → config.get key = config'.get key) ∧ hasSecret config = hasSecret config' := by
  constructor
  · intro key other
    exact alike.get_eq fun child child' related => other related.1
  · rcases alike.get "secret" with same | ⟨child, child', there, there', -, s, s', rfl, rfl, some, some'⟩
    · simp only [hasSecret, Value.str, same]
    · simp [hasSecret, Value.str, there, there', Value.asStr, some, some']

theorem parseWebhook_of (texts : Texts) {hook hook' config config' : Value}
    (own : (hook.get "config").getD hook = config) (own' : (hook'.get "config").getD hook' = config')
    (beside : ∀ key, key ≠ "config" → key ≠ "secret" → hook.get key = hook'.get key)
    (settings : ∀ key, key ≠ "secret" → config.get key = config'.get key)
    (secret : hasSecret config = hasSecret config') :
    parseWebhook texts hook = parseWebhook texts hook' := by
  have id : idOf texts hook = idOf texts hook' := by rw [idOf, idOf, beside "id" (by decide) (by decide)]
  have events := beside "events" (by decide) (by decide)
  have active : flag hook "active" true = flag hook' "active" true := by
    rw [flag, flag, beside "active" (by decide) (by decide)]
  have text (key default : String) (other : key ≠ "secret") :
      stringOr config key default = stringOr config' key default := by
    rw [stringOr, stringOr, Value.str, Value.str, settings key other]
  have contentType : config.str "content_type" = config'.str "content_type" := by
    rw [Value.str, Value.str, settings "content_type" (by decide)]
  have url := text "url" "https://example.invalid/webhook" (by decide)
  unfold parseWebhook
  unfold hasSecret at secret
  dsimp only
  rw [own, own', id, events, active, contentType, url, secret]

theorem parseWebhook_alike (texts : Texts) {hook hook' : Value} (alike : WebhookAlike hook hook') :
    parseWebhook texts hook = parseWebhook texts hook' := by
  rcases config : hook.get "config" with _ | settings
  · simp only [WebhookAlike, config, Option.isSome_none, Bool.false_eq_true, if_false] at alike
    have none' : hook'.get "config" = none := by
      have same := alike.get_eq (R := SecretAlike) (fun child child' (related : SecretAlike "config" child child') =>
        absurd related.1 (by decide))
      rw [← same, config]
    obtain ⟨beside, secret⟩ := config_alike alike
    exact parseWebhook_of texts (by rw [config, Option.getD_none]) (by rw [none', Option.getD_none])
      (fun key _ other => beside key other) beside secret
  · simp only [WebhookAlike, config, Option.isSome_some, if_true] at alike
    have beside : ∀ key, key ≠ "config" → key ≠ "secret" → hook.get key = hook'.get key :=
      fun key other _ => alike.get_eq fun child child' related => other related.1
    rcases alike.get "config" with same | ⟨child, child', there, there', -, related⟩
    · rw [config] at same
      exact parseWebhook_of texts (by rw [config, Option.getD_some]) (by rw [← same, Option.getD_some]) beside (fun _ _ => rfl) rfl
    · obtain ⟨settings, secret⟩ := config_alike related
      exact parseWebhook_of texts (by rw [there, Option.getD_some]) (by rw [there', Option.getD_some]) beside settings secret

/-- The archive of a repository apart from the copy of its source. -/
def RepositoryArchive.typed (repo : RepositoryArchive) : RepositoryArchive := { repo with rawSource := none }

theorem map_alike {α : Type} {R : Value → Value → Prop} {items items' : List Value} (f : Value → α)
    (each : List.Forall₂ (fun item item' => item = item' ∨ R item item') items items')
    (same : ∀ item item', R item item' → f item = f item') : items.map f = items'.map f := by
  induction each with
  | nil => rfl
  | cons head _ ih =>
    rw [List.map_cons, List.map_cons, ih]
    rcases head with rfl | related
    · rfl
    · rw [same _ _ related]

theorem hooks_alike (texts : Texts) {repo repo' : Value} (alike : RepoAlike repo repo') {key : String} :
    (array repo key).map (parseWebhook texts) = (array repo' key).map (parseWebhook texts) := by
  rcases alike.get key with same | ⟨child, child', there, there', -, ⟨each⟩⟩
  · simp only [array, same]
  · simp only [array, there, there', Option.bind_some, Value.asArray, Option.getD_some]
    exact map_alike _ each fun _ _ => parseWebhook_alike texts

/-- What the parsers make of a repository does not show a secret, but for the copy of the source. -/
theorem parseRepo_alike (texts : Texts) (now : DateTime) {repo repo' : Value}
    (alike : RepoAlike repo repo') :
    (parseRepo texts now repo).typed = (parseRepo texts now repo').typed := by
  have same (key : String) (other : key ∉ ["hooks", "webhooks"]) : repo.get key = repo'.get key := by
    refine alike.get_eq fun _ _ related => other ?_
    rcases related.1 with rfl | rfl <;> simp
  have list (key : String) (other : key ∉ ["hooks", "webhooks"]) : array repo key = array repo' key := by
    rw [array, array, same key other]
  have text (key : String) (other : key ∉ ["hooks", "webhooks"]) : repo.str key = repo'.str key := by
    rw [Value.str, Value.str, same key other]
  have switch (key : String) (default : Bool) (other : key ∉ ["hooks", "webhooks"]) :
      flag repo key default = flag repo' key default := by
    rw [flag, flag, same key other]
  have owner : parseOwner repo = parseOwner repo' := by
    rw [parseOwner, parseOwner, Value.pointer, Value.pointer, Value.pointer, Value.pointer,
      same "owner" (by decide), same "organization" (by decide)]
  have git : parseGit now repo = parseGit now repo' := by
    rw [parseGit, parseGit, same "clone_url" (by decide), same "ssh_url" (by decide),
      same "mirror_url" (by decide), text "head_sha" (by decide), text "mirror_ref" (by decide),
      stringOr, stringOr, text "object_format" (by decide)]
  have hooks : (array repo "hooks" ++ array repo "webhooks").map (parseWebhook texts) =
      (array repo' "hooks" ++ array repo' "webhooks").map (parseWebhook texts) := by
    rw [List.map_append, List.map_append, hooks_alike texts alike, hooks_alike texts alike]
  unfold parseRepo RepositoryArchive.typed
  dsimp only
  rw [owner, git, hooks, stringOr, stringOr, stringOr, stringOr,
    text "name" (by decide), text "description" (by decide), text "default_branch" (by decide),
    switch "private" true (by decide), switch "archived" false (by decide),
    switch "disabled" false (by decide), list "labels" (by decide), list "milestones" (by decide),
    list "issues" (by decide), list "pull_requests" (by decide), list "pulls" (by decide),
    list "releases" (by decide), list "artifacts" (by decide), list "app_installations" (by decide),
    list "protected_branches" (by decide), list "branch_protections" (by decide)]

theorem parseRepo_named (texts : Texts) (now : DateTime) {repo repo' : Value}
    (alike : repo = repo' ∨ RepoAlike repo repo') :
    (parseRepo texts now repo).fullName = (parseRepo texts now repo').fullName := by
  rcases alike with rfl | alike
  · rfl
  · have named := congrArg (fun typed : RepositoryArchive => typed.fullName) (parseRepo_alike texts now alike)
    exact named

/-- The repositories read of two such exports. -/
theorem reposOf_alike {value value' : Value} (alike : ExportAlike value value') :
    reposOf value = reposOf value' ∨ ∃ repos repos', reposOf value = some repos ∧
      reposOf value' = some repos' ∧
        List.Forall₂ (fun repo repo' => repo = repo' ∨ RepoAlike repo repo') repos repos' := by
  unfold reposOf
  rcases alike.get "repositories" with same | ⟨child, child', there, there', -, ⟨each⟩⟩
  · rcases first : value.get "repositories" with _ | child
    · rw [← same, first, Option.none_or, Option.none_or]
      rcases alike.get "repos" with same | ⟨child, child', there, there', -, ⟨each⟩⟩
      · exact .inl (by rw [same])
      · exact .inr ⟨_, _, by rw [there]; rfl, by rw [there']; rfl, each⟩
    · exact .inl (by rw [← same, first, Option.some_or, Option.some_or])
  · exact .inr ⟨_, _, by rw [there]; rfl, by rw [there']; rfl, each⟩

theorem source_alike {value value' : Value} (alike : ExportAlike value value') :
    value.str "source" = value'.str "source" := by
  have same : value.get "source" = value'.get "source" := by
    refine alike.get_eq fun _ _ related => ?_
    exact absurd related.1 (by decide)
  rw [Value.str, Value.str, same]

/-- Sorting by one key moves two lists in one way. -/
theorem sortByKey_unzip {α β κ : Type} [LinearOrder κ] (key : β → κ) (f g : α → β) (items : List α)
    (same : ∀ item ∈ items, key (f item) = key (g item)) :
    ∃ order : List α, order.Perm items ∧ sortByKey key (items.map f) = order.map f ∧
      sortByKey key (items.map g) = order.map g := by
  refine ⟨items.mergeSort fun a b => decide (key (f a) ≤ key (f b)), List.mergeSort_perm _ _, ?_, ?_⟩
  · exact (List.map_mergeSort (s := fun a b => decide (key a ≤ key b)) fun _ _ _ _ => rfl).symm
  · refine (List.map_mergeSort (s := fun a b => decide (key a ≤ key b)) fun a there b there' => ?_).symm
    rw [same a there, same b there']

/-- The copies of the sources give the repositories back. -/
theorem repositories_injective (texts : Texts) (now : DateTime) {repos repos' : List Value}
    (each : List.Forall₂ (fun repo repo' => repo = repo' ∨ RepoAlike repo repo') repos repos')
    (same : (sortByKey RepositoryArchive.fullName (repos.map (parseRepo texts now))).map
        RepositoryArchive.sorted =
      (sortByKey RepositoryArchive.fullName (repos'.map (parseRepo texts now))).map
        RepositoryArchive.sorted) : repos = repos' := by
  have size := each.length_eq
  have first : (repos.zip repos').map Prod.fst = repos := List.map_fst_zip (Nat.le_of_eq size)
  have second : (repos.zip repos').map Prod.snd = repos' := List.map_snd_zip (Nat.le_of_eq size.symm)
  have parsed : repos.map (parseRepo texts now) =
      (repos.zip repos').map fun pair => parseRepo texts now pair.1 :=
    (congrArg (List.map (parseRepo texts now)) first).symm.trans List.map_map
  have parsed' : repos'.map (parseRepo texts now) =
      (repos.zip repos').map fun pair => parseRepo texts now pair.2 :=
    (congrArg (List.map (parseRepo texts now)) second).symm.trans List.map_map
  have named : ∀ pair ∈ repos.zip repos', (parseRepo texts now pair.1).fullName =
      (parseRepo texts now pair.2).fullName := by
    intro pair member
    exact parseRepo_named texts now (List.forall₂_zip each member)
  obtain ⟨order, perm, left, right⟩ := sortByKey_unzip RepositoryArchive.fullName
    (fun pair : Value × Value => parseRepo texts now pair.1) (fun pair => parseRepo texts now pair.2) _ named
  have sources := congrArg (List.map RepositoryArchive.rawSource) same
  rw [parsed, parsed', left, right, List.map_map, List.map_map, List.map_map, List.map_map] at sources
  have pairs : ∀ pair ∈ repos.zip repos', pair.1 = pair.2 := by
    intro pair member
    have copies := List.map_inj_left.mp sources pair (perm.mem_iff.mpr member)
    exact Option.some.inj copies
  calc repos = (repos.zip repos').map Prod.fst := first.symm
    _ = (repos.zip repos').map Prod.snd := List.map_inj_left.mpr pairs
    _ = repos' := second

/-- What is alike in the archives is alike in the repositories read. -/
theorem Sealed.repos {texts : Texts} {encoding : Encoding} {value value' : Value}
    (bound : Sealed texts encoding value value') (alike : ExportAlike value value') :
    reposOf value = reposOf value' := by
  rcases reposOf_alike alike with same | ⟨repos, repos', there, there', each⟩
  · exact same
  · have equal := bound.archives ⟨0, 0⟩
    simp only [archiveFromGithubValue, there, there', Except.ok.injEq] at equal
    have repositories := congrArg Archive.repositories equal
    rw [there, there', repositories_injective texts 0 each repositories]

/-- An import keeps a secret to itself only where it does not read the repository. -/
theorem import_hides_secrets_iff (texts : Texts) (encoding : Encoding) {value value' : Value}
    (alike : ExportAlike value value') :
    Sealed texts encoding value value' ↔ reposOf value = reposOf value' := by
  have source := source_alike alike
  constructor
  · exact fun bound => bound.repos alike
  · intro same
    have archives : ∀ stamp,
        archiveFromGithubValue texts stamp value = archiveFromGithubValue texts stamp value' := by
      intro stamp
      simp only [archiveFromGithubValue, same, source]
    refine ⟨archives, ?_⟩
    intro stamp archive archive' made made'
    rw [archives stamp, made'] at made
    cases made
    rfl

namespace Demo

def hook (secret : String) : Value :=
  .object [("config", .object [("secret", .string secret), ("url", .string "https://ci.invalid/hook")])]

def repo (secret : String) : Value := .object [("hooks", .array [hook secret]), ("name", .string "rocket")]

def exported (secret : String) : Value := .object [("repositories", .array [repo secret])]

/-- The hook stands in an array that the import passes over. -/
def passedOver (secret : String) : Value :=
  .object [("repos", .array [repo secret]), ("repositories", .array [])]

theorem repo_alike {secret secret' : String} (some : secret ≠ "") (some' : secret' ≠ "") :
    RepoAlike (repo secret) (repo secret') := by
  have config : Alike SecretAlike
      (.object [("secret", .string secret), ("url", .string "https://ci.invalid/hook")])
      (.object [("secret", .string secret'), ("url", .string "https://ci.invalid/hook")]) :=
    .object (.cons ⟨rfl, .inr ⟨rfl, _, _, rfl, rfl, some, some'⟩⟩ (.cons ⟨rfl, .inl rfl⟩ .nil))
  have hooks : WebhookAlike (hook secret) (hook secret') :=
    .object (.cons ⟨rfl, .inr ⟨rfl, config⟩⟩ .nil)
  exact .object (.cons ⟨rfl, .inr ⟨.inl rfl, .array (.cons (.inr hooks) .nil)⟩⟩ (.cons ⟨rfl, .inl rfl⟩ .nil))

theorem exported_alike {secret secret' : String} (some : secret ≠ "") (some' : secret' ≠ "") :
    ExportAlike (exported secret) (exported secret') :=
  .object (.cons ⟨rfl, .inr ⟨.inl rfl, .array (.cons (.inr (repo_alike some some')) .nil)⟩⟩ .nil)

theorem passedOver_alike {secret secret' : String} (some : secret ≠ "") (some' : secret' ≠ "") :
    ExportAlike (passedOver secret) (passedOver secret') :=
  .object (.cons ⟨rfl, .inr ⟨.inr rfl, .array (.cons (.inr (repo_alike some some')) .nil)⟩⟩
    (.cons ⟨rfl, .inl rfl⟩ .nil))

def texts : Texts := ⟨fun _ => "", fun _ => none⟩

def encoding : Encoding := ⟨fun _ => [], fun _ => [], fun _ => "", fun _ => ""⟩

end Demo

theorem import_hides_secrets_demo :
    Sealed Demo.texts Demo.encoding (Demo.passedOver "old") (Demo.passedOver "new") :=
  (import_hides_secrets_iff Demo.texts Demo.encoding (Demo.passedOver_alike (by decide) (by decide))).mpr rfl

/-- The copy of a repository's source holds the secret of its hook. -/
theorem source_copy_shows_secret :
    ExportAlike (Demo.exported "old") (Demo.exported "new") ∧
      ¬ Sealed Demo.texts Demo.encoding (Demo.exported "old") (Demo.exported "new") := by
  refine ⟨Demo.exported_alike (by decide) (by decide), fun bound => ?_⟩
  have repos : some [Demo.repo "old"] = some [Demo.repo "new"] :=
    bound.repos (Demo.exported_alike (by decide) (by decide))
  simp [Demo.repo, Demo.hook] at repos

end Jeryu.Mirror
