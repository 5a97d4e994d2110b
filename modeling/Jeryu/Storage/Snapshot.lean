import Jeryu.Core.Model
import Jeryu.Library.Tables

/-!
`reconcile` of the store: the tables the forge owns are made to hold the rows it has staged, by deleting,
updating and inserting what differs. Other columns and other tables are left alone.
-/

namespace Jeryu.Storage

open Jeryu.Core Tables

structure OwnedTable where
  name : String
  columns : List String
  primaryKey : List String

/-- Parents come before their children; deletion goes the other way. -/
def ownedTables : List OwnedTable := [
  ⟨"users", ["login", "user_json"], ["login"]⟩,
  ⟨"user_accounts",
    ["login", "display_name", "password_hash", "role", "status", "auth_epoch",
      "must_change_password", "created_at", "updated_at"],
    ["login"]⟩,
  ⟨"web_sessions",
    ["id", "login", "auth_epoch", "token_hash", "csrf_token", "created_at", "expires_at"],
    ["id"]⟩,
  ⟨"personal_access_tokens",
    ["id", "login", "auth_epoch", "name", "token_hash", "created_at", "expires_at"],
    ["id"]⟩,
  ⟨"bots",
    ["id", "owner", "slug", "display_name", "kind", "status", "reach_json", "auth_epoch",
      "credential_generation", "last_successful_access", "last_auth", "last_mutation",
      "last_heartbeat", "last_action", "last_outcome", "last_repo", "created_at", "updated_at",
      "owner_kind", "steward_team"],
    ["id"]⟩,
  ⟨"bot_keys",
    ["key_id", "bot_id", "secret_hash", "env", "created_at", "retired_at", "revoked_at"],
    ["key_id"]⟩,
  ⟨"bot_refresh_tokens",
    ["token_hash", "bot_id", "key_id", "generation", "expires_at", "used_at"],
    ["token_hash"]⟩,
  ⟨"bot_operations",
    ["bot_id", "operation", "request_key", "body_digest", "result_json", "created_at"],
    ["bot_id", "operation", "request_key"]⟩,
  ⟨"bot_activity",
    ["id", "bot_id", "key_id", "repo", "session_id", "action", "outcome", "scope", "created_at"],
    ["id"]⟩,
  ⟨"bot_access_tokens",
    ["token_hash", "token_id", "bot_id", "key_id", "generation", "label", "created_at",
      "expires_at", "last_used_at", "revoked_at", "issued_by"],
    ["token_hash"]⟩,
  ⟨"provider_connections",
    ["id", "owner_id", "provider", "provider_account", "credential_kind", "state",
      "connection_generation", "secret_version", "sealed_secret", "created_at", "updated_at",
      "refreshed_at", "rotation_secret_version", "rotation_started_at"],
    ["id"]⟩,
  ⟨"account_invitations",
    ["id", "canonical_login", "display_name", "activation_secret_hash", "issuer_principal",
      "intended_role", "intended_teams_json", "created_at", "expires_at", "consumed_at",
      "revoked_at", "attempt_count", "bootstrap_owner"],
    ["id"]⟩,
  ⟨"account_activation_challenges",
    ["id", "invitation_id", "challenge_hash", "created_at", "expires_at", "consumed_at"],
    ["id"]⟩,
  ⟨"password_recovery_tokens",
    ["token_id", "login", "secret_hash", "auth_epoch", "created_at", "expires_at", "consumed_at",
      "attempt_count"],
    ["token_id"]⟩,
  ⟨"owner_bootstrap_state", ["singleton", "consumed"], ["singleton"]⟩,
  ⟨"waitlist_signups",
    ["email", "name", "note", "status", "source", "request_count", "created_at", "last_requested_at"],
    ["email"]⟩,
  ⟨"organizations", ["login", "organization_json"], ["login"]⟩,
  ⟨"teams", ["organization", "slug", "team_json"], ["organization", "slug"]⟩,
  ⟨"repositories",
    ["id", "owner", "name", "full_name", "private", "description", "default_branch", "archived",
      "disabled", "created_at", "updated_at", "family", "pushed_at",
      "default_branch_protection_opt_out"],
    ["id"]⟩,
  ⟨"repository_transfer_journal",
    ["transaction_id", "idempotency_key", "request_fingerprint", "repository_id", "source_owner",
      "source_name", "destination_owner", "destination_name", "status", "prepared_at",
      "completed_at", "failure", "receipt_json"],
    ["transaction_id"]⟩,
  ⟨"repository_aliases",
    ["old_owner", "old_name", "repository_id", "canonical_owner", "canonical_name", "created_at",
      "transaction_id", "origin"],
    ["old_owner", "old_name"]⟩,
  ⟨"repo_access_grants",
    ["login", "repo_id", "access", "granted_by", "granted_at"],
    ["login", "repo_id"]⟩,
  ⟨"bot_repo_grants",
    ["bot_id", "repo_id", "access", "granted_by", "granted_at"],
    ["bot_id", "repo_id"]⟩,
  ⟨"labels", ["repo_id", "name", "label_json"], ["repo_id", "name"]⟩,
  ⟨"issues",
    ["id", "repo_id", "number", "title", "body", "state", "author", "labels_json",
      "assignees_json", "milestone", "comments", "pull_request_json", "created_at", "updated_at",
      "closed_at"],
    ["id"]⟩,
  ⟨"issue_comments", ["id", "repo_id", "issue_number", "comment_json"], ["id"]⟩,
  ⟨"pull_requests",
    ["id", "repo_id", "number", "issue_number", "title", "body", "state", "draft", "author",
      "head_json", "base_json", "mergeable", "mergeable_state", "merged", "merged_at",
      "merge_commit_sha", "commits_json", "changed_files_json", "created_at", "updated_at",
      "source_repository", "head_patch_ids_json"],
    ["id"]⟩,
  ⟨"reviews",
    ["id", "repo_id", "pull_number", "author", "state", "body", "submitted_at", "head_sha",
      "dismissed_review_id", "head_patch_ids_json", "dismissal_authority"],
    ["id"]⟩,
  ⟨"review_comments", ["id", "review_id", "repo_id", "pull_number", "comment_json"], ["id"]⟩,
  ⟨"branch_protection_rules", ["repo_id", "branch", "rule_json"], ["repo_id", "branch"]⟩,
  ⟨"codeowners", ["repo_id", "contents"], ["repo_id"]⟩,
  ⟨"repository_readmes", ["repo_id", "contents"], ["repo_id"]⟩,
  ⟨"commit_statuses", ["id", "repo_id", "sha", "status_json"], ["id"]⟩,
  ⟨"check_runs",
    ["id", "repo_id", "name", "head_sha", "status", "conclusion", "details_url", "output_json",
      "started_at", "completed_at", "creation_sequence"],
    ["id"]⟩,
  ⟨"jankurai_scores",
    ["id", "repo_id", "branch", "commit_sha", "score", "hard_findings", "decision", "caps_json",
      "report_json", "created_at"],
    ["id"]⟩,
  ⟨"webhooks",
    ["id", "repo_id", "config_json", "events_json", "active", "created_at", "updated_at"],
    ["id"]⟩,
  ⟨"webhook_metadata", ["id", "name"], ["id"]⟩,
  ⟨"webhook_deliveries",
    ["id", "hook_id", "repo_id", "event", "target_url", "payload_json", "signature_256",
      "delivered", "created_at"],
    ["id"]⟩,
  ⟨"repo_counters", ["repo_id", "issue_next", "pull_next"], ["repo_id"]⟩]

variable {V : Type}

abbrev Store (V : Type) : Type := Database String String V

/-- The rows staged for each table. -/
abbrev Content (V : Type) : Type := String → List (String → Option V)

/-- What the database adds to the statements: its foreign keys, the defaults of columns, where a new row is
    stored, and what makes it refuse to go from one content to another (a constraint, a trigger, the disk). -/
structure Schema (V : Type) where
  links : List (Link String String)
  defaults : String → String → Option V
  rowid : String → List (Row String V) → (String → Option V) → Nat
  refuses : Store V → Store V → Option String

namespace OwnedTable

def mutableColumns (table : OwnedTable) : List String :=
  table.columns.filter fun column => !table.primaryKey.contains column

/-- The owned columns of a row. -/
def project (table : OwnedTable) (cells : String → Option V) : List (Option V) := table.columns.map cells

/-- The row with the staged values in its mutable columns. -/
def assigned (table : OwnedTable) (desired cells : String → Option V) : String → Option V := fun column =>
  if table.mutableColumns.contains column then desired column else cells column

def newCells (table : OwnedTable) (schema : Schema V) (desired : String → Option V) : String → Option V :=
  fun column => if table.columns.contains column then desired column else schema.defaults table.name column

/-- New rows go in one after the other. -/
def inserted (table : OwnedTable) (schema : Schema V) :
    List (Row String V) → List (String → Option V) → List (Row String V)
  | rows, [] => rows
  | rows, desired :: rest =>
    table.inserted schema (rows ++ [⟨schema.rowid table.name rows desired, table.newCells schema desired⟩]) rest

variable [DecidableEq V]

def sameKey (table : OwnedTable) (cells desired : String → Option V) : Bool :=
  table.primaryKey.all fun key => equal (cells key) (desired key)

/-- `IS NOT`, which tells NULL from a value. -/
def changed (table : OwnedTable) (cells desired : String → Option V) : Bool :=
  table.mutableColumns.any fun column => cells column != desired column

def updatedRow (table : OwnedTable) (staged : List (String → Option V)) (row : Row String V) : Row String V :=
  if staged.any fun desired => table.sameKey row.cells desired && table.changed row.cells desired then
    match staged.find? (table.sameKey row.cells) with
    | some desired => { row with cells := table.assigned desired row.cells }
    | none => row
  else row

def newRows (table : OwnedTable) (staged : List (String → Option V)) (rows : List (Row String V)) :
    List (String → Option V) :=
  staged.filter fun desired => !rows.any fun row => table.sameKey row.cells desired

end OwnedTable

section Statements

variable [DecidableEq V]

/-- A statement, as the database takes or refuses it. -/
def Schema.run (schema : Schema V) (before after : Store V) :
    Except ForgeError (Store V) :=
  match schema.refuses before after with
  | some reason => .error (.storage reason)
  | none => .ok after

def deleteAbsent (schema : Schema V) (staged : Content V) (db : Store V)
    (table : OwnedTable) : Except ForgeError (Store V) :=
  schema.run db (delete schema.links table.name
    (fun row => !(staged table.name).any (table.sameKey row.cells)) db)

def updateChanged (staged : Content V) (table : OwnedTable) (db : Store V) :
    Store V :=
  fun name => if name = table.name then (db name).map (table.updatedRow (staged name)) else db name

def insertNew (schema : Schema V) (staged : Content V) (table : OwnedTable)
    (db : Store V) : Store V :=
  fun name => if name = table.name then
    table.inserted schema (db name) (table.newRows (staged name) (db name)) else db name

def reconcileRows (schema : Schema V) (staged : Content V) (db : Store V)
    (table : OwnedTable) : Except ForgeError (Store V) := do
  let db ← if table.mutableColumns.isEmpty then pure db
    else schema.run db (updateChanged staged table db)
  schema.run db (insertNew schema staged table db)

def apply (schema : Schema V) (tables : List OwnedTable) (staged : Content V)
    (db : Store V) : Except ForgeError (Store V) := do
  let db ← tables.reverse.foldlM (deleteAbsent schema staged) db
  tables.foldlM (reconcileRows schema staged) db

/-- One transaction: staging, reconciling and the commit, and then the staging tables are dropped. -/
def persist (schema : Schema V) (staged : Except ForgeError (Content V))
    (commits drops : Except ForgeError Unit) (db : Store V) :
    Except ForgeError Unit × Store V :=
  let transaction : Except ForgeError (Store V) := do
    let next ← apply schema ownedTables (← staged) db
    commits
    return next
  match transaction with
  | .error error => (.error error, db)
  | .ok next => (drops, next)

end Statements

/-- The rows that go: those of an owned table that are not staged, and what refers to them by a cascading
    link. -/
def Absent [DecidableEq V] (tables : List OwnedTable) (staged : Content V) (name : String) (row : Row String V) :
    Prop :=
  ∃ table ∈ tables, table.name = name ∧ ∀ desired ∈ staged name, table.sameKey row.cells desired = false

abbrev Lost [DecidableEq V] (schema : Schema V) (tables : List OwnedTable) (staged : Content V)
    (db : Store V) : String → Row String V → Prop :=
  Goes schema.links db (Absent tables staged)

/-- The names differ, and a key is among the columns. -/
structure Owned (tables : List OwnedTable) : Prop where
  names : (tables.map OwnedTable.name).Nodup
  keys : ∀ table ∈ tables, ∀ key ∈ table.primaryKey, key ∈ table.columns

/-- Every row has a key, of its own. -/
structure OwnedTable.Keyed [DecidableEq V] (table : OwnedTable) (rows : List (String → Option V)) : Prop where
  own : ∀ cells ∈ rows, table.sameKey cells cells = true
  unique : rows.Pairwise fun a b => table.sameKey a b = false

/-- No two stored rows have one key. -/
def OwnedTable.Unique [DecidableEq V] (table : OwnedTable) (rows : List (Row String V)) : Prop :=
  rows.Pairwise fun a b => table.sameKey a.cells b.cells = false

instance keyedDecidable [DecidableEq V] (table : OwnedTable) (rows : List (String → Option V)) :
    Decidable (table.Keyed rows) :=
  decidable_of_iff ((∀ cells ∈ rows, table.sameKey cells cells = true) ∧
    rows.Pairwise fun a b => table.sameKey a b = false)
    ⟨fun both => ⟨both.1, both.2⟩, fun keyed => ⟨keyed.own, keyed.unique⟩⟩

instance uniqueDecidable [DecidableEq V] (table : OwnedTable) (rows : List (Row String V)) :
    Decidable (table.Unique rows) :=
  inferInstanceAs (Decidable (rows.Pairwise fun a b => table.sameKey a.cells b.cells = false))

section Columns

variable {table : OwnedTable} {schema : Schema V} {rows : List (Row String V)}
variable {cells desired : String → Option V}

theorem mem_mutable {column : String} :
    column ∈ table.mutableColumns ↔ column ∈ table.columns ∧ column ∉ table.primaryKey := by
  unfold OwnedTable.mutableColumns
  rw [List.mem_filter, Bool.not_eq_true', ← Bool.not_eq_true, List.contains_iff_mem]

theorem assigned_other {column : String} (other : column ∉ table.columns) :
    table.assigned desired cells column = cells column := by
  unfold OwnedTable.assigned
  refine if_neg fun mutates => other ?_
  exact (mem_mutable.mp (List.contains_iff_mem.mp mutates)).1

theorem assigned_key {key : String} (listed : key ∈ table.primaryKey) :
    table.assigned desired cells key = cells key := by
  unfold OwnedTable.assigned
  refine if_neg fun mutates => ?_
  exact (mem_mutable.mp (List.contains_iff_mem.mp mutates)).2 listed

theorem newCells_owned {column : String} (owned : column ∈ table.columns) :
    table.newCells schema desired column = desired column := if_pos (List.contains_iff_mem.mpr owned)

theorem newCells_other {column : String} (other : column ∉ table.columns) :
    table.newCells schema desired column = schema.defaults table.name column :=
  if_neg fun owned => other (List.contains_iff_mem.mp owned)

theorem project_newCells : table.project (table.newCells schema desired) = table.project desired :=
  List.map_congr_left fun _ owned => newCells_owned owned

theorem inserted_map {β : Type} (f : (String → Option V) → β) (contents : List (String → Option V)) :
    (table.inserted schema rows contents).map (fun row => f row.cells) =
      rows.map (fun row => f row.cells) ++ contents.map fun desired => f (table.newCells schema desired) := by
  induction contents generalizing rows with
  | nil => simp [OwnedTable.inserted]
  | cons desired rest ih =>
    unfold OwnedTable.inserted
    rw [ih]
    simp

theorem mem_inserted {row : Row String V} (contents : List (String → Option V)) :
    row ∈ table.inserted schema rows contents → row ∈ rows ∨
      ∃ desired ∈ contents, row.cells = table.newCells schema desired := by
  induction contents generalizing rows with
  | nil => exact .inl
  | cons desired rest ih =>
    intro member
    rcases ih member with before | ⟨other, listed, made⟩
    · rcases List.mem_append.mp before with before | here
      · exact .inl before
      · rw [List.mem_singleton.mp here]
        exact .inr ⟨desired, List.mem_cons_self, rfl⟩
    · exact .inr ⟨other, List.mem_cons_of_mem _ listed, made⟩

theorem mem_inserted_of_mem {row : Row String V} (contents : List (String → Option V)) (there : row ∈ rows) :
    row ∈ table.inserted schema rows contents := by
  induction contents generalizing rows with
  | nil => exact there
  | cons desired rest ih => exact ih (List.mem_append_left _ there)

theorem mem_inserted_of_new {news : List (String → Option V)} (member : desired ∈ news) :
    ∃ row ∈ table.inserted schema rows news, row.cells = table.newCells schema desired := by
  induction news generalizing rows with
  | nil => cases member
  | cons first rest ih =>
    rcases List.mem_cons.mp member with rfl | later
    · exact ⟨_, mem_inserted_of_mem rest (List.mem_append_right rows (List.mem_singleton.mpr rfl)), rfl⟩
    · exact ih later

end Columns

section Rows

variable [DecidableEq V] {table : OwnedTable} {schema : Schema V} {staged : List (String → Option V)}
variable {rows : List (Row String V)} {a b c cells desired : String → Option V}

theorem sameKey_iff : table.sameKey a b = true ↔
    ∀ key ∈ table.primaryKey, a key = b key ∧ (a key).isSome = true := by
  unfold OwnedTable.sameKey
  simp only [List.all_eq_true, equal_iff]

theorem sameKey_symm (same : table.sameKey a b = true) : table.sameKey b a = true := by
  rw [sameKey_iff] at same ⊢
  intro key listed
  obtain ⟨equal, there⟩ := same key listed
  exact ⟨equal.symm, equal ▸ there⟩

theorem sameKey_comm : table.sameKey a b = table.sameKey b a :=
  Bool.eq_iff_iff.mpr ⟨sameKey_symm, sameKey_symm⟩

theorem sameKey_trans (first : table.sameKey a b = true) (second : table.sameKey b c = true) :
    table.sameKey a c = true := by
  rw [sameKey_iff] at first second ⊢
  intro key listed
  obtain ⟨equal, there⟩ := first key listed
  exact ⟨equal.trans (second key listed).1, there⟩

theorem OwnedTable.Keyed.eq (keyed : table.Keyed staged) (first : a ∈ staged) (second : b ∈ staged)
    (same : table.sameKey a b = true) : a = b := by
  by_contra differ
  have symm : Std.Symm fun x y : String → Option V => table.sameKey x y = false :=
    ⟨fun x y apart => by rwa [sameKey_comm]⟩
  have apart := keyed.unique.forall first second differ
  rw [apart] at same
  cases same

theorem assigned_owned {column : String} (same : table.sameKey cells desired = true)
    (owned : column ∈ table.columns) : table.assigned desired cells column = desired column := by
  unfold OwnedTable.assigned
  by_cases mutates : column ∈ table.mutableColumns
  · rw [if_pos (List.contains_iff_mem.mpr mutates)]
  · rw [if_neg (by rwa [List.contains_iff_mem])]
    have key : column ∈ table.primaryKey := by
      by_contra free
      exact mutates (mem_mutable.mpr ⟨owned, free⟩)
    exact (sameKey_iff.mp same column key).1

theorem sameKey_assigned : table.sameKey (table.assigned desired cells) b = table.sameKey cells b := by
  apply Bool.eq_iff_iff.mpr
  rw [sameKey_iff, sameKey_iff]
  constructor
  · intro same key listed
    have agrees := same key listed
    rwa [assigned_key listed] at agrees
  · intro same key listed
    rw [assigned_key listed]
    exact same key listed

theorem project_assigned (same : table.sameKey cells desired = true) :
    table.project (table.assigned desired cells) = table.project desired :=
  List.map_congr_left fun _ owned => assigned_owned same owned

theorem assigned_same (unchanged : table.changed cells desired = false) :
    table.assigned desired cells = cells := by
  funext column
  unfold OwnedTable.assigned
  split
  · next mutates =>
    unfold OwnedTable.changed at unchanged
    have equal := List.any_eq_false.mp unchanged column (List.contains_iff_mem.mp mutates)
    simpa using (Eq.symm (by simpa using equal) : desired column = cells column)
  · rfl

/-- What `UPDATE` makes of a row whose key is staged. -/
theorem updatedRow_eq (keyed : table.Keyed staged) {row : Row String V} (there : desired ∈ staged)
    (same : table.sameKey row.cells desired = true) :
    table.updatedRow staged row = ⟨row.rowid, table.assigned desired row.cells⟩ := by
  have own (other : String → Option V) (listed : other ∈ staged)
      (agrees : table.sameKey row.cells other = true) : other = desired :=
    keyed.eq listed there (sameKey_trans (sameKey_symm agrees) same)
  unfold OwnedTable.updatedRow
  by_cases differs : (staged.any fun desired =>
      table.sameKey row.cells desired && table.changed row.cells desired) = true
  · rw [if_pos differs]
    cases found : staged.find? (table.sameKey row.cells) with
    | none =>
      have absent := List.find?_eq_none.mp found desired there
      exact absurd same absent
    | some other =>
      have matches' := List.find?_some found
      rw [own other (List.mem_of_find?_eq_some found) matches']
  · rw [if_neg differs]
    have unchanged : table.changed row.cells desired = false := by
      rw [Bool.eq_false_iff]
      intro changed
      exact differs (List.any_eq_true.mpr ⟨desired, there, Bool.and_eq_true_iff.mpr ⟨same, changed⟩⟩)
    rw [assigned_same unchanged]

theorem nodup_project (keys : ∀ key ∈ table.primaryKey, key ∈ table.columns) (keyed : table.Keyed staged) :
    (staged.map table.project).Nodup := by
  refine List.pairwise_map.mpr (keyed.unique.imp_of_mem fun {a b} first _ differ same => ?_)
  have own := keyed.own a first
  have equal : table.sameKey a b = true := by
    rw [sameKey_iff] at own ⊢
    intro key listed
    have agrees : a key = b key := List.map_inj_left.mp same key (keys key listed)
    exact ⟨agrees, (own key listed).2⟩
  rw [differ] at equal
  cases equal

end Rows

end Jeryu.Storage
