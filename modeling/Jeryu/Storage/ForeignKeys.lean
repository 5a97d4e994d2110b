import Jeryu.Storage.Reconciled

/-!
No foreign key ever stops a snapshot: children go before their parents and come after them.
-/

namespace Jeryu.Storage

open Jeryu.Core Tables

variable {V : Type}

/-- `column REFERENCES parent(key) ON DELETE CASCADE`. -/
def references (child column parent key : String) : Link String String :=
  ⟨child, [(column, key)], parent, true⟩

/-- The foreign keys the migrations leave. -/
def foreignKeys : List (Link String String) := [
  references "user_accounts" "login" "users" "login",
  references "web_sessions" "login" "user_accounts" "login",
  references "personal_access_tokens" "login" "user_accounts" "login",
  references "bot_keys" "bot_id" "bots" "id",
  references "bot_refresh_tokens" "bot_id" "bots" "id",
  references "bot_operations" "bot_id" "bots" "id",
  references "bot_activity" "bot_id" "bots" "id",
  references "bot_access_tokens" "bot_id" "bots" "id",
  references "account_activation_challenges" "invitation_id" "account_invitations" "id",
  references "teams" "organization" "organizations" "login",
  references "repository_transfer_journal" "repository_id" "repositories" "id",
  references "repository_aliases" "repository_id" "repositories" "id",
  ⟨"repository_aliases", [("transaction_id", "transaction_id")], "repository_transfer_journal", false⟩,
  references "repo_access_grants" "login" "user_accounts" "login",
  references "repo_access_grants" "repo_id" "repositories" "id",
  references "bot_repo_grants" "bot_id" "bots" "id",
  references "bot_repo_grants" "repo_id" "repositories" "id",
  references "labels" "repo_id" "repositories" "id",
  references "issues" "repo_id" "repositories" "id",
  references "issue_comments" "repo_id" "repositories" "id",
  ⟨"issue_comments", [("repo_id", "repo_id"), ("issue_number", "number")], "issues", true⟩,
  references "pull_requests" "repo_id" "repositories" "id",
  ⟨"pull_requests", [("repo_id", "repo_id"), ("issue_number", "number")], "issues", false⟩,
  references "reviews" "repo_id" "repositories" "id",
  ⟨"reviews", [("repo_id", "repo_id"), ("pull_number", "number")], "pull_requests", false⟩,
  references "review_comments" "review_id" "reviews" "id",
  references "review_comments" "repo_id" "repositories" "id",
  ⟨"review_comments", [("repo_id", "repo_id"), ("pull_number", "number")], "pull_requests", true⟩,
  references "branch_protection_rules" "repo_id" "repositories" "id",
  references "codeowners" "repo_id" "repositories" "id",
  references "repository_readmes" "repo_id" "repositories" "id",
  references "commit_statuses" "repo_id" "repositories" "id",
  references "check_runs" "repo_id" "repositories" "id",
  references "jankurai_scores" "repo_id" "repositories" "id",
  references "webhooks" "repo_id" "repositories" "id",
  references "webhook_metadata" "id" "webhooks" "id",
  references "webhook_deliveries" "hook_id" "webhooks" "id",
  references "webhook_deliveries" "repo_id" "repositories" "id",
  references "repo_counters" "repo_id" "repositories" "id"]

/-- Whatever refers to a table comes after it. -/
def ParentsFirst (links : List (Link String String)) : List OwnedTable → Prop
  | [] => True
  | table :: rest =>
    (∀ link ∈ links, link.parent = table.name → link.child ∈ rest.map OwnedTable.name) ∧ ParentsFirst links rest

instance parentsFirstDecidable (links : List (Link String String)) :
    (tables : List OwnedTable) → Decidable (ParentsFirst links tables)
  | [] => inferInstanceAs (Decidable True)
  | _ :: rest =>
    have := parentsFirstDecidable links rest
    inferInstanceAs (Decidable (_ ∧ _))

/-- The links are among owned columns of owned tables, parents first. -/
structure Arranged (links : List (Link String String)) (tables : List OwnedTable) : Prop where
  children : ∀ link ∈ links, ∃ child ∈ tables, child.name = link.child ∧
    ∀ pair ∈ link.columns, pair.1 ∈ child.columns
  parents : ∀ link ∈ links, ∃ parent ∈ tables, parent.name = link.parent ∧
    ∀ pair ∈ link.columns, pair.2 ∈ parent.columns
  ordered : ParentsFirst links tables

theorem foreignKeys_arranged : Arranged foreignKeys ownedTables :=
  ⟨by decide +kernel, by decide +kernel, by decide +kernel⟩

section Contents

variable [DecidableEq V]

/-- Every staged child has its staged parent. -/
def Closed (links : List (Link String String)) (staged : Content V) : Prop :=
  ∀ link ∈ links, ∀ child ∈ staged link.child, link.free child = true ∨
    ∃ parent ∈ staged link.parent, link.refers child parent = true

/-- What a row that stays refers to stays, by the columns it is referred to. -/
def Steady (links : List (Link String String)) (tables : List OwnedTable) (before after : Content V) : Prop :=
  ∀ link ∈ links, ∀ child ∈ tables, child.name = link.child → ∀ parent ∈ tables, parent.name = link.parent →
    ∀ row ∈ before link.child, (∃ desired ∈ after link.child, child.sameKey row desired = true) →
      ∀ above ∈ before link.parent, link.refers row above = true →
        ∃ desired ∈ after link.parent, parent.sameKey above desired = true ∧
          ∀ pair ∈ link.columns, desired pair.2 = above pair.2

/-- What the tables hold, without where. -/
def contents (db : Store V) : Content V := fun name => (db name).map Row.cells

end Contents

section Links

variable {link : Link String String} {a b : String → Option V}

theorem free_congr {a' : String → Option V} (free : link.free a = true)
    (child : ∀ pair ∈ link.columns, a' pair.1 = a pair.1) : link.free a' = true := by
  unfold Link.free at free ⊢
  rw [List.any_eq_true] at free ⊢
  obtain ⟨pair, listed, null⟩ := free
  exact ⟨pair, listed, by rwa [child pair listed]⟩

theorem column_of_project {table : OwnedTable} {column : String} (same : table.project a = table.project b)
    (owned : column ∈ table.columns) : a column = b column := List.map_inj_left.mp same column owned

theorem table_eq {tables : List OwnedTable} {table other : OwnedTable}
    (names : (tables.map OwnedTable.name).Nodup) (first : table ∈ tables) (second : other ∈ tables)
    (same : table.name = other.name) : table = other := List.inj_on_of_nodup_map names first second same

theorem parentsFirst_closed {links : List (Link String String)} {tables : List OwnedTable}
    (ordered : ParentsFirst links tables) (declared : link ∈ links)
    (above : link.parent ∈ tables.map OwnedTable.name) : link.child ∈ tables.map OwnedTable.name := by
  induction tables with
  | nil => cases above
  | cons table rest ih =>
    obtain ⟨here, later⟩ := ordered
    rw [List.map_cons, List.mem_cons] at above ⊢
    rcases above with same | above
    · exact .inr (here link declared same)
    · exact .inr (ih later above)

/-- What a table refers to comes before it. -/
theorem parentsFirst_earlier {links : List (Link String String)} {before rest : List OwnedTable}
    {table : OwnedTable} (names : ((before ++ table :: rest).map OwnedTable.name).Nodup)
    (ordered : ParentsFirst links (before ++ table :: rest)) (declared : link ∈ links)
    (below : link.child = table.name)
    (above : link.parent ∈ (before ++ table :: rest).map OwnedTable.name) :
    link.parent ∈ before.map OwnedTable.name := by
  induction before with
  | nil =>
    obtain ⟨alone, -⟩ := List.nodup_cons.mp names
    obtain ⟨here, later⟩ := ordered
    rw [List.nil_append, List.map_cons, List.mem_cons] at above
    refine absurd ?_ alone
    rw [← below]
    rcases above with same | above
    · exact here link declared same
    · exact parentsFirst_closed later declared above
  | cons first before ih =>
    obtain ⟨alone, distinct⟩ := List.nodup_cons.mp names
    obtain ⟨here, later⟩ := ordered
    rw [List.cons_append, List.map_cons, List.mem_cons] at above
    rw [List.map_cons, List.mem_cons]
    rcases above with same | above
    · exact .inl same
    · exact .inr (ih distinct later above)

variable [DecidableEq V]

theorem refers_iff : link.refers a b = true ↔
    ∀ pair ∈ link.columns, a pair.1 = b pair.2 ∧ (a pair.1).isSome = true := by
  unfold Link.refers
  simp only [List.all_eq_true, equal_iff]

theorem refers_congr {a' b' : String → Option V} (refers : link.refers a b = true)
    (child : ∀ pair ∈ link.columns, a' pair.1 = a pair.1)
    (parent : ∀ pair ∈ link.columns, b' pair.2 = b pair.2) : link.refers a' b' = true := by
  rw [refers_iff] at refers ⊢
  intro pair listed
  rw [child pair listed, parent pair listed]
  exact refers pair listed

end Links

section Deleting

variable [DecidableEq V] {schema : Schema V} {tables : List OwnedTable} {staged : Content V}
variable {db d : Store V} {table : OwnedTable} {done : String → Prop}

/-- The row is one of an owned table, and staged. -/
def Kept (tables : List OwnedTable) (staged : Content V) (name : String) (cells : String → Option V) : Prop :=
  ∃ table ∈ tables, table.name = name ∧ ∃ desired ∈ staged name, table.sameKey cells desired = true

/-- The tables done have the rows that are kept, the others all of theirs. -/
def Pruned (tables : List OwnedTable) (staged : Content V) (db : Store V) (done : String → Prop)
    (d : Store V) : Prop :=
  ∀ name row, row ∈ d name ↔ row ∈ db name ∧ (done name → Kept tables staged name row.cells)

theorem Steady.kept {link : Link String String} {row above : Row String V}
    (steady : Steady schema.links tables (contents db) staged) (declared : link ∈ schema.links)
    (listed : table ∈ tables) (named : table.name = link.parent) (there : row ∈ db link.child)
    (kept : Kept tables staged link.child row.cells) (aboveThere : above ∈ db link.parent)
    (refers : link.refers row.cells above.cells = true) :
    ∃ desired ∈ staged link.parent, table.sameKey above.cells desired = true ∧
      ∀ pair ∈ link.columns, desired pair.2 = above.cells pair.2 := by
  obtain ⟨child, member, childNamed, stays⟩ := kept
  exact steady link declared child member childNamed table listed named row.cells
    (List.mem_map_of_mem there) stays above.cells (List.mem_map_of_mem aboveThere) refers

theorem pruned_linked (arranged : Arranged schema.links tables) (linked : Linked schema.links db)
    (steady : Steady schema.links tables (contents db) staged)
    (closed : ∀ link ∈ schema.links, done link.parent → done link.child)
    (pruned : Pruned tables staged db done d) : Linked schema.links d := by
  intro link declared row there
  obtain ⟨before, kept⟩ := (pruned _ _).mp there
  refine (linked link declared row before).imp id fun ⟨above, aboveThere, refers⟩ => ?_
  refine ⟨above, (pruned _ _).mpr ⟨aboveThere, fun finished => ?_⟩, refers⟩
  obtain ⟨parent, listed, named, -⟩ := arranged.parents link declared
  obtain ⟨desired, member, same, -⟩ := steady.kept declared listed named before
    (kept (closed link declared finished)) aboveThere refers
  exact ⟨parent, listed, named, desired, member, same⟩

/-- A deletion takes what it asks for, and nothing with it. -/
theorem deletes_alone {row : Row String V} {name : String} (listed : table ∈ tables)
    (steady : Steady schema.links tables (contents db) staged)
    (below : ∀ link ∈ schema.links, link.parent = table.name → done link.child)
    (pruned : Pruned tables staged db done d)
    (goes : Goes schema.links d (fun u row => u = table.name ∧
      (!(staged table.name).any (table.sameKey row.cells)) = true) name row) :
    name = table.name ∧ (!(staged table.name).any (table.sameKey row.cells)) = true := by
  induction goes with
  | asked there picked => exact picked
  | @cascade link above child declared cascades goes there refers ih =>
    obtain ⟨named, absent⟩ := ih
    obtain ⟨before, kept⟩ := (pruned _ _).mp there
    obtain ⟨aboveThere, -⟩ := (pruned _ _).mp goes.there
    obtain ⟨desired, member, same, -⟩ := steady.kept declared listed named.symm before
      (kept (below link declared named)) aboveThere refers
    rw [named] at member
    rw [List.any_eq_true.mpr ⟨desired, member, same⟩] at absent
    cases absent

theorem kept_iff (owned : Owned tables) (listed : table ∈ tables) {cells : String → Option V} :
    Kept tables staged table.name cells ↔ (staged table.name).any (table.sameKey cells) = true := by
  constructor
  · rintro ⟨other, member, same, desired, staged', agrees⟩
    have one := table_eq owned.names member listed same
    subst one
    exact List.any_eq_true.mpr ⟨desired, staged', agrees⟩
  · intro some
    obtain ⟨desired, member, agrees⟩ := List.any_eq_true.mp some
    exact ⟨table, listed, rfl, desired, member, agrees⟩

theorem pruned_delete (owned : Owned tables) (listed : table ∈ tables)
    (steady : Steady schema.links tables (contents db) staged)
    (below : ∀ link ∈ schema.links, link.parent = table.name → done link.child)
    (pruned : Pruned tables staged db done d) :
    Pruned tables staged db (fun name => name = table.name ∨ done name)
      (delete schema.links table.name (fun row => !(staged table.name).any (table.sameKey row.cells)) d) := by
  intro name row
  rw [mem_delete, pruned]
  constructor
  · rintro ⟨⟨there, kept⟩, stays⟩
    refine ⟨there, fun finished => ?_⟩
    rcases finished with rfl | finished
    · rw [kept_iff owned listed]
      by_contra none
      refine stays (.asked ((pruned _ _).mpr ⟨there, kept⟩) ⟨rfl, ?_⟩)
      rw [Bool.not_eq_true']
      exact Bool.eq_false_iff.mpr none
    · exact kept finished
  · rintro ⟨there, kept⟩
    refine ⟨⟨there, fun finished => kept (.inr finished)⟩, fun goes => ?_⟩
    obtain ⟨rfl, absent⟩ := deletes_alone listed steady below pruned goes
    rw [(kept_iff owned listed).mp (kept (.inl rfl))] at absent
    cases absent

/-- The database stops nothing but what leaves a child without its parent. -/
def Schema.Lenient (schema : Schema V) : Prop :=
  ∀ before after, Linked schema.links after → schema.refuses before after = none

theorem run_linked {before after : Store V} (lenient : schema.Lenient) (linked : Linked schema.links after) :
    schema.run before after = .ok after := by
  unfold Schema.run
  rw [lenient before after linked]

/-- The deletions of the last tables go through. -/
theorem deletes_pass (owned : Owned tables) (arranged : Arranged schema.links tables)
    (lenient : schema.Lenient) (linked : Linked schema.links db)
    (steady : Steady schema.links tables (contents db) staged) {last : List OwnedTable}
    (among : ∀ table ∈ last, table ∈ tables) (ordered : ParentsFirst schema.links last) :
    ∃ d, last.reverse.foldlM (deleteAbsent schema staged) db = .ok d ∧
      Pruned tables staged db (fun name => name ∈ last.map OwnedTable.name) d := by
  induction last with
  | nil =>
    refine ⟨db, rfl, fun name row => ⟨fun there => ⟨there, fun done => ?_⟩, fun kept => kept.1⟩⟩
    exact absurd done List.not_mem_nil
  | cons table rest ih =>
    obtain ⟨here, later⟩ := ordered
    obtain ⟨d, run, pruned⟩ := ih (fun other member => among other (List.mem_cons_of_mem _ member)) later
    have listed := among table List.mem_cons_self
    have next := pruned_delete owned listed steady here pruned
    have linkedNext := pruned_linked arranged linked steady (fun link declared finished => ?_) next
    · refine ⟨delete schema.links table.name (fun row => !(staged table.name).any (table.sameKey row.cells)) d,
        ?_, fun name row => ?_⟩
      · rw [List.reverse_cons, List.foldlM_append, run]
        show [table].foldlM (deleteAbsent schema staged) d = _
        rw [List.foldlM_cons]
        unfold deleteAbsent
        rw [run_linked lenient linkedNext]
        rfl
      · rw [next, List.map_cons]
        simp only [List.mem_cons]
    · rcases finished with same | finished
      · exact .inr (here link declared same)
      · exact .inr (parentsFirst_closed later declared finished)

end Deleting

section Merging

variable [DecidableEq V] {schema : Schema V} {tables : List OwnedTable} {staged : Content V}
variable {mid d : Store V} {table : OwnedTable} {begun finished : String → Prop}

/-- The store between the statements of the second pass: tables begun hold staged rows, or rows whose turn
    is still to come; a row that stays is there, or there with its staged values; and tables finished hold
    all that is staged. -/
structure Merging (tables : List OwnedTable) (staged : Content V) (mid : Store V)
    (begun finished : String → Prop) (d : Store V) : Prop where
  waiting : ∀ name, ¬begun name → d name = mid name
  rows : ∀ table ∈ tables, begun table.name → ∀ row ∈ d table.name,
    ∃ desired ∈ staged table.name, table.project row.cells = table.project desired
  above : ∀ table ∈ tables, begun table.name → ∀ row ∈ mid table.name, ∀ desired ∈ staged table.name,
    table.sameKey row.cells desired = true →
      ∃ after ∈ d table.name, after.cells = table.assigned desired row.cells
  held : ∀ table ∈ tables, finished table.name → ∀ desired ∈ staged table.name,
    ∃ row ∈ d table.name, table.project row.cells = table.project desired

theorem merging_start : Merging tables staged mid (fun _ => False) (fun _ => False) mid :=
  ⟨fun _ _ => rfl, fun _ _ none => none.elim, fun _ _ none => none.elim, fun _ _ none => none.elim⟩

theorem merging_linked (arranged : Arranged schema.links tables) (linked : Linked schema.links mid)
    (every : ∀ table ∈ tables, table.Staged (staged table.name) (mid table.name))
    (closed : Closed schema.links staged) (steady : Steady schema.links tables (contents mid) staged)
    (ready : ∀ link ∈ schema.links, begun link.child → finished link.parent)
    (merging : Merging tables staged mid begun finished d) : Linked schema.links d := by
  intro link declared row there
  obtain ⟨child, childListed, childNamed, childColumns⟩ := arranged.children link declared
  obtain ⟨parent, listed, named, columns⟩ := arranged.parents link declared
  by_cases started : begun link.child
  · have rows := merging.rows child childListed (childNamed ▸ started) row
    rw [childNamed] at rows
    obtain ⟨desired, member, same⟩ := rows there
    have own (pair : String × String) (mentioned : pair ∈ link.columns) :
        row.cells pair.1 = desired pair.1 := column_of_project same (childColumns pair mentioned)
    rcases closed link declared desired member with free | ⟨above, aboveStaged, refers⟩
    · exact .inl (free_congr free own)
    · have held := merging.held parent listed (named ▸ ready link declared started) above
      rw [named] at held
      obtain ⟨stored, storedThere, agrees⟩ := held aboveStaged
      refine .inr ⟨stored, storedThere, refers_congr refers own fun pair mentioned => ?_⟩
      exact column_of_project agrees (columns pair mentioned)
  · rw [merging.waiting _ started] at there
    refine (linked link declared row there).imp id fun ⟨above, aboveThere, refers⟩ => ?_
    by_cases parentStarted : begun link.parent
    · have stays := every child childListed
      rw [childNamed] at stays
      obtain ⟨desired, member, same, agrees⟩ := steady.kept declared listed named there
        ⟨child, childListed, childNamed, stays row there⟩ aboveThere refers
      have after := merging.above parent listed (named ▸ parentStarted) above
      rw [named] at after
      obtain ⟨stored, storedThere, assigned⟩ := after aboveThere desired member same
      refine ⟨stored, storedThere, refers_congr refers (fun _ _ => rfl) fun pair mentioned => ?_⟩
      rw [assigned, assigned_owned same (columns pair mentioned), agrees pair mentioned]
    · rw [merging.waiting _ parentStarted]
      exact ⟨above, aboveThere, refers⟩

/-- The update of a table. -/
theorem merging_update (owned : Owned tables) (keyed : ∀ table ∈ tables, table.Keyed (staged table.name))
    (every : ∀ table ∈ tables, table.Staged (staged table.name) (mid table.name)) (listed : table ∈ tables)
    (fresh : ¬begun table.name) (unfinished : ¬finished table.name)
    (merging : Merging tables staged mid begun finished d) :
    Merging tables staged mid (fun name => name = table.name ∨ begun name) finished
      (updateChanged staged table d) := by
  have here : updateChanged staged table d table.name =
      (mid table.name).map (table.updatedRow (staged table.name)) := by
    unfold updateChanged
    rw [if_pos rfl, merging.waiting _ fresh]
  have elsewhere {name : String} (other : name ≠ table.name) : updateChanged staged table d name = d name :=
    if_neg other
  constructor
  · intro name idle
    rw [not_or] at idle
    rw [elsewhere idle.1]
    exact merging.waiting name idle.2
  · intro other member started
    by_cases same : other.name = table.name
    · have one := table_eq owned.names member listed same
      subst one
      rw [here]
      intro row there
      obtain ⟨before, stored, rfl⟩ := List.mem_map.mp there
      obtain ⟨desired, staged', agrees⟩ := every other member before stored
      refine ⟨desired, staged', ?_⟩
      rw [updatedRow_eq (keyed other member) staged' agrees]
      exact project_assigned agrees
    · rw [elsewhere same]
      exact merging.rows other member (started.resolve_left same)
  · intro other member started row there desired staged' agrees
    by_cases same : other.name = table.name
    · have one := table_eq owned.names member listed same
      subst one
      rw [here]
      refine ⟨_, List.mem_map_of_mem there, ?_⟩
      rw [updatedRow_eq (keyed other member) staged' agrees]
    · rw [elsewhere same]
      exact merging.above other member (started.resolve_left same) row there desired staged' agrees
  · intro other member done
    have apart : other.name ≠ table.name := fun same => unfinished (same ▸ done)
    rw [elsewhere apart]
    exact merging.held other member done

/-- The insert into a table that has been updated. -/
theorem merging_insert (owned : Owned tables) (keyed : ∀ table ∈ tables, table.Keyed (staged table.name))
    (listed : table ∈ tables) (started : begun table.name)
    (merging : Merging tables staged mid begun finished d) :
    Merging tables staged mid begun (fun name => name = table.name ∨ finished name)
      (insertNew schema staged table d) := by
  have here : insertNew schema staged table d table.name = table.inserted schema (d table.name)
      (table.newRows (staged table.name) (d table.name)) := if_pos rfl
  have elsewhere {name : String} (other : name ≠ table.name) :
      insertNew schema staged table d name = d name := if_neg other
  constructor
  · intro name idle
    have other : name ≠ table.name := fun same => idle (same ▸ started)
    rw [elsewhere other]
    exact merging.waiting name idle
  · intro other member others
    by_cases same : other.name = table.name
    · have one := table_eq owned.names member listed same
      subst one
      rw [here]
      intro row there
      rcases mem_inserted _ there with old | ⟨desired, new, made⟩
      · exact merging.rows other member others row old
      · refine ⟨desired, (mem_newRows.mp new).1, ?_⟩
        rw [made]
        exact project_newCells
    · rw [elsewhere same]
      exact merging.rows other member others
  · intro other member others row there desired staged' agrees
    obtain ⟨after, stored, assigned⟩ := merging.above other member others row there desired staged' agrees
    refine ⟨after, ?_, assigned⟩
    by_cases same : other.name = table.name
    · have one := table_eq owned.names member listed same
      subst one
      rw [here]
      exact mem_inserted_of_mem _ stored
    · rw [elsewhere same]
      exact stored
  · intro other member done desired staged'
    by_cases same : other.name = table.name
    · have one := table_eq owned.names member listed same
      subst one
      rw [here]
      by_cases new : desired ∈ other.newRows (staged other.name) (d other.name)
      · obtain ⟨row, there, made⟩ := mem_inserted_of_new new
        refine ⟨row, there, ?_⟩
        rw [made]
        exact project_newCells
      · obtain ⟨row, there, agrees⟩ : ∃ row ∈ d other.name, other.sameKey row.cells desired = true := by
          by_contra none
          refine new (mem_newRows.mpr ⟨staged', fun row there => ?_⟩)
          exact Bool.eq_false_iff.mpr fun agrees => none ⟨row, there, agrees⟩
        obtain ⟨own, ownStaged, project⟩ := merging.rows other member started row there
        have key := sameKey_of_project (owned.keys other member) ((keyed other member).own own ownStaged) project
        have one := (keyed other member).eq ownStaged staged' (sameKey_trans (sameKey_symm key) agrees)
        subst one
        exact ⟨row, mem_inserted_of_mem _ there, project⟩
    · rw [elsewhere same]
      exact merging.held other member (done.resolve_left same) desired staged'

theorem reconcileRows_passes (owned : Owned tables) (arranged : Arranged schema.links tables)
    (lenient : schema.Lenient) (linked : Linked schema.links mid)
    (keyed : ∀ table ∈ tables, table.Keyed (staged table.name))
    (every : ∀ table ∈ tables, table.Staged (staged table.name) (mid table.name))
    (closed : Closed schema.links staged) (steady : Steady schema.links tables (contents mid) staged)
    (listed : table ∈ tables) (fresh : ¬begun table.name)
    (ready : ∀ link ∈ schema.links, link.child = table.name ∨ begun link.child → begun link.parent)
    (merging : Merging tables staged mid begun begun d) :
    ∃ d', reconcileRows schema staged d table = .ok d' ∧
      Merging tables staged mid (fun name => name = table.name ∨ begun name)
        (fun name => name = table.name ∨ begun name) d' := by
  have updated := merging_update owned keyed every listed fresh fresh merging
  have inserted : Merging tables staged mid (fun name => name = table.name ∨ begun name)
      (fun name => name = table.name ∨ begun name)
      (insertNew schema staged table (updateChanged staged table d)) :=
    merging_insert owned keyed listed (.inl rfl) updated
  have linkedUpdated := merging_linked arranged linked every closed steady ready updated
  have linkedInserted := merging_linked arranged linked every closed steady
    (fun link declared started => .inr (ready link declared started)) inserted
  refine ⟨_, ?_, inserted⟩
  have inserts : schema.run (updateChanged staged table d)
      (insertNew schema staged table (updateChanged staged table d)) = .ok _ :=
    run_linked lenient linkedInserted
  unfold reconcileRows
  by_cases fixed : table.mutableColumns.isEmpty = true
  · have same : updateChanged staged table d = d := by
      funext name
      unfold updateChanged
      split
      · exact map_updatedRow (List.isEmpty_iff.mp fixed)
      · rfl
    rw [if_pos fixed]
    rw [same] at inserts ⊢
    exact inserts
  · rw [if_neg fixed, run_linked lenient linkedUpdated]
    exact inserts

/-- The second pass goes through. -/
theorem reconciles_pass (owned : Owned tables) (arranged : Arranged schema.links tables)
    (lenient : schema.Lenient) (linked : Linked schema.links mid)
    (keyed : ∀ table ∈ tables, table.Keyed (staged table.name))
    (every : ∀ table ∈ tables, table.Staged (staged table.name) (mid table.name))
    (closed : Closed schema.links staged) (steady : Steady schema.links tables (contents mid) staged)
    {before rest : List OwnedTable} (split : tables = before ++ rest)
    (merging : Merging tables staged mid (fun name => name ∈ before.map OwnedTable.name)
      (fun name => name ∈ before.map OwnedTable.name) d) :
    ∃ d', rest.foldlM (reconcileRows schema staged) d = .ok d' ∧
      Merging tables staged mid (fun name => name ∈ tables.map OwnedTable.name)
        (fun name => name ∈ tables.map OwnedTable.name) d' := by
  induction rest generalizing before d with
  | nil =>
    rw [List.append_nil] at split
    exact ⟨d, rfl, split ▸ merging⟩
  | cons table rest ih =>
    have names := owned.names
    have ordered := arranged.ordered
    rw [split] at names ordered
    have parentThere (link : Link String String) (declared : link ∈ schema.links) :
        link.parent ∈ (before ++ table :: rest).map OwnedTable.name := by
      obtain ⟨parent, member, named, -⟩ := arranged.parents link declared
      rw [← named, ← split]
      exact List.mem_map_of_mem member
    have ready (link : Link String String) (declared : link ∈ schema.links)
        (started : link.child = table.name ∨ link.child ∈ before.map OwnedTable.name) :
        link.parent ∈ before.map OwnedTable.name := by
      rcases started with same | started
      · exact parentsFirst_earlier names ordered declared same (parentThere link declared)
      · obtain ⟨child, member, named⟩ := List.mem_map.mp started
        obtain ⟨first, last, rfl⟩ := List.append_of_mem member
        rw [List.append_assoc, List.cons_append] at names ordered
        have above := parentThere link declared
        rw [List.append_assoc, List.cons_append] at above
        have earlier := parentsFirst_earlier names ordered declared named.symm above
        rw [List.map_append]
        exact List.mem_append_left _ earlier
    have fresh : table.name ∉ before.map OwnedTable.name := by
      intro member
      rw [List.map_append] at names
      exact (List.nodup_append.mp names).2.2 _ member _ List.mem_cons_self rfl
    have listed : table ∈ tables := split ▸ List.mem_append_right before List.mem_cons_self
    obtain ⟨next, run, merged⟩ :=
      reconcileRows_passes owned arranged lenient linked keyed every closed steady listed fresh ready merging
    have more : (fun name => name = table.name ∨ name ∈ before.map OwnedTable.name) =
        fun name => name ∈ (before ++ [table]).map OwnedTable.name := by
      funext name
      simp [or_comm]
    rw [more] at merged
    obtain ⟨last, rest', done⟩ := ih (by rw [split, List.append_assoc]; rfl) merged
    refine ⟨last, ?_, done⟩
    rw [List.foldlM_cons, run]
    exact rest'

/-- Nothing about its foreign keys stops a snapshot. -/
theorem apply_passes {db : Store V} (owned : Owned tables) (arranged : Arranged schema.links tables)
    (lenient : schema.Lenient) (linked : Linked schema.links db)
    (keyed : ∀ table ∈ tables, table.Keyed (staged table.name)) (closed : Closed schema.links staged)
    (steady : Steady schema.links tables (contents db) staged) :
    ∃ db', apply schema tables staged db = .ok db' ∧ Linked schema.links db' ∧
      ∀ table ∈ tables, table.Holds (staged table.name) (db' table.name) := by
  obtain ⟨mid, deletes, pruned⟩ :=
    deletes_pass owned arranged lenient linked steady (fun _ member => member) arranged.ordered
  have among (link : Link String String) (declared : link ∈ schema.links) :
      link.child ∈ tables.map OwnedTable.name := by
    obtain ⟨child, member, named, -⟩ := arranged.children link declared
    rw [← named]
    exact List.mem_map_of_mem member
  have linkedMid := pruned_linked arranged linked steady (fun link declared _ => among link declared) pruned
  have every (table : OwnedTable) (listed : table ∈ tables) :
      table.Staged (staged table.name) (mid table.name) := by
    intro row there
    have kept := ((pruned _ _).mp there).2 (List.mem_map_of_mem listed)
    exact List.any_eq_true.mp ((kept_iff owned listed).mp kept)
  have steadyMid : Steady schema.links tables (contents mid) staged := by
    have fewer (name : String) (cells : String → Option V) (there : cells ∈ contents mid name) :
        cells ∈ contents db name := by
      obtain ⟨row, stored, rfl⟩ := List.mem_map.mp there
      exact List.mem_map_of_mem ((pruned _ _).mp stored).1
    intro link declared child member named parent listed parentNamed row there stays above aboveThere refers
    exact steady link declared child member named parent listed parentNamed row (fewer _ _ there) stays above
      (fewer _ _ aboveThere) refers
  have start : Merging tables staged mid (fun name => name ∈ ([] : List OwnedTable).map OwnedTable.name)
      (fun name => name ∈ ([] : List OwnedTable).map OwnedTable.name) mid := by
    simpa using merging_start
  obtain ⟨db', reconciles, done⟩ :=
    reconciles_pass owned arranged lenient linkedMid keyed every closed steadyMid rfl start
  refine ⟨db', ?_, ?_, fun table listed => ?_⟩
  · unfold apply
    rw [deletes]
    exact reconciles
  · refine merging_linked arranged linkedMid every closed steadyMid (fun link declared _ => ?_) done
    obtain ⟨parent, member, named, -⟩ := arranged.parents link declared
    rw [← named]
    exact List.mem_map_of_mem member
  · have named : table.name ∈ tables.map OwnedTable.name := List.mem_map_of_mem listed
    exact ⟨done.rows table listed named, done.held table listed named⟩

end Merging

section History

variable [DecidableEq V] {schema : Schema V} {tables : List OwnedTable} {before after : Content V}
variable {history : List (Content V)} {db : Store V}

theorem sameKey_congr {table : OwnedTable} {a a' b : String → Option V}
    (keys : ∀ key ∈ table.primaryKey, key ∈ table.columns) (same : table.project a = table.project a') :
    table.sameKey a b = table.sameKey a' b := by
  apply Bool.eq_iff_iff.mpr
  rw [sameKey_iff, sameKey_iff]
  have own (key : String) (listed : key ∈ table.primaryKey) : a key = a' key :=
    column_of_project same (keys key listed)
  exact forall₂_congr fun key listed => by rw [own key listed]

/-- What is steady from one snapshot to the next is steady from the store that holds the first. -/
theorem Steady.stored {links : List (Link String String)} (owned : Owned tables)
    (arranged : Arranged links tables) (steady : Steady links tables before after)
    (holds : ∀ table ∈ tables, table.Holds (before table.name) (db table.name)) :
    Steady links tables (contents db) after := by
  intro link declared child member named parent listed parentNamed row there stays above aboveThere refers
  obtain ⟨stored, storedThere, rfl⟩ := List.mem_map.mp there
  obtain ⟨storedAbove, storedAboveThere, rfl⟩ := List.mem_map.mp aboveThere
  obtain ⟨own, ownStaged, same⟩ := (holds child member).listed stored (named ▸ storedThere)
  obtain ⟨ownAbove, ownAboveStaged, sameAbove⟩ :=
    (holds parent listed).listed storedAbove (parentNamed ▸ storedAboveThere)
  obtain ⟨other, otherMember, otherNamed, columns⟩ := arranged.children link declared
  obtain ⟨otherParent, otherParentMember, otherParentNamed, parentColumns⟩ := arranged.parents link declared
  have one := table_eq owned.names otherMember member (otherNamed.trans named.symm)
  have oneParent := table_eq owned.names otherParentMember listed (otherParentNamed.trans parentNamed.symm)
  subst one oneParent
  have agrees (pair : String × String) (mentioned : pair ∈ link.columns) :
      ownAbove pair.2 = storedAbove.cells pair.2 :=
    (column_of_project sameAbove (parentColumns pair mentioned)).symm
  obtain ⟨desired, desiredStaged, key⟩ := stays
  rw [sameKey_congr (owned.keys other member) same] at key
  rw [named] at ownStaged
  rw [parentNamed] at ownAboveStaged
  obtain ⟨next, nextStaged, nextKey, nextColumns⟩ := steady link declared other member named otherParent listed
    parentNamed own ownStaged ⟨desired, desiredStaged, key⟩ ownAbove ownAboveStaged
    (refers_congr refers (fun pair mentioned => (column_of_project same (columns pair mentioned)).symm) agrees)
  refine ⟨next, nextStaged, ?_, fun pair mentioned => ?_⟩
  · rw [sameKey_congr (owned.keys otherParent listed) sameAbove]
    exact nextKey
  · rw [nextColumns pair mentioned, agrees pair mentioned]

/-- Snapshot after snapshot, each with the parents of what it stages and steady from the one before, is
    stored: no foreign key stops one, and the store ends up with the last. -/
theorem snapshots_stored (declared : schema.links = foreignKeys) (lenient : schema.Lenient)
    (linked : Linked foreignKeys db)
    (holds : ∀ table ∈ ownedTables, table.Holds (before table.name) (db table.name))
    (keyed : ∀ staged ∈ history, ∀ table ∈ ownedTables, table.Keyed (staged table.name))
    (closed : ∀ staged ∈ history, Closed foreignKeys staged)
    (steady : List.IsChain (Steady foreignKeys ownedTables) (before :: history)) :
    ∃ db', history.foldlM (fun db staged => apply schema ownedTables staged db) db = .ok db' ∧
      Linked foreignKeys db' ∧ ∀ table ∈ ownedTables,
        table.Holds ((before :: history).getLast (List.cons_ne_nil _ _) table.name) (db' table.name) := by
  have arranged : Arranged schema.links ownedTables := declared ▸ foreignKeys_arranged
  rw [← declared] at linked closed steady ⊢
  induction history generalizing before db with
  | nil => exact ⟨db, rfl, linked, holds⟩
  | cons staged rest ih =>
    obtain ⟨first, later⟩ := List.isChain_cons_cons.mp steady
    have own := keyed staged List.mem_cons_self
    obtain ⟨next, run, nextLinked, nextHolds⟩ := apply_passes ownedTables_owned arranged lenient linked own
      (closed staged List.mem_cons_self) (first.stored ownedTables_owned arranged holds)
    obtain ⟨last, runs, lastLinked, lastHolds⟩ := ih nextLinked nextHolds
      (fun other member => keyed other (List.mem_cons_of_mem _ member))
      (fun other member => closed other (List.mem_cons_of_mem _ member)) later
    refine ⟨last, ?_, lastLinked, lastHolds⟩
    rw [List.foldlM_cons, run]
    exact runs

end History

section Demo

/-- A database that refuses what leaves a child without its parent, and nothing else. -/
def strictSchema : Schema String where
  links := foreignKeys
  defaults _ _ := none
  rowid _ rows _ := rows.length + 1
  refuses _ after :=
    if ∀ link ∈ foreignKeys, ∀ row ∈ after link.child, link.free row.cells = true ∨
      ∃ parent ∈ after link.parent, link.refers row.cells parent.cells = true
    then none else some "FOREIGN KEY constraint failed"

def onlyLogin (login : String) : String → Option String := fun column =>
  if column = "login" then some login else none

def adasSession : String → Option String := fun column =>
  if column = "id" then some "s" else if column = "login" then some "ada" else none

def signedIn : Content String := fun name =>
  if name = "users" then [onlyLogin "ada"] else if name = "user_accounts" then [onlyLogin "ada"]
  else if name = "web_sessions" then [adasSession] else []

/-- `ada` and her session are gone, `bob` is there. -/
def handedOver : Content String := fun name =>
  if name = "users" then [onlyLogin "bob"] else if name = "user_accounts" then [onlyLogin "bob"] else []

theorem handedOver_stored :
    ∃ db', [signedIn, handedOver].foldlM (fun db staged => apply strictSchema ownedTables staged db)
      (fun _ => []) = .ok db' ∧ Linked foreignKeys db' ∧ ∀ table ∈ ownedTables,
        table.Holds (handedOver table.name) (db' table.name) := by
  have lenient : strictSchema.Lenient := fun _ _ linked => if_pos linked
  have steady : List.IsChain (Steady foreignKeys ownedTables) [fun _ => [], signedIn, handedOver] := by
    refine .cons_cons ?_ (.cons_cons ?_ (.singleton _))
    · intro link _ child _ _ parent _ _ row there
      cases there
    · unfold Steady
      decide +kernel
  refine snapshots_stored rfl lenient (fun _ _ _ there => absurd there List.not_mem_nil)
    (fun _ _ => ⟨fun _ there => absurd there List.not_mem_nil,
      fun _ there => absurd there List.not_mem_nil⟩) ?_ ?_ steady
  · decide +kernel
  · unfold Closed
    decide +kernel

end Demo

end Jeryu.Storage
