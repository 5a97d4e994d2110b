import Jeryu.Storage.Snapshot

/-!
A snapshot that is written leaves exactly the staged rows in the owned columns, and everything else as it
was.
-/

namespace Jeryu.Storage

open Jeryu.Core Tables

variable {V : Type}

theorem run_ok {schema : Schema V} {db db' after : Store V} (taken : schema.run db after = .ok db') :
    db' = after := by
  unfold Schema.run at taken
  split at taken
  · cases taken
  · exact (Except.ok.inj taken).symm

theorem run_same {schema : Schema V} {db : Store V}
    (quiet : schema.refuses db db = none) : schema.run db db = .ok db := by
  unfold Schema.run
  rw [quiet]

theorem foldlM_same {db : Store V} {tables : List OwnedTable}
    {f : Store V → OwnedTable → Except ForgeError (Store V)}
    (same : ∀ table ∈ tables, f db table = .ok db) : tables.foldlM f db = .ok db := by
  induction tables with
  | nil => rfl
  | cons table rest ih =>
    rw [List.foldlM_cons, same table List.mem_cons_self]
    exact ih fun other member => same other (List.mem_cons_of_mem _ member)

section Rows

variable [DecidableEq V] {table : OwnedTable} {schema : Schema V} {staged : List (String → Option V)}
variable {rows : List (Row String V)}

/-- The rows of a table after its update and its insert. -/
def OwnedTable.reconciled (table : OwnedTable) (schema : Schema V) (staged : List (String → Option V))
    (rows : List (Row String V)) : List (Row String V) :=
  let updated := rows.map (table.updatedRow staged)
  table.inserted schema updated (table.newRows staged updated)

/-- Every row is staged. -/
def OwnedTable.Staged (table : OwnedTable) (staged : List (String → Option V)) (rows : List (Row String V)) :
    Prop :=
  ∀ row ∈ rows, ∃ desired ∈ staged, table.sameKey row.cells desired = true

theorem mem_newRows {desired : String → Option V} : desired ∈ table.newRows staged rows ↔
    desired ∈ staged ∧ ∀ row ∈ rows, table.sameKey row.cells desired = false := by
  unfold OwnedTable.newRows
  rw [List.mem_filter, Bool.not_eq_true', List.any_eq_false]
  simp only [Bool.not_eq_true]

theorem updated_keyed (keyed : table.Keyed staged) (every : table.Staged staged rows)
    (unique : table.Unique rows) :
    table.Keyed ((rows.map (table.updatedRow staged)).map Row.cells) := by
  have keeps (row : Row String V) (there : row ∈ rows) (b : String → Option V) :
      table.sameKey (table.updatedRow staged row).cells b = table.sameKey row.cells b := by
    obtain ⟨desired, listed, same⟩ := every row there
    rw [updatedRow_eq keyed listed same]
    exact sameKey_assigned
  constructor
  · intro cells member
    simp only [List.mem_map] at member
    obtain ⟨-, ⟨row, there, rfl⟩, rfl⟩ := member
    obtain ⟨desired, listed, same⟩ := every row there
    rw [keeps row there, sameKey_comm, keeps row there]
    exact sameKey_trans same (sameKey_symm same)
  · rw [List.map_map, List.pairwise_map]
    refine unique.imp_of_mem fun {a b} first second apart => ?_
    show table.sameKey (table.updatedRow staged a).cells (table.updatedRow staged b).cells = false
    rw [keeps a first, sameKey_comm, keeps b second, sameKey_comm]
    exact apart

theorem reconciled_perm (keys : ∀ key ∈ table.primaryKey, key ∈ table.columns) (keyed : table.Keyed staged)
    (every : table.Staged staged rows) (unique : table.Unique rows) :
    ((table.reconciled schema staged rows).map fun row => table.project row.cells).Perm
      (staged.map table.project) := by
  let updated := rows.map (table.updatedRow staged)
  have own := updated_keyed keyed every unique
  have present : (updated.map fun row => table.project row.cells).Perm
      ((staged.filter fun desired => updated.any fun row => table.sameKey row.cells desired).map
        table.project) := by
    refine (List.perm_ext_iff_of_nodup ?_ ?_).mpr fun values => ?_
    · have nodup := nodup_project keys own
      rwa [List.map_map] at nodup
    · refine (nodup_project keys keyed).sublist (List.Sublist.map _ List.filter_sublist)
    · constructor
      · intro member
        obtain ⟨after, there, rfl⟩ := List.mem_map.mp member
        obtain ⟨row, before, rfl⟩ := List.mem_map.mp there
        obtain ⟨desired, listed, same⟩ := every row before
        refine List.mem_map.mpr ⟨desired, List.mem_filter.mpr ⟨listed, List.any_eq_true.mpr ?_⟩, ?_⟩
        · refine ⟨_, there, ?_⟩
          rw [updatedRow_eq keyed listed same, sameKey_assigned]
          exact same
        · rw [updatedRow_eq keyed listed same]
          exact (project_assigned same).symm
      · intro member
        obtain ⟨desired, found, rfl⟩ := List.mem_map.mp member
        obtain ⟨listed, some⟩ := List.mem_filter.mp found
        obtain ⟨after, there, agrees⟩ := List.any_eq_true.mp some
        obtain ⟨row, before, rfl⟩ := List.mem_map.mp there
        obtain ⟨other, staged', same⟩ := every row before
        rw [updatedRow_eq keyed staged' same, sameKey_assigned] at agrees
        have one := keyed.eq listed staged' (sameKey_trans (sameKey_symm agrees) same)
        refine List.mem_map.mpr ⟨_, there, ?_⟩
        rw [updatedRow_eq keyed staged' same, one]
        exact project_assigned same
  have whole : ((staged.filter fun desired => updated.any fun row => table.sameKey row.cells desired) ++
      table.newRows staged updated).Perm staged := List.filter_append_perm _ _
  unfold OwnedTable.reconciled
  rw [inserted_map table.project]
  simp only [project_newCells]
  refine (present.append_right _).trans ?_
  rw [← List.map_append]
  exact whole.map _

/-- A row whose key is staged takes the staged values. -/
theorem mem_reconciled_of_mem (keyed : table.Keyed staged) {row : Row String V} {desired : String → Option V}
    (there : row ∈ rows) (listed : desired ∈ staged) (same : table.sameKey row.cells desired = true) :
    ⟨row.rowid, table.assigned desired row.cells⟩ ∈ table.reconciled schema staged rows := by
  refine mem_inserted_of_mem _ (List.mem_map.mpr ⟨row, there, ?_⟩)
  exact updatedRow_eq keyed listed same

theorem mem_reconciled (keyed : table.Keyed staged) (every : table.Staged staged rows) {row : Row String V}
    (member : row ∈ table.reconciled schema staged rows) :
    (∃ before ∈ rows, row.rowid = before.rowid ∧
      ∀ column, column ∉ table.columns → row.cells column = before.cells column) ∨
    ∀ column, column ∉ table.columns → row.cells column = schema.defaults table.name column := by
  rcases mem_inserted _ member with old | ⟨desired, -, made⟩
  · obtain ⟨before, there, rfl⟩ := List.mem_map.mp old
    obtain ⟨desired, listed, same⟩ := every before there
    refine .inl ⟨before, there, ?_⟩
    rw [updatedRow_eq keyed listed same]
    exact ⟨rfl, fun column other => assigned_other other⟩
  · refine .inr fun column other => ?_
    rw [made]
    exact newCells_other other

end Rows

section Phases

variable [DecidableEq V] {schema : Schema V} {tables : List OwnedTable} {staged : Content V}
variable {db db' : Store V}

theorem absent_cons {table : OwnedTable} {name : String} {row : Row String V} :
    Absent (table :: tables) staged name row ↔
      (name = table.name ∧ (!(staged table.name).any (table.sameKey row.cells)) = true) ∨
        Absent tables staged name row := by
  unfold Absent
  simp only [List.exists_mem_cons_iff, Bool.not_eq_true', List.any_eq_false, Bool.not_eq_true]
  constructor
  · rintro (⟨rfl, none⟩ | later)
    · exact .inl ⟨rfl, none⟩
    · exact .inr later
  · rintro (⟨rfl, none⟩ | later)
    · exact .inl ⟨rfl, none⟩
    · exact .inr later

/-- The deletions, table after table, take what goes by all of them. -/
theorem deleted (run : tables.foldlM (deleteAbsent schema staged) db = .ok db') :
    (∀ name row, row ∈ db' name ↔ row ∈ db name ∧ ¬Lost schema tables staged db name row) ∧
      ∀ name, (db' name).Sublist (db name) := by
  induction tables generalizing db with
  | nil =>
    cases run
    refine ⟨fun name row => ⟨fun there => ⟨there, goes_none ?_⟩, fun kept => kept.1⟩, fun _ => .refl _⟩
    rintro name row - ⟨table, member, -⟩
    cases member
  | cons table rest ih =>
    rw [List.foldlM_cons] at run
    cases first : deleteAbsent schema staged db table with
    | error error =>
      rw [first] at run
      cases run
    | ok mid =>
      rw [first] at run
      obtain ⟨left, fewer⟩ := ih run
      have deletes := run_ok first
      subst deletes
      refine ⟨fun name row => ?_, fun name => (fewer name).trans delete_sublist⟩
      let picks (row : Row String V) : Bool := !(staged table.name).any (table.sameKey row.cells)
      have stays (other : String) (row : Row String V) : row ∈ delete schema.links table.name picks db other ↔
          row ∈ db other ∧ ¬Goes schema.links db (fun u row => u = table.name ∧ picks row = true) other row :=
        mem_delete
      have both : Goes schema.links db
          (fun u row => (u = table.name ∧ picks row = true) ∨ Absent rest staged u row) name row ↔ _ :=
        goes_or stays
      have lost : Lost schema (table :: rest) staged db name row ↔ _ :=
        Iff.trans ⟨fun goes => goes.mono (fun _ _ there => there) fun _ _ => absent_cons.mp,
          fun goes => goes.mono (fun _ _ there => there) fun _ _ => absent_cons.mpr⟩ both
      rw [left, mem_delete, lost, not_or, and_assoc]

theorem map_updatedRow {table : OwnedTable} {rows : List (Row String V)} {staged : List (String → Option V)}
    (fixed : table.mutableColumns = []) : rows.map (table.updatedRow staged) = rows := by
  have same (row : Row String V) : table.updatedRow staged row = row := by
    unfold OwnedTable.updatedRow
    refine if_neg fun changes => ?_
    obtain ⟨desired, -, differs⟩ := List.any_eq_true.mp changes
    unfold OwnedTable.changed at differs
    rw [fixed] at differs
    simp at differs
  rw [List.map_congr_left fun row _ => same row, List.map_id']

/-- A table is reconciled by its own two statements. -/
theorem reconcileRows_ok {table : OwnedTable} (run : reconcileRows schema staged db table = .ok db') :
    db' table.name = table.reconciled schema (staged table.name) (db table.name) ∧
      ∀ name, name ≠ table.name → db' name = db name := by
  unfold reconcileRows at run
  by_cases fixed : table.mutableColumns.isEmpty = true
  · rw [if_pos fixed] at run
    have inserts := run_ok run
    subst inserts
    refine ⟨?_, fun name other => if_neg other⟩
    have same : (db table.name).map (table.updatedRow (staged table.name)) = db table.name :=
      map_updatedRow (List.isEmpty_iff.mp fixed)
    unfold insertNew OwnedTable.reconciled
    rw [if_pos rfl, same]
  · rw [if_neg fixed] at run
    cases first : schema.run db (updateChanged staged table db) with
    | error error =>
      rw [first] at run
      cases run
    | ok mid =>
      rw [first] at run
      have inserts := run_ok run
      have updates := run_ok first
      subst inserts updates
      refine ⟨?_, fun name other => ?_⟩
      · unfold insertNew updateChanged OwnedTable.reconciled
        simp only [if_true]
      · unfold insertNew updateChanged
        rw [if_neg other, if_neg other]

/-- Table after table, each from its own rows. -/
theorem reconciled_tables (names : (tables.map OwnedTable.name).Nodup)
    (run : tables.foldlM (reconcileRows schema staged) db = .ok db') :
    (∀ table ∈ tables, db' table.name = table.reconciled schema (staged table.name) (db table.name)) ∧
      ∀ name, name ∉ tables.map OwnedTable.name → db' name = db name := by
  induction tables generalizing db with
  | nil =>
    cases run
    exact ⟨fun _ member => (nomatch member), fun _ _ => rfl⟩
  | cons table rest ih =>
    rw [List.foldlM_cons] at run
    cases first : reconcileRows schema staged db table with
    | error error =>
      rw [first] at run
      cases run
    | ok mid =>
      rw [first] at run
      obtain ⟨alone, distinct⟩ := List.nodup_cons.mp names
      obtain ⟨here, elsewhere⟩ := reconcileRows_ok first
      obtain ⟨later, others⟩ := ih distinct run
      refine ⟨fun other member => ?_, fun name outside => ?_⟩
      · rcases List.mem_cons.mp member with rfl | member
        · rw [others _ alone, here]
        · have apart : other.name ≠ table.name := fun same =>
            alone (same ▸ List.mem_map_of_mem member)
          rw [later other member, elsewhere _ apart]
      · rw [List.map_cons, List.mem_cons, not_or] at outside
        rw [others name outside.2, elsewhere name outside.1]

end Phases

/-- What a snapshot that is written makes of a database. -/
structure Reconciled [DecidableEq V] (schema : Schema V) (tables : List OwnedTable) (staged : Content V)
    (db db' : Store V) : Prop where
  exact : ∀ table ∈ tables, ((db' table.name).map fun row => table.project row.cells).Perm
    ((staged table.name).map table.project)
  kept : ∀ table ∈ tables, ∀ row ∈ db table.name, ¬Lost schema tables staged db table.name row →
    ∃ desired ∈ staged table.name, table.sameKey row.cells desired = true ∧
      ⟨row.rowid, table.assigned desired row.cells⟩ ∈ db' table.name
  made : ∀ table ∈ tables, ∀ row ∈ db' table.name,
    (∃ before ∈ db table.name, ¬Lost schema tables staged db table.name before ∧ row.rowid = before.rowid ∧
      ∀ column, column ∉ table.columns → row.cells column = before.cells column) ∨
    ∀ column, column ∉ table.columns → row.cells column = schema.defaults table.name column
  others : ∀ name, name ∉ tables.map OwnedTable.name → (db' name).Sublist (db name) ∧
    ∀ row, row ∈ db' name ↔ row ∈ db name ∧ ¬Lost schema tables staged db name row

section Contents

variable {table : OwnedTable} {rows : List (Row String V)} {contents : List (String → Option V)}

/-- The rows hold the staged ones, and no others. -/
structure OwnedTable.Holds (table : OwnedTable) (contents : List (String → Option V))
    (rows : List (Row String V)) : Prop where
  listed : ∀ row ∈ rows, ∃ desired ∈ contents, table.project row.cells = table.project desired
  stored : ∀ desired ∈ contents, ∃ row ∈ rows, table.project row.cells = table.project desired

theorem holds_of_perm
    (exact : (rows.map fun row => table.project row.cells).Perm (contents.map table.project)) :
    table.Holds contents rows := by
  constructor
  · intro row there
    have listed := exact.mem_iff.mp (List.mem_map_of_mem there)
    obtain ⟨desired, member, same⟩ := List.mem_map.mp listed
    exact ⟨desired, member, same.symm⟩
  · intro desired member
    obtain ⟨row, there, same⟩ := List.mem_map.mp (exact.mem_iff.mpr (List.mem_map_of_mem member))
    exact ⟨row, there, same⟩

end Contents

section Written

variable [DecidableEq V] {schema : Schema V} {tables : List OwnedTable} {staged : Content V}
variable {db db' : Store V}

theorem absent_reverse {name : String} {row : Row String V} :
    Absent tables.reverse staged name row ↔ Absent tables staged name row := by
  unfold Absent
  simp only [List.mem_reverse]

theorem lost_reverse {name : String} {row : Row String V} :
    Lost schema tables.reverse staged db name row ↔ Lost schema tables staged db name row :=
  ⟨fun goes => goes.mono (fun _ _ there => there) fun _ _ => absent_reverse.mp,
    fun goes => goes.mono (fun _ _ there => there) fun _ _ => absent_reverse.mpr⟩

/-- What is left of an owned table is staged. -/
theorem staged_of_kept {table : OwnedTable} {row : Row String V} (listed : table ∈ tables)
    (there : row ∈ db table.name) (kept : ¬Lost schema tables staged db table.name row) :
    ∃ desired ∈ staged table.name, table.sameKey row.cells desired = true := by
  by_contra none
  refine kept (.asked there ⟨table, listed, rfl, fun desired member => ?_⟩)
  exact Bool.eq_false_iff.mpr fun same => none ⟨desired, member, same⟩

theorem apply_reconciles (owned : Owned tables) (keyed : ∀ table ∈ tables, table.Keyed (staged table.name))
    (unique : ∀ table ∈ tables, table.Unique (db table.name))
    (run : apply schema tables staged db = .ok db') : Reconciled schema tables staged db db' := by
  unfold apply at run
  cases first : tables.reverse.foldlM (deleteAbsent schema staged) db with
  | error error =>
    rw [first] at run
    cases run
  | ok mid =>
    rw [first] at run
    obtain ⟨left, fewer⟩ := deleted first
    obtain ⟨here, elsewhere⟩ := reconciled_tables owned.names run
    have kept (name : String) (row : Row String V) : row ∈ mid name ↔
        row ∈ db name ∧ ¬Lost schema tables staged db name row := by
      rw [left, lost_reverse]
    have every (table : OwnedTable) (listed : table ∈ tables) :
        table.Staged (staged table.name) (mid table.name) := by
      intro row there
      obtain ⟨before, stays⟩ := (kept _ row).mp there
      exact staged_of_kept listed before stays
    constructor
    · intro table listed
      have distinct : table.Unique (mid table.name) := (unique table listed).sublist (fewer _)
      rw [here table listed]
      exact reconciled_perm (owned.keys table listed) (keyed table listed) (every table listed) distinct
    · intro table listed row there stays
      obtain ⟨desired, member, same⟩ := staged_of_kept listed there stays
      refine ⟨desired, member, same, ?_⟩
      rw [here table listed]
      exact mem_reconciled_of_mem (keyed table listed) ((kept _ row).mpr ⟨there, stays⟩) member same
    · intro table listed row there
      rw [here table listed] at there
      rcases mem_reconciled (keyed table listed) (every table listed) there with ⟨before, old, same⟩ | new
      · obtain ⟨stored, stays⟩ := (kept _ before).mp old
        exact .inl ⟨before, stored, stays, same⟩
      · exact .inr new
    · intro name outside
      rw [elsewhere name outside]
      exact ⟨fewer name, kept name⟩

section Settled

variable {table : OwnedTable} {rows : List (Row String V)} {contents : List (String → Option V)}
variable {cells desired : String → Option V}

theorem sameKey_of_project (keys : ∀ key ∈ table.primaryKey, key ∈ table.columns)
    (own : table.sameKey desired desired = true) (same : table.project cells = table.project desired) :
    table.sameKey cells desired = true := by
  rw [sameKey_iff] at own ⊢
  intro key listed
  have agrees : cells key = desired key := List.map_inj_left.mp same key (keys key listed)
  exact ⟨agrees, agrees ▸ (own key listed).2⟩

theorem unchanged_of_project (same : table.project cells = table.project desired) :
    table.changed cells desired = false := by
  unfold OwnedTable.changed
  refine List.any_eq_false.mpr fun column mutates => ?_
  have agrees : cells column = desired column :=
    List.map_inj_left.mp same column (mem_mutable.mp mutates).1
  simp [agrees]

theorem reconciled_settled (keys : ∀ key ∈ table.primaryKey, key ∈ table.columns)
    (keyed : table.Keyed contents) (holds : table.Holds contents rows) :
    rows.map (table.updatedRow contents) = rows ∧ table.newRows contents rows = [] := by
  constructor
  · have same (row : Row String V) (there : row ∈ rows) : table.updatedRow contents row = row := by
      obtain ⟨desired, listed, agrees⟩ := holds.listed row there
      rw [updatedRow_eq keyed listed (sameKey_of_project keys (keyed.own _ listed) agrees),
        assigned_same (unchanged_of_project agrees)]
    rw [List.map_congr_left same, List.map_id']
  · refine List.filter_eq_nil_iff.mpr fun desired listed => ?_
    obtain ⟨row, there, agrees⟩ := holds.stored desired listed
    have found : (rows.any fun row => table.sameKey row.cells desired) = true :=
      List.any_eq_true.mpr ⟨row, there, sameKey_of_project keys (keyed.own _ listed) agrees⟩
    rw [found]
    decide

end Settled

/-- A snapshot that is there already is written by statements that change nothing. -/
theorem apply_settled (owned : Owned tables) (keyed : ∀ table ∈ tables, table.Keyed (staged table.name))
    (quiet : schema.refuses db db = none)
    (holds : ∀ table ∈ tables, table.Holds (staged table.name) (db table.name)) :
    apply schema tables staged db = .ok db := by
  have deletes : tables.reverse.foldlM (deleteAbsent schema staged) db = .ok db := by
    refine foldlM_same fun table member => ?_
    have listed := List.mem_reverse.mp member
    have none : ∀ row ∈ db table.name, (!(staged table.name).any (table.sameKey row.cells)) = false := by
      intro row there
      obtain ⟨desired, staged', agrees⟩ := (holds table listed).listed row there
      have own := (keyed table listed).own _ staged'
      rw [Bool.not_eq_false', List.any_eq_true]
      exact ⟨desired, staged', sameKey_of_project (owned.keys table listed) own agrees⟩
    unfold deleteAbsent
    rw [delete_none none]
    exact run_same quiet
  have reconciles : tables.foldlM (reconcileRows schema staged) db = .ok db := by
    refine foldlM_same fun table listed => ?_
    obtain ⟨updated, none⟩ :=
      reconciled_settled (owned.keys table listed) (keyed table listed) (holds table listed)
    have updates : updateChanged staged table db = db := by
      funext name
      unfold updateChanged
      split
      · next same => rw [same, updated]
      · rfl
    have inserts : insertNew schema staged table db = db := by
      funext name
      unfold insertNew
      split
      · next same =>
        rw [same, none]
        rfl
      · rfl
    unfold reconcileRows
    rw [updates]
    split
    · show schema.run db (insertNew schema staged table db) = .ok db
      rw [inserts]
      exact run_same quiet
    · rw [run_same quiet]
      show schema.run db (insertNew schema staged table db) = .ok db
      rw [inserts]
      exact run_same quiet
  unfold apply
  rw [deletes]
  exact reconciles

theorem ownedTables_owned : Owned ownedTables := ⟨by decide +kernel, by decide +kernel⟩

/-- A persist that does not get as far as its commit leaves the store as it was. One that does leaves the
    staged rows in the owned columns and what else there is as it was; and so does the next, of the same
    snapshot. -/
theorem snapshot_written {contents : Except ForgeError (Content V)} {commits drops : Except ForgeError Unit}
    (keyed : ∀ staged, contents = .ok staged → ∀ table ∈ ownedTables, table.Keyed (staged table.name))
    (unique : ∀ table ∈ ownedTables, table.Unique (db table.name)) :
    ((persist schema contents commits drops db).2 = db ∧
      ∃ error, (persist schema contents commits drops db).1 = .error error) ∨
    ∃ staged, contents = .ok staged ∧ (persist schema contents commits drops db).1 = drops ∧
      Reconciled schema ownedTables staged db (persist schema contents commits drops db).2 ∧
      ((∀ db, schema.refuses db db = none) →
        persist schema contents commits drops (persist schema contents commits drops db).2 =
          (drops, (persist schema contents commits drops db).2)) := by
  unfold persist
  cases contents with
  | error error => exact .inl ⟨rfl, error, rfl⟩
  | ok staged =>
    have keyed := keyed staged rfl
    cases applied : apply schema ownedTables staged db with
    | error error =>
      refine .inl ?_
      simp only [bind, Except.bind, applied]
      exact ⟨trivial, error, rfl⟩
    | ok next =>
      cases commits with
      | error error =>
        refine .inl ?_
        simp only [bind, Except.bind, applied]
        exact ⟨trivial, error, rfl⟩
      | ok done =>
        refine .inr ⟨staged, rfl, ?_⟩
        have reconciled := apply_reconciles ownedTables_owned keyed unique applied
        have again (quiet : ∀ db, schema.refuses db db = none) :
            apply schema ownedTables staged next = .ok next :=
          apply_settled ownedTables_owned keyed (quiet next) fun table listed =>
            holds_of_perm (reconciled.exact table listed)
        simp only [bind, Except.bind, applied, pure, Except.pure]
        refine ⟨trivial, reconciled, fun quiet => ?_⟩
        rw [again quiet]

end Written

section Demo

/-- A receipt of another tool, which goes with its user. -/
def receiptLink : Link String String := ⟨"future_receipts", [("login", "login")], "users", true⟩

def demoSchema : Schema String where
  links := [receiptLink]
  defaults _ _ := none
  rowid _ rows _ := rows.length + 1
  refuses _ _ := none

def demoUser (login json : String) (note : Option String) : String → Option String := fun column =>
  if column = "login" then some login else if column = "user_json" then some json else note

/-- `ada` and `bob`, each with a column the forge does not own. -/
def demoStore : Store String := fun name =>
  if name = "users" then [⟨1, demoUser "ada" "1" (some "a")⟩, ⟨2, demoUser "bob" "1" (some "b")⟩] else []

/-- `ada` has changed, `bob` is gone, `eve` is new. -/
def demoContent : Content String := fun name =>
  if name = "users" then [demoUser "eve" "1" none, demoUser "ada" "2" none] else []

theorem demo_written : Reconciled demoSchema ownedTables demoContent demoStore
    (persist demoSchema (.ok demoContent) (.ok ()) (.ok ()) demoStore).2 := by
  have keyed : ∀ staged, (.ok demoContent : Except ForgeError (Content String)) = .ok staged →
      ∀ table ∈ ownedTables, table.Keyed (staged table.name) := by
    rintro staged ⟨⟩
    decide +kernel
  have unique : ∀ table ∈ ownedTables, table.Unique (demoStore table.name) := by decide +kernel
  rcases @snapshot_written String _ demoSchema demoStore (.ok demoContent) (.ok ()) (.ok ()) keyed unique with
    ⟨-, error, failed⟩ | ⟨staged, same, -, reconciled, -⟩
  · cases failed
  · cases same
    exact reconciled

end Demo

end Jeryu.Storage
