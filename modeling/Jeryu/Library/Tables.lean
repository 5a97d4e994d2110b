import Mathlib.Data.List.Basic

/-!
Relational tables with foreign keys. A deletion takes along what refers to what goes, over the links that
say so, and so on from there.
-/

namespace Tables

/-- A stored row: where it is stored, and its columns, `none` for NULL. -/
structure Row (C V : Type) where
  rowid : Nat
  cells : C → Option V

abbrev Database (T C V : Type) : Type := T → List (Row C V)

/-- A foreign key: the columns of the child, each with the one of the parent it must equal. -/
structure Link (T C : Type) where
  child : T
  columns : List (C × C)
  parent : T
  cascade : Bool

section Values

variable {V : Type} [DecidableEq V]

/-- The `=` of a query, which nothing satisfies with NULL. -/
def equal (a b : Option V) : Bool := a.isSome && a == b

theorem equal_iff {a b : Option V} : equal a b = true ↔ a = b ∧ a.isSome = true := by
  unfold equal
  rw [Bool.and_eq_true, beq_iff_eq, and_comm]

end Values

section Rows

variable {T C V : Type} {db : Database T C V} {t : T} {row : Row C V}

def picked (asked : T → Row C V → Bool) (db : Database T C V) : Database T C V :=
  fun t => (db t).filter (asked t)

def spared (asked : T → Row C V → Bool) (db : Database T C V) : Database T C V :=
  fun t => (db t).filter fun row => !asked t row

/-- The rows there are in the tables. -/
def count (db : Database T C V) : List T → Nat
  | [] => 0
  | t :: tables => (db t).length + count db tables

theorem mem_spared {asked : T → Row C V → Bool} :
    row ∈ spared asked db t ↔ row ∈ db t ∧ asked t row = false := by
  unfold spared
  rw [List.mem_filter, Bool.not_eq_true']

theorem length_le_count {tables : List T} (listed : t ∈ tables) : (db t).length ≤ count db tables := by
  induction tables with
  | nil => cases listed
  | cons first rest ih =>
    unfold count
    rcases List.mem_cons.mp listed with rfl | later
    · exact Nat.le_add_right _ _
    · have bounded := ih later
      omega

theorem count_spared_le {tables : List T} {asked : T → Row C V → Bool} :
    count (spared asked db) tables ≤ count db tables := by
  induction tables with
  | nil => exact Nat.le_refl _
  | cons first rest ih => exact Nat.add_le_add (List.length_filter_le _ _) ih

theorem count_spared_lt {tables : List T} {asked : T → Row C V → Bool} (listed : t ∈ tables)
    (there : row ∈ db t) (picked : asked t row = true) :
    count (spared asked db) tables < count db tables := by
  have fewer : (spared asked db t).length < (db t).length := by
    refine List.length_filter_lt_length_iff_exists.mpr ⟨row, there, ?_⟩
    simp [picked]
  induction tables with
  | nil => cases listed
  | cons first rest ih =>
    unfold count
    rcases List.mem_cons.mp listed with rfl | later
    · have others : count (spared asked db) rest ≤ count db rest := count_spared_le
      omega
    · have here : (spared asked db first).length ≤ (db first).length := List.length_filter_le _ _
      have others := ih later
      omega

end Rows

variable {T C V : Type} [DecidableEq V]

def Link.refers (link : Link T C) (child parent : C → Option V) : Bool :=
  link.columns.all fun pair => equal (child pair.1) (parent pair.2)

/-- A child with a NULL among the columns of the link refers to nothing, and need not. -/
def Link.free (link : Link T C) (child : C → Option V) : Bool :=
  link.columns.any fun pair => (child pair.1).isNone

/-- Every child has its parent. -/
def Linked (links : List (Link T C)) (db : Database T C V) : Prop :=
  ∀ link ∈ links, ∀ row ∈ db link.child, link.free row.cells = true ∨
    ∃ parent ∈ db link.parent, link.refers row.cells parent.cells = true

section Deletion

variable {links : List (Link T C)} {db db' : Database T C V} {t : T} {row : Row C V}

/-- The rows that go: those asked for, and those that refer to one that goes. -/
inductive Goes (links : List (Link T C)) (db : Database T C V) (asked : T → Row C V → Prop) :
    T → Row C V → Prop where
  | asked {t : T} {row : Row C V} (there : row ∈ db t) (picked : asked t row) : Goes links db asked t row
  | cascade {link : Link T C} {parent child : Row C V} (declared : link ∈ links)
      (cascades : link.cascade = true) (above : Goes links db asked link.parent parent)
      (there : child ∈ db link.child) (refers : link.refers child.cells parent.cells = true) :
      Goes links db asked link.child child

theorem Goes.there {asked : T → Row C V → Prop} (goes : Goes links db asked t row) : row ∈ db t := by
  cases goes with
  | asked there picked => exact there
  | cascade declared cascades above there refers => exact there

theorem Goes.mono {asked asked' : T → Row C V → Prop} (goes : Goes links db asked t row)
    (rows : ∀ t row, row ∈ db t → row ∈ db' t) (more : ∀ t row, asked t row → asked' t row) :
    Goes links db' asked' t row := by
  induction goes with
  | asked there picked => exact .asked (rows _ _ there) (more _ _ picked)
  | cascade declared cascades above there refers ih =>
    exact .cascade declared cascades ih (rows _ _ there) refers

theorem goes_none {asked : T → Row C V → Prop} (none : ∀ t row, row ∈ db t → ¬asked t row) :
    ¬Goes links db asked t row := by
  intro goes
  induction goes with
  | asked there picked => exact none _ _ there picked
  | cascade declared cascades above there refers ih => exact ih

/-- One deletion after another takes what both at once would. -/
theorem goes_or {first second : T → Row C V → Prop} {mid : Database T C V}
    (left : ∀ t row, row ∈ mid t ↔ row ∈ db t ∧ ¬Goes links db first t row) :
    Goes links db (fun t row => first t row ∨ second t row) t row ↔
      Goes links db first t row ∨ Goes links mid second t row := by
  constructor
  · intro goes
    induction goes with
    | asked there picked =>
      rcases picked with picked | picked
      · exact .inl (.asked there picked)
      · refine or_iff_not_imp_left.mpr fun stays => ?_
        exact .asked ((left _ _).mpr ⟨there, stays⟩) picked
    | cascade declared cascades above there refers ih =>
      refine or_iff_not_imp_left.mpr fun stays => ?_
      rcases ih with above | above
      · exact absurd (.cascade declared cascades above there refers) stays
      · exact .cascade declared cascades above ((left _ _).mpr ⟨there, stays⟩) refers
  · rintro (goes | goes)
    · exact goes.mono (fun _ _ there => there) fun _ _ picked => .inl picked
    · exact goes.mono (fun t row there => ((left t row).mp there).1) fun _ _ picked => .inr picked

variable [DecidableEq T]

/-- What refers to the rows that have gone. -/
def hit (links : List (Link T C)) (gone : Database T C V) (t : T) (row : Row C V) : Bool :=
  links.any fun link => link.cascade && decide (link.child = t) && 
    (gone link.parent).any fun parent => link.refers row.cells parent.cells

/-- Round by round: what is asked for goes, then what refers to it. -/
def sweep (links : List (Link T C)) (tables : List T) :
    Nat → (T → Row C V → Bool) → Database T C V → Database T C V
  | 0, _, db => db
  | rounds + 1, asked, db =>
    if tables.all fun t => (db t).all fun row => !asked t row then db
    else sweep links tables rounds (hit links (picked asked db)) (spared asked db)

/-- `DELETE FROM t WHERE …` with foreign keys on. -/
def delete (links : List (Link T C)) (t : T) (picks : Row C V → Bool) (db : Database T C V) :
    Database T C V :=
  let tables := t :: links.map Link.child
  sweep links tables (count db tables) (fun u row => decide (u = t) && picks row) db

theorem hit_iff {gone : Database T C V} : hit links gone t row = true ↔
    ∃ link ∈ links, link.cascade = true ∧ link.child = t ∧
      ∃ parent ∈ gone link.parent, link.refers row.cells parent.cells = true := by
  unfold hit
  simp only [List.any_eq_true, Bool.and_eq_true, decide_eq_true_eq, and_assoc]

/-- The first round takes what is asked for; the rest is a deletion of what refers to it. -/
theorem goes_round {asked : T → Row C V → Bool} :
    Goes links db (fun t row => asked t row = true) t row ↔
      (row ∈ db t ∧ asked t row = true) ∨
        Goes links (spared asked db) (fun t row => hit links (picked asked db) t row = true) t row := by
  constructor
  · intro goes
    induction goes with
    | asked there picked => exact .inl ⟨there, picked⟩
    | @cascade link parent child declared cascades above there refers ih =>
      by_cases own : asked link.child child = true
      · exact .inl ⟨there, own⟩
      · have stays : child ∈ spared asked db link.child := mem_spared.mpr ⟨there, by simpa using own⟩
        rcases ih with ⟨parentThere, picked⟩ | above
        · refine .inr (.asked stays (hit_iff.mpr ?_))
          exact ⟨link, declared, cascades, rfl, parent, List.mem_filter.mpr ⟨parentThere, picked⟩, refers⟩
        · exact .inr (.cascade declared cascades above stays refers)
  · rintro (⟨there, picked⟩ | goes)
    · exact .asked there picked
    · induction goes with
      | asked there found =>
        obtain ⟨link, declared, cascades, rfl, parent, gone, refers⟩ := hit_iff.mp found
        obtain ⟨parentThere, picked⟩ := List.mem_filter.mp gone
        exact .cascade declared cascades (.asked parentThere picked) (mem_spared.mp there).1 refers
      | cascade declared cascades above there refers ih =>
        exact .cascade declared cascades ih (mem_spared.mp there).1 refers

theorem mem_sweep {tables : List T} {asked : T → Row C V → Bool} (rounds : Nat)
    (children : ∀ link ∈ links, link.child ∈ tables)
    (listed : ∀ t row, asked t row = true → t ∈ tables) (enough : count db tables ≤ rounds) :
    row ∈ sweep links tables rounds asked db t ↔
      row ∈ db t ∧ ¬Goes links db (fun t row => asked t row = true) t row := by
  induction rounds generalizing asked db with
  | zero =>
    have empty (u : T) (member : u ∈ tables) (other : Row C V) : other ∉ db u := by
      intro there
      have positive := List.length_pos_of_mem there
      have bounded : (db u).length ≤ count db tables := length_le_count member
      omega
    have stays : ¬Goes links db (fun t row => asked t row = true) t row :=
      goes_none fun u other there picked => empty u (listed u other picked) other there
    exact ⟨fun there => ⟨there, stays⟩, fun kept => kept.1⟩
  | succ rounds ih =>
    unfold sweep
    by_cases quiet : (tables.all fun t => (db t).all fun row => !asked t row) = true
    · rw [if_pos quiet]
      have stays : ¬Goes links db (fun t row => asked t row = true) t row := by
        refine goes_none fun u other there picked => ?_
        have none := List.all_eq_true.mp (List.all_eq_true.mp quiet u (listed u other picked)) other there
        rw [picked] at none
        cases none
      exact ⟨fun there => ⟨there, stays⟩, fun kept => kept.1⟩
    · rw [if_neg quiet, ih]
      · have rounds : Goes links db (fun t row => asked t row = true) t row ↔ _ := goes_round
        rw [mem_spared, rounds]
        constructor
        · rintro ⟨⟨there, unpicked⟩, stays⟩
          refine ⟨there, fun goes => ?_⟩
          rcases goes with ⟨-, own⟩ | later
          · rw [unpicked] at own
            cases own
          · exact stays later
        · rintro ⟨there, stays⟩
          refine ⟨⟨there, ?_⟩, fun later => stays (.inr later)⟩
          exact Bool.eq_false_iff.mpr fun own => stays (.inl ⟨there, own⟩)
      · intro u other found
        obtain ⟨link, declared, -, rfl, -⟩ := hit_iff.mp found
        exact children link declared
      · obtain ⟨u, member, loud⟩ : ∃ u ∈ tables, ¬((db u).all fun row => !asked u row) = true := by
          by_contra none
          exact quiet (List.all_eq_true.mpr fun u member => by_contra fun loud => none ⟨u, member, loud⟩)
        obtain ⟨other, there, picked⟩ : ∃ other ∈ db u, asked u other = true := by
          by_contra none
          refine loud (List.all_eq_true.mpr fun other there => ?_)
          rw [Bool.not_eq_true']
          exact Bool.eq_false_iff.mpr fun picked => none ⟨other, there, picked⟩
        have fewer := count_spared_lt member there picked
        omega

theorem sweep_sublist {tables : List T} (rounds : Nat) {asked : T → Row C V → Bool} :
    (sweep links tables rounds asked db t).Sublist (db t) := by
  induction rounds generalizing asked db with
  | zero => exact List.Sublist.refl _
  | succ rounds ih =>
    unfold sweep
    split
    · exact List.Sublist.refl _
    · exact ih.trans List.filter_sublist

/-- What a deletion leaves. -/
theorem mem_delete {picks : Row C V → Bool} {u : T} :
    row ∈ delete links t picks db u ↔
      row ∈ db u ∧ ¬Goes links db (fun u row => u = t ∧ picks row = true) u row := by
  unfold delete
  rw [mem_sweep _ (fun link declared => List.mem_cons_of_mem _ (List.mem_map_of_mem declared))]
  · simp only [Bool.and_eq_true, decide_eq_true_eq]
  · intro u row picked
    obtain ⟨rfl, -⟩ : u = t ∧ picks row = true := by simpa using picked
    exact List.mem_cons_self
  · exact Nat.le_refl _

theorem delete_sublist {picks : Row C V → Bool} {u : T} : (delete links t picks db u).Sublist (db u) :=
  sweep_sublist _

/-- A deletion that asks for nothing leaves every table as it is. -/
theorem delete_none {picks : Row C V → Bool} (none : ∀ row ∈ db t, picks row = false) :
    delete links t picks db = db := by
  unfold delete
  dsimp only
  cases rounds : count db (t :: links.map Link.child) with
  | zero => rfl
  | succ rounds =>
    unfold sweep
    refine if_pos (List.all_eq_true.mpr fun u _ => List.all_eq_true.mpr fun row there => ?_)
    by_cases own : u = t
    · subst own
      simp [none row there]
    · simp [own]

end Deletion

end Tables
