import Mathlib.Data.List.AList

/-!
Maps from keys to values with the operations of a mutable hash map: whole key ranges are
dropped, renamed or rewritten in place. Iteration follows the order of insertion.
-/

namespace KeyedMap

abbrev HashMap (κ ν : Type) : Type := AList fun _ : κ => ν

namespace HashMap

variable {κ ν : Type}

def values (m : HashMap κ ν) : List ν := m.entries.map Sigma.snd

def pairs (m : HashMap κ ν) : List (κ × ν) := m.entries.map fun entry => (entry.1, entry.2)

def mapValues (f : κ → ν → ν) (m : HashMap κ ν) : HashMap κ ν :=
  ⟨m.entries.map fun entry => ⟨entry.1, f entry.1 entry.2⟩, by
    have unchanged : (m.entries.map fun entry => (⟨entry.1, f entry.1 entry.2⟩ : Sigma fun _ => ν)).keys
        = m.entries.keys := by simp [List.keys]
    rw [List.NodupKeys, unchanged]
    exact m.nodupKeys⟩

def retain (p : κ → ν → Bool) (m : HashMap κ ν) : HashMap κ ν :=
  ⟨m.entries.filter fun entry => p entry.1 entry.2,
    (List.filter_sublist.map Sigma.fst).nodup m.nodupKeys⟩

variable [DecidableEq κ]

def insert (m : HashMap κ ν) (key : κ) (value : ν) : HashMap κ ν := AList.insert key value m

def erase (m : HashMap κ ν) (key : κ) : HashMap κ ν := AList.erase key m

def removeAll (m : HashMap κ ν) (keys : List κ) : HashMap κ ν := keys.foldl erase m

/-- Take the entry out and put it back, updated, under its new key. -/
def moveOne (move : κ → κ) (update : ν → ν) (m : HashMap κ ν) (key : κ) : HashMap κ ν :=
  match m.lookup key with
  | some value => (m.erase key).insert (move key) (update value)
  | none => m

def moveAll (m : HashMap κ ν) (move : κ → κ) (update : ν → ν) (keys : List κ) : HashMap κ ν :=
  keys.foldl (moveOne move update) m

/-- `entry(key).or_default().push(value)` of a map of buckets. -/
def push (m : HashMap κ (List ν)) (key : κ) (value : ν) : HashMap κ (List ν) :=
  m.insert key ((m.lookup key).getD [] ++ [value])

/-- What is known of each entry. -/
def Every (m : HashMap κ ν) (P : κ → ν → Prop) : Prop :=
  ∀ key value, m.lookup key = some value → P key value

/-- No two entries hold the same identifier. -/
def Apart {ι : Type} (m : HashMap κ ν) (holds : ν → ι → Prop) : Prop :=
  ∀ key key' value value' i, m.lookup key = some value → m.lookup key' = some value' →
    holds value i → holds value' i → key = key'

section Lookup

variable {m : HashMap κ ν} {key other : κ} {value : ν}

theorem lookup_insert_if (m : HashMap κ ν) (key other : κ) (value : ν) :
    (m.insert key value).lookup other = if other = key then some value else m.lookup other := by
  by_cases same : other = key
  · subst same
    simp [insert]
  · simp [insert, same, AList.lookup_insert_ne same]

theorem lookup_erase_if (m : HashMap κ ν) (key other : κ) :
    (m.erase key).lookup other = if other = key then none else m.lookup other := by
  by_cases same : other = key
  · subst same
    simp [erase]
  · simp [erase, same, AList.lookup_erase_ne same]

@[simp] theorem lookup_insert_self (m : HashMap κ ν) (key : κ) (value : ν) :
    (m.insert key value).lookup key = some value := by simp [lookup_insert_if]

theorem lookup_push (m : HashMap κ (List ν)) (key other : κ) (value : ν) :
    (m.push key value).lookup other =
      if other = key then some ((m.lookup key).getD [] ++ [value]) else m.lookup other :=
  lookup_insert_if m key other _

theorem mem_keys_of_lookup (found : m.lookup key = some value) : key ∈ m.keys :=
  AList.mem_keys.mp (AList.lookup_isSome.mp (by simp [found]))

theorem ne_of_lookup {new : κ} (found : m.lookup key = some value) (free : m.lookup new = none) :
    new ≠ key := by
  rintro rfl
  cases free.symm.trans found

theorem exists_of_mem_keys (member : key ∈ m.keys) : ∃ value, m.lookup key = some value :=
  Option.isSome_iff_exists.mp (AList.lookup_isSome.mpr (AList.mem_keys.mpr member))

theorem mem_pairs : (key, value) ∈ m.pairs ↔ m.lookup key = some value := by
  rw [pairs, ← Option.mem_def, AList.mem_lookup_iff]
  constructor
  · intro member
    obtain ⟨⟨k, v⟩, found, same⟩ := List.mem_map.mp member
    cases same
    exact found
  · exact fun found => List.mem_map.mpr ⟨_, found, rfl⟩

theorem mem_values : value ∈ m.values ↔ ∃ key, m.lookup key = some value := by
  constructor
  · intro member
    obtain ⟨⟨k, v⟩, found, rfl⟩ := List.mem_map.mp member
    exact ⟨k, AList.mem_lookup_iff.mpr found⟩
  · rintro ⟨key, found⟩
    exact List.mem_map.mpr ⟨_, AList.mem_lookup_iff.mp found, rfl⟩

/-- Values that name the keys they are stored under name each key once. -/
theorem nodup_values {f : ν → κ} (named : ∀ key value, m.lookup key = some value → f value = key) :
    (m.values.map f).Nodup := by
  have same : m.values.map f = m.keys := by
    unfold values AList.keys List.keys
    rw [List.map_map]
    refine List.map_congr_left fun entry member => ?_
    exact named entry.1 entry.2 (AList.mem_lookup_iff.mpr member)
  rw [same]
  exact m.nodupKeys

theorem lookup_mapValues (f : κ → ν → ν) (m : HashMap κ ν) (key : κ) :
    (m.mapValues f).lookup key = (m.lookup key).map (f key) := by
  obtain ⟨entries, nodup⟩ := m
  simp only [AList.lookup, mapValues]
  induction entries with
  | nil => rfl
  | cons entry rest ih =>
    obtain ⟨k, v⟩ := entry
    by_cases same : key = k
    · subst same
      simp
    · have rest := ih (List.nodupKeys_cons.mp nodup).2
      simpa [List.dlookup_cons_ne, Ne.symm same, same] using rest

theorem lookup_retain (p : κ → ν → Bool) (m : HashMap κ ν) (key : κ) :
    (m.retain p).lookup key = (m.lookup key).filter (p key) := by
  apply Option.ext
  intro value
  rw [← Option.mem_def, AList.mem_lookup_iff, Option.filter_eq_some_iff, ← Option.mem_def,
    AList.mem_lookup_iff]
  simp [retain]

end Lookup

section Ranges

variable {m : HashMap κ ν} {key other : κ} {value value' : ν} {keys : List κ}

theorem lookup_removeAll (m : HashMap κ ν) (keys : List κ) (key : κ) :
    (m.removeAll keys).lookup key = if key ∈ keys then none else m.lookup key := by
  unfold removeAll
  induction keys generalizing m with
  | nil => simp
  | cons first rest ih =>
    rw [List.foldl_cons, ih, lookup_erase_if]
    by_cases same : key = first <;> simp [same]

variable {move : κ → κ} {update : ν → ν}

theorem lookup_moveOne_of_some (found : m.lookup key = some value) (other : κ) :
    (moveOne move update m key).lookup other =
      if other = move key then some (update value)
      else if other = key then none else m.lookup other := by
  simp only [moveOne, found]
  rw [lookup_insert_if, lookup_erase_if]

theorem moveOne_of_none (absent : m.lookup key = none) : moveOne move update m key = m := by
  simp only [moveOne, absent]

theorem moveAll_cons (first : κ) (rest : List κ) (m : HashMap κ ν) :
    m.moveAll move update (first :: rest) =
      (moveOne move update m first).moveAll move update rest := rfl

/-- An entry of the result was there before, or it is the moved copy of one that was. -/
theorem lookup_moveAll_some (apart : ∀ k ∈ keys, ∀ k' ∈ keys, move k ≠ k')
    (found : (m.moveAll move update keys).lookup key = some value) :
    (∃ k ∈ keys, ∃ v, m.lookup k = some v ∧ key = move k ∧ value = update v) ∨
      m.lookup key = some value := by
  induction keys generalizing m with
  | nil => exact .inr found
  | cons first rest ih =>
    rw [moveAll_cons] at found
    have apart' : ∀ k ∈ rest, ∀ k' ∈ rest, move k ≠ k' := fun k hk k' hk' =>
      apart k (List.mem_cons_of_mem _ hk) k' (List.mem_cons_of_mem _ hk')
    cases here : m.lookup first with
    | none =>
      rw [moveOne_of_none here] at found
      rcases ih apart' found with ⟨k, member, v, was, rfl, rfl⟩ | kept
      · exact .inl ⟨k, List.mem_cons_of_mem _ member, v, was, rfl, rfl⟩
      · exact .inr kept
    | some v₀ =>
      rcases ih apart' found with ⟨k, member, v, was, rfl, rfl⟩ | kept
      · have notDestination : k ≠ move first :=
          (apart first (by simp) k (List.mem_cons_of_mem _ member)).symm
        rw [lookup_moveOne_of_some here, if_neg notDestination] at was
        by_cases same : k = first
        · simp [same] at was
        · rw [if_neg same] at was
          exact .inl ⟨k, List.mem_cons_of_mem _ member, v, was, rfl, rfl⟩
      · rw [lookup_moveOne_of_some here] at kept
        by_cases moved : key = move first
        · rw [if_pos moved] at kept
          exact .inl ⟨first, by simp, v₀, here, moved, (Option.some.inj kept).symm⟩
        · rw [if_neg moved] at kept
          by_cases same : key = first
          · simp [same] at kept
          · exact .inr (by rwa [if_neg same] at kept)

theorem lookup_moveAll_of_source (apart : ∀ k ∈ keys, ∀ k' ∈ keys, move k ≠ k')
    (member : key ∈ keys) : (m.moveAll move update keys).lookup key = none := by
  induction keys generalizing m with
  | nil => cases member
  | cons first rest ih =>
    have apart' : ∀ k ∈ rest, ∀ k' ∈ rest, move k ≠ k' := fun k hk k' hk' =>
      apart k (List.mem_cons_of_mem _ hk) k' (List.mem_cons_of_mem _ hk')
    rw [moveAll_cons]
    by_cases later : key ∈ rest
    · exact ih apart' later
    · have same : key = first := by simpa [later] using member
      subst same
      have gone : (moveOne move update m key).lookup key = none := by
        cases here : m.lookup key with
        | none => rw [moveOne_of_none here, here]
        | some v₀ =>
          have notDestination := (apart key (by simp) key (by simp)).symm
          rw [lookup_moveOne_of_some here, if_neg notDestination, if_pos rfl]
      cases result : ((moveOne move update m key).moveAll move update rest).lookup key with
      | none => rfl
      | some value =>
        rcases lookup_moveAll_some apart' result with ⟨k, inRest, v, _, same, _⟩ | kept
        · exact absurd same.symm (apart k (List.mem_cons_of_mem _ inRest) key (by simp))
        · rw [gone] at kept
          cases kept

theorem lookup_moveAll_of_untouched (outside : key ∉ keys)
    (free : ∀ k ∈ keys, move k ≠ key) :
    (m.moveAll move update keys).lookup key = m.lookup key := by
  induction keys generalizing m with
  | nil => rfl
  | cons first rest ih =>
    rw [moveAll_cons, ih (fun member => outside (List.mem_cons_of_mem _ member))
      (fun k member => free k (List.mem_cons_of_mem _ member))]
    cases here : m.lookup first with
    | none => rw [moveOne_of_none here]
    | some v₀ =>
      have different : key ≠ first := fun same => outside (by simp [same])
      rw [lookup_moveOne_of_some here, if_neg (free first (by simp)).symm, if_neg different]

theorem lookup_moveAll_of_moved (apart : ∀ k ∈ keys, ∀ k' ∈ keys, move k ≠ k')
    (injective : ∀ k ∈ keys, ∀ k' ∈ keys, move k = move k' → k = k') (nodup : keys.Nodup)
    (member : key ∈ keys) (found : m.lookup key = some value) :
    (m.moveAll move update keys).lookup (move key) = some (update value) := by
  induction keys generalizing m with
  | nil => cases member
  | cons first rest ih =>
    have apart' : ∀ k ∈ rest, ∀ k' ∈ rest, move k ≠ k' := fun k hk k' hk' =>
      apart k (List.mem_cons_of_mem _ hk) k' (List.mem_cons_of_mem _ hk')
    have injective' : ∀ k ∈ rest, ∀ k' ∈ rest, move k = move k' → k = k' := fun k hk k' hk' =>
      injective k (List.mem_cons_of_mem _ hk) k' (List.mem_cons_of_mem _ hk')
    obtain ⟨fresh, nodup'⟩ := List.nodup_cons.mp nodup
    rw [moveAll_cons]
    by_cases same : key = first
    · subst same
      have destination : move key ∉ rest := fun inRest =>
        apart key (by simp) _ (List.mem_cons_of_mem _ inRest) rfl
      have alone : ∀ k ∈ rest, move k ≠ move key := fun k inRest equal =>
        fresh (injective k (List.mem_cons_of_mem _ inRest) key (by simp) equal ▸ inRest)
      rw [lookup_moveAll_of_untouched destination alone, lookup_moveOne_of_some found, if_pos rfl]
    · have inRest : key ∈ rest := by simpa [same] using member
      refine ih apart' injective' nodup' inRest ?_
      cases here : m.lookup first with
      | none => rw [moveOne_of_none here, found]
      | some v₀ =>
        have notDestination : key ≠ move first := (apart first (by simp) key member).symm
        rw [lookup_moveOne_of_some here, if_neg notDestination, if_neg same, found]

end Ranges

/-- `keys` are the keys of `m` in one range, and `move` takes them to another. -/
structure Range {σ : Type} (m : HashMap κ ν) (rangeOf : κ → σ) (old new : σ) (move : κ → κ)
    (keys : List κ) : Prop where
  members : ∀ key ∈ keys, rangeOf key = old
  all : ∀ key value, m.lookup key = some value → rangeOf key = old → key ∈ keys
  nodup : keys.Nodup
  lands : ∀ key, rangeOf (move key) = new
  injective : ∀ k ∈ keys, ∀ k' ∈ keys, move k = move k' → k = k'

namespace Range

variable {σ : Type} {m : HashMap κ ν} {rangeOf : κ → σ} {old new : σ} {move : κ → κ} {keys : List κ}
variable {update : ν → ν} {key : κ} {value : ν}

theorem apart (range : Range m rangeOf old new move keys) (different : new ≠ old) :
    ∀ k ∈ keys, ∀ k' ∈ keys, move k ≠ k' := by
  rintro k - k' member rfl
  exact different ((range.lands k).symm.trans (range.members _ member))

/-- Nothing is left of the old range. -/
theorem lookup_old (range : Range m rangeOf old new move keys) (different : new ≠ old)
    (here : rangeOf key = old) : (m.moveAll move update keys).lookup key = none := by
  by_cases member : key ∈ keys
  · exact lookup_moveAll_of_source (range.apart different) member
  · have absent : m.lookup key = none := by
      cases found : m.lookup key with
      | none => rfl
      | some value => exact absurd (range.all key value found here) member
    rw [lookup_moveAll_of_untouched member, absent]
    intro k _ same
    exact different ((range.lands k).symm.trans ((congrArg rangeOf same).trans here))

/-- The other ranges stay as they are. -/
theorem lookup_other (range : Range m rangeOf old new move keys) (notOld : rangeOf key ≠ old)
    (notNew : rangeOf key ≠ new) : (m.moveAll move update keys).lookup key = m.lookup key := by
  refine lookup_moveAll_of_untouched (fun member => notOld (range.members key member)) ?_
  intro k _ same
  exact notNew ((congrArg rangeOf same.symm).trans (range.lands k))

/-- A range nothing was in holds what the old range held. -/
theorem lookup_new (range : Range m rangeOf old new move keys) (different : new ≠ old)
    (vacant : ∀ key, rangeOf key = new → m.lookup key = none) (here : rangeOf key = old)
    (injective : ∀ k ∈ keys, move k = move key → k = key) :
    (m.moveAll move update keys).lookup (move key) = (m.lookup key).map update := by
  cases found : m.lookup key with
  | some value =>
    exact lookup_moveAll_of_moved (range.apart different) range.injective range.nodup
      (range.all key value found here) found
  | none =>
    have empty := vacant (move key) (range.lands key)
    cases moved : (m.moveAll move update keys).lookup (move key) with
    | none => rfl
    | some value =>
      rcases lookup_moveAll_some (range.apart different) moved with ⟨k, member, v, was, same, -⟩ | kept
      · rw [injective k member same.symm, found] at was
        cases was
      · cases empty.symm.trans kept

/-- An entry of the result is in the new range, or was there before outside the old one. -/
theorem lookup_some (range : Range m rangeOf old new move keys) (different : new ≠ old)
    (found : (m.moveAll move update keys).lookup key = some value) :
    rangeOf key = new ∨ (rangeOf key ≠ old ∧ m.lookup key = some value) := by
  rcases lookup_moveAll_some (range.apart different) found with ⟨k, -, v, -, rfl, -⟩ | kept
  · exact .inl (range.lands k)
  · refine .inr ⟨fun here => ?_, kept⟩
    rw [range.lookup_old different here] at found
    cases found

end Range

/-- `into` finds the key of an entry in another range. -/
structure Placing {σ : Type} (rangeOf : κ → σ) (into : σ → κ → κ) : Prop where
  range_into : ∀ range key, rangeOf (into range key) = range
  into_range : ∀ key, into (rangeOf key) key = key
  into_into : ∀ range other key, into range (into other key) = into range key

/-- `m'` is `m` with everything of one range, updated, in another that was free. -/
def MovedTo {σ : Type} [DecidableEq σ] (rangeOf : κ → σ) (into : σ → κ → κ) (update : ν → ν)
    (old new : σ) (m m' : HashMap κ ν) : Prop :=
  ∀ key, m'.lookup key =
    if rangeOf key = new then (m.lookup (into old key)).map update
    else if rangeOf key = old then none else m.lookup key

section MovedTo

variable {σ : Type} [DecidableEq σ] {rangeOf : κ → σ} {into : σ → κ → κ} {update undo : ν → ν}
variable {old new : σ} {m m' m'' : HashMap κ ν} {keys : List κ}

theorem Range.movedTo (range : Range m rangeOf old new (into new) keys)
    (placing : Placing rangeOf into) (different : new ≠ old)
    (vacant : ∀ key, rangeOf key = new → m.lookup key = none) :
    MovedTo rangeOf into update old new m (m.moveAll (into new) update keys) := by
  intro key
  split
  · next here =>
    have back : into new (into old key) = key := by
      rw [placing.into_into, ← here, placing.into_range]
    have place (k : κ) (member : k ∈ keys) (same : into new k = into new (into old key)) :
        k = into old key := by
      have stays : into old (into new k) = k := by
        rw [placing.into_into, ← range.members k member, placing.into_range]
      rw [← stays, same, placing.into_into, placing.into_into]
    have moved : (m.moveAll (into new) update keys).lookup (into new (into old key)) =
        (m.lookup (into old key)).map update :=
      range.lookup_new different vacant (placing.range_into old key) place
    rwa [back] at moved
  · next notNew =>
    split
    · next here => exact range.lookup_old different here
    · next notOld => exact range.lookup_other notOld notNew

/-- Moving there and back changes nothing, if nothing was there. -/
theorem MovedTo.back (there : MovedTo rangeOf into update old new m m')
    (back : MovedTo rangeOf into undo new old m' m'') (placing : Placing rangeOf into)
    (vacant : ∀ key, rangeOf key = new → m.lookup key = none)
    (undone : ∀ key value, m.lookup key = some value → rangeOf key = old →
      undo (update value) = value) (key : κ) : m''.lookup key = m.lookup key := by
  rw [back key]
  split
  · next here =>
    have same : into old (into new key) = key := by
      rw [placing.into_into, ← here, placing.into_range]
    rw [there, if_pos (placing.range_into new key), same]
    cases found : m.lookup key with
    | none => rfl
    | some value => simp [undone key value found here]
  · next notOld =>
    split
    · next here => rw [vacant key here]
    · next notNew => rw [there, if_neg notNew, if_neg notOld]

end MovedTo

section Every

variable {m : HashMap κ ν} {P Q : κ → ν → Prop} {key : κ} {value : ν} {keys : List κ}

@[simp] theorem every_empty : (∅ : HashMap κ ν).Every P := by
  intro key value found
  simp at found

theorem Every.mono (every : m.Every P) (weaker : ∀ key value, P key value → Q key value) :
    m.Every Q := fun key value found => weaker _ _ (every key value found)

theorem Every.insert (every : m.Every P) (holds : P key value) : (m.insert key value).Every P := by
  intro other stored found
  rw [lookup_insert_if] at found
  split at found
  · next same =>
    cases found
    exact same ▸ holds
  · exact every _ _ found

theorem Every.erase (every : m.Every P) (key : κ) : (m.erase key).Every P := by
  intro other stored found
  rw [lookup_erase_if] at found
  split at found
  · cases found
  · exact every _ _ found

theorem Every.removeAll (every : m.Every P) (keys : List κ) : (m.removeAll keys).Every P := by
  intro other stored found
  rw [lookup_removeAll] at found
  split at found
  · cases found
  · exact every _ _ found

theorem Every.retain (every : m.Every P) (p : κ → ν → Bool) : (m.retain p).Every P := by
  intro other stored found
  rw [lookup_retain] at found
  exact every _ _ (Option.filter_eq_some_iff.mp found).1

theorem Every.mapValues (every : m.Every P) {f : κ → ν → ν}
    (kept : ∀ key value, P key value → P key (f key value)) : (m.mapValues f).Every P := by
  intro other stored found
  rw [lookup_mapValues] at found
  obtain ⟨old, was, rfl⟩ := Option.map_eq_some_iff.mp found
  exact kept _ _ (every _ _ was)

theorem Every.moveAll (every : m.Every P) {move : κ → κ} {update : ν → ν}
    (apart : ∀ k ∈ keys, ∀ k' ∈ keys, move k ≠ k')
    (moved : ∀ key ∈ keys, ∀ value, P key value → P (move key) (update value)) :
    (m.moveAll move update keys).Every P := by
  intro other stored found
  rcases lookup_moveAll_some apart found with ⟨k, member, v, was, rfl, rfl⟩ | kept
  · exact moved k member v (every _ _ was)
  · exact every _ _ kept

/-- What holds of every member of every bucket. -/
theorem Every.push {m : HashMap κ (List ν)} {P : κ → List ν → Prop} {value : ν} (every : m.Every P)
    (added : ∀ bucket, (m.lookup key = some bucket ∨ bucket = []) → P key (bucket ++ [value])) :
    (m.push key value).Every P := by
  refine every.insert (added _ ?_)
  cases m.lookup key with
  | none => exact .inr rfl
  | some bucket => exact .inl rfl

end Every

section Apart

variable {ι : Type} {m m' : HashMap κ ν} {holds : ν → ι → Prop} {key : κ} {value old : ν}
variable {keys : List κ}

@[simp] theorem apart_empty : (∅ : HashMap κ ν).Apart holds := by
  intro key key' value value' i found
  simp at found

/-- Entries may go, or change without gaining an identifier. -/
theorem Apart.restrict (apart : m.Apart holds)
    (older : ∀ key value, m'.lookup key = some value →
      ∃ old, m.lookup key = some old ∧ ∀ i, holds value i → holds old i) : m'.Apart holds := by
  intro key key' value value' i found found' held held'
  obtain ⟨old, was, kept⟩ := older key value found
  obtain ⟨old', was', kept'⟩ := older key' value' found'
  exact apart key key' old old' i was was' (kept i held) (kept' i held')

theorem Apart.removeAll (apart : m.Apart holds) (keys : List κ) : (m.removeAll keys).Apart holds := by
  refine apart.restrict fun key value found => ⟨value, ?_, fun _ held => held⟩
  rw [lookup_removeAll] at found
  split at found
  · cases found
  · exact found

theorem Apart.erase (apart : m.Apart holds) (key : κ) : (m.erase key).Apart holds :=
  apart.removeAll [key]

/-- An entry may gain identifiers no other entry holds. -/
theorem Apart.insert (apart : m.Apart holds)
    (alone : ∀ other stored i, other ≠ key → m.lookup other = some stored → holds value i →
      ¬holds stored i) : (m.insert key value).Apart holds := by
  intro first second v v' i found found' held held'
  rw [lookup_insert_if] at found found'
  by_cases here : first = key <;> by_cases there : second = key
  · rw [here, there]
  · rw [if_pos here] at found
    rw [if_neg there] at found'
    cases found
    exact absurd held' (alone second v' i there found' held)
  · rw [if_neg here] at found
    rw [if_pos there] at found'
    cases found'
    exact absurd held (alone first v i here found held')
  · rw [if_neg here] at found
    rw [if_neg there] at found'
    exact apart first second v v' i found found' held held'

theorem Apart.insert_edit (apart : m.Apart holds) (found : m.lookup key = some old)
    (kept : ∀ i, holds value i → holds old i) : (m.insert key value).Apart holds :=
  apart.insert fun other stored i different was held held' =>
    different (apart other key stored old i was found held' (kept i held))

theorem Apart.moveAll (apart : m.Apart holds) {move : κ → κ} {update : ν → ν}
    (disjoint : ∀ k ∈ keys, ∀ k' ∈ keys, move k ≠ k')
    (kept : ∀ value i, holds (update value) i → holds value i) :
    (m.moveAll move update keys).Apart holds := by
  -- Every entry of the result comes from one entry of the map, whose place it took.
  have source (key : κ) (value : ν) (found : (m.moveAll move update keys).lookup key = some value) :
      ∃ from_ old, m.lookup from_ = some old ∧ (∀ i, holds value i → holds old i) ∧
        ((from_ ∈ keys ∧ key = move from_) ∨ (from_ ∉ keys ∧ key = from_)) := by
    rcases lookup_moveAll_some disjoint found with ⟨k, member, v, was, rfl, rfl⟩ | kept'
    · exact ⟨k, v, was, kept v, .inl ⟨member, rfl⟩⟩
    · refine ⟨key, value, kept', fun _ held => held, .inr ⟨fun member => ?_, rfl⟩⟩
      rw [lookup_moveAll_of_source disjoint member] at found
      cases found
  intro key key' value value' i found found' held held'
  obtain ⟨from_, old, was, older, place⟩ := source key value found
  obtain ⟨from', old', was', older', place'⟩ := source key' value' found'
  have same := apart from_ from' old old' i was was' (older i held) (older' i held')
  subst same
  rcases place with ⟨member, rfl⟩ | ⟨outside, rfl⟩ <;> rcases place' with ⟨member', rfl⟩ | ⟨outside', rfl⟩
  · rfl
  · exact absurd member outside'
  · exact absurd member' outside
  · rfl

end Apart

end HashMap

end KeyedMap
