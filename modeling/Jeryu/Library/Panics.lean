import Jeryu.Library.Text

/-!
Operations that panic: an index or a slice outside the items, a text cut inside a character, an
integer that does not fit its width, a shift as wide as the integer.
-/

inductive Panic where
  | outOfRange
  | insideCharacter
  | overflow
  deriving DecidableEq

/-- What a function answers, or the panic in its place. -/
abbrev Panicking (α : Type) : Type := Except Panic α

namespace Panicking

variable {α : Type}

def index (items : List α) (i : Nat) : Panicking α :=
  match items[i]? with
  | none => .error .outOfRange
  | some item => .ok item

/-- `&items[start..stop]` -/
def slice (items : List α) (start stop : Nat) : Panicking (List α) :=
  if start ≤ stop ∧ stop ≤ items.length then .ok ((items.drop start).take (stop - start))
  else .error .outOfRange

/-- `&items[start..]` -/
def sliceFrom (items : List α) (start : Nat) : Panicking (List α) := slice items start items.length

def add (width a b : Nat) : Panicking Nat :=
  if a + b < 2 ^ width then .ok (a + b) else .error .overflow

def sub (a b : Nat) : Panicking Nat := if b ≤ a then .ok (a - b) else .error .overflow

def shiftLeft (bits : UInt32) (count : Nat) : Panicking UInt32 :=
  if count < 32 then .ok (bits <<< UInt32.ofNat count) else .error .overflow

def shiftRight (bits : UInt32) (count : Nat) : Panicking UInt32 :=
  if count < 32 then .ok (bits >>> UInt32.ofNat count) else .error .overflow

/-- `str::split_at` -/
def splitAt (text : String) (n : Nat) : Panicking (String × String) :=
  if Text.len text < n then .error .outOfRange
  else match Text.splitAt text.toList n with
    | none => .error .insideCharacter
    | some (before, after) => .ok (String.ofList before, String.ofList after)

/-- Whether no character of the text stands across the byte `n`. -/
def Boundary (text : String) (n : Nat) : Prop :=
  ∃ before after : String, text = before ++ after ∧ Text.len before = n

section Specs

variable {items : List α} {start stop width a b count i : Nat} {bits : UInt32} {text : String} {n : Nat}

theorem bind_eq_ok {β : Type} {first : Panicking α} {next : α → Panicking β} {value : β} :
    (first >>= next) = .ok value ↔ ∃ found, first = .ok found ∧ next found = .ok value := by
  cases first with
  | error panic => simp [bind, Except.bind]
  | ok found => simp [bind, Except.bind]

theorem index_ok (inside : i < items.length) : index items i = .ok (items.get ⟨i, inside⟩) := by
  unfold index
  rw [List.getElem?_eq_getElem inside]
  rfl

theorem slice_ok (order : start ≤ stop) (inside : stop ≤ items.length) :
    slice items start stop = .ok ((items.drop start).take (stop - start)) := by
  unfold slice
  rw [if_pos ⟨order, inside⟩]

theorem sliceFrom_ok (inside : start ≤ items.length) : sliceFrom items start = .ok (items.drop start) := by
  unfold sliceFrom
  rw [slice_ok inside (le_refl _), List.take_of_length_le (by rw [List.length_drop])]

theorem add_eq_ok {sum : Nat} (added : add width a b = .ok sum) : sum = a + b := by
  unfold add at added
  split at added
  · exact (Except.ok.inj added).symm
  · cases added

theorem add_ok (fits : a + b < 2 ^ width) : add width a b = .ok (a + b) := by
  unfold add
  rw [if_pos fits]

theorem sub_ok (order : b ≤ a) : sub a b = .ok (a - b) := by
  unfold sub
  rw [if_pos order]

theorem shiftLeft_ok (narrow : count < 32) : shiftLeft bits count = .ok (bits <<< UInt32.ofNat count) := by
  unfold shiftLeft
  rw [if_pos narrow]

theorem shiftRight_ok (narrow : count < 32) : shiftRight bits count = .ok (bits >>> UInt32.ofNat count) := by
  unfold shiftRight
  rw [if_pos narrow]

/-- A text is cut where a character starts, and nowhere else. -/
theorem splitAt_ok_iff (long : n ≤ Text.len text) : (∃ parts, splitAt text n = .ok parts) ↔ Boundary text n := by
  unfold splitAt
  rw [if_neg (Nat.not_lt.mpr long)]
  constructor
  · rintro ⟨parts, cut⟩
    cases found : Text.splitAt text.toList n with
    | none =>
      rw [found] at cut
      cases cut
    | some halves =>
      obtain ⟨whole, size⟩ := Text.splitAt_eq_some.mp found
      refine ⟨String.ofList halves.1, String.ofList halves.2, ?_, ?_⟩
      · rw [← String.toList_inj, String.toList_append, String.toList_ofList, String.toList_ofList]
        exact whole
      · rw [Text.len_eq, String.toList_ofList]
        exact size
  · rintro ⟨before, after, rfl, rfl⟩
    have found : Text.splitAt (before ++ after).toList (Text.len before) = some (before.toList, after.toList) := by
      apply Text.splitAt_eq_some.mpr
      rw [String.toList_append, Text.len_eq]
      exact ⟨rfl, rfl⟩
    rw [found]
    exact ⟨_, rfl⟩

end Specs

end Panicking
