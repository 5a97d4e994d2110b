import Mathlib.Data.List.Basic

/-!
A reader that hands out a stream in pieces of its own choosing, `std::io::Read`, and the loop that
asks it again until a buffer is full. What the loop reads does not depend on the pieces.
-/

/-- What one read does: nothing, for an interruption, or at least one byte where one is left and
    one is asked for, and at most `more` beyond that. -/
inductive ShortRead where
  | interrupted
  | upTo (more : Nat)

/-- The bytes left, and what the next reads do; past those a read gives all it is asked for. -/
structure Reader (α : Type) where
  rest : List α
  reads : List ShortRead

namespace Reader

variable {α : Type} {reader : Reader α} {room : Nat}

/-- One `Read::read` into a buffer with `room`; an interrupted one gives `none`. -/
def read (reader : Reader α) (room : Nat) : Option (List α) × Reader α :=
  match reader.reads with
  | [] => (some (reader.rest.take room), { reader with rest := reader.rest.drop room })
  | .interrupted :: reads => (none, { reader with reads })
  | .upTo more :: reads =>
    let given := min room (more + 1)
    (some (reader.rest.take given), ⟨reader.rest.drop given, reads⟩)

/-- An interrupted read leaves the stream alone. -/
theorem read_none {next : Reader α} (interrupted : reader.read room = (none, next)) :
    next.rest = reader.rest ∧ next.reads.length < reader.reads.length := by
  unfold read at interrupted
  split at interrupted
  · cases interrupted
  · next reads given =>
    cases interrupted
    rw [given]
    exact ⟨rfl, Nat.lt_succ_self _⟩
  · cases interrupted

/-- Any other read takes what it gives off the stream. -/
theorem read_some {bytes : List α} {next : Reader α} (read : reader.read room = (some bytes, next)) :
    reader.rest = bytes ++ next.rest ∧ bytes.length ≤ room ∧
      next.reads.length ≤ reader.reads.length := by
  unfold Reader.read at read
  split at read
  · cases read
    exact ⟨(List.take_append_drop _ _).symm, List.length_take_le _ _, Nat.le_refl _⟩
  · cases read
  · next more reads given =>
    cases read
    rw [given]
    have short := List.length_take_le (min room (more + 1)) reader.rest
    refine ⟨(List.take_append_drop _ _).symm, ?_, Nat.le_succ _⟩
    omega

/-- A read of nothing is the end of the stream. -/
theorem read_nil {next : Reader α} (wanted : 0 < room) (read : reader.read room = (some [], next)) :
    reader.rest = [] := by
  unfold Reader.read at read
  split at read
  · have taken : reader.rest.take room = [] := (Prod.mk.inj read).1 |> Option.some.inj
    rcases List.take_eq_nil_iff.mp taken with zero | empty
    · omega
    · exact empty
  · cases read
  · next more reads given =>
    have taken : reader.rest.take (min room (more + 1)) = [] := (Prod.mk.inj read).1 |> Option.some.inj
    rcases List.take_eq_nil_iff.mp taken with zero | empty
    · omega
    · exact empty

/-- `Read::read_exact`: asks again until the buffer is full; a read of nothing is the end of the
    stream, and `none` the error for it. -/
def readExact (reader : Reader α) (room : Nat) : Option (List α × Reader α) :=
  if room = 0 then some ([], reader)
  else match _read : reader.read room with
    | (none, next) => next.readExact room
    | (some [], _) => none
    | (some (first :: more), next) =>
      match next.readExact (room - (first :: more).length) with
      | none => none
      | some (rest, last) => some (first :: more ++ rest, last)
termination_by reader.reads.length + room
decreasing_by
  · have interrupted := (read_none _read).2
    omega
  · have taken := (read_some _read).2
    simp only [List.length_cons] at taken ⊢
    omega

/-- A full buffer holds the next bytes of the stream, in whatever pieces they came. -/
theorem readExact_eq_some {bytes : List α} {last : Reader α}
    (full : reader.readExact room = some (bytes, last)) :
    bytes.length = room ∧ reader.rest = bytes ++ last.rest := by
  fun_induction readExact reader room generalizing bytes with
  | case1 reader =>
    cases full
    exact ⟨rfl, rfl⟩
  | case2 reader room wanted next read ih =>
    rw [← (read_none read).1]
    exact ih full
  | case3 => cases full
  | case4 => cases full
  | case5 reader room wanted first more next read rest last' filled ih =>
    cases full
    obtain ⟨length, left⟩ := ih filled
    obtain ⟨stream, short, -⟩ := read_some read
    refine ⟨?_, ?_⟩
    · rw [List.length_append, length]
      omega
    · rw [stream, left, List.append_assoc]

/-- The buffer is filled where the stream is long enough. -/
theorem exists_readExact (enough : room ≤ reader.rest.length) :
    ∃ bytes last, reader.readExact room = some (bytes, last) := by
  fun_induction readExact reader room with
  | case1 reader => exact ⟨_, _, rfl⟩
  | case2 reader room wanted next read ih =>
    apply ih
    rw [(read_none read).1]
    exact enough
  | case3 reader room wanted next read =>
    rw [read_nil (Nat.pos_of_ne_zero wanted) read] at enough
    exact absurd (Nat.le_zero.mp enough) wanted
  | case4 reader room wanted first more next read unfilled ih =>
    obtain ⟨stream, short, -⟩ := read_some read
    have left : room - (first :: more).length ≤ next.rest.length := by
      rw [stream, List.length_append] at enough
      omega
    obtain ⟨bytes, last, filled⟩ := ih left
    rw [unfilled] at filled
    cases filled
  | case5 reader room wanted first more next read rest last' filled ih => exact ⟨_, _, rfl⟩

end Reader
