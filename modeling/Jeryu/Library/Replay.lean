import Mathlib.Data.List.Induction
import Jeryu.Library.Journal

/-!
A machine that takes one input after the other, and what it answers on the way: the value after
each prefix of the inputs, and entries stamped by a counter.
-/

namespace Replay

section Machine

variable {σ ι ο : Type} (step : σ → ι → σ × ο) (start : σ)

def after (inputs : List ι) : σ := inputs.foldl (fun s input => (step s input).1) start

/-- What the input is answered that comes after the earlier ones. -/
def reply (earlier : List ι) (input : ι) : ο := (step (after step start earlier) input).2

/-- What the inputs are answered, in turn. -/
def replies : σ → List ι → List ο
  | _, [] => []
  | s, input :: rest => (step s input).2 :: replies (step s input).1 rest

@[simp] theorem after_nil : after step start [] = start := rfl

@[simp] theorem after_snoc (earlier : List ι) (input : ι) :
    after step start (earlier ++ [input]) = (step (after step start earlier) input).1 := by
  simp [after]

theorem replies_snoc (earlier : List ι) (input : ι) :
    replies step start (earlier ++ [input]) =
      replies step start earlier ++ [reply step start earlier input] := by
  induction earlier generalizing start with
  | nil => rfl
  | cons first rest ih =>
    have unfolded := ih (step start first).1
    simpa [replies, reply, after] using unfolded

variable {step start} {inputs : List ι}

theorem prefix_of_snoc {earlier : List ι} {input : ι} (early : earlier ++ [input] <+: inputs) :
    earlier <+: inputs := by
  have shorter : earlier <+: earlier ++ [input] := List.prefix_append earlier [input]
  exact shorter.trans early

/-- What holds at the start, and of each value if it held of the one before. -/
theorem after_induction (Inv : List ι → σ → Prop) (initial : Inv [] start)
    (kept : ∀ earlier input, earlier ++ [input] <+: inputs → Inv earlier (after step start earlier) →
      Inv (earlier ++ [input]) (step (after step start earlier) input).1) :
    ∀ seen, seen <+: inputs → Inv seen (after step start seen) := by
  intro seen
  induction seen using List.reverseRecOn with
  | nil => exact fun _ => initial
  | append_singleton earlier input ih =>
    intro early
    rw [after_snoc]
    exact kept earlier input early (ih (prefix_of_snoc early))

/-- Each value is ahead of the one before, so also of all earlier ones. -/
theorem after_ahead {R : σ → σ → Prop} (refl : ∀ s, R s s) (trans : ∀ a b c, R a b → R b c → R a c)
    (moved : ∀ earlier input, earlier ++ [input] <+: inputs →
      R (after step start earlier) (step (after step start earlier) input).1)
    {seen later : List ι} (early : seen <+: later) (within : later <+: inputs) :
    R (after step start seen) (after step start later) := by
  induction later using List.reverseRecOn with
  | nil =>
    rw [List.prefix_nil.mp early]
    exact refl _
  | append_singleton earlier input ih =>
    rcases List.prefix_concat_iff.mp early with same | shorter
    · rw [same]
      exact refl _
    · rw [after_snoc]
      have before := ih shorter (prefix_of_snoc within)
      exact trans _ _ _ before (moved earlier input within)

end Machine

section Stamps

variable {α : Type} {stamp : α → Nat} {last : Nat} {entries : List α} {entry : α}

/-- The entries are stamped in turn, from one on. -/
structure Stamped (stamp : α → Nat) (last : Nat) (entries : List α) : Prop where
  stamps : entries.map stamp = (List.range entries.length).map (· + 1)
  last : last = entries.length

theorem stamped_nil : Stamped stamp 0 ([] : List α) := ⟨rfl, rfl⟩

theorem Stamped.push (stamped : Stamped stamp last entries) (next : stamp entry = last + 1) :
    Stamped stamp (last + 1) (entries ++ [entry]) where
  stamps := by
    have counted := stamped.last
    rw [List.map_append, stamped.stamps, List.length_append, List.length_singleton, List.range_succ]
    simp [next, counted]
  last := by
    have counted := stamped.last
    simp [counted]

theorem Stamped.increasing (stamped : Stamped stamp last entries) :
    (entries.map stamp).Pairwise (· < ·) := by
  rw [stamped.stamps, List.pairwise_map]
  have counting : (List.range entries.length).Pairwise (· < ·) := List.pairwise_lt_range
  exact counting.imp fun smaller => by omega

end Stamps

end Replay
