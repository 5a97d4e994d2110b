import Mathlib.Logic.Relation

/-!
Calls over one shared value behind a reader-writer lock. A call is a sequence of
sections; each section holds the lock, sees the whole shared value and decides how
the call goes on. Other calls may run between two sections, never inside one.
-/

namespace LockProgram

/-- A `read` section leaves the shared value alone. A `write` section replaces it and
    continues from what it saw before the replacement. -/
inductive Program (σ α : Type) : Type where
  | done (result : α)
  | read (next : σ → Program σ α)
  | write (update : σ → σ) (next : σ → Program σ α)

namespace Program

variable {σ α β ε : Type}

def bind : Program σ α → (α → Program σ β) → Program σ β
  | done result, f => f result
  | read next, f => read fun s => (next s).bind f
  | write update next, f => write update fun s => (next s).bind f

instance : Monad (Program σ) where
  pure := done
  bind := bind

@[simp] theorem pure_def (a : α) : (pure a : Program σ α) = done a := rfl

@[simp] theorem done_bind (a : α) (f : α → Program σ β) : (done a : Program σ α) >>= f = f a := rfl

@[simp] theorem read_bind (next : σ → Program σ α) (f : α → Program σ β) :
    read next >>= f = read fun s => next s >>= f := rfl

@[simp] theorem write_bind (update : σ → σ) (next : σ → Program σ α) (f : α → Program σ β) :
    write update next >>= f = write update fun s => next s >>= f := rfl

theorem bind_done (p : Program σ α) : p >>= done = p := by
  induction p with
  | done result => rfl
  | read next ih => exact congrArg read (funext ih)
  | write update next ih => exact congrArg (write update) (funext ih)

/-- The call on a part of a larger value. -/
def zoom {τ : Type} (get : τ → σ) (put : σ → τ → τ) : Program σ α → Program τ α
  | done result => done result
  | read next => read fun t => (next (get t)).zoom get put
  | write update next => write (fun t => put (update (get t)) t) fun t => (next (get t)).zoom get put

/-- What the call has answered, once no section is left. -/
def reply : Program σ α → Option α
  | done result => some result
  | read _ | write _ _ => none

@[simp] theorem reply_done (a : α) : (done a : Program σ α).reply = some a := rfl

@[simp] theorem reply_read (next : σ → Program σ α) : (read next).reply = none := rfl

@[simp] theorem reply_write (update : σ → σ) (next : σ → Program σ α) :
    (write update next).reply = none := rfl

/-- The call run alone, no other call between its sections. -/
def exec : Program σ α → σ → α × σ
  | done result, s => (result, s)
  | read next, s => (next s).exec s
  | write update next, s => (next s).exec (update s)

@[simp] theorem exec_done (a : α) (s : σ) : (done a : Program σ α).exec s = (a, s) := rfl

@[simp] theorem exec_read (next : σ → Program σ α) (s : σ) :
    (read next).exec s = (next s).exec s := rfl

@[simp] theorem exec_write (update : σ → σ) (next : σ → Program σ α) (s : σ) :
    (write update next).exec s = (next s).exec (update s) := rfl

@[simp] theorem exec_bind (p : Program σ α) (f : α → Program σ β) (s : σ) :
    (p >>= f).exec s = (f (p.exec s).1).exec (p.exec s).2 := by
  induction p generalizing s with
  | done result => rfl
  | read next ih => simpa using ih s s
  | write update next ih => simpa using ih s (update s)

/-- Whether the next section is under the write lock. -/
def locks : Program σ α → Bool
  | done _ | read _ => false
  | write _ _ => true

theorem eq_write_of_locks {p : Program σ α} (locks : p.locks = true) :
    ∃ update next, p = write update next := by
  cases p with
  | done result => cases locks
  | read next => cases locks
  | write update next => exact ⟨update, next, rfl⟩

/-- The answer the call gives if the section under the write lock it stands at is its last. -/
def answerAtLock : Program σ α → σ → Option α
  | done _, _ | read _, _ => none
  | write _ next, s => (next s).reply

/-- `ok` holds of every write section of the call run alone, where it finds the shared
    value. -/
def Permits (ok : (σ → σ) → σ → Prop) : Program σ α → σ → Prop
  | done _, _ => True
  | read next, s => (next s).Permits ok s
  | write update next, s => ok update s ∧ (next s).Permits ok (update s)

theorem permits_of_every {ok : (σ → σ) → σ → Prop} (every : ∀ update s, ok update s)
    (p : Program σ α) (s : σ) : p.Permits ok s := by
  induction p generalizing s with
  | done result => exact True.intro
  | read next ih => exact ih s s
  | write update next ih => exact ⟨every update s, ih s (update s)⟩

/-- Whatever runs between the sections, as long as each section starts in a state of
    `I`: every write section moves the shared value along `R`, which also sees the answer
    when the section is the last, and a result the call ends with satisfies `Q`. -/
def Meets (I : σ → Prop) (R : σ → σ → Option α → Prop) (Q : α → Prop) : Program σ α → Prop
  | done result => Q result
  | read next => ∀ s, I s → Meets I R Q (next s)
  | write update next => ∀ s, I s → R s (update s) (next s).reply ∧ Meets I R Q (next s)

section Meets

variable {I J : σ → Prop} {R R' : σ → σ → Option α → Prop} {Q Q' : α → Prop}

@[simp] theorem meets_done (a : α) : (done a : Program σ α).Meets I R Q ↔ Q a := Iff.rfl

@[simp] theorem meets_read (next : σ → Program σ α) :
    (read next).Meets I R Q ↔ ∀ s, I s → (next s).Meets I R Q := Iff.rfl

@[simp] theorem meets_write (update : σ → σ) (next : σ → Program σ α) :
    (write update next).Meets I R Q ↔
      ∀ s, I s → R s (update s) (next s).reply ∧ (next s).Meets I R Q := Iff.rfl

theorem reply_zoom {τ : Type} {get : τ → σ} {put : σ → τ → τ} (p : Program σ α) :
    (p.zoom get put).reply = p.reply := by cases p <;> rfl

theorem Meets.zoom {τ : Type} {get : τ → σ} {put : σ → τ → τ} {p : Program σ α}
    (meets : p.Meets (fun _ => True) R Q) : (p.zoom get put).Meets (fun _ => True)
      (fun t t' reply => ∃ s, R (get t) s reply ∧ t' = put s t) Q := by
  induction p with
  | done result => exact meets
  | read next ih => exact fun t _ => ih _ (meets (get t) True.intro)
  | write update next ih =>
    intro t _
    obtain ⟨moved, rest⟩ := meets (get t) True.intro
    exact ⟨⟨update (get t), by rwa [reply_zoom], rfl⟩, ih _ rest⟩

/-- The sections of a call that is not over yet answer nothing, so `p` has to keep to `R`
    whatever is answered. -/
theorem Meets.bind {R : σ → σ → Option β → Prop} {Q' : β → Prop} {p : Program σ α}
    {f : α → Program σ β} (first : p.Meets I (fun s s' _ => ∀ reply, R s s' reply) Q)
    (rest : ∀ a, Q a → (f a).Meets I R Q') : (p >>= f).Meets I R Q' := by
  induction p with
  | done result => exact rest result first
  | read next ih => exact fun s holds => ih s (first s holds)
  | write update next ih =>
    exact fun s holds => ⟨(first s holds).1 _, ih s (first s holds).2⟩

theorem Meets.mono {p : Program σ α} (meets : p.Meets I R Q)
    (invariant : ∀ s, J s → I s) (moves : ∀ s s' reply, J s → R s s' reply → R' s s' reply)
    (results : ∀ a, Q a → Q' a) : p.Meets J R' Q' := by
  induction p with
  | done result => exact results result meets
  | read next ih => exact fun s holds => ih s (meets s (invariant s holds))
  | write update next ih =>
    intro s holds
    obtain ⟨moved, after⟩ := meets s (invariant s holds)
    exact ⟨moves _ _ _ holds moved, ih s after⟩

theorem meets_true (p : Program σ α) : p.Meets I (fun _ _ _ => True) (fun _ => True) := by
  induction p with
  | done result => exact True.intro
  | read next ih => exact fun s _ => ih s
  | write update next ih => exact fun s _ => ⟨True.intro, ih s⟩

theorem Meets.and {p : Program σ α} (left : p.Meets I R Q) (right : p.Meets I R' Q') :
    p.Meets I (fun s s' reply => R s s' reply ∧ R' s s' reply) (fun a => Q a ∧ Q' a) := by
  induction p with
  | done result => exact ⟨left, right⟩
  | read next ih => exact fun s holds => ih s (left s holds) (right s holds)
  | write update next ih =>
    exact fun s holds =>
      ⟨⟨(left s holds).1, (right s holds).1⟩, ih s (left s holds).2 (right s holds).2⟩

end Meets

section Fallible

variable {I : σ → Prop} {R : σ → σ → Option (Except ε β) → Prop} {Q : Except ε β → Prop}

/-- `Meets.bind` for calls that may fail: an error of the first part is the answer of the
    whole. -/
theorem Meets.bind_run {p : ExceptT ε (Program σ) α} {f : α → ExceptT ε (Program σ) β}
    {answers : α → Prop}
    (first : p.run.Meets I (fun s s' _ => ∀ reply, R s s' reply)
      (fun result => (∀ e, result = .error e → Q (.error e)) ∧ ∀ a, result = .ok a → answers a))
    (rest : ∀ a, answers a → (f a).run.Meets I R Q) : (p >>= f).run.Meets I R Q := by
  refine Meets.bind first fun result holds => ?_
  cases result with
  | error e => exact holds.1 e rfl
  | ok a => exact rest a (holds.2 a rfl)

/-- Where the rest has a section of its own, a section of the first part never ends the call
    well. -/
theorem Meets.bind_unfinished {p : ExceptT ε (Program σ) α} {f : α → ExceptT ε (Program σ) β}
    (first : p.run.Meets I
      (fun s s' _ => ∀ reply, (∀ b, reply ≠ some (.ok b)) → R s s' reply)
      (fun result => ∀ e, result = .error e → Q (.error e)))
    (unfinished : ∀ a, (f a).run.reply = none) (rest : ∀ a, (f a).run.Meets I R Q) :
    (p >>= f).run.Meets I R Q := by
  have answer (q : Program σ (Except ε α)) (b : β) :
      (q >>= ExceptT.bindCont f).reply ≠ some (.ok b) := by
    cases q with
    | done result =>
      cases result with
      | error e => exact fun same => nomatch same
      | ok a => exact fun same => nomatch (unfinished a).symm.trans same
    | read next => simp
    | write update next => simp
  change Meets I R Q (p.run >>= ExceptT.bindCont f)
  generalize p.run = first_ at first ⊢
  induction first_ with
  | done result =>
    cases result with
    | error e => exact first e rfl
    | ok a => exact rest a
  | read next ih => exact fun s holds => ih s (first s holds)
  | write update next ih =>
    exact fun s holds => ⟨(first s holds).1 _ (answer (next s)), ih s (first s holds).2⟩

/-- A call that may fail, run alone: an error of the first part ends it. -/
theorem exec_bind_run (p : ExceptT ε (Program σ) α) (f : α → ExceptT ε (Program σ) β) (s : σ) :
    (p >>= f).run.exec s =
      match p.run.exec s with
      | (.error e, s') => (.error e, s')
      | (.ok a, s') => (f a).run.exec s' := by
  change (p.run >>= ExceptT.bindCont f).exec s = _
  rw [exec_bind]
  obtain ⟨result, s'⟩ := p.run.exec s
  cases result <;> rfl

end Fallible

/-- At most one section of the call moves the shared value along `loud`; all others
    move it along `quiet`. -/
def AtMostOnce (I : σ → Prop) (quiet loud : σ → σ → Prop) : Program σ α → Prop
  | done _ => True
  | read next => ∀ s, I s → AtMostOnce I quiet loud (next s)
  | write update next => ∀ s, I s →
      (quiet s (update s) ∧ AtMostOnce I quiet loud (next s)) ∨
      (loud s (update s) ∧ (next s).Meets I (fun s s' _ => quiet s s') (fun _ => True))

section AtMostOnce

variable {I : σ → Prop} {quiet loud : σ → σ → Prop} {Q : α → Prop}

theorem Meets.atMostOnce {p : Program σ α} (meets : p.Meets I (fun s s' _ => quiet s s') Q) :
    p.AtMostOnce I quiet loud := by
  induction p with
  | done result => exact True.intro
  | read next ih => exact fun s holds => ih s (meets s holds)
  | write update next ih =>
    exact fun s holds => .inl ⟨(meets s holds).1, ih s (meets s holds).2⟩

theorem AtMostOnce.bind_quiet {p : Program σ α} {f : α → Program σ β}
    (first : p.AtMostOnce I quiet loud)
    (rest : ∀ a, (f a).Meets I (fun s s' _ => quiet s s') (fun _ => True)) :
    (p >>= f).AtMostOnce I quiet loud := by
  induction p with
  | done result => exact (rest result).atMostOnce
  | read next ih => exact fun s holds => ih s (first s holds)
  | write update next ih =>
    intro s holds
    rcases first s holds with ⟨moved, after⟩ | ⟨moved, after⟩
    · exact .inl ⟨moved, ih s after⟩
    · exact .inr ⟨moved, (after.mono (fun _ h => h) (fun _ _ _ _ h _ => h) (fun _ h => h)).bind
        fun a _ => rest a⟩

theorem AtMostOnce.quiet_bind {p : Program σ α} {f : α → Program σ β}
    (first : p.Meets I (fun s s' _ => quiet s s') Q)
    (rest : ∀ a, Q a → (f a).AtMostOnce I quiet loud) :
    (p >>= f).AtMostOnce I quiet loud := by
  induction p with
  | done result => exact rest result first
  | read next ih => exact fun s holds => ih s (first s holds)
  | write update next ih =>
    exact fun s holds => .inl ⟨(first s holds).1, ih s (first s holds).2⟩

end AtMostOnce

end Program

end LockProgram
