import Jeryu.Core.System

namespace Jeryu.Core

open KeyedMap LockProgram

/-- A guard that passes. -/
theorem ite_error_eq_ok {ε α : Type} {p : Prop} [Decidable p] {error : ε} {rest : Except ε α}
    {value : α} : (if p then .error error else rest) = .ok value ↔ ¬p ∧ rest = .ok value := by
  by_cases holds : p <;> simp [holds]

/-- Every section of the method under the write lock moves the core along `R`. -/
structure Method.Writes {α : Type} (method : Method α)
    (R : ForgeCore → ForgeCore → Option (Except Failure α) → Prop) : Prop where
  meets : method.run.Meets (fun _ => True) R (fun _ => True)

/-- No section of the method takes the write lock. -/
def Method.ReadOnly {α : Type} (method : Method α) : Prop := method.Writes fun _ _ _ => False

namespace Method

variable {α β : Type} {R R' : ForgeCore → ForgeCore → Option (Except Failure α) → Prop}
variable {S : ForgeCore → ForgeCore → Option (Except Failure β) → Prop}
variable {T : ForgeCore → ForgeCore → Prop}

theorem writes_pure (value : α) : (pure value : Method α).Writes R := ⟨True.intro⟩

theorem writes_throw (failure : Failure) : (throw failure : Method α).Writes R := ⟨True.intro⟩

theorem writes_ofExcept (result : Except ForgeError α) : (ofExcept result).Writes R := ⟨True.intro⟩

theorem writes_reading (f : ForgeCore → Except ForgeError α) : (reading f).Writes R :=
  ⟨fun _ _ => True.intro⟩

theorem writes_reading_bind {f : ForgeCore → Except ForgeError α} {g : α → Method β}
    (rest : ∀ core a, f core = .ok a → (g a).Writes S) : (reading f >>= g).Writes S := by
  refine ⟨fun core _ => ?_⟩
  show Program.Meets (fun _ => True) S (fun _ => True)
    ((Program.done ((f core).mapError .error)).bind (ExceptT.bindCont g))
  cases found : f core with
  | ok a => exact (rest core a found).meets
  | error error => exact True.intro

theorem writes_locked {f : ForgeCore → Outcome α}
    (moved : ∀ core, R core ((f core).settle core).2 (some ((f core).settle core).1)) :
    (locked f).Writes R := ⟨fun core _ => ⟨moved core, True.intro⟩⟩

theorem Writes.mono {method : Method α} (writes : method.Writes R)
    (weaker : ∀ core core' reply, R core core' reply → R' core core' reply) : method.Writes R' :=
  ⟨writes.meets.mono (fun _ h => h) (fun _ _ _ _ h => weaker _ _ _ h) fun _ h => h⟩

theorem Writes.keep {ι : Type} {method : Method α}
    (writes : method.Writes fun core core' _ => T core core') :
    method.Writes fun core core' _ => ι → T core core' := writes.mono fun _ _ _ moved _ => moved

theorem Writes.bind {method : Method α} {f : α → Method β}
    (first : method.Writes fun core core' _ => ∀ reply, S core core' reply)
    (rest : ∀ a, (f a).Writes S) : (method >>= f).Writes S :=
  ⟨Program.Meets.bind_run
    (first.meets.mono (fun _ h => h) (fun _ _ _ _ h => h)
      fun _ _ => ⟨fun _ _ => True.intro, fun _ _ => True.intro⟩)
    fun a _ => (rest a).meets⟩

/-- `Writes.bind` before a section that is still to come. -/
theorem Writes.bind_unfinished {method : Method α} {f : α → Method β}
    (first : method.Writes fun core core' _ =>
      ∀ reply, (∀ value, reply ≠ some (.ok value)) → S core core' reply)
    (unfinished : ∀ a, (f a).run.reply = none) (rest : ∀ a, (f a).Writes S) :
    (method >>= f).Writes S :=
  ⟨Program.Meets.bind_unfinished
    (first.meets.mono (fun _ h => h) (fun _ _ _ _ h => h) fun _ _ _ _ => True.intro) unfinished
    fun a => (rest a).meets⟩

@[simp] theorem mapError_eq_ok {ε ε' : Type} {f : ε → ε'} {result : Except ε α} {value : α} :
    result.mapError f = .ok value ↔ result = .ok value := by
  cases result <;> simp [Except.mapError]

theorem writes_ofExcept_bind {result : Except ForgeError α} {f : α → Method β}
    (rest : ∀ a, result = .ok a → (f a).Writes S) : (ofExcept result >>= f).Writes S := by
  cases result with
  | ok a => exact ⟨(rest a rfl).meets⟩
  | error e => exact ⟨True.intro⟩

theorem ReadOnly.writes {method : Method α} (readOnly : method.ReadOnly) : method.Writes R :=
  Writes.mono readOnly fun _ _ _ moved => moved.elim

theorem ReadOnly.bind {method : Method α} {f : α → Method β} (first : method.ReadOnly)
    (rest : ∀ a, (f a).Writes S) : (method >>= f).Writes S := first.writes.bind rest

theorem writes_ite {p : Prop} [Decidable p] {yes no : Method α} (left : yes.Writes R)
    (right : no.Writes R) : (if p then yes else no).Writes R := by
  split
  · exact left
  · exact right

/-- An early refusal in a `do` block. -/
theorem writes_unless {p : Prop} [Decidable p] {failure : Failure} {rest : Unit → Method β}
    (after : (rest ()).Writes S) :
    (if p then (throw failure : Method Unit) >>= fun r => rest r else rest ()).Writes S :=
  writes_ite ⟨True.intro⟩ after

theorem Writes.ignored {method : Method α}
    (writes : method.Writes fun core core' _ => T core core') :
    method.ignored.Writes fun core core' _ => T core core' :=
  ⟨Program.Meets.bind (writes.meets.mono (fun _ h => h) (fun _ _ _ _ h _ => h) fun _ h => h)
    fun _ _ => True.intro⟩

theorem Writes.expect {method : Method α} {message : String}
    (writes : method.Writes fun core core' _ => T core core') :
    (method.expect message).Writes fun core core' _ => T core core' := by
  refine ⟨Program.Meets.bind
    (writes.meets.mono (fun _ h => h) (fun _ _ _ _ h _ => h) fun _ h => h) fun result _ => ?_⟩
  cases result with
  | ok value => exact True.intro
  | error failure => exact True.intro

theorem Writes.orIgnored {first second : Method Unit}
    (left : first.Writes fun core core' _ => T core core')
    (right : second.Writes fun core core' _ => T core core') :
    (first.orIgnored second).Writes fun core core' _ => T core core' := by
  refine ⟨Program.Meets.bind
    (left.meets.mono (fun _ h => h) (fun _ _ _ _ h _ => h) fun _ h => h) fun result _ => ?_⟩
  cases result with
  | ok _ => exact True.intro
  | error failure => exact right.ignored.meets

theorem Writes.inspect {method : Method α} {after : Except Failure α → Method Unit}
    (writes : method.Writes fun core core' _ => ∀ reply, R core core' reply)
    (rest : ∀ result, (after result).Writes fun core core' _ => ∀ reply, R core core' reply) :
    (method.inspect after).Writes R := by
  refine ⟨Program.Meets.bind writes.meets fun result _ => ?_⟩
  refine Program.Meets.bind (rest result).meets fun closed _ => ?_
  cases closed with
  | ok _ => exact True.intro
  | error failure => exact True.intro

end Method

section Guards

variable (owner repo : String)

theorem canonicalRepository_readOnly : (canonicalRepository owner repo).ReadOnly :=
  Method.writes_reading _

theorem getRepository_readOnly : (getRepository owner repo).ReadOnly := Method.writes_reading _

theorem getAccount_readOnly (login : String) : (getAccount login).ReadOnly :=
  Method.writes_reading _

theorem utcNow_readOnly : utcNow.ReadOnly := Method.writes_reading _

theorem ensureRepoExists_readOnly : (ensureRepoExists owner repo).ReadOnly :=
  (canonicalRepository_readOnly owner repo).bind fun _ => Method.writes_pure _

theorem ensureRepositoryWritable_readOnly : (ensureRepositoryWritable owner repo).ReadOnly :=
  (getRepository_readOnly owner repo).bind fun _ =>
    Method.writes_ite (Method.writes_throw _) (Method.writes_pure _)

theorem requireRepoAdmin_readOnly (actor : String) : (requireRepoAdmin actor owner repo).ReadOnly :=
  Method.writes_reading _

theorem requireGlobalAdmin_readOnly (actor : String) : (requireGlobalAdmin actor).ReadOnly :=
  Method.writes_reading _

theorem requireStorage_readOnly (message : String) : (requireStorage message).ReadOnly :=
  Method.writes_reading _

end Guards

end Jeryu.Core
