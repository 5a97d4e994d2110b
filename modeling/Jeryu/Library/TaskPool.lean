import Jeryu.Library.LockProgram

/-!
A pool of calls over one shared value, their sections interleaved in any order. Tasks
are never removed: a finished task keeps its answer.
-/

namespace LockProgram

variable {State Call : Type} {Reply : Call → Type}

structure Task (State : Type) (Reply : Call → Type) where
  call : Call
  rest : Program State (Reply call)

/-- `ambient` is what the surroundings may do to the shared value between two sections;
    `admits` is what a caller needs from earlier answers before it may make a call. -/
structure System (State : Type) (Reply : Call → Type) where
  program : (call : Call) → Program State (Reply call)
  ambient : State → State → Prop
  admits : List (Task State Reply) → Call → Prop

structure Config (State : Type) (Reply : Call → Type) where
  shared : State
  tasks : List (Task State Reply)

namespace Config

/-- Task `i`, which runs `call`, takes the write lock; `reply` is its answer if that was
    its last section. -/
def Writes (cfg : Config State Reply) (i : Nat) (call : Call) (reply : Option (Reply call))
    (cfg' : Config State Reply) : Prop :=
  ∃ update next, cfg.tasks[i]? = some ⟨call, .write update next⟩ ∧
    cfg' = ⟨update cfg.shared, cfg.tasks.set i ⟨call, next cfg.shared⟩⟩ ∧
    reply = (next cfg.shared).reply

def Answered (cfg : Config State Reply) (i : Nat) (call : Call) (reply : Reply call) : Prop :=
  cfg.tasks[i]? = some ⟨call, .done reply⟩

end Config

/-- One step. A write section runs only where `allows` holds of its call, of what it is about
    to do and of the shared value it finds. -/
inductive Step (sys : System State Reply) (allows : Call → (State → State) → State → Prop) :
    Config State Reply → Config State Reply → Prop where
  | enter {cfg call} (admitted : sys.admits cfg.tasks call) :
      Step sys allows cfg ⟨cfg.shared, cfg.tasks ++ [⟨call, sys.program call⟩]⟩
  | read {cfg : Config State Reply} {i call next}
      (running : cfg.tasks[i]? = some ⟨call, .read next⟩) :
      Step sys allows cfg ⟨cfg.shared, cfg.tasks.set i ⟨call, next cfg.shared⟩⟩
  | write {cfg : Config State Reply} {i call update next}
      (running : cfg.tasks[i]? = some ⟨call, .write update next⟩)
      (allowed : allows call update cfg.shared) :
      Step sys allows cfg ⟨update cfg.shared, cfg.tasks.set i ⟨call, next cfg.shared⟩⟩
  | ambient {cfg : Config State Reply} {s'} (moved : sys.ambient cfg.shared s') :
      Step sys allows cfg ⟨s', cfg.tasks⟩

/-- Any number of steps. -/
def Run (sys : System State Reply) (allows : Call → (State → State) → State → Prop) :
    Config State Reply → Config State Reply → Prop :=
  Relation.ReflTransGen (Step sys allows)

section Rules

variable {sys : System State Reply} {allows allows' : Call → (State → State) → State → Prop}
variable {I : State → Prop} {R : (call : Call) → State → State → Option (Reply call) → Prop}
variable {Q : (call : Call) → Reply call → Prop}

theorem Config.Writes.step {cfg cfg' : Config State Reply} {i : Nat} {call : Call}
    {reply : Option (Reply call)} (writes : cfg.Writes i call reply cfg')
    (allowed : ∀ update, allows call update cfg.shared) : Step sys allows cfg cfg' := by
  obtain ⟨update, next, running, rfl, -⟩ := writes
  exact .write running (allowed update)

theorem Step.weaken {cfg cfg' : Config State Reply} (step : Step sys allows cfg cfg')
    (weaker : ∀ call update s, allows call update s → allows' call update s) :
    Step sys allows' cfg cfg' := by
  cases step with
  | enter admitted => exact .enter admitted
  | read running => exact .read running
  | write running allowed => exact .write running (weaker _ _ _ allowed)
  | ambient moved => exact .ambient moved

theorem Run.weaken {cfg cfg' : Config State Reply} (run : Run sys allows cfg cfg')
    (weaker : ∀ call update s, allows call update s → allows' call update s) :
    Run sys allows' cfg cfg' := by
  induction run with
  | refl => exact .refl
  | tail _ step ih => exact ih.tail (step.weaken weaker)

/-- The shared value is in `I` and every task has only sections that keep to `R`. -/
structure Sound (I : State → Prop) (R : (call : Call) → State → State → Option (Reply call) → Prop)
    (Q : (call : Call) → Reply call → Prop) (cfg : Config State Reply) : Prop where
  holds : I cfg.shared
  tasks : ∀ task ∈ cfg.tasks, task.rest.Meets I (R task.call) (Q task.call)

/-- What has to be shown of each call, and of the surroundings, for `Sound` to last. -/
structure Certified (sys : System State Reply) (allows : Call → (State → State) → State → Prop)
    (I : State → Prop) (R : (call : Call) → State → State → Option (Reply call) → Prop)
    (Q : (call : Call) → Reply call → Prop) : Prop where
  programs : ∀ call, (sys.program call).Meets I (R call) (Q call)
  ambient : ∀ s s', I s → sys.ambient s s' → I s'
  kept : ∀ call update s reply, I s → allows call update s → R call s (update s) reply →
    I (update s)

theorem Sound.init {s : State} (holds : I s) : Sound I R Q ⟨s, []⟩ :=
  ⟨holds, fun _ member => nomatch member⟩

theorem Sound.task {cfg : Config State Reply} (sound : Sound I R Q cfg) {i : Nat} {call : Call}
    {rest : Program State (Reply call)} (running : cfg.tasks[i]? = some ⟨call, rest⟩) : rest.Meets I (R call) (Q call) :=
  sound.tasks _ (List.mem_of_getElem? running)

theorem Sound.set {cfg : Config State Reply} (sound : Sound I R Q cfg) {s' : State} (holds : I s')
    (i : Nat) {call : Call} {rest : Program State (Reply call)}
    (meets : rest.Meets I (R call) (Q call)) :
    Sound I R Q ⟨s', cfg.tasks.set i ⟨call, rest⟩⟩ := by
  refine ⟨holds, fun task member => ?_⟩
  rcases List.mem_or_eq_of_mem_set member with member | rfl
  · exact sound.tasks task member
  · exact meets

/-- What a write section does to the shared value. -/
theorem Sound.writes {cfg cfg' : Config State Reply} (sound : Sound I R Q cfg) {i call reply}
    (writes : cfg.Writes i call reply cfg') : R call cfg.shared cfg'.shared reply := by
  obtain ⟨update, next, running, rfl, rfl⟩ := writes
  exact (sound.task running cfg.shared sound.holds).1

theorem Sound.answered {cfg : Config State Reply} (sound : Sound I R Q cfg) {i call reply}
    (answered : cfg.Answered i call reply) : Q call reply :=
  sound.task answered

theorem Certified.step (certified : Certified sys allows I R Q) {cfg cfg' : Config State Reply}
    (step : Step sys allows cfg cfg') (sound : Sound I R Q cfg) : Sound I R Q cfg' := by
  cases step with
  | enter admitted =>
    refine ⟨sound.holds, fun task member => ?_⟩
    rcases List.mem_append.mp member with member | member
    · exact sound.tasks task member
    · cases List.mem_singleton.mp member
      exact certified.programs _
  | read running => exact sound.set sound.holds _ (sound.task running _ sound.holds)
  | write running allowed =>
    obtain ⟨moved, rest⟩ := sound.task running _ sound.holds
    exact sound.set (certified.kept _ _ _ _ sound.holds allowed moved) _ rest
  | ambient moved => exact ⟨certified.ambient _ _ sound.holds moved, sound.tasks⟩

theorem Certified.run (certified : Certified sys allows I R Q) {cfg cfg' : Config State Reply}
    (run : Run sys allows cfg cfg') (sound : Sound I R Q cfg) : Sound I R Q cfg' := by
  induction run with
  | refl => exact sound
  | tail _ step ih => exact certified.step step ih

/-- A preorder every section and the surroundings keep to relates the two ends of a run. -/
theorem Certified.along (certified : Certified sys allows I R Q) {T : State → State → Prop}
    (refl : ∀ s, T s s) (trans : ∀ a b c, T a b → T b c → T a c)
    (ambient : ∀ s s', I s → sys.ambient s s' → T s s')
    (sections : ∀ call update s reply, I s → allows call update s → R call s (update s) reply →
      T s (update s))
    {cfg cfg' : Config State Reply} (run : Run sys allows cfg cfg') (sound : Sound I R Q cfg) :
    T cfg.shared cfg'.shared := by
  induction run with
  | refl => exact refl _
  | @tail mid cfg' before step ih =>
    refine trans _ _ _ ih ?_
    have soundMid := certified.run before sound
    cases step with
    | enter admitted => exact refl _
    | read running => exact refl _
    | write running allowed =>
      exact sections _ _ _ _ soundMid.holds allowed (soundMid.task running _ soundMid.holds).1
    | ambient moved => exact ambient _ _ soundMid.holds moved

/-- A section leaves its task the call it was. -/
theorem calls_set {tasks : List (Task State Reply)} {i : Nat} {call : Call}
    {rest : Program State (Reply call)} (running : tasks[i]? = some ⟨call, rest⟩)
    (after : Program State (Reply call)) :
    (tasks.set i ⟨call, after⟩).map Task.call = tasks.map Task.call := by
  rw [List.map_set]
  refine List.ext_getElem? fun j => ?_
  rw [List.getElem?_set]
  split
  · next same =>
    subst same
    obtain ⟨bound, same⟩ := List.getElem?_eq_some_iff.mp running
    simp [bound, same]
  · rfl

/-- A step adds a call it admits, or leaves the calls as they are. -/
theorem Step.calls {cfg cfg' : Config State Reply} (step : Step sys allows cfg cfg') :
    cfg'.tasks.map Task.call = cfg.tasks.map Task.call ∨
      ∃ call, sys.admits cfg.tasks call ∧
        cfg'.tasks.map Task.call = cfg.tasks.map Task.call ++ [call] := by
  cases step with
  | @enter call admitted => exact .inr ⟨call, admitted, by simp⟩
  | read running => exact .inl (calls_set running _)
  | write running allowed => exact .inl (calls_set running _)
  | ambient moved => exact .inl rfl

/-- What a call has as it enters, and keeps section by section, every task has. -/
theorem Run.tasks {P : (call : Call) → Program State (Reply call) → Prop}
    (entered : ∀ call, P call (sys.program call))
    (read : ∀ call next, P call (.read next) → ∀ s, P call (next s))
    (wrote : ∀ call update next s, P call (.write update next) → P call (next s))
    {cfg cfg' : Config State Reply} (run : Run sys allows cfg cfg')
    (every : ∀ task ∈ cfg.tasks, P task.call task.rest) :
    ∀ task ∈ cfg'.tasks, P task.call task.rest := by
  induction run with
  | refl => exact every
  | tail _ step ih =>
    cases step with
    | enter admitted =>
      intro task member
      rcases List.mem_append.mp member with member | member
      · exact ih task member
      · cases List.mem_singleton.mp member
        exact entered _
    | read running =>
      intro task member
      rcases List.mem_or_eq_of_mem_set member with member | rfl
      · exact ih task member
      · exact read _ _ (ih _ (List.mem_of_getElem? running)) _
    | write running allowed =>
      intro task member
      rcases List.mem_or_eq_of_mem_set member with member | rfl
      · exact ih task member
      · exact wrote _ _ _ _ (ih _ (List.mem_of_getElem? running))
    | ambient moved => exact ih

/-- A task that has kept to `R` so far is the same call later on, and still keeps to `R`. -/
theorem task_persists {R : State → State → Prop} {call : Call} {i : Nat}
    {cfg cfg' : Config State Reply} (run : Run sys allows cfg cfg')
    (task : ∃ rest, cfg.tasks[i]? = some ⟨call, rest⟩ ∧
      rest.Meets (fun _ => True) (fun s s' _ => R s s') (fun _ => True)) :
    ∃ rest, cfg'.tasks[i]? = some ⟨call, rest⟩ ∧
      rest.Meets (fun _ => True) (fun s s' _ => R s s') (fun _ => True) := by
  induction run with
  | refl => exact task
  | tail _ step ih =>
    obtain ⟨rest, found, meets⟩ := ih
    have bound := (List.getElem?_eq_some_iff.mp found).1
    cases step with
    | enter admitted =>
      exact ⟨rest, by rw [List.getElem?_append_left bound]; exact found, meets⟩
    | @read j other next running =>
      by_cases same : j = i
      · subst same
        cases found.symm.trans running
        exact ⟨_, List.getElem?_set_self bound, meets _ True.intro⟩
      · exact ⟨rest, by rw [List.getElem?_set_ne same]; exact found, meets⟩
    | @write j other update next running allowed =>
      by_cases same : j = i
      · subst same
        cases found.symm.trans running
        exact ⟨_, List.getElem?_set_self bound, (meets _ True.intro).2⟩
      · exact ⟨rest, by rw [List.getElem?_set_ne same]; exact found, meets⟩
    | ambient moved => exact ⟨rest, found, meets⟩

end Rules

/-- A turn of a schedule: a whole call while nothing else runs, the entry of a call, or the
    next section of a task. -/
inductive Turn (Call : Type) : Type where
  | alone (call : Call)
  | enter (call : Call)
  | advance (i : Nat)

section Schedules

variable (sys : System State Reply) (allows : Call → (State → State) → State → Prop)

/-- The configuration after the turn. -/
def Config.turn (cfg : Config State Reply) : Turn Call → Config State Reply
  | .alone call => ⟨((sys.program call).exec cfg.shared).2,
      cfg.tasks ++ [⟨call, .done ((sys.program call).exec cfg.shared).1⟩]⟩
  | .enter call => ⟨cfg.shared, cfg.tasks ++ [⟨call, sys.program call⟩]⟩
  | .advance i =>
    match cfg.tasks[i]? with
    | some ⟨call, .read next⟩ => ⟨cfg.shared, cfg.tasks.set i ⟨call, next cfg.shared⟩⟩
    | some ⟨call, .write update next⟩ =>
      ⟨update cfg.shared, cfg.tasks.set i ⟨call, next cfg.shared⟩⟩
    | some ⟨_, .done _⟩ | none => cfg

def Config.play (cfg : Config State Reply) (turns : List (Turn Call)) : Config State Reply :=
  turns.foldl (Config.turn sys) cfg

/-- Whether the turn may be taken. -/
def Config.Admits (cfg : Config State Reply) : Turn Call → Prop
  | .alone call =>
    sys.admits cfg.tasks call ∧ (sys.program call).Permits (allows call) cfg.shared
  | .enter call => sys.admits cfg.tasks call
  | .advance i => ∀ call update next, cfg.tasks[i]? = some ⟨call, .write update next⟩ →
      allows call update cfg.shared

def Config.Plays (cfg : Config State Reply) : List (Turn Call) → Prop
  | [] => True
  | turn :: rest => cfg.Admits sys allows turn ∧ (cfg.turn sys turn).Plays rest

variable {sys allows}

/-- The sections of one call in a row are a run. -/
theorem exec_run {call : Call} {p : Program State (Reply call)} {s : State}
    (permits : p.Permits (allows call) s) (before : List (Task State Reply)) :
    Run sys allows ⟨s, before ++ [⟨call, p⟩]⟩
      ⟨(p.exec s).2, before ++ [⟨call, .done (p.exec s).1⟩]⟩ := by
  have last (q : Program State (Reply call)) :
      (before ++ [(⟨call, q⟩ : Task State Reply)])[before.length]? = some ⟨call, q⟩ := by simp
  have replaced (q q' : Program State (Reply call)) :
      (before ++ [(⟨call, q⟩ : Task State Reply)]).set before.length ⟨call, q'⟩ =
        before ++ [⟨call, q'⟩] := by simp
  induction p generalizing s with
  | done result => exact .refl
  | read next ih =>
    refine Relation.ReflTransGen.head (Step.read (last _)) ?_
    rw [replaced]
    exact ih s permits
  | write update next ih =>
    refine Relation.ReflTransGen.head (Step.write (last _) permits.1) ?_
    rw [replaced]
    exact ih s permits.2

theorem turn_run {cfg : Config State Reply} {turn : Turn Call}
    (admits : cfg.Admits sys allows turn) : Run sys allows cfg (cfg.turn sys turn) := by
  cases turn with
  | alone call =>
    exact Relation.ReflTransGen.head (Step.enter admits.1) (exec_run admits.2 _)
  | enter call => exact .single (Step.enter admits)
  | advance i =>
    unfold Config.turn
    dsimp only
    split
    · next running => exact .single (Step.read running)
    · next running => exact .single (Step.write running (admits _ _ _ running))
    · exact .refl
    · exact .refl

theorem play_run {cfg : Config State Reply} {turns : List (Turn Call)}
    (plays : cfg.Plays sys allows turns) : Run sys allows cfg (cfg.play sys turns) := by
  induction turns generalizing cfg with
  | nil => exact .refl
  | cons turn rest ih => exact (turn_run plays.1).trans (ih plays.2)

theorem plays_append {cfg : Config State Reply} {first second : List (Turn Call)} :
    cfg.Plays sys allows (first ++ second) ↔
      cfg.Plays sys allows first ∧ (cfg.play sys first).Plays sys allows second := by
  induction first generalizing cfg with
  | nil => simp [Config.Plays, Config.play]
  | cons turn rest ih =>
    simp only [List.cons_append, Config.Plays, ih, and_assoc]
    rfl

/-- The call a turn brings. -/
def Turn.call : Turn Call → Option Call
  | .alone call | .enter call => some call
  | .advance _ => none

theorem Config.turn_calls {cfg : Config State Reply} {turn : Turn Call} :
    (cfg.turn sys turn).tasks.map Task.call = cfg.tasks.map Task.call ++ turn.call.toList := by
  cases turn with
  | alone call => simp [Config.turn, Turn.call]
  | enter call => simp [Config.turn, Turn.call]
  | advance i =>
    unfold Config.turn
    dsimp only
    split
    · next call following running => simpa [Turn.call] using calls_set running (following cfg.shared)
    · next call update following running => simpa [Turn.call] using calls_set running (following cfg.shared)
    · simp [Turn.call]
    · simp [Turn.call]

/-- The calls of a schedule are its tasks, in their order. -/
theorem Config.play_calls {cfg : Config State Reply} {turns : List (Turn Call)} :
    (cfg.play sys turns).tasks.map Task.call = cfg.tasks.map Task.call ++ turns.filterMap Turn.call := by
  induction turns generalizing cfg with
  | nil => simp [Config.play]
  | cons turn rest ih =>
    have next : (cfg.play sys (turn :: rest)) = (cfg.turn sys turn).play sys rest := rfl
    rw [next, ih, Config.turn_calls]
    cases turn <;> simp [Turn.call, List.filterMap_cons]

/-- A task at a section under the write lock takes it. -/
theorem Config.turn_writes {cfg : Config State Reply} {i : Nat} {call : Call}
    {rest : Program State (Reply call)} (running : cfg.tasks[i]? = some ⟨call, rest⟩)
    (locks : rest.locks = true) : ∃ reply, cfg.Writes i call reply (cfg.turn sys (.advance i)) := by
  obtain ⟨update, next, rfl⟩ := Program.eq_write_of_locks locks
  refine ⟨_, update, next, running, ?_, rfl⟩
  simp only [Config.turn, running]

/-- The same of a task known by its call. -/
theorem Config.call_writes {cfg : Config State Reply} {i : Nat} {call : Call}
    (asked : (cfg.tasks.map Task.call)[i]? = some call)
    (locks : (cfg.tasks[i]?).any (fun task => task.rest.locks) = true) :
    ∃ reply, cfg.Writes i call reply (cfg.turn sys (.advance i)) := by
  rw [List.getElem?_map] at asked
  obtain ⟨task, running, rfl⟩ := Option.map_eq_some_iff.mp asked
  rw [running] at locks
  exact Config.turn_writes running locks

/-- A task that is not at a section under the write lock leaves the shared value. -/
theorem Config.turn_idle {cfg : Config State Reply} {i : Nat} {call : Call}
    {rest : Program State (Reply call)} (running : cfg.tasks[i]? = some ⟨call, rest⟩)
    (idle : rest.locks = false) : (cfg.turn sys (.advance i)).shared = cfg.shared := by
  cases rest with
  | done result => simp only [Config.turn, running]
  | read next => simp only [Config.turn, running]
  | write update next => cases idle

/-- A task whose last section is next takes it and answers. -/
theorem Config.turn_answers {cfg : Config State Reply} {i : Nat} {call : Call}
    {rest : Program State (Reply call)} {good : Reply call → Bool}
    (running : cfg.tasks[i]? = some ⟨call, rest⟩)
    (answers : (rest.answerAtLock cfg.shared).any good = true) :
    ∃ reply, good reply = true ∧ cfg.Writes i call (some reply) (cfg.turn sys (.advance i)) := by
  cases rest with
  | done result => cases answers
  | read next => cases answers
  | write update next =>
    obtain ⟨reply, answer, fits⟩ := (Option.any_eq_true _ _).mp answers
    refine ⟨reply, fits, update, next, running, ?_, answer.symm⟩
    simp only [Config.turn, running]

/-- The same of a task known by its call. -/
theorem Config.call_answers {cfg : Config State Reply} {i : Nat} {call : Call} {good : (call : Call) → Reply call → Bool}
    (asked : (cfg.tasks.map Task.call)[i]? = some call)
    (answers : (cfg.tasks[i]?).any (fun task => (task.rest.answerAtLock cfg.shared).any (good task.call)) = true) :
    ∃ reply, good call reply = true ∧ cfg.Writes i call (some reply) (cfg.turn sys (.advance i)) := by
  rw [List.getElem?_map] at asked
  obtain ⟨task, running, rfl⟩ := Option.map_eq_some_iff.mp asked
  rw [running] at answers
  exact Config.turn_answers running answers

end Schedules

end LockProgram
