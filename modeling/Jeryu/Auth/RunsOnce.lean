import Jeryu.Auth.Readings
import Jeryu.Auth.BotNames
import Jeryu.Core.Runs

/-!
What a client's reserved operation stands for: who starts it, who finishes it, and for how long its
record is kept.
-/

namespace Jeryu.Auth

open Jeryu.Core KeyedMap LockProgram

section Bots

variable {s s' : State}

/-- No bot is erased. -/
def BotsStay (s s' : State) : Prop := ∀ id, (s.bots.lookup id).isSome → (s'.bots.lookup id).isSome

theorem botsStay_same (same : s'.bots = s.bots) : BotsStay s s' := fun id known => by rwa [same]

theorem SameBots.stay (same : SameBots s s') : BotsStay s s' := by
  intro id known
  have names := congrArg Option.isSome (same id)
  rw [Option.isSome_map, Option.isSome_map] at names
  rwa [names]

theorem Enrolled.stay {slug team : String → Prop} (enrolled : Enrolled slug team s s') : BotsStay s s' := by
  cases enrolled with
  | kept same => exact same.stay
  | added bot stored named fresh owned =>
    intro id known
    rw [stored, HashMap.lookup_insert_if]
    split
    · rfl
    · exact known

end Bots

section Records

variable {botId : Uuid} {operation requestKey : String} {s s' s'' : State} {now : DateTime}

/-- The record of a client's operation. -/
def operationAt (botId : Uuid) (operation requestKey : String) (s : State) :
    Option BotOperationRecord :=
  s.auth.botOperations.lookup (botId, operation, .plain requestKey)

/-- The records of clients' operations, each under its own name and of a bot that is there. -/
def OperationsSound (s : State) : Prop := ∀ botId operation requestKey record,
  operationAt botId operation requestKey s = some record →
    record.operation = operation ∧ operation ≠ refreshOperation ∧ (s.bots.lookup botId).isSome

/-- A record is kept for a day, however often the table is pruned. -/
theorem operationAt_prune (sound : OperationsSound s) :
    operationAt botId operation requestKey (s.pruneBotOperations now) =
      (operationAt botId operation requestKey s).filter fun record =>
        now ≤ record.createdAt + operationTtl := by
  unfold operationAt State.pruneBotOperations State.withOperations
  dsimp only
  rw [HashMap.lookup_retain]
  cases found : s.auth.botOperations.lookup (botId, operation, .plain requestKey) with
  | none => rfl
  | some record =>
    obtain ⟨named, plain, -⟩ := sound botId operation requestKey record found
    have clients : record.operation ≠ refreshOperation := named ▸ plain
    have bound : now - operationTtl ≤ record.createdAt ↔ now ≤ record.createdAt + operationTtl :=
      ⟨fun kept => Int.le_add_of_sub_right_le kept, fun kept => Int.sub_right_le_of_le_add kept⟩
    simp only [Option.filter_some, if_neg clients, ge_iff_le, bound]

/-- What a section does to the record of one operation. -/
inductive OperationMoves (botId : Uuid) (operation requestKey : String) (s s' : State) (now : DateTime) :
    (call : Call) → Option call.Reply → Prop where
  | stays {call reply}
      (same : operationAt botId operation requestKey s' = operationAt botId operation requestKey s) :
      OperationMoves botId operation requestKey s s' now call reply
  | lapsed {call reply record} (found : operationAt botId operation requestKey s = some record)
      (old : record.createdAt + operationTtl < now)
      (gone : operationAt botId operation requestKey s' = none) :
      OperationMoves botId operation requestKey s s' now call reply
  | started {bodyDigest record}
      (stored : operationAt botId operation requestKey s' = some record)
      (known : (s.bots.lookup botId).isSome) (plain : operation ≠ refreshOperation)
      (free : ∀ past, operationAt botId operation requestKey s = some past →
        past.createdAt + operationTtl < now)
      (named : record.operation = operation) (asked : record.bodyDigest = bodyDigest)
      (unfinished : record.result = none) (read : record.createdAt ≤ now) :
      OperationMoves botId operation requestKey s s' now
        (.reserveBotOperation botId operation requestKey bodyDigest) (some (.ok .start))
  | finished {result isJson record} (found : operationAt botId operation requestKey s = some record)
      (unfinished : record.result = none)
      (stored : operationAt botId operation requestKey s' =
        some { record with result := some (.json result) }) :
      OperationMoves botId operation requestKey s s' now
        (.finishBotOperation botId operation requestKey result isJson) (some (.ok ()))

theorem Within.operationAt {tables : List Table} (within : Within tables s s')
    (outside : Table.botOperations ∉ tables) :
    operationAt botId operation requestKey s' = operationAt botId operation requestKey s :=
  congrArg (·.lookup (botId, operation, .plain requestKey)) (within .botOperations outside)

/-- What a pruned table has lost is older than a day. -/
theorem lapsed_of_pruned (sound : OperationsSound s) {earlier : DateTime} (behind : earlier ≤ now)
    (absent : operationAt botId operation requestKey (s.pruneBotOperations earlier) = none)
    {past : BotOperationRecord} (found : operationAt botId operation requestKey s = some past) :
    past.createdAt + operationTtl < now := by
  rw [operationAt_prune sound, found, Option.filter_some] at absent
  have old : ¬earlier ≤ past.createdAt + operationTtl := fun kept => by
    rw [if_pos (by simpa using kept)] at absent
    cases absent
  exact (not_le.mp old).trans_le behind

/-- A pruned table has lost the records older than a day only. -/
theorem prune_moves (sound : OperationsSound s) {earlier : DateTime} (behind : earlier ≤ now)
    (call : Call) (reply : Option call.Reply) (pruned : operationAt botId operation requestKey s' =
      operationAt botId operation requestKey (s.pruneBotOperations earlier)) :
    OperationMoves botId operation requestKey s s' now call reply := by
  rw [operationAt_prune sound] at pruned
  cases found : operationAt botId operation requestKey s with
  | none =>
    rw [found] at pruned
    exact .stays (pruned.trans found.symm)
  | some record =>
    rw [found, Option.filter_some] at pruned
    by_cases kept : earlier ≤ record.createdAt + operationTtl
    · rw [if_pos (by simpa using kept)] at pruned
      exact .stays (pruned.trans found.symm)
    · rw [if_neg (by simpa using kept)] at pruned
      exact .lapsed found ((not_le.mp kept).trans_le behind) pruned

end Records

section Sections

variable {core : ForgeCore} {botId : Uuid} {operation requestKey : String}

/-- What the answer of a client's reservation is when its record is there. -/
def gateOf (record : BotOperationRecord) : BotOperationGate :=
  match record.result with
  | some result => .replay result
  | none => .inProgress

/-- The record a reservation stores. -/
def reserved (botId : Uuid) (operation requestKey bodyDigest : String) (now : DateTime) :
    BotOperationRecord :=
  { botId, operation, requestKey := .plain requestKey, bodyDigest, result := none, createdAt := now }

/-- The ways a reservation ends. -/
inductive Reserves (core : ForgeCore) (botId : Uuid) (operation requestKey bodyDigest : String)
    (now : DateTime) : Core.Outcome BotOperationGate → Prop where
  | unknown (absent : core.state.bots.lookup botId = none) (error : ForgeError)
      (other : error ≠ .conflict "idempotency_conflict") :
      Reserves core botId operation requestKey bodyDigest now (.refuse error)
  | differs (known : (core.state.bots.lookup botId).isSome) (record : BotOperationRecord)
      (found : operationAt botId operation requestKey (core.state.pruneBotOperations now) = some record)
      (other : record.bodyDigest ≠ bodyDigest) :
      Reserves core botId operation requestKey bodyDigest now (.refuse (.conflict "idempotency_conflict"))
  | found (known : (core.state.bots.lookup botId).isSome) (record : BotOperationRecord)
      (found : operationAt botId operation requestKey (core.state.pruneBotOperations now) = some record)
      (same : record.bodyDigest = bodyDigest) :
      Reserves core botId operation requestKey bodyDigest now
        (.direct [] (core.state.pruneBotOperations now) (gateOf record))
  | free (known : (core.state.bots.lookup botId).isSome)
      (absent : operationAt botId operation requestKey (core.state.pruneBotOperations now) = none) :
      Reserves core botId operation requestKey bodyDigest now
        (.commit [] 0 ((core.state.pruneBotOperations now).withOperations fun rows =>
          rows.insert (botId, operation, .plain requestKey)
            (reserved botId operation requestKey bodyDigest now)) none .start)

theorem reserveBotOperationLocked_reserves {bodyDigest : String} {now : DateTime} :
    Reserves core botId operation requestKey bodyDigest now
      (reserveBotOperationLocked botId operation requestKey bodyDigest now core) := by
  unfold reserveBotOperationLocked
  cases known : core.state.bots.lookup botId with
  | none =>
    rw [Option.isNone_none, if_pos rfl]
    exact .unknown known _ fun same => nomatch same
  | some bot =>
    have stored : (core.state.bots.lookup botId).isSome := by rw [known]; rfl
    rw [if_neg (by simp)]
    dsimp only
    cases found : (core.state.pruneBotOperations now).auth.botOperations.lookup
        (botId, operation, RequestKey.plain requestKey) with
    | none => exact .free stored found
    | some record =>
      dsimp only
      by_cases same : record.bodyDigest = bodyDigest
      · rw [if_neg (not_not.mpr same)]
        have ends : Reserves core botId operation requestKey bodyDigest now
            (.direct [] (core.state.pruneBotOperations now) (gateOf record)) :=
          .found stored record found same
        unfold gateOf at ends
        cases result : record.result with
        | none => simpa [result] using ends
        | some result => simpa [result] using ends
      · rw [if_pos same]
        exact .differs stored record found same

end Sections

section Moves

variable {core core' : ForgeCore} {botId : Uuid} {operation requestKey : String} {since : DateTime}

theorem operationAt_insert {s : State} {other : Uuid} {operation' requestKey' : String}
    {record : BotOperationRecord} : operationAt botId operation requestKey
        (s.withOperations fun rows => rows.insert (other, operation', .plain requestKey') record) =
      if botId = other ∧ operation = operation' ∧ requestKey = requestKey' then some record
      else operationAt botId operation requestKey s := by
  unfold operationAt State.withOperations
  dsimp only
  rw [HashMap.lookup_insert_if]
  simp only [Prod.mk.injEq, RequestKey.plain.injEq]

theorem reserveBotOperation_moves {other : Uuid} {operation' requestKey' bodyDigest : String}
    {now : DateTime} (sound : OperationsSound core.state) (plain : operation' ≠ refreshOperation)
    (behind : now ≤ core.now) : OperationMoves botId operation requestKey core.state
      ((reserveBotOperationLocked other operation' requestKey' bodyDigest now core).leaves core).state
      core.now (.reserveBotOperation other operation' requestKey' bodyDigest)
      (some ((reserveBotOperationLocked other operation' requestKey' bodyDigest now core).answers
        core)) := by
  have ends := @reserveBotOperationLocked_reserves core other operation' requestKey' bodyDigest now
  generalize reserveBotOperationLocked other operation' requestKey' bodyDigest now core = outcome at ends
  cases ends with
  | unknown absent error => exact .stays rfl
  | differs known record found different => exact .stays rfl
  | found known record found same => exact prune_moves sound behind _ _ rfl
  | free known absent =>
    rcases commit_ends core [] 0 ((core.state.pruneBotOperations now).withOperations fun rows =>
      rows.insert (other, operation', .plain requestKey')
        (reserved other operation' requestKey' bodyDigest now)) none BotOperationGate.start with
      ⟨error, -, kept, -⟩ | ⟨stored, -, answered⟩
    · rw [kept]
      exact .stays rfl
    · rw [stored, answered]
      by_cases here : botId = other ∧ operation = operation' ∧ requestKey = requestKey'
      · obtain ⟨rfl, rfl, rfl⟩ := here
        refine .started (operationAt_insert.trans (if_pos ⟨rfl, rfl, rfl⟩)) known plain
          (fun past found => lapsed_of_pruned sound behind absent found) rfl rfl rfl behind
      · refine prune_moves sound behind _ _ ?_
        rw [operationAt_insert, if_neg here]

theorem finishBotOperation_moves {other : Uuid} {operation' requestKey' result : String}
    {isJson : Bool} : OperationMoves botId operation requestKey core.state
      ((finishBotOperationLocked other operation' requestKey' result core).leaves core).state core.now
      (.finishBotOperation other operation' requestKey' result isJson)
      (some ((finishBotOperationLocked other operation' requestKey' result core).answers core)) := by
  unfold finishBotOperationLocked
  dsimp only
  cases found : core.state.auth.botOperations.lookup (other, operation', RequestKey.plain requestKey') with
  | none => exact .stays rfl
  | some record =>
    dsimp only
    by_cases finished : record.result.isSome = true
    · rw [if_pos finished]
      exact .stays rfl
    · rw [if_neg finished]
      rcases commit_ends core [] 0 (core.state.withOperations fun rows =>
        rows.insert (other, operation', .plain requestKey') { record with result := some (.json result) })
        none () with ⟨error, -, kept, -⟩ | ⟨stored, -, answered⟩
      · rw [kept]
        exact .stays rfl
      · rw [stored, answered]
        by_cases here : botId = other ∧ operation = operation' ∧ requestKey = requestKey'
        · obtain ⟨rfl, rfl, rfl⟩ := here
          refine .finished found (by simpa using finished) ?_
          rw [operationAt_insert, if_pos ⟨rfl, rfl, rfl⟩]
        · refine .stays ?_
          rw [operationAt_insert, if_neg here]

theorem rotateIdempotent_operations {vaultKey : Option String} {presented : Digest}
    {requestKey' bodyDigest : String} {random : Except ForgeError Unit} {now : DateTime} :
    operationAt botId operation requestKey ((rotateIdempotentLocked vaultKey presented requestKey'
      bodyDigest random now core).leaves core).state = operationAt botId operation requestKey core.state := by
  refine Outcome.Ends.leaves (H := fun s => operationAt botId operation requestKey s =
    operationAt botId operation requestKey core.state)
    (rotateIdempotentLocked_ends.mono fun _ next _ made => ?_) rfl
  obtain ⟨existing, -, ⟨-, left⟩ | ⟨bot, key, vault, -, -, -, -, -, rfl⟩⟩ := made
  · exact left.within.operationAt (by decide)
  · have noted {s : State} : operationAt botId operation requestKey (s.noteAuth bot.id now) =
        operationAt botId operation requestKey s := noteAuth_within.operationAt (by decide)
    have spent : operationAt botId operation requestKey (succeeded core presented now bot key).2 =
        operationAt botId operation requestKey core.state := succeeded_within.operationAt (by decide)
    rw [noted, ← spent]
    unfold operationAt State.withOperations refreshOperationKey
    dsimp only
    rw [HashMap.lookup_insert_if, if_neg]
    simp

theorem Call.untimed_operations {call : Call} (quiet : call.timed = false) :
    Table.botOperations ∉ call.tables := by
  cases call <;> first | (simp [Call.tables, credentialTables]; done) | simp [Call.timed] at quiet

/-- The record of one operation changes in three ways only. -/
theorem Timely.operationMoves {call : Call} {reply : Option call.Reply}
    (moved : Timely since call core core' reply) (sound : OperationsSound core.state) :
    OperationMoves botId operation requestKey core.state core'.state core.now call reply := by
  have within := moved.within
  cases moved with
  | untimed quiet moved => exact .stays (within.operationAt (Call.untimed_operations quiet))
  | receipt audited same drawn clock => exact .stays (by rw [same])
  | reserveBotOperation plain now after behind => exact reserveBotOperation_moves sound plain behind
  | finishBotOperation plain => exact finishBotOperation_moves
  | rotateBotRefreshTokenIdempotent now after behind pruned prunes =>
    have first := congrArg ForgeCore.state prunes
    unfold pruneForRefresh at first
    dsimp only at first
    split at first
    · refine prune_moves sound behind _ _ ?_
      rw [rotateIdempotent_operations, first]
    · refine .stays ?_
      rw [rotateIdempotent_operations, first]
  | _ => exact .stays (within.operationAt (by simp [Call.tables, credentialTables]))

end Moves

section Runs

variable {pool pool' : Pool} {botId : Uuid} {operation requestKey : String}

theorem operationsSound_moved {s s' : State} (sound : OperationsSound s) (bots : BotsStay s s')
    {now : DateTime} {call : Call} {reply : Option call.Reply}
    (moves : ∀ botId operation requestKey,
      OperationMoves botId operation requestKey s s' now call reply) : OperationsSound s' := by
  intro botId operation requestKey record found
  have kept (past : BotOperationRecord) (before : operationAt botId operation requestKey s = some past) :
      past.operation = operation ∧ operation ≠ refreshOperation ∧ (s'.bots.lookup botId).isSome := by
    obtain ⟨named, plain, known⟩ := sound _ _ _ _ before
    exact ⟨named, plain, bots _ known⟩
  have moves := moves botId operation requestKey
  cases moves with
  | stays same => exact kept record (same ▸ found)
  | lapsed before old gone =>
    rw [gone] at found
    cases found
  | started stored known plain free named asked unfinished read =>
    cases stored.symm.trans found
    exact ⟨named, plain, bots _ known⟩
  | finished before unfinished stored =>
    cases stored.symm.trans found
    exact (kept _ before :)

theorem operationsSound_step {allows : Call → (ForgeCore → ForgeCore) → ForgeCore → Prop}
    (moved : Moved (accounts forward) allows InTime pool pool')
    (sound : OperationsSound pool.shared.state) : OperationsSound pool'.shared.state := by
  cases moved with
  | stays same => rwa [same]
  | ambient moved =>
    intro botId operation requestKey record found
    unfold operationAt at found
    rw [moved.auth] at found
    rw [moved.bots]
    exact sound _ _ _ _ found
  | writes i call reply writes allowed keeps =>
    obtain ⟨since, timely⟩ := keeps
    have bots : BotsStay pool.shared.state pool'.shared.state := by
      rcases timely.section with moved | ⟨same, -⟩
      · exact moved.enrolled.stay
      · exact botsStay_same (congrArg State.bots same)
    exact operationsSound_moved sound bots fun _ _ _ => timely.operationMoves sound

theorem Pool.ForwardReachable.operationsSound (reachable : pool.ForwardReachable) :
    OperationsSound pool.shared.state := by
  obtain ⟨start, initial, run⟩ := reachable
  refine accounts_paced.keeps (I := fun pool => OperationsSound pool.shared.state)
    (fun _ _ sound _ _ moved => operationsSound_step moved sound) run initial.onPace ?_
  intro botId operation requestKey record found
  rw [initial.1] at found
  cases found

/-- What a step does to the record of one operation. -/
theorem Pool.ForwardReachable.moves (reachable : pool.ForwardReachable) {i : Nat} {call : Call}
    {reply : Option call.Reply} (writes : pool.Writes i call reply pool') (botId : Uuid)
    (operation requestKey : String) :
    OperationMoves botId operation requestKey pool.shared.state pool'.shared.state pool.shared.now call
      reply := by
  obtain ⟨since, timely⟩ := reachable.onPace.writes ahead_refl writes
  exact timely.operationMoves reachable.operationsSound

/-- A reservation answers as its one section ends. -/
theorem Timely.reserves {since : DateTime} {core core' : ForgeCore} {bodyDigest : String}
    {reply : Option (Call.Reply (.reserveBotOperation botId operation requestKey bodyDigest))}
    (moved : Timely since (.reserveBotOperation botId operation requestKey bodyDigest) core core' reply) :
    ∃ now outcome, since ≤ now ∧ now ≤ core.now ∧
      Reserves core botId operation requestKey bodyDigest now outcome ∧ core' = outcome.leaves core ∧
      reply = some (outcome.answers core) := by
  cases moved with
  | untimed quiet moved => cases quiet
  | receipt audited same drawn clock => cases audited
  | reserveBotOperation plain now after behind =>
    exact ⟨now, _, after, behind, reserveBotOperationLocked_reserves, rfl, rfl⟩

/-- A replay is the stored result, asked for by the same body. -/
theorem Pool.ForwardReachable.replays (reachable : pool.ForwardReachable) {i : Nat}
    {bodyDigest : String} {result : OperationResult}
    (writes : pool.Writes i (.reserveBotOperation botId operation requestKey bodyDigest)
      (some (.ok (.replay result))) pool') :
    ∃ record, operationAt botId operation requestKey pool.shared.state = some record ∧
      record.bodyDigest = bodyDigest ∧ record.result = some result := by
  obtain ⟨since, timely⟩ := reachable.onPace.writes ahead_refl writes
  obtain ⟨now, outcome, -, -, ends, -, replied⟩ := timely.reserves
  have answered := (Option.some.inj replied).symm
  cases ends with
  | unknown absent error => cases answered
  | differs known record found different => cases answered
  | free known absent =>
    rcases commit_ends pool.shared [] 0 _ none BotOperationGate.start with
      ⟨error, -, -, failed⟩ | ⟨-, -, ok⟩
    · rw [failed] at answered
      cases answered
    · rw [ok] at answered
      cases answered
  | found known record found same =>
    have gate : gateOf record = .replay result := Except.ok.inj answered
    rw [operationAt_prune reachable.operationsSound] at found
    refine ⟨record, (Option.filter_eq_some_iff.mp found).1, same, ?_⟩
    unfold gateOf at gate
    cases stored : record.result with
    | none =>
      rw [stored] at gate
      cases gate
    | some result' =>
      rw [stored] at gate
      exact congrArg some (BotOperationGate.replay.inj gate)

/-- While the record is kept, another body is refused, and changes nothing. -/
theorem Pool.ForwardReachable.conflicts (reachable : pool.ForwardReachable) {i : Nat}
    {bodyDigest : String} {record : BotOperationRecord}
    {reply : Option (Call.Reply (.reserveBotOperation botId operation requestKey bodyDigest))}
    (writes : pool.Writes i (.reserveBotOperation botId operation requestKey bodyDigest) reply pool')
    (found : operationAt botId operation requestKey pool.shared.state = some record)
    (other : record.bodyDigest ≠ bodyDigest)
    (young : pool.shared.now ≤ record.createdAt + operationTtl) :
    reply = some (.error (.error (.conflict "idempotency_conflict"))) ∧ pool'.shared = pool.shared := by
  have sound := reachable.operationsSound
  obtain ⟨since, timely⟩ := reachable.onPace.writes ahead_refl writes
  obtain ⟨now, outcome, -, behind, ends, left, rfl⟩ := timely.reserves
  have kept : operationAt botId operation requestKey (pool.shared.state.pruneBotOperations now) =
      some record := by
    rw [operationAt_prune sound, found, Option.filter_some,
      if_pos (by simpa using behind.trans young)]
  cases ends with
  | unknown absent error =>
    have known := (sound _ _ _ _ found).2.2
    rw [absent] at known
    cases known
  | differs known record found different => exact ⟨rfl, left⟩
  | free known absent => cases absent.symm.trans kept
  | found known record' found' same =>
    cases found'.symm.trans kept
    exact absurd same other

/-- A finished record stays as it is for a day from its start. -/
theorem Pool.ForwardReachable.stays (reachable : pool.ForwardReachable) (run : ForwardRuns pool pool')
    {record : BotOperationRecord} {result : OperationResult}
    (found : operationAt botId operation requestKey pool.shared.state = some record)
    (finished : record.result = some result)
    (young : pool'.shared.now ≤ record.createdAt + operationTtl) :
    operationAt botId operation requestKey pool'.shared.state = some record := by
  induction run with
  | refl => exact found
  | @tail mid last before step ih =>
    have here := reachable.step before
    have ahead := here.ahead (.single step)
    have stored := ih (ahead.trans young)
    have kept (past : BotOperationRecord)
        (same : operationAt botId operation requestKey mid.shared.state = some past) : past = record :=
      Option.some.inj (same.symm.trans stored)
    cases accounts_paced.moved step here.onPace with
    | stays same => rw [same, stored]
    | ambient moved =>
      unfold operationAt at stored ⊢
      rw [moved.auth, stored]
    | writes i call reply writes allowed keeps =>
      have moves := here.moves writes botId operation requestKey
      cases moves with
      | stays same => exact same.trans stored
      | lapsed before old gone =>
        rw [kept _ before] at old
        exact absurd (ahead.trans young) (not_le.mpr old)
      | started _ known plain free named asked unfinished read =>
        exact absurd (ahead.trans young) (not_le.mpr (free _ stored))
      | finished before unfinished _ =>
        rw [kept _ before, finished] at unfinished
        cases unfinished

end Runs

section Origins

variable {pool pool' : Pool} {botId : Uuid} {operation requestKey : String}

/-- A reservation is answered that its client is to run the operation. -/
def Starts (botId : Uuid) (operation requestKey bodyDigest : String) (pool pool' : Pool) : Prop :=
  ∃ i, pool.Writes i (.reserveBotOperation botId operation requestKey bodyDigest) (some (.ok .start)) pool'

/-- A client's result is taken. -/
def Finishes (botId : Uuid) (operation requestKey result : String) (pool pool' : Pool) : Prop :=
  ∃ i isJson, pool.Writes i (.finishBotOperation botId operation requestKey result isJson)
    (some (.ok ())) pool'

/-- A section that leaves the record of the operation alone. -/
def leavesRecord (botId : Uuid) (operation requestKey : String) (_ : Call)
    (update : ForgeCore → ForgeCore) (core : ForgeCore) : Prop :=
  operationAt botId operation requestKey (update core).state =
    operationAt botId operation requestKey core.state

/-- A run whose sections all do. -/
abbrev KeptRuns (botId : Uuid) (operation requestKey : String) (pool pool' : Pool) : Prop :=
  Run (accounts forward) (leavesRecord botId operation requestKey) pool pool'

/-- The Start that created a record, and the one finish its result came with. -/
inductive Origin (botId : Uuid) (operation requestKey : String) (pool : Pool)
    (record : BotOperationRecord) : Prop where
  | started {created created' : Pool} (reachable : created.ForwardReachable)
      (start : Starts botId operation requestKey record.bodyDigest created created')
      (kept : KeptRuns botId operation requestKey created' pool) (unfinished : record.result = none)
  | finished {created created' ended ended' : Pool} {result : String}
      (reachable : created.ForwardReachable)
      (start : Starts botId operation requestKey record.bodyDigest created created')
      (running : KeptRuns botId operation requestKey created' ended)
      (finish : Finishes botId operation requestKey result ended ended')
      (kept : KeptRuns botId operation requestKey ended' pool)
      (taken : record.result = some (.json result))

theorem keptStep (step : Step (accounts forward) anySection pool pool')
    (same : operationAt botId operation requestKey pool'.shared.state =
      operationAt botId operation requestKey pool.shared.state) :
    Step (accounts forward) (leavesRecord botId operation requestKey) pool pool' := by
  cases step with
  | enter admitted => exact .enter admitted
  | read running => exact .read running
  | write running allowed => exact .write running same
  | ambient moved => exact .ambient moved

theorem Origin.step {record : BotOperationRecord} (origin : Origin botId operation requestKey pool record)
    (step : Step (accounts forward) anySection pool pool')
    (same : operationAt botId operation requestKey pool'.shared.state =
      operationAt botId operation requestKey pool.shared.state) :
    Origin botId operation requestKey pool' record := by
  cases origin with
  | started reachable start kept unfinished =>
    exact .started reachable start (kept.tail (keptStep step same)) unfinished
  | finished reachable start running finish kept taken =>
    exact .finished reachable start running finish (kept.tail (keptStep step same)) taken

/-- Every record goes back to a Start, and its result to the finish that followed. -/
theorem origin_of_run {start : Pool} (initial : start.Initial) (run : ForwardRuns start pool) :
    ∀ record, operationAt botId operation requestKey pool.shared.state = some record →
      Origin botId operation requestKey pool record := by
  induction run with
  | refl =>
    intro record found
    rw [initial.1] at found
    cases found
  | @tail mid last before step ih =>
    have reachable : mid.ForwardReachable := ⟨start, initial, before⟩
    have kept (same : operationAt botId operation requestKey last.shared.state =
        operationAt botId operation requestKey mid.shared.state) (record : BotOperationRecord)
        (found : operationAt botId operation requestKey last.shared.state = some record) :
        Origin botId operation requestKey last record :=
      (ih record (same ▸ found)).step step same
    cases accounts_paced.moved step reachable.onPace with
    | stays same => exact kept (by rw [same])
    | ambient moved =>
      exact kept (congrArg (·.botOperations.lookup (botId, operation, .plain requestKey)) moved.auth)
    | writes i call reply writes allowed keeps =>
      intro record found
      have moves := reachable.moves writes botId operation requestKey
      cases moves with
      | stays same => exact kept same record found
      | lapsed past old gone =>
        rw [gone] at found
        cases found
      | started stored known plain free named asked unfinished read =>
        cases stored.symm.trans found
        exact .started reachable (asked ▸ ⟨i, writes⟩) .refl unfinished
      | finished past unfinished stored =>
        cases stored.symm.trans found
        cases ih _ past with
        | started created start running open_ =>
          exact .finished created start running ⟨i, _, writes⟩ .refl rfl
        | finished created start running finish kept taken =>
          rw [unfinished] at taken
          cases taken

/-- A started operation is recorded under what its call read of the clock, and no record of the last
    day was there. -/
theorem Timely.starts {since : DateTime} {core core' : ForgeCore} {bodyDigest : String}
    (moved : Timely since (.reserveBotOperation botId operation requestKey bodyDigest) core core'
      (some (.ok .start))) (sound : OperationsSound core.state) :
    (∀ past, operationAt botId operation requestKey core.state = some past →
      past.createdAt + operationTtl < core.now) ∧
    ∃ record, operationAt botId operation requestKey core'.state = some record ∧
      since ≤ record.createdAt := by
  obtain ⟨now, outcome, after, behind, ends, rfl, replied⟩ := moved.reserves
  have answered := (Option.some.inj replied).symm
  cases ends with
  | unknown absent error => cases answered
  | differs known record found different => cases answered
  | found known record found same =>
    have gate : gateOf record = .start := Except.ok.inj answered
    unfold gateOf at gate
    cases stored : record.result with
    | none =>
      rw [stored] at gate
      cases gate
    | some result =>
      rw [stored] at gate
      cases gate
  | free known absent =>
    rcases commit_ends core [] 0 ((core.state.pruneBotOperations now).withOperations fun rows =>
      rows.insert (botId, operation, .plain requestKey)
        (reserved botId operation requestKey bodyDigest now)) none BotOperationGate.start with
      ⟨error, -, -, failed⟩ | ⟨stored, -, -⟩
    · rw [failed] at answered
      cases answered
    · rw [stored]
      exact ⟨fun past found => lapsed_of_pruned sound behind absent found, _,
        operationAt_insert.trans (if_pos ⟨rfl, rfl, rfl⟩), after⟩

/-- A day has passed, or a record no older is there. -/
def DayPassedOr (botId : Uuid) (operation requestKey : String) (since : DateTime) (core : ForgeCore) :
    Prop :=
  since + operationTtl < core.now ∨
    ∃ record, operationAt botId operation requestKey core.state = some record ∧ since ≤ record.createdAt

theorem dayPassedOr_step {since : DateTime} (reachable : pool.ForwardReachable)
    (step : Step (accounts forward) anySection pool pool')
    (holds : DayPassedOr botId operation requestKey since pool.shared) :
    DayPassedOr botId operation requestKey since pool'.shared := by
  have ahead : pool.shared.now ≤ pool'.shared.now := reachable.ahead (.single step)
  rcases holds with passed | ⟨record, stored, young⟩
  · exact .inl (passed.trans_le ahead)
  · have kept (same : operationAt botId operation requestKey pool'.shared.state =
        operationAt botId operation requestKey pool.shared.state) :
        DayPassedOr botId operation requestKey since pool'.shared :=
      .inr ⟨record, same.trans stored, young⟩
    have spent (past : BotOperationRecord)
        (same : operationAt botId operation requestKey pool.shared.state = some past)
        (old : past.createdAt + operationTtl < pool.shared.now) :
        DayPassedOr botId operation requestKey since pool'.shared := by
      cases same.symm.trans stored
      exact .inl ((Int.add_le_add_right young _).trans_lt (old.trans_le ahead))
    cases accounts_paced.moved step reachable.onPace with
    | stays same => exact kept (by rw [same])
    | ambient moved =>
      exact kept (congrArg (·.botOperations.lookup (botId, operation, .plain requestKey)) moved.auth)
    | writes i call reply writes allowed keeps =>
      have moves := reachable.moves writes botId operation requestKey
      cases moves with
      | stays same => exact kept same
      | lapsed past old gone => exact spent _ past old
      | started _ known plain free named asked unfinished read => exact spent _ stored (free _ stored)
      | finished past unfinished taken =>
        cases past.symm.trans stored
        exact .inr ⟨_, taken, young⟩

/-- From when a client that starts the operation asked, nobody starts it again for a day. -/
theorem starts_apart {before later later' : Pool} {i : Nat} {bodyDigest bodyDigest' : String}
    (reachable : before.ForwardReachable) (run : ForwardRuns before pool)
    (entered : before.tasks.length ≤ i)
    (writes : pool.Writes i (.reserveBotOperation botId operation requestKey bodyDigest)
      (some (.ok .start)) pool')
    (after : ForwardRuns pool' later)
    (again : Starts botId operation requestKey bodyDigest' later later') :
    before.shared.now + operationTtl < later.shared.now := by
  have first : pool'.ForwardReachable :=
    (reachable.step run).step (.single (writes.step fun _ => True.intro))
  have held : DayPassedOr botId operation requestKey before.shared.now later.shared := by
    clear again
    induction after with
    | refl =>
      exact .inr ((reachable.timely run entered writes).starts (reachable.step run).operationsSound).2
    | @tail mid last run' step ih => exact dayPassedOr_step (first.step run') step ih
  rcases held with passed | ⟨record, stored, young⟩
  · exact passed
  · have here := first.step after
    obtain ⟨j, writes'⟩ := again
    obtain ⟨since, timely⟩ := here.onPace.writes ahead_refl writes'
    have old := (timely.starts here.operationsSound).1 record stored
    exact (Int.add_le_add_right young _).trans_lt old

/-- What a client may rely on when it reserves an operation, in any interleaving: nobody starts it
    twice in a day, a replay is the result the record of the last start was finished with, a kept
    record refuses another body, and a result taken stays. -/
theorem bot_operation_once (botId : Uuid) (operation requestKey : String) :
    (∀ before pool pool' later later' : Pool, ∀ i bodyDigest bodyDigest', before.ForwardReachable →
      ForwardRuns before pool → before.tasks.length ≤ i →
      pool.Writes i (.reserveBotOperation botId operation requestKey bodyDigest)
        (some (.ok .start)) pool' →
      ForwardRuns pool' later → Starts botId operation requestKey bodyDigest' later later' →
        before.shared.now + operationTtl < later.shared.now) ∧
    (∀ pool pool' : Pool, ∀ i bodyDigest result, pool.ForwardReachable →
      pool.Writes i (.reserveBotOperation botId operation requestKey bodyDigest)
        (some (.ok (.replay result))) pool' →
      ∃ created created' ended ended' : Pool, ∃ json, created.ForwardReachable ∧
        Starts botId operation requestKey bodyDigest created created' ∧
        KeptRuns botId operation requestKey created' ended ∧
        Finishes botId operation requestKey json ended ended' ∧
        KeptRuns botId operation requestKey ended' pool ∧ result = .json json) ∧
    (∀ pool pool' : Pool, ∀ i bodyDigest reply record, pool.ForwardReachable →
      pool.Writes i (.reserveBotOperation botId operation requestKey bodyDigest) reply pool' →
      operationAt botId operation requestKey pool.shared.state = some record →
      record.bodyDigest ≠ bodyDigest → pool.shared.now ≤ record.createdAt + operationTtl →
        reply = some (.error (.error (.conflict "idempotency_conflict"))) ∧
          pool'.shared = pool.shared) ∧
    (∀ pool pool' : Pool, ∀ record result, pool.ForwardReachable → ForwardRuns pool pool' →
      operationAt botId operation requestKey pool.shared.state = some record →
      record.result = some result → pool'.shared.now ≤ record.createdAt + operationTtl →
        operationAt botId operation requestKey pool'.shared.state = some record) := by
  refine ⟨?_, ?_, ?_, ?_⟩
  · intro before pool pool' later later' i bodyDigest bodyDigest' reachable run entered writes after again
    exact starts_apart reachable run entered writes after again
  · intro pool pool' i bodyDigest result reachable writes
    obtain ⟨record, found, same, taken⟩ := reachable.replays writes
    obtain ⟨start, initial, run⟩ := reachable
    cases origin_of_run initial run record found with
    | started created start kept unfinished =>
      rw [taken] at unfinished
      cases unfinished
    | finished created start running finish kept json =>
      rw [same] at start
      exact ⟨_, _, _, _, _, created, start, running, finish, kept,
        Option.some.inj (taken.symm.trans json)⟩
  · intro pool pool' i bodyDigest reply record reachable writes found other young
    exact reachable.conflicts writes found other young
  · intro pool pool' record result reachable run found finished young
    exact reachable.stays run found finished young

end Origins

section Demo

/-- The digest of a body. -/
def demoDigest : String := String.ofList (List.replicate 64 'a')

def reserveDeploy : Call := .reserveBotOperation 1 "deploy" "key-1" demoDigest

def finishDeploy : Call := .finishBotOperation 1 "deploy" "key-1" "\"first\"" true

def isStart : Except Failure BotOperationGate → Bool
  | .ok .start => true
  | _ => false

def isReplay (text : String) : Except Failure BotOperationGate → Bool
  | .ok (.replay (.json result)) => result = text
  | _ => false

def isDone : Except Failure Unit → Bool
  | .ok () => true
  | .error _ => false

/-- `ada` has enrolled a bot. -/
def prepared : Pool :=
  Config.play (accounts forward) ⟨.durable, []⟩
    [.alone (.createAccount "ada" "correct horse" .user (.ok "$argon2id$salt$correct horse")),
      .alone (.enrollBot "ada" "helper" "Helper" ⟨"grokbot", BotKind.grokbot_valid⟩ (.general none) "live" (.ok ()))]

def reserving : Pool := Config.play (accounts forward) prepared [.enter reserveDeploy, .advance 2]

/-- The operation is started, and its result about to be taken, when a day goes by. -/
def overtaken : Pool :=
  waited (Config.play (accounts forward) reserving [.advance 2, .enter finishDeploy]) (25 * hour)

/-- Another client starts the operation anew. -/
def reservingAgain : Pool :=
  Config.play (accounts forward) overtaken [.enter reserveDeploy, .advance 4]

def startedAgain : Pool := reservingAgain.turn (accounts forward) (.advance 4)

/-- The old result is taken, and asked for. -/
def replaying : Pool :=
  Config.play (accounts forward) startedAgain [.advance 3, .enter reserveDeploy, .advance 5]

theorem prepared_reachable : prepared.ForwardReachable := ⟨_, ⟨rfl, rfl⟩, played_forward⟩

theorem started_overtaken :
    ForwardRuns (reserving.turn (accounts forward) (.advance 2)) overtaken :=
  (@played_forward _ [.enter finishDeploy]).trans (waited_forward (by decide))

theorem overtaken_reachable : overtaken.ForwardReachable :=
  prepared_reachable.step ((@played_forward _ [.enter reserveDeploy, .advance 2, .advance 2]).trans
    started_overtaken)

theorem startedAgain_replaying : ForwardRuns startedAgain replaying := played_forward

section Turns

variable {pool : Pool} {i : Nat} {rest : Program ForgeCore reserveDeploy.Reply}

theorem reserve_starts (running : pool.tasks[i]? = some ⟨reserveDeploy, rest⟩)
    (answers : (rest.answerAtLock pool.shared).any isStart = true) :
    pool.Writes i reserveDeploy (some (.ok .start)) (pool.turn (accounts forward) (.advance i)) := by
  obtain ⟨reply, start, writes⟩ : ∃ reply, isStart reply = true ∧ pool.Writes i reserveDeploy
      (some reply) (pool.turn (accounts forward) (.advance i)) := Config.turn_answers running answers
  unfold isStart at start
  split at start
  · exact writes
  · cases start

theorem reserve_replays {text : String} (running : pool.tasks[i]? = some ⟨reserveDeploy, rest⟩)
    (answers : (rest.answerAtLock pool.shared).any (isReplay text) = true) :
    pool.Writes i reserveDeploy (some (.ok (.replay (.json text))))
      (pool.turn (accounts forward) (.advance i)) := by
  obtain ⟨reply, replays, writes⟩ : ∃ reply, isReplay text reply = true ∧ pool.Writes i reserveDeploy
      (some reply) (pool.turn (accounts forward) (.advance i)) := Config.turn_answers running answers
  unfold isReplay at replays
  split at replays
  · cases of_decide_eq_true replays
    exact writes
  · cases replays

end Turns

theorem reserving_starts : reserving.Writes 2 reserveDeploy (some (.ok .start))
    (reserving.turn (accounts forward) (.advance 2)) := reserve_starts rfl (by decide +kernel)

theorem reservingAgain_starts : reservingAgain.Writes 4 reserveDeploy (some (.ok .start)) startedAgain :=
  reserve_starts rfl (by decide +kernel)

theorem replaying_replays : replaying.Writes 5 reserveDeploy (some (.ok (.replay (.json "\"first\""))))
    (replaying.turn (accounts forward) (.advance 5)) := reserve_replays rfl (by decide +kernel)

theorem replaying_record :
    (operationAt 1 "deploy" "key-1" replaying.shared.state).map BotOperationRecord.createdAt =
      some startedAgain.shared.now := by
  decide +kernel

/-- Whoever finishes a record finishes it: the result of a client that started the operation a day
    ago, and is still about to hand it in when another client starts it anew, answers for the new
    start. -/
theorem old_holder_answers : ∃ created replayed : Pool, ∃ i rest,
    overtaken.ForwardReachable ∧ overtaken.tasks[3]? = some ⟨finishDeploy, rest⟩ ∧ rest.locks = true ∧
    ForwardRuns overtaken reservingAgain ∧ overtaken.tasks.length ≤ i ∧
    reservingAgain.Writes i reserveDeploy (some (.ok .start)) created ∧ ForwardRuns created replaying ∧
    (operationAt 1 "deploy" "key-1" replaying.shared.state).map BotOperationRecord.createdAt =
      some created.shared.now ∧
    replaying.Writes 5 reserveDeploy (some (.ok (.replay (.json "\"first\"")))) replayed ∧
    (replayed.tasks.map Task.call).drop 2 = [reserveDeploy, finishDeploy, reserveDeploy, reserveDeploy] :=
  ⟨startedAgain, _, 4, _, overtaken_reachable, rfl, by decide +kernel, played_forward, by decide +kernel,
    reservingAgain_starts, startedAgain_replaying, replaying_record, replaying_replays, rfl⟩

theorem bot_operation_once_demo :
    prepared.shared.now + operationTtl < reservingAgain.shared.now ∧
    ∃ created created' ended ended' : Pool, ∃ json, created.ForwardReachable ∧
      Starts 1 "deploy" "key-1" demoDigest created created' ∧
      KeptRuns 1 "deploy" "key-1" created' ended ∧ Finishes 1 "deploy" "key-1" json ended ended' ∧
      KeptRuns 1 "deploy" "key-1" ended' replaying ∧
      OperationResult.json "\"first\"" = OperationResult.json json := by
  have once := bot_operation_once 1 "deploy" "key-1"
  have later : ForwardRuns (reserving.turn (accounts forward) (.advance 2)) reservingAgain :=
    started_overtaken.trans played_forward
  have reachable : replaying.ForwardReachable :=
    overtaken_reachable.step ((@played_forward _ [.enter reserveDeploy, .advance 4, .advance 4]).trans
      startedAgain_replaying)
  exact ⟨once.1 prepared reserving _ reservingAgain startedAgain 2 demoDigest demoDigest
      prepared_reachable played_forward (by decide +kernel) reserving_starts later
      ⟨4, reservingAgain_starts⟩,
    once.2.1 replaying _ 5 demoDigest _ reachable replaying_replays⟩

end Demo

end Jeryu.Auth
