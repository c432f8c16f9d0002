import EpollServer.Core.Push

/-!
# Answered and Stored

When a push is answered although it was not stored.

The handlers answer whatever the database functions return, so a push is
answered only if stored exactly when no statement that stores it throws.

Two facts carry the equivalence. The log is truthful (`Truthful`): whatever a
function does, the successes it records are the outcomes the environment has
for its statements, in order. So a log that begins with the statements of a
stored push, all of them successful, says that these outcomes are successes.
And if they are, the functions go through without a `catch`, and the log
begins that way (`mysqlInsertRawDataSet_runs`).

## Main definitions

* `flags`: The successes recorded in a log.
* `Session.after`: A session with more events.
* `Truthful`: A log that agrees with the environment.
* `Logs`: Functions that only add to the log.
* `LogsOnly`: Functions that record only such events.
* `dataSetEvents`, `storingEvents`: The statements of a stored push.
* `AnsweredOnlyIfStored`: The property of one request.
* `PushSucceeds`: The condition on the outcomes.

## Theorems

* `succeeds_of_prefix`: A truthful log shows the outcomes.
* `mysqlInsertRawDataSet_runs`: Without exceptions, everything is stored.
* `exchange_iff`: The equivalence for one request.
* `push_answered_iff`: The equivalence for the requests of a connection.
* `push_answered_unstored`: Two pushes into a database that is down.
-/

namespace EpollServer

namespace Push

variable {ν : Type}

/-- The success of a statement. -/
def flag? : Event ν → Option Bool
  | .statement _ success => some success
  | _ => none

/-- The successes recorded in a log. -/
def flags (E : List (Event ν)) : List Bool := E.filterMap flag?

/-- A session with more events. -/
def Session.after (s : Session ν) (E : List (Event ν)) : Session ν :=
  { s with statements := s.statements + (flags E).length, events := s.events ++ E }

/-- The log of statements tried from the `k`-th on agrees with the
    environment. -/
def Truthful (env : Environment) (k : Nat) (E : List (Event ν)) : Prop :=
  ∀ i b, (flags E)[i]? = some b → b = (env.outcomes (k + i)).succeeds

/-- The statements of a stored data set. -/
def dataSetEvents (idDevice : UInt64) (dataSet : DataSet ν) : List (Event ν) :=
  [.statement (.insertDataSet idDevice dataSet) true,
    .statement (.insertDataSetRaw idDevice dataSet.idMeasurement dataSet.sweep1fs
      dataSet.sweep2fs dataSet.initFreq) true]

/-- The statements of `n` stored data points from index `i` on. -/
def pointEvents (rawDataSet : RawDataSet ν) (sweepId dataOffset : UInt32) :
    Nat → UInt32 → List (Event ν)
  | 0, _ => []
  | n + 1, i =>
      .statement (.insertDatapoint sweepId i (rawDataSet.data (dataOffset + i).toNat)) true ::
        pointEvents rawDataSet sweepId dataOffset n (i + 1)

/-- The statements of a stored sweep with its data points. -/
def sweepEvents (rawDataSet : RawDataSet ν) (sweep : RawDataSweep ν) (dataOffset sweepId : UInt32) :
    List (Event ν) :=
  [.statement (.insertSweep sweep.startFrequency sweep.frequencyIncrement) true,
    .statement .selectLastInsertId true] ++
    pointEvents rawDataSet sweepId dataOffset sweep.dataCount.toNat 0

/-- The statements of a stored raw data set. -/
def storingEvents (idDevice : UInt64) (rawDataSet : RawDataSet ν)
    (baseId afterExposureId : UInt32) : List (Event ν) :=
  sweepEvents rawDataSet rawDataSet.base 0 baseId ++
    sweepEvents rawDataSet rawDataSet.afterExposure rawDataSet.base.dataCount afterExposureId ++
    [.statement (.updateDataSet baseId afterExposureId idDevice rawDataSet.idMeasurement) true]

/-- How many they are. -/
def storingCount (rawDataSet : RawDataSet ν) : Nat :=
  (2 + rawDataSet.base.dataCount.toNat) + (2 + rawDataSet.afterExposure.dataCount.toNat) + 1

/-- The raw data set whose transfer a block completes. -/
def completedSet (L : Layout ν) (env : Environment) (s : Session ν)
    (block : MqsCldFile L.payloadMax) : Option (RawDataSet ν) :=
  match receiveBlock L env block s with
  | .ok true t => some (L.rawDataSet (t.rawDataSetAssemblyBuffer.getD []))
  | _ => none

/-- A push that is answered, or whose raw data are no longer required, was
    stored: its statements were executed successfully, and first. -/
def AnsweredOnlyIfStored (L : Layout ν) (env : Environment) (x : Exchange L) : Prop :=
  match x.request with
  | .dataLogPush dataSet =>
      .send .dataLogPushResponse ∈ x.events → dataSetEvents x.before.idDevice dataSet <+: x.events
  | .rawDataPush block =>
      (.send .rawDataPushResponse ∈ x.events ∨
        ∃ idDevice idMeasurement success,
          .statement (.updateDataRequired 0 idDevice idMeasurement) success ∈ x.events) →
      ∃ rawDataSet baseId afterExposureId, completedSet L env x.before block = some rawDataSet ∧
        storingEvents x.before.idDevice rawDataSet baseId afterExposureId <+: x.events
  | _ => True

/-- No statement that stores the push throws. -/
def PushSucceeds (L : Layout ν) (env : Environment) (x : Exchange L) : Prop :=
  match x.request with
  | .dataLogPush _ => ∀ i < 2, (env.outcomes (x.before.statements + i)).succeeds = true
  | .rawDataPush block =>
      ∀ rawDataSet, completedSet L env x.before block = some rawDataSet →
        ∀ i < storingCount rawDataSet,
          (env.outcomes (x.before.statements + i)).succeeds = true
  | _ => True

/-! ### Logs -/

theorem flags_append (E F : List (Event ν)) : flags (E ++ F) = flags E ++ flags F :=
  List.filterMap_append

theorem after_nil (s : Session ν) : s.after [] = s := by
  simp only [Session.after, flags, List.filterMap_nil, List.length_nil, Nat.add_zero,
    List.append_nil]

theorem after_after (s : Session ν) (E F : List (Event ν)) :
    (s.after E).after F = s.after (E ++ F) := by
  simp only [Session.after, flags_append, List.length_append, Nat.add_assoc, List.append_assoc]

theorem after_cancel (s : Session ν) (E F : List (Event ν)) (h : s.after E = s.after F) :
    E = F := by
  have hev := congrArg Session.events h
  exact List.append_cancel_left hev

theorem truthful_nil (env : Environment) (k : Nat) : Truthful (ν := ν) env k [] :=
  fun i b hb => absurd hb (by simp only [flags, List.filterMap_nil, List.getElem?_nil,
    reduceCtorEq, not_false_eq_true])

theorem truthful_append (env : Environment) (k : Nat) (E F : List (Event ν))
    (hE : Truthful env k E) (hF : Truthful env (k + (flags E).length) F) :
    Truthful env k (E ++ F) := by
  intro i b hb
  rw [flags_append] at hb
  -- The i-th success is one of the first log, or one of the second.
  by_cases hi : i < (flags E).length
  · rw [List.getElem?_append_left hi] at hb
    exact hE i b hb
  · rw [List.getElem?_append_right (Nat.le_of_not_lt hi)] at hb
    have hsame := hF _ b hb
    rw [hsame]
    congr 2
    omega

/-- A truthful log that begins with `n` successes shows `n` outcomes. -/
theorem succeeds_of_prefix (env : Environment) (k n : Nat) (P E : List (Event ν))
    (hE : Truthful env k E) (hP : P <+: E) (hn : flags P = List.replicate n true) :
    ∀ i < n, (env.outcomes (k + i)).succeeds = true := by
  intro i hi
  rcases hP with ⟨R, hR⟩
  refine (hE i true ?_).symm
  rw [← hR, flags_append, hn,
    List.getElem?_append_left (by rw [List.length_replicate]; exact hi),
    List.getElem?_replicate, if_pos hi]

/-! ### Functions that only try statements -/

/-- The state a function leaves, however it ends. -/
def finalState {ε σ β : Type} : EStateM.Result ε σ β → σ
  | .ok _ s => s
  | .error _ s => s

/-- The inside of a `try` that changes nothing but the log. -/
def LogsBody {β : Type} (env : Environment) (f : SqlM ν β) : Prop :=
  ∀ s, ∃ E, finalState (f s) = s.after E ∧ Truthful env s.statements E

/-- A function that returns and changes nothing but the log. -/
def Logs {β : Type} (env : Environment) (f : PushM ν β) : Prop :=
  ∀ s, ∃ b E, f s = .ok b (s.after E) ∧ Truthful env s.statements E

theorem logsBody_pure {β : Type} (env : Environment) (b : β) : LogsBody (ν := ν) env (pure b) :=
  fun s => ⟨[], (after_nil s).symm, truthful_nil env _⟩

theorem logsBody_bind {β γ : Type} (env : Environment) (f : SqlM ν β) (g : β → SqlM ν γ)
    (hf : LogsBody env f) (hg : ∀ b, LogsBody env (g b)) : LogsBody env (f >>= g) := by
  intro s
  rcases hf s with ⟨E, hE, htE⟩
  cases hfs : f s with
  | error e t =>
      -- The rest is not executed.
      rw [hfs, finalState] at hE
      refine ⟨E, ?_, htE⟩
      simp only [bind, EStateM.bind, hfs, finalState, hE]
  | ok b t =>
      rw [hfs, finalState] at hE
      rcases hg b t with ⟨F, hF, htF⟩
      refine ⟨E ++ F, ?_, truthful_append env _ E F htE ?_⟩
      · simp only [bind, EStateM.bind, hfs]
        rw [hF, hE, after_after]
      · rw [hE] at htF
        exact htF

theorem logsBody_execute (env : Environment) (st : Statement ν) :
    LogsBody env (execute env st) := by
  intro s
  refine ⟨[.statement st (env.outcomes s.statements).succeeds], ?_, fun i b hb => ?_⟩
  · simp only [execute]
    split <;> rfl
  · simp only [flags, flag?, List.filterMap_cons, List.filterMap_nil] at hb
    rcases List.getElem?_eq_some_iff.mp hb with ⟨hi, hb'⟩
    have hz : i = 0 := by simpa using hi
    subst hz
    exact hb'.symm

theorem logs_catch {β : Type} (env : Environment) (body : SqlM ν β) (fallback : β)
    (h : LogsBody env body) : Logs env (catchSql body fallback) := by
  intro s
  rcases h s with ⟨E, hE, htE⟩
  cases hs : body s with
  | ok b t =>
      rw [hs, finalState] at hE
      exact ⟨b, E, by simp only [catchSql, hs, hE], htE⟩
  | error e t =>
      -- Nothing is taken back: what was executed before the exception stays.
      rw [hs, finalState] at hE
      exact ⟨fallback, E, by simp only [catchSql, hs, hE], htE⟩

theorem logs_pure {β : Type} (env : Environment) (b : β) : Logs (ν := ν) env (pure b) :=
  fun s => ⟨b, [], by rw [after_nil]; rfl, truthful_nil env _⟩

theorem logs_bind {β γ : Type} (env : Environment) (f : PushM ν β) (g : β → PushM ν γ)
    (hf : Logs env f) (hg : ∀ b, Logs env (g b)) : Logs env (f >>= g) := by
  intro s
  rcases hf s with ⟨b, E, hE, htE⟩
  rcases hg b (s.after E) with ⟨c, F, hF, htF⟩
  refine ⟨c, E ++ F, ?_, truthful_append env _ E F htE htF⟩
  simp only [bind, EStateM.bind, hE, hF, after_after]

theorem logsBody_insertPoints (env : Environment) (rawDataSet : RawDataSet ν)
    (id dataOffset : UInt32) : ∀ (n : Nat) (i : UInt32),
    LogsBody env (insertPoints env rawDataSet id dataOffset n i) := by
  intro n
  induction n with
  | zero => exact fun i => logsBody_pure env ()
  | succ n ih =>
      intro i
      exact logsBody_bind env _ _ (logsBody_execute env _) (fun _ => ih (i + 1))

theorem logs_insertRawDatapoints (env : Environment) (rawDataSet : RawDataSet ν)
    (dataCount id dataOffset : UInt32) :
    Logs env (insertRawDatapoints env rawDataSet dataCount id dataOffset) := by
  simp only [insertRawDatapoints]
  split
  · exact logs_catch env _ _ (logsBody_bind env _ _
      (logsBody_insertPoints env rawDataSet id dataOffset _ 0) (fun _ => logsBody_pure env true))
  · exact logs_pure env true

theorem logs_insertRawDataSweep (env : Environment) (sweep : RawDataSweep ν) :
    Logs env (insertRawDataSweep env sweep) :=
  logs_catch env _ _ (logsBody_bind env _ _ (logsBody_execute env _) (fun _ =>
    logsBody_bind env _ _ (logsBody_execute env _) (fun row => logsBody_pure env (row.getD 0))))

theorem logs_insertRawDataSweepAndDatapoints (env : Environment) (rawDataSet : RawDataSet ν)
    (sweep : RawDataSweep ν) (dataOffset : UInt32) :
    Logs env (insertRawDataSweepAndDatapoints env rawDataSet sweep dataOffset) :=
  logs_bind env _ _ (logs_insertRawDataSweep env sweep) (fun id =>
    logs_bind env _ _ (logs_insertRawDatapoints env rawDataSet _ id dataOffset)
      (fun _ => logs_pure env id))

theorem logs_mysqlInsertRawDataSet (env : Environment) (idDevice : UInt64)
    (rawDataSet : RawDataSet ν) : Logs env (mysqlInsertRawDataSet env idDevice rawDataSet) :=
  logs_bind env _ _ (logs_insertRawDataSweepAndDatapoints env rawDataSet _ 0) (fun _ =>
    logs_bind env _ _ (logs_insertRawDataSweepAndDatapoints env rawDataSet _ _) (fun _ =>
      logs_catch env _ _ (logsBody_bind env _ _ (logsBody_execute env _)
        (fun _ => logsBody_pure env true))))

theorem logs_mysqlInsertDataSet (env : Environment) (idDevice : UInt64) (dataSet : DataSet ν) :
    Logs env (mysqlInsertDataSet env idDevice dataSet) :=
  logs_catch env _ _ (logsBody_bind env _ _ (logsBody_execute env _) (fun _ =>
    logsBody_bind env _ _ (logsBody_execute env _) (fun _ => logsBody_pure env true)))

theorem logs_mysqlUpdateDataRequired (env : Environment) (idDevice : UInt64)
    (idMeasurement : UInt32) (required : Int) :
    Logs (ν := ν) env (mysqlUpdateDataRequired env idDevice idMeasurement required) :=
  logs_catch env _ _ (logsBody_bind env _ _ (logsBody_execute env _)
    (fun _ => logsBody_pure env true))

theorem logs_mysqlGetDataRequired (env : Environment) (idDevice : UInt64) :
    Logs (ν := ν) env (mysqlGetDataRequired env idDevice) :=
  logs_catch env _ _ (logsBody_bind env _ _ (logsBody_execute env _)
    (fun row => logsBody_pure env (row.getD 0)))

/-! ### What functions record -/

/-- A statement of `mysqlInsertRawDataSet`. -/
def ofRawDataSet : Event ν → Bool
  | .statement (.insertSweep _ _) _ => true
  | .statement .selectLastInsertId _ => true
  | .statement (.insertDatapoint _ _ _) _ => true
  | .statement (.updateDataSet _ _ _ _) _ => true
  | _ => false

/-- Any other statement. -/
def ofOther : Event ν → Bool
  | .statement st success => !ofRawDataSet (.statement st success)
  | _ => false

/-- Code that records only such events, whether it returns or throws. -/
def LogsOnly {ε β : Type} (p : Event ν → Bool) (f : EStateM ε (Session ν) β) : Prop :=
  ∀ s, ∃ E, (finalState (f s)).events = s.events ++ E ∧ ∀ e ∈ E, p e = true

section LogsOnly

variable {p : Event ν → Bool}

theorem logsOnly_pure {ε β : Type} (b : β) : LogsOnly (ε := ε) p (pure b) :=
  fun s => ⟨[], (List.append_nil s.events).symm, fun _ he => absurd he List.not_mem_nil⟩

theorem logsOnly_bind {ε β γ : Type} (f : EStateM ε (Session ν) β)
    (g : β → EStateM ε (Session ν) γ) (hf : LogsOnly p f) (hg : ∀ b, LogsOnly p (g b)) :
    LogsOnly p (f >>= g) := by
  intro s
  -- The log of the first part, then that of the second, if it is reached.
  rcases hf s with ⟨E, hE, hpE⟩
  simp only [bind, EStateM.bind]
  cases hfs : f s with
  | error e t =>
      rw [hfs] at hE
      exact ⟨E, hE, hpE⟩
  | ok b t =>
      rw [hfs] at hE
      rcases hg b t with ⟨F, hF, hpF⟩
      have hboth : (finalState (g b t)).events = s.events ++ (E ++ F) := by
        rw [hF, show t.events = s.events ++ E from hE, List.append_assoc]
      refine ⟨E ++ F, hboth, fun e hmem => ?_⟩
      rcases List.mem_append.mp hmem with hl | hr
      · exact hpE e hl
      · exact hpF e hr

theorem logsOnly_execute (env : Environment) (st : Statement ν)
    (h : ∀ success, p (.statement st success) = true) : LogsOnly p (execute env st) := by
  intro s
  refine ⟨[.statement st (env.outcomes s.statements).succeeds], ?_, fun e hmem => ?_⟩
  · simp only [execute]
    split <;> rfl
  · rw [List.mem_singleton] at hmem
    rw [hmem]
    exact h _

theorem logsOnly_catch {β : Type} (body : SqlM ν β) (fallback : β) (h : LogsOnly p body) :
    LogsOnly p (catchSql body fallback) := by
  intro s
  rcases h s with ⟨E, hE, hp⟩
  refine ⟨E, ?_, hp⟩
  cases hs : body s with
  | ok b t =>
      rw [hs] at hE
      simp only [catchSql, hs]
      exact hE
  | error e t =>
      rw [hs] at hE
      simp only [catchSql, hs]
      exact hE

/-- One statement in its own `try`. -/
theorem logsOnly_try {β : Type} (env : Environment) (st : Statement ν) (g : Option UInt32 → β)
    (fallback : β) (h : ∀ success, p (.statement st success) = true) :
    LogsOnly p (catchSql (do let row ← execute env st; pure (g row)) fallback) :=
  logsOnly_catch _ _ (logsOnly_bind _ _ (logsOnly_execute env st h) (fun _ => logsOnly_pure _))

/-- The log of a function that logs. -/
theorem log_of_logsOnly {β : Type} (f : PushM ν β) (hf : LogsOnly p f) (s : Session ν) (b : β)
    (E : List (Event ν)) (h : f s = .ok b (s.after E)) : ∀ e ∈ E, p e = true := by
  rcases hf s with ⟨F, hF, hp⟩
  rw [h] at hF
  have hsame : E = F := List.append_cancel_left hF
  rw [hsame]
  exact hp

end LogsOnly

theorem logsOnly_insertPoints (env : Environment) (rawDataSet : RawDataSet ν)
    (id dataOffset : UInt32) : ∀ (n : Nat) (i : UInt32),
    LogsOnly ofRawDataSet (insertPoints env rawDataSet id dataOffset n i) := by
  intro n
  induction n with
  | zero => exact fun i => logsOnly_pure ()
  | succ n ih =>
      intro i
      exact logsOnly_bind _ _ (logsOnly_execute env _ (fun _ => rfl)) (fun _ => ih (i + 1))

theorem logsOnly_insertRawDataSweepAndDatapoints (env : Environment) (rawDataSet : RawDataSet ν)
    (sweep : RawDataSweep ν) (dataOffset : UInt32) :
    LogsOnly ofRawDataSet (insertRawDataSweepAndDatapoints env rawDataSet sweep dataOffset) := by
  have hsweep : LogsOnly ofRawDataSet (insertRawDataSweep env sweep) :=
    logsOnly_catch _ _ (logsOnly_bind _ _ (logsOnly_execute env _ (fun _ => rfl)) (fun _ =>
      logsOnly_bind _ _ (logsOnly_execute env _ (fun _ => rfl))
        (fun row => logsOnly_pure (row.getD 0))))
  have hpoints : ∀ id, LogsOnly ofRawDataSet
      (insertRawDatapoints env rawDataSet sweep.dataCount id dataOffset) := by
    intro id
    unfold insertRawDatapoints
    split
    · exact logsOnly_catch _ _ (logsOnly_bind _ _
        (logsOnly_insertPoints env rawDataSet id dataOffset _ 0) (fun _ => logsOnly_pure true))
    · -- Without points nothing is executed.
      exact logsOnly_pure true
  exact logsOnly_bind _ _ hsweep fun id =>
    logsOnly_bind _ _ (hpoints id) fun _ => logsOnly_pure id

theorem logsOnly_mysqlInsertRawDataSet (env : Environment) (idDevice : UInt64)
    (rawDataSet : RawDataSet ν) :
    LogsOnly ofRawDataSet (mysqlInsertRawDataSet env idDevice rawDataSet) :=
  logsOnly_bind _ _ (logsOnly_insertRawDataSweepAndDatapoints env rawDataSet _ 0) (fun _ =>
    logsOnly_bind _ _ (logsOnly_insertRawDataSweepAndDatapoints env rawDataSet _ _) (fun _ =>
      logsOnly_try env _ (fun _ => true) false (fun _ => rfl)))

theorem logsOnly_mysqlInsertDataSet (env : Environment) (idDevice : UInt64) (dataSet : DataSet ν) :
    LogsOnly ofOther (mysqlInsertDataSet env idDevice dataSet) :=
  logsOnly_catch _ _ (logsOnly_bind _ _ (logsOnly_execute env _ (fun _ => rfl)) (fun _ =>
    logsOnly_bind _ _ (logsOnly_execute env _ (fun _ => rfl)) (fun _ => logsOnly_pure true)))

theorem logsOnly_mysqlUpdateDataRequired (env : Environment) (idDevice : UInt64)
    (idMeasurement : UInt32) (required : Int) :
    LogsOnly (ν := ν) ofOther (mysqlUpdateDataRequired env idDevice idMeasurement required) :=
  logsOnly_try env _ (fun _ => true) false (fun _ => rfl)

theorem logsOnly_mysqlGetDataRequired (env : Environment) (idDevice : UInt64) :
    LogsOnly (ν := ν) ofOther (mysqlGetDataRequired env idDevice) :=
  logsOnly_try env _ (fun row => row.getD 0) 0 (fun _ => rfl)

/-! ### Without exceptions -/

/-- The next `n` statements succeed. -/
def Succeeding (env : Environment) (k n : Nat) : Prop :=
  ∀ i < n, (env.outcomes (k + i)).succeeds = true

theorem succeeding_left {env : Environment} {k m n : Nat} (h : Succeeding env k (m + n)) :
    Succeeding env k m :=
  fun i hi => h i (by omega)

theorem succeeding_right {env : Environment} {k m n : Nat} (h : Succeeding env k (m + n)) :
    Succeeding env (k + m) n := by
  intro i hi
  rw [Nat.add_assoc]
  exact h (m + i) (by omega)

theorem done_of_succeeding {env : Environment} {k n : Nat} (h : Succeeding env k (n + 1)) :
    ∃ row, env.outcomes k = .done row := by
  have hnow := h 0 (Nat.succ_pos n)
  rw [Nat.add_zero] at hnow
  cases hout : env.outcomes k with
  | done row => exact ⟨row, rfl⟩
  | exception =>
      rw [hout] at hnow
      exact absurd hnow Bool.false_ne_true

theorem execute_done (env : Environment) (st : Statement ν) (s : Session ν) (row : Option UInt32)
    (h : env.outcomes s.statements = .done row) :
    execute env st s = .ok row (s.after [.statement st true]) := by
  simp only [execute, h, Outcome.succeeds]
  rfl

theorem execute_runs (env : Environment) (st : Statement ν) (s : Session ν) (n : Nat)
    (h : Succeeding env s.statements (n + 1)) :
    ∃ row, execute env st s = .ok row (s.after [.statement st true]) := by
  rcases done_of_succeeding h with ⟨row, hrow⟩
  exact ⟨row, execute_done env st s row hrow⟩

theorem insertPoints_runs (env : Environment) (rawDataSet : RawDataSet ν)
    (id dataOffset : UInt32) : ∀ (n : Nat) (i : UInt32) (s : Session ν),
    Succeeding env s.statements n →
      insertPoints env rawDataSet id dataOffset n i s =
        .ok () (s.after (pointEvents rawDataSet id dataOffset n i)) := by
  intro n
  -- Induction on the points, each of which is the next statement.
  induction n with
  | zero =>
      intro i s _
      rw [pointEvents, after_nil]
      rfl
  | succ n ih =>
      intro i s h
      rcases execute_runs env (.insertDatapoint id i (rawDataSet.data (dataOffset + i).toNat)) s n h
        with ⟨row, hrow⟩
      rw [Nat.add_comm] at h
      simp only [insertPoints, bind, EStateM.bind, hrow]
      rw [ih (i + 1) _ (succeeding_right h), after_after]
      rfl

theorem flags_pointEvents (rawDataSet : RawDataSet ν) (id dataOffset : UInt32) :
    ∀ (n : Nat) (i : UInt32),
      flags (pointEvents rawDataSet id dataOffset n i) = List.replicate n true := by
  intro n
  induction n with
  | zero => exact fun i => rfl
  | succ n ih =>
      intro i
      rw [List.replicate_succ, ← ih (i + 1)]
      rfl

theorem insertRawDatapoints_runs (env : Environment) (rawDataSet : RawDataSet ν)
    (dataCount id dataOffset : UInt32) (s : Session ν)
    (h : Succeeding env s.statements dataCount.toNat) :
    insertRawDatapoints env rawDataSet dataCount id dataOffset s =
      .ok true (s.after (pointEvents rawDataSet id dataOffset dataCount.toNat 0)) := by
  simp only [insertRawDatapoints]
  split
  · simp only [catchSql, bind, EStateM.bind, insertPoints_runs env rawDataSet id dataOffset _ 0 s h,
      pure, EStateM.pure]
  · rename_i hzero
    have hz : dataCount.toNat = 0 := by
      by_contra hne
      exact hzero (UInt32.lt_iff_toNat_lt.mpr (Nat.pos_of_ne_zero hne))
    rw [hz, pointEvents, after_nil]
    rfl

/-- A sweep is stored, and the id is what the query gives. -/
theorem insertRawDataSweep_id (env : Environment) (sweep : RawDataSweep ν) (s : Session ν)
    (row : Option UInt32) (h : Succeeding env s.statements 2)
    (hid : env.outcomes (s.statements + 1) = .done row) :
    insertRawDataSweep env sweep s = .ok (row.getD 0) (s.after
      [.statement (.insertSweep sweep.startFrequency sweep.frequencyIncrement) true,
        .statement .selectLastInsertId true]) := by
  rcases execute_runs env (.insertSweep sweep.startFrequency sweep.frequencyIncrement) s 1 h
    with ⟨first, hfirst⟩
  have hquery := execute_done env .selectLastInsertId
    (s.after [.statement (.insertSweep sweep.startFrequency sweep.frequencyIncrement) true]) row hid
  simp only [insertRawDataSweep, catchSql, bind, EStateM.bind, hfirst, hquery, pure, EStateM.pure,
    after_after, List.singleton_append]

/-- A sweep is stored with all its data points. -/
theorem insertRawDataSweepAndDatapoints_id (env : Environment) (rawDataSet : RawDataSet ν)
    (sweep : RawDataSweep ν) (dataOffset : UInt32) (s : Session ν) (row : Option UInt32)
    (h : Succeeding env s.statements (2 + sweep.dataCount.toNat))
    (hid : env.outcomes (s.statements + 1) = .done row) :
    insertRawDataSweepAndDatapoints env rawDataSet sweep dataOffset s =
      .ok (row.getD 0) (s.after (sweepEvents rawDataSet sweep dataOffset (row.getD 0))) := by
  have hsweep := insertRawDataSweep_id env sweep s row (succeeding_left h) hid
  have hpoints := insertRawDatapoints_runs env rawDataSet sweep.dataCount (row.getD 0) dataOffset
    (s.after [.statement (.insertSweep sweep.startFrequency sweep.frequencyIncrement) true,
      .statement .selectLastInsertId true]) (succeeding_right h)
  simp only [insertRawDataSweepAndDatapoints, bind, EStateM.bind, hsweep, hpoints, pure,
    EStateM.pure, after_after, sweepEvents]

theorem flags_sweepEvents (rawDataSet : RawDataSet ν) (sweep : RawDataSweep ν)
    (dataOffset id : UInt32) :
    flags (sweepEvents rawDataSet sweep dataOffset id) =
      List.replicate (2 + sweep.dataCount.toNat) true := by
  rw [sweepEvents, flags_append, flags_pointEvents, ← List.replicate_append_replicate]
  rfl

theorem flags_storingEvents (idDevice : UInt64) (rawDataSet : RawDataSet ν)
    (baseId afterExposureId : UInt32) :
    flags (storingEvents idDevice rawDataSet baseId afterExposureId) =
      List.replicate (storingCount rawDataSet) true := by
  have hlast : flags [Event.statement (ν := ν) (.updateDataSet baseId afterExposureId idDevice
      rawDataSet.idMeasurement) true] = List.replicate 1 true := rfl
  rw [storingEvents, flags_append, flags_append, flags_sweepEvents, flags_sweepEvents, hlast,
    List.replicate_append_replicate, List.replicate_append_replicate, storingCount]

/-- The queries for the ids of the two sweeps, and what they give. -/
theorem queries_of_succeeding {env : Environment} {k : Nat} (rawDataSet : RawDataSet ν)
    (h : Succeeding env k (storingCount rawDataSet)) :
    ∃ base afterExposure, env.outcomes (k + 1) = .done base ∧
      env.outcomes (k + (2 + rawDataSet.base.dataCount.toNat) + 1) = .done afterExposure := by
  have hsweeps := succeeding_left (show Succeeding env k (_ + 1) from h)
  have hquery : ∀ {j : Nat} {sweep : RawDataSweep ν},
      Succeeding env j (2 + sweep.dataCount.toNat) → ∃ row, env.outcomes (j + 1) = .done row :=
    fun hj => done_of_succeeding (n := 0) (succeeding_right (m := 1) (succeeding_left hj))
  rcases hquery (succeeding_left hsweeps) with ⟨base, hbase⟩
  rcases hquery (succeeding_right hsweeps) with ⟨afterExposure, hafter⟩
  exact ⟨base, afterExposure, hbase, hafter⟩

/-- Without exceptions, everything is stored, under the ids that the queries
    give. -/
theorem mysqlInsertRawDataSet_ids (env : Environment) (idDevice : UInt64)
    (rawDataSet : RawDataSet ν) (s : Session ν) (base afterExposure : Option UInt32)
    (h : Succeeding env s.statements (storingCount rawDataSet))
    (hbase : env.outcomes (s.statements + 1) = .done base)
    (hafter : env.outcomes (s.statements + (2 + rawDataSet.base.dataCount.toNat) + 1) =
      .done afterExposure) :
    mysqlInsertRawDataSet env idDevice rawDataSet s = .ok true (s.after
      (storingEvents idDevice rawDataSet (base.getD 0) (afterExposure.getD 0))) := by
  -- The successes of the two sweeps, and the one of the update.
  have hsweeps := succeeding_left (show Succeeding env s.statements (_ + 1) from h)
  have hlast := succeeding_right (show Succeeding env s.statements (_ + 1) from h)
  have hfirst := insertRawDataSweepAndDatapoints_id env rawDataSet rawDataSet.base 0 s base
    (succeeding_left hsweeps) hbase
  have hlen : ∀ (sweep : RawDataSweep ν) (offset id : UInt32),
      (flags (sweepEvents rawDataSet sweep offset id)).length = 2 + sweep.dataCount.toNat := by
    intro sweep offset id
    rw [flags_sweepEvents, List.length_replicate]
  have hcount : (s.after (sweepEvents rawDataSet rawDataSet.base 0 (base.getD 0))).statements =
      s.statements + (2 + rawDataSet.base.dataCount.toNat) := by
    rw [Session.after, hlen]
  have hsecond := insertRawDataSweepAndDatapoints_id env rawDataSet rawDataSet.afterExposure
    rawDataSet.base.dataCount (s.after (sweepEvents rawDataSet rawDataSet.base 0 (base.getD 0)))
    afterExposure (by rw [hcount]; exact succeeding_right hsweeps) (by rw [hcount]; exact hafter)
  rw [after_after] at hsecond
  rcases execute_runs env
    (.updateDataSet (base.getD 0) (afterExposure.getD 0) idDevice rawDataSet.idMeasurement)
    (s.after (sweepEvents rawDataSet rawDataSet.base 0 (base.getD 0) ++
      sweepEvents rawDataSet rawDataSet.afterExposure rawDataSet.base.dataCount
        (afterExposure.getD 0))) 0
    (by rw [Session.after, flags_append, List.length_append, hlen, hlen]; exact hlast)
    with ⟨row, hrow⟩
  simp only [mysqlInsertRawDataSet, insertRawDataSet, catchSql, bind, EStateM.bind, hfirst, hsecond,
    hrow, pure, EStateM.pure, after_after, storingEvents]

theorem mysqlInsertRawDataSet_runs (env : Environment) (idDevice : UInt64)
    (rawDataSet : RawDataSet ν) (s : Session ν)
    (h : Succeeding env s.statements (storingCount rawDataSet)) :
    ∃ baseId afterExposureId, mysqlInsertRawDataSet env idDevice rawDataSet s =
      .ok true (s.after (storingEvents idDevice rawDataSet baseId afterExposureId)) := by
  rcases queries_of_succeeding rawDataSet h with ⟨base, afterExposure, hbase, hafter⟩
  exact ⟨_, _, mysqlInsertRawDataSet_ids env idDevice rawDataSet s base afterExposure h hbase
    hafter⟩

theorem mysqlInsertDataSet_runs (env : Environment) (idDevice : UInt64) (dataSet : DataSet ν)
    (s : Session ν) (h : Succeeding env s.statements 2) :
    mysqlInsertDataSet env idDevice dataSet s =
      .ok true (s.after (dataSetEvents idDevice dataSet)) := by
  rcases execute_runs env (.insertDataSet idDevice dataSet) s 1 h with ⟨row, hrow⟩
  rcases execute_runs env (.insertDataSetRaw idDevice dataSet.idMeasurement dataSet.sweep1fs
      dataSet.sweep2fs dataSet.initFreq)
    (s.after [.statement (.insertDataSet idDevice dataSet) true]) 0 (succeeding_right (m := 1) h)
    with ⟨row', hrow'⟩
  simp only [mysqlInsertDataSet, catchSql, bind, EStateM.bind, hrow, hrow', pure, EStateM.pure,
    after_after, List.singleton_append, dataSetEvents]

/-! ### Handlers -/

/-- The events of a response. -/
def responseEvents (topic : Topic) : List (Event ν) :=
  [.modifyEpollEvent .epollOut, .send topic, .modifyEpollEvent .epollIn]

theorem respond_eq (topic : Topic) (s : Session ν) :
    respond topic s = .ok () (s.after (responseEvents topic)) := by
  simp only [respond, emit, bind, EStateM.bind, modify, modifyGet, MonadStateOf.modifyGet,
    EStateM.modifyGet, Session.after, responseEvents, List.append_assoc, List.cons_append,
    List.nil_append, flags, flag?, List.filterMap_cons, List.filterMap_nil, List.length_nil,
    Nat.add_zero]

/-- A function that leaves the log and the device alone. -/
def Quiet {β : Type} (f : PushM ν β) : Prop :=
  ∀ s, (finalState (f s)).events = s.events ∧ (finalState (f s)).statements = s.statements ∧
    (finalState (f s)).idDevice = s.idDevice

theorem quiet_pure {β : Type} (b : β) : Quiet (ν := ν) (pure b) := fun _ => ⟨rfl, rfl, rfl⟩

theorem quiet_bind {β γ : Type} (f : PushM ν β) (g : β → PushM ν γ) (hf : Quiet f)
    (hg : ∀ b, Quiet (g b)) : Quiet (f >>= g) := by
  intro s
  have h := hf s
  simp only [bind, EStateM.bind]
  cases hfs : f s with
  | error e t =>
      rw [hfs] at h
      exact h
  | ok b t =>
      rw [hfs] at h
      have h' := hg b t
      exact ⟨h'.1.trans h.1, h'.2.1.trans h.2.1, h'.2.2.trans h.2.2⟩

theorem quiet_checkAssemblyBuffer (L : Layout ν) (env : Environment)
    (block : MqsCldFile L.payloadMax) : Quiet (checkAssemblyBuffer L env block) := by
  intro s
  simp only [checkAssemblyBuffer, bind, EStateM.bind, get, getThe, MonadStateOf.get,
    EStateM.get]
  -- No branch of the check executes a statement or sends.
  split
  · split
    · split
      · split
        · exact ⟨rfl, rfl, rfl⟩
        · exact ⟨rfl, rfl, rfl⟩
      · exact ⟨rfl, rfl, rfl⟩
    · exact ⟨rfl, rfl, rfl⟩
  · exact ⟨rfl, rfl, rfl⟩

theorem quiet_copyBlock (L : Layout ν) (block : MqsCldFile L.payloadMax) :
    Quiet (copyBlock L block) := by
  intro s
  simp only [copyBlock, bind, EStateM.bind, get, getThe, MonadStateOf.get, EStateM.get]
  cases s.rawDataSetAssemblyBuffer with
  | none => exact ⟨rfl, rfl, rfl⟩
  | some buffer =>
      by_cases hfits : block.offset.toNat + block.length.toNat ≤ buffer.length ∧
          block.length.toNat ≤ L.payloadMax
      · simp only [if_pos hfits]
        exact ⟨rfl, rfl, rfl⟩
      · simp only [if_neg hfits]
        exact ⟨rfl, rfl, rfl⟩

/-- Receiving a block tries no statement and sends nothing. -/
theorem quiet_receiveBlock (L : Layout ν) (env : Environment) (block : MqsCldFile L.payloadMax) :
    Quiet (receiveBlock L env block) := by
  refine quiet_bind _ _ (quiet_checkAssemblyBuffer L env block) (fun ok => ?_)
  cases ok with
  | true => exact quiet_bind _ _ (quiet_copyBlock L block) (fun _ => quiet_pure _)
  | false => exact quiet_pure false

/-- What `handleDataLogPushRequest` leaves behind. -/
theorem handleDataLogPushRequest_events (env : Environment) (dataSet : DataSet ν) (s : Session ν) :
    ∃ E b, mysqlInsertDataSet env s.idDevice dataSet s = .ok b (s.after E) ∧
      handleDataLogPushRequest env dataSet s =
        .ok () (s.after (E ++ responseEvents .dataLogPushResponse)) ∧
      Truthful env s.statements E := by
  rcases logs_mysqlInsertDataSet env s.idDevice dataSet s with ⟨b, E, hE, htE⟩
  refine ⟨E, b, hE, ?_, htE⟩
  simp only [handleDataLogPushRequest, bind, EStateM.bind, get, getThe, MonadStateOf.get,
    EStateM.get, hE, respond_eq, after_after]

/-- What `storeTransfer` leaves behind: the statements that store the set,
    another one and the response. The transfer is over, whatever came of them. -/
theorem storeTransfer_runs (L : Layout ν) (env : Environment) (s : Session ν) :
    ∃ E F b,
      mysqlInsertRawDataSet env s.idDevice (L.rawDataSet (s.rawDataSetAssemblyBuffer.getD [])) s =
        .ok b (s.after E) ∧
      storeTransfer L env s =
        .ok () { s.after (E ++ F ++ responseEvents .rawDataPushResponse) with
          rawDataSetAssemblyBuffer := none, maxAssemblyLength := 0 } ∧
      Truthful env s.statements (E ++ F) ∧ (∀ e ∈ E, ofRawDataSet e = true) ∧
      ∀ e ∈ F, ofOther e = true := by
  rcases logs_mysqlInsertRawDataSet env s.idDevice
    (L.rawDataSet (s.rawDataSetAssemblyBuffer.getD [])) s with ⟨b, E, hE, htE⟩
  rcases logs_mysqlUpdateDataRequired env s.idDevice
    (L.rawDataSet (s.rawDataSetAssemblyBuffer.getD [])).idMeasurement 0 (s.after E)
    with ⟨c, F, hF, htF⟩
  refine ⟨E, F, b, hE, ?_, truthful_append env _ E F htE htF,
    log_of_logsOnly _ (logsOnly_mysqlInsertRawDataSet env _ _) s b E hE,
    log_of_logsOnly _ (logsOnly_mysqlUpdateDataRequired env _ _ 0) _ c F hF⟩
  simp only [storeTransfer, bind, EStateM.bind, get, getThe, MonadStateOf.get, EStateM.get, hE,
    hF, respond_eq, after_after, modify, modifyGet, MonadStateOf.modifyGet, EStateM.modifyGet]

/-- The log of `storeTransfer`. -/
theorem storeTransfer_events (L : Layout ν) (env : Environment) (s : Session ν) :
    ∃ E F b,
      mysqlInsertRawDataSet env s.idDevice (L.rawDataSet (s.rawDataSetAssemblyBuffer.getD [])) s =
        .ok b (s.after E) ∧
      (finalState (storeTransfer L env s)).events =
        s.events ++ (E ++ F ++ responseEvents .rawDataPushResponse) ∧
      Truthful env s.statements (E ++ F) := by
  rcases storeTransfer_runs L env s with ⟨E, F, b, hE, hrun, htruth, _⟩
  refine ⟨E, F, b, hE, ?_, htruth⟩
  rw [hrun]
  rfl

/-- A block that does not complete a transfer. -/
theorem rawDataPush_incomplete (L : Layout ν) (env : Environment) (s : Session ν)
    (block : MqsCldFile L.payloadMax) (h : completedSet L env s block = none) :
    (finalState (handleRawDataPushRequest L env block s)).events = s.events := by
  have hquiet := (quiet_receiveBlock L env block s).1
  simp only [completedSet] at h
  -- An incomplete transfer stops behind the copy.
  simp only [handleRawDataPushRequest, bind, EStateM.bind]
  cases hr : receiveBlock L env block s with
  | error e t =>
      rw [hr] at hquiet
      exact hquiet
  | ok complete t =>
      rw [hr] at hquiet h
      cases complete with
      | true => simp only [reduceCtorEq] at h
      | false => exact hquiet

/-- A block that completes a transfer. -/
theorem rawDataPush_complete (L : Layout ν) (env : Environment) (s : Session ν)
    (block : MqsCldFile L.payloadMax) (rawDataSet : RawDataSet ν)
    (h : completedSet L env s block = some rawDataSet) :
    ∃ t, t.events = s.events ∧ t.statements = s.statements ∧ t.idDevice = s.idDevice ∧
      rawDataSet = L.rawDataSet (t.rawDataSetAssemblyBuffer.getD []) ∧
      finalState (handleRawDataPushRequest L env block s) = finalState (storeTransfer L env t) := by
  have hquiet := quiet_receiveBlock L env block s
  simp only [completedSet] at h
  simp only [handleRawDataPushRequest, bind, EStateM.bind]
  -- Only a block that completes its set comes to the store.
  cases hr : receiveBlock L env block s with
  | error e t =>
      rw [hr] at h
      simp only [reduceCtorEq] at h
  | ok complete t =>
      rw [hr] at hquiet h
      cases complete with
      | false => simp only [reduceCtorEq] at h
      | true =>
          rw [Option.some.injEq] at h
          exact ⟨t, hquiet.1, hquiet.2.1, hquiet.2.2, h.symm, rfl⟩

/-- The exchange a request makes. -/
def exchange (L : Layout ν) (env : Environment) (s : Session ν) (r : Request L) : Exchange L :=
  { before := s, request := r, after := finalState (handleRequest L env r s) }

theorem exchange_events {L : Layout ν} (x : Exchange L) (E : List (Event ν))
    (h : x.after.events = x.before.events ++ E) : x.events = E := by
  rw [Exchange.events, h, List.drop_left]

/-- The equivalence for a data log push. -/
theorem dataLogPush_iff (L : Layout ν) (env : Environment) (dataSet : DataSet ν) (s : Session ν) :
    AnsweredOnlyIfStored L env (exchange L env s (.dataLogPush dataSet)) ↔
      Succeeding env s.statements 2 := by
  rcases handleDataLogPushRequest_events env dataSet s with ⟨E, b, hE, hrun, htE⟩
  have hev := exchange_events (exchange L env s (.dataLogPush dataSet))
    (E ++ responseEvents .dataLogPushResponse)
    (by simp only [exchange, handleRequest, bind, EStateM.bind, hrun]; rfl)
  simp only [AnsweredOnlyIfStored, hev]
  simp only [exchange]
  have htruth : Truthful env s.statements (E ++ responseEvents .dataLogPushResponse) :=
    truthful_append env _ _ _ htE (fun i b hb => absurd hb nofun)
  constructor
  · -- The answer is always sent, so the log begins with the two inserts.
    intro h
    exact succeeds_of_prefix env _ 2 _ _ htruth
      (h (List.mem_append_right _ (List.mem_cons_of_mem _ List.mem_cons_self))) rfl
  · -- Without exceptions, the log of the inserts is the expected one.
    intro h _
    rw [mysqlInsertDataSet_runs env s.idDevice dataSet s h, EStateM.Result.ok.injEq] at hE
    rw [← after_cancel s _ _ hE.2]
    exact List.prefix_append _ _

/-- The equivalence for a raw data push. -/
theorem rawDataPush_iff (L : Layout ν) (env : Environment) (block : MqsCldFile L.payloadMax)
    (s : Session ν) :
    AnsweredOnlyIfStored L env (exchange L env s (.rawDataPush block)) ↔
      ∀ rawDataSet, completedSet L env s block = some rawDataSet →
        Succeeding env s.statements (storingCount rawDataSet) := by
  have hafter : finalState (handleRequest L env (.rawDataPush block) s) =
      finalState (handleRawDataPushRequest L env block s) := by
    simp only [handleRequest, bind, EStateM.bind]
    cases handleRawDataPushRequest L env block s <;> rfl
  cases hc : completedSet L env s block with
  | none =>
      -- No transfer is complete: nothing is sent, and nothing is to be stored.
      have hev := exchange_events (exchange L env s (.rawDataPush block)) []
        (by
          rw [List.append_nil, exchange, hafter]
          exact rawDataPush_incomplete L env s block hc)
      simp only [AnsweredOnlyIfStored, hev, List.not_mem_nil, exists_false, or_self]
      refine iff_of_true (fun hf => hf.elim) (fun D hD => ?_)
      simp only [reduceCtorEq] at hD
  | some rawDataSet =>
      rcases rawDataPush_complete L env s block rawDataSet hc with ⟨t, hte, hts, htd, hset, hfin⟩
      rcases storeTransfer_events L env t with ⟨E, F, b, hE, hlog, htruth⟩
      rw [← hset] at hE
      have hev := exchange_events (exchange L env s (.rawDataPush block))
        (E ++ F ++ responseEvents .rawDataPushResponse)
        (by simp only [exchange, hafter, hfin, hlog, hte])
      simp only [AnsweredOnlyIfStored, hev]
      simp only [exchange, hc]
      have htruth' : Truthful env t.statements (E ++ F ++ responseEvents .rawDataPushResponse) :=
        truthful_append env _ _ _ htruth (fun i b hb => absurd hb nofun)
      constructor
      · -- The response shows the statements of some stored set: it is this one.
        intro h D hD
        rw [Option.some.injEq] at hD
        rcases h (Or.inl (List.mem_append_right _ (List.mem_cons_of_mem _ List.mem_cons_self)))
          with ⟨D', baseId, afterId, hD', hprefix⟩
        rw [Option.some.injEq] at hD'
        rw [← hD, ← hts]
        rw [← hD'] at hprefix
        exact succeeds_of_prefix env _ _ _ _ htruth' hprefix (flags_storingEvents _ _ _ _)
      · intro h _
        have hsucc := h rawDataSet rfl
        rw [← hts] at hsucc
        rcases mysqlInsertRawDataSet_runs env t.idDevice rawDataSet t hsucc
          with ⟨baseId, afterId, hruns⟩
        rw [hruns, EStateM.Result.ok.injEq] at hE
        refine ⟨rawDataSet, baseId, afterId, rfl, ?_⟩
        rw [← after_cancel t _ _ hE.2, htd, List.append_assoc]
        exact List.prefix_append _ _

/-- The equivalence for one request. -/
theorem exchange_iff (L : Layout ν) (env : Environment) (s : Session ν) (r : Request L) :
    AnsweredOnlyIfStored L env (exchange L env s r) ↔ PushSucceeds L env (exchange L env s r) := by
  cases r with
  | dataLogPush dataSet => exact dataLogPush_iff L env dataSet s
  | rawDataPush block => exact rawDataPush_iff L env block s
  | deviceRegister | goodbye | rawDataRequired | other => exact Iff.rfl

/-- What is served is the exchange of the first request, and if the connection
    stays open what is served behind it. -/
theorem mem_serve_cons {L : Layout ν} {env : Environment} {s : Session ν} {r : Request L}
    {rs : List (Request L)} {x : Exchange L} :
    x ∈ serve L env s (r :: rs) ↔
      x = exchange L env s r ∨ ∃ t, sessionStep L env s r = some t ∧ x ∈ serve L env t rs := by
  rw [serve, sessionStep, exchange]
  -- What is served behind a request depends on whether the loop goes on.
  cases handleRequest L env r s with
  | ok more t =>
      cases more with
      | true =>
          simp only [finalState, List.mem_cons, Option.some.injEq]
          exact or_congr_right ⟨fun hx => ⟨t, rfl, hx⟩, by rintro ⟨_, rfl, hx⟩; exact hx⟩
      | false =>
          simp only [finalState, List.mem_singleton, reduceCtorEq, false_and, exists_false,
            or_false]
  | error e t =>
      simp only [finalState, List.mem_singleton, reduceCtorEq, false_and, exists_false, or_false]

theorem serve_exchange (L : Layout ν) (env : Environment) :
    ∀ (rs : List (Request L)) (s : Session ν),
      ∀ x ∈ serve L env s rs, x = exchange L env x.before x.request := by
  intro rs
  induction rs with
  | nil => exact fun s x hx => absurd hx List.not_mem_nil
  | cons r rs ih =>
      intro s x hx
      rcases mem_serve_cons.mp hx with rfl | ⟨t, _, hx⟩
      · rfl
      · exact ih t x hx

theorem exchange_mem_serve (L : Layout ν) (env : Environment) (s : Session ν) (r : Request L)
    (rs : List (Request L)) : exchange L env s r ∈ serve L env s (r :: rs) :=
  mem_serve_cons.mpr (.inl rfl)

/-- On a connection, every answered push was stored if and only if no
    statement that stores a push throws. -/
theorem push_answered_iff (L : Layout ν) (env : Environment) (s : Session ν)
    (rs : List (Request L)) :
    (∀ x ∈ serve L env s rs, AnsweredOnlyIfStored L env x) ↔
      ∀ x ∈ serve L env s rs, PushSucceeds L env x := by
  refine forall₂_congr (fun x hx => ?_)
  rw [serve_exchange L env rs s x hx]
  exact exchange_iff L env x.before x.request

/-- A 32-bit field in memory. -/
def word (memory : List UInt8) (i : Nat) : UInt32 :=
  (memory.getD i 0).toUInt32 + (memory.getD (i + 1) 0).toUInt32 * 256 +
    (memory.getD (i + 2) 0).toUInt32 * 65536 + (memory.getD (i + 3) 0).toUInt32 * 16777216

/-- The raw data set as 32-bit fields one after the other. -/
def packedLayout : Layout UInt32 :=
  { sizeofRawDataSet := 28, sizeofRawDataPoint := 8, payloadMax := 64,
    rawDataSet := fun m =>
      { idMeasurement := word m 0,
        base := ⟨word m 4, word m 8, word m 12⟩,
        afterExposure := ⟨word m 16, word m 20, word m 24⟩,
        data := fun i => ⟨word m (28 + 8 * i), word m (32 + 8 * i)⟩ } }

/-- Every statement throws. -/
def databaseDown : Environment :=
  { outcomes := fun _ => .exception, reallocs := fun _ => some (fun _ => 0) }

/-- A raw data set of zeros, in one block. -/
def zeroTransfer : MqsCldFile packedLayout.payloadMax := ⟨0, 28, 28, Vector.replicate 64 0⟩

/-- A raw data set is pushed into a database that is down: it is answered,
    and nothing was stored. -/
theorem push_answered_unstored :
    ∃ x ∈ serve packedLayout databaseDown (Session.opened UInt32) [.rawDataPush zeroTransfer],
      .send .rawDataPushResponse ∈ x.events ∧
        ¬ AnsweredOnlyIfStored packedLayout databaseDown x := by
  refine ⟨_, exchange_mem_serve packedLayout databaseDown _ _ _, by decide +kernel, fun hx => ?_⟩
  have hsucc := (exchange_iff packedLayout databaseDown _ _).mp hx
  have hsome : (completedSet packedLayout databaseDown (Session.opened UInt32)
      zeroTransfer).isSome = true := by decide +kernel
  rcases Option.isSome_iff_exists.mp hsome with ⟨rawDataSet, hset⟩
  exact absurd (hsucc rawDataSet hset 0 (Nat.succ_pos _)) Bool.false_ne_true

end Push

end EpollServer
