import EpollServer.Lib.Effect
import EpollServer.Core.Database
import EpollServer.Theory.Assembly.Buffer

/-!
# How the Statements of a Connection Follow Each Other

The log of a connection, seen from the database: which statements about sweeps
and points can come next, whatever the client sends and whatever throws.

`Move` gives the rules. The cursor is how far the connection is with a raw data
set; an event that is not about sweeps and points leaves it where it is. A
statement that throws does not end the transfer: its sweep goes on with the id
0, or without the rest of its points, and the cursor only notes it.

That a handler keeps to the rules is a condition before and after it
(`Tracked`), so the rules of `Lib.Effect` follow its code, one lemma for each
function.

## Main definitions

* `Part`: The two sweeps of a raw data set.
* `Cursor`, `Move`: How far a connection is, and what can come next.
* `Follows`: A log that keeps to the rules.
* `Tracks`, `Tracked`: A session with such a log.
* `Pushed`: The raw data sets a connection has received.

## Theorems

* `holds_execute`, `holds_catchSql`: The rules for statements.
* `holds_mysqlInsertRawDataSet`: A raw data set that was pushed is inserted
  along the rules.
* `reaches_tracked`: The log of every connection keeps to them.
* `path_of_follows`: The cursor along a log.
-/

namespace EpollServer

namespace Push

open Effect

variable {ν : Type}

/-- The two sweeps of a raw data set. -/
inductive Part where
  | base
  | afterExposure
  deriving DecidableEq, Repr

/-- A sweep of a raw data set. -/
def RawDataSet.sweep (rawDataSet : RawDataSet ν) : Part → RawDataSweep ν
  | .base => rawDataSet.base
  | .afterExposure => rawDataSet.afterExposure

/-- Where the points of a sweep begin in the array. -/
def RawDataSet.dataOffset (rawDataSet : RawDataSet ν) : Part → UInt32
  | .base => 0
  | .afterExposure => rawDataSet.base.dataCount

/-- The row of the `i`-th point of a sweep. -/
def RawDataSet.row (rawDataSet : RawDataSet ν) (part : Part) (id : UInt32) (i : Nat) :
    PointRow ν :=
  { raw_data_sweep_id := id, index := UInt32.ofNat i,
    point := rawDataSet.data (rawDataSet.dataOffset part + UInt32.ofNat i).toNat }

/-- How far a connection is with a raw data set. `cut` says that a statement has
    thrown since its first one. -/
inductive Cursor (ν : Type) where
  | idle
  /-- The row of a sweep is there, and its id has not been read. -/
  | swept (idDevice : UInt64) (rawDataSet : RawDataSet ν) (part : Part) (baseId : UInt32)
      (cut : Bool)
  /-- `i` points of the sweep were stored under `id`. -/
  | storing (idDevice : UInt64) (rawDataSet : RawDataSet ν) (part : Part) (baseId id : UInt32)
      (i : Nat) (cut : Bool)

/-- An event that is not about sweeps and points. -/
def Event.plain : Event ν → Bool
  | .statement (.insertSweep _ _) _ => false
  | .statement .selectLastInsertId _ => false
  | .statement (.insertDatapoint _ _ _) _ => false
  | .statement (.updateDataSet _ _ _ _) true => false
  | _ => true

/-- The cursor after the insert of a sweep. -/
def Cursor.inserted (idDevice : UInt64) (rawDataSet : RawDataSet ν) (part : Part)
    (baseId : UInt32) (cut : Bool) : Bool → Cursor ν
  | true => .swept idDevice rawDataSet part baseId cut
  | false => .storing idDevice rawDataSet part baseId 0 0 true

/-- What the event of statement `n` can be, and where it leaves the cursor.
    `pushed` are the raw data sets there are. -/
inductive Move (env : Environment) (pushed : UInt64 → RawDataSet ν → Prop) (n : Nat) :
    Cursor ν → Event ν → Cursor ν → Prop where
  | pass (κ : Cursor ν) (e : Event ν) (plain : e.plain = true) : Move env pushed n κ e κ
  | base (κ : Cursor ν) (idDevice : UInt64) (rawDataSet : RawDataSet ν)
      (h : pushed idDevice rawDataSet) (success : Bool) :
      Move env pushed n κ
        (.statement (.insertSweep (rawDataSet.sweep .base).startFrequency
          (rawDataSet.sweep .base).frequencyIncrement) success)
        (.inserted idDevice rawDataSet .base 0 false success)
  | afterExposure (idDevice : UInt64) (rawDataSet : RawDataSet ν) (baseId id : UInt32) (i : Nat)
      (cut : Bool) (complete : cut = true ∨ i = (rawDataSet.sweep .base).dataCount.toNat)
      (success : Bool) :
      Move env pushed n (.storing idDevice rawDataSet .base baseId id i cut)
        (.statement (.insertSweep (rawDataSet.sweep .afterExposure).startFrequency
          (rawDataSet.sweep .afterExposure).frequencyIncrement) success)
        (.inserted idDevice rawDataSet .afterExposure id cut success)
  | id (idDevice : UInt64) (rawDataSet : RawDataSet ν) (part : Part) (baseId : UInt32)
      (cut : Bool) (row : Option UInt32) (outcome : env.outcomes n = .done row) :
      Move env pushed n (.swept idDevice rawDataSet part baseId cut)
        (.statement .selectLastInsertId true)
        (.storing idDevice rawDataSet part baseId (row.getD 0) 0 cut)
  | noId (idDevice : UInt64) (rawDataSet : RawDataSet ν) (part : Part) (baseId : UInt32)
      (cut : Bool) :
      Move env pushed n (.swept idDevice rawDataSet part baseId cut)
        (.statement .selectLastInsertId false)
        (.storing idDevice rawDataSet part baseId 0 0 true)
  | point (idDevice : UInt64) (rawDataSet : RawDataSet ν) (part : Part) (baseId id : UInt32)
      (i : Nat) (cut : Bool) (left : i < (rawDataSet.sweep part).dataCount.toNat) :
      Move env pushed n (.storing idDevice rawDataSet part baseId id i cut)
        (.statement (.insertDatapoint id (UInt32.ofNat i) (rawDataSet.row part id i).point) true)
        (.storing idDevice rawDataSet part baseId id (i + 1) cut)
  | noPoint (idDevice : UInt64) (rawDataSet : RawDataSet ν) (part : Part) (baseId id : UInt32)
      (i j : Nat) (cut : Bool) (point : RawDataPoint ν) :
      Move env pushed n (.storing idDevice rawDataSet part baseId id i cut)
        (.statement (.insertDatapoint id (UInt32.ofNat j) point) false)
        (.storing idDevice rawDataSet part baseId id i true)
  | refer (idDevice : UInt64) (rawDataSet : RawDataSet ν) (baseId id : UInt32) (i : Nat)
      (cut : Bool)
      (complete : cut = true ∨ i = (rawDataSet.sweep .afterExposure).dataCount.toNat) :
      Move env pushed n (.storing idDevice rawDataSet .afterExposure baseId id i cut)
        (.statement (.updateDataSet baseId id idDevice rawDataSet.idMeasurement) true)
        (.storing idDevice rawDataSet .afterExposure baseId id i cut)

/-- A log from its beginning, and the cursor it leaves. -/
inductive Follows (env : Environment) (pushed : UInt64 → RawDataSet ν → Prop) :
    List (Event ν) → Cursor ν → Prop where
  | nil : Follows env pushed [] .idle
  | snoc (E : List (Event ν)) (e : Event ν) (κ κ' : Cursor ν) :
      Follows env pushed E κ → Move env pushed (flags E).length κ e κ' →
      Follows env pushed (E ++ [e]) κ'

/-- The connection has a log that follows the rules. -/
def Tracks (env : Environment) (pushed : UInt64 → RawDataSet ν → Prop) (κ : Cursor ν)
    (s : Session ν) : Prop :=
  Follows env pushed s.events κ ∧ s.statements = (flags s.events).length

/-- With the cursor somewhere. -/
def Tracked (env : Environment) (pushed : UInt64 → RawDataSet ν → Prop) (s : Session ν) : Prop :=
  ∃ κ, Tracks env pushed κ s

/-- The raw data sets a connection has received. -/
def Pushed (L : Layout ν) (env : Environment) (idDevice : UInt64) (rawDataSet : RawDataSet ν) :
    Prop :=
  ∃ s block, (sessions L env).Reaches (Session.opened ν) s ∧ s.idDevice = idDevice ∧
    completedSet L env s block = some rawDataSet

/-! ### Rules -/

section Rules

variable {env : Environment} {pushed : UInt64 → RawDataSet ν → Prop}

theorem tracks_event {κ κ' : Cursor ν} {s t : Session ν} {e : Event ν} (hs : Tracks env pushed κ s)
    (hmove : Move env pushed s.statements κ e κ') (hevents : t.events = s.events ++ [e])
    (hstatements : t.statements = s.statements + (flags [e]).length) : Tracks env pushed κ' t := by
  refine ⟨?_, ?_⟩
  · rw [hevents]
    refine .snoc s.events e κ κ' hs.1 ?_
    rw [← hs.2]
    exact hmove
  · rw [hstatements, hevents, flags_append, List.length_append, hs.2]

/-- A statement that is executed, and one that throws. -/
theorem holds_execute {κ : Cursor ν} (st : Statement ν) (κ' : Option UInt32 → Cursor ν)
    (κ'' : Cursor ν)
    (hdone : ∀ n row, env.outcomes n = .done row →
      Move env pushed n κ (.statement st true) (κ' row))
    (hthrown : ∀ n, Move env pushed n κ (.statement st false) κ'') :
    Effect.Holds (Tracks env pushed κ) (execute env st) (fun row => Tracks env pushed (κ' row))
      (fun _ => Tracks env pushed κ'') := by
  intro s hs
  cases hout : env.outcomes s.statements with
  | done row =>
      simp only [execute, hout]
      exact tracks_event hs (hdone _ row hout) rfl rfl
  | exception =>
      simp only [execute, hout]
      exact tracks_event hs (hthrown _) rfl rfl

/-- `catchSql` goes on with its fallback. -/
theorem holds_catchSql {β : Type} {P : Session ν → Prop} {Q : β → Session ν → Prop}
    {E : SQLException → Session ν → Prop} {body : SqlM ν β} {fallback : β}
    (h : Effect.Holds P body Q E) (hE : ∀ e s, E e s → Q fallback s) :
    Effect.Holds P (catchSql body fallback) Q (fun _ _ => False) := by
  intro s hs
  have hend := h s hs
  simp only [catchSql]
  cases hrun : body s with
  | ok b t =>
      rw [hrun] at hend
      exact hend
  | error e t =>
      rw [hrun] at hend
      exact hE e t hend

/-- A plain statement, wherever the cursor is. -/
theorem holds_execute_plain (st : Statement ν)
    (h : ∀ success, (Event.statement st success).plain = true) :
    Effect.Holds (Tracked env pushed) (execute env st) (fun _ => Tracked env pushed)
      (fun _ => Tracked env pushed) :=
  holds_exists fun κ => Effect.holds_mono
    (holds_execute st (fun _ => κ) κ (fun _ _ _ => .pass κ _ (h true))
      (fun _ => .pass κ _ (h false)))
    (fun _ hs => hs) (fun _ _ hs => ⟨κ, hs⟩) (fun _ _ hs => ⟨κ, hs⟩)

theorem holds_emit (e : Event ν) (hplain : e.plain = true) (hflags : flags [e] = []) :
    Effect.Holds (Tracked env pushed) (emit e) (fun _ => Tracked env pushed)
      (fun _ _ => False) := by
  refine holds_modify _ (fun s hs => ?_)
  rcases hs with ⟨κ, hκ⟩
  refine ⟨κ, tracks_event hκ (.pass κ e hplain) rfl ?_⟩
  rw [hflags, List.length_nil, Nat.add_zero]

/-! ### The database functions -/

/-- The points from index `i` on, up to the first that throws. -/
theorem holds_insertPoints (idDevice : UInt64) (rawDataSet : RawDataSet ν) (part : Part)
    (baseId id : UInt32) (cut : Bool) : ∀ n i : Nat,
    i + n ≤ (rawDataSet.sweep part).dataCount.toNat →
    Effect.Holds (Tracks env pushed (.storing idDevice rawDataSet part baseId id i cut))
      (insertPoints env rawDataSet id (rawDataSet.dataOffset part) n (UInt32.ofNat i))
      (fun _ => Tracks env pushed (.storing idDevice rawDataSet part baseId id (i + n) cut))
      (fun _ s => ∃ j,
        Tracks env pushed (.storing idDevice rawDataSet part baseId id j true) s) := by
  -- Induction on the points that are left; the cursor moves by one for each that is stored.
  intro n
  induction n with
  | zero => exact fun i _ => holds_pure () (fun _ hs => hs)
  | succ n ih =>
      intro i hle
      have hnext : UInt32.ofNat i + 1 = UInt32.ofNat (i + 1) := (UInt32.ofNat_add i 1).symm
      have hrest := ih (i + 1) (by omega)
      rw [← hnext, Nat.add_assoc, Nat.add_comm 1 n] at hrest
      refine holds_bind (Q := fun _ =>
        Tracks env pushed (.storing idDevice rawDataSet part baseId id (i + 1) cut)) ?_
        (fun _ => hrest)
      exact Effect.holds_mono
        (holds_execute _ _ _
          (fun _ _ _ => .point idDevice rawDataSet part baseId id i cut (by omega))
          (fun _ => .noPoint idDevice rawDataSet part baseId id i i cut _))
        (fun _ hs => hs) (fun _ _ hs => hs) (fun _ _ hs => ⟨i, hs⟩)

/-- All points of a sweep, or those before an exception. -/
theorem holds_insertRawDatapoints (idDevice : UInt64) (rawDataSet : RawDataSet ν) (part : Part)
    (baseId id : UInt32) (cut : Bool) :
    Effect.Holds (Tracks env pushed (.storing idDevice rawDataSet part baseId id 0 cut))
      (insertRawDatapoints env rawDataSet (rawDataSet.sweep part).dataCount id
        (rawDataSet.dataOffset part))
      (fun _ s => ∃ i cut', (cut' = true ∨ i = (rawDataSet.sweep part).dataCount.toNat) ∧
        Tracks env pushed (.storing idDevice rawDataSet part baseId id i cut') s)
      (fun _ _ => False) := by
  refine holds_ite (fun _ => holds_catchSql (holds_bind
    (holds_insertPoints idDevice rawDataSet part baseId id cut _ 0 (by omega))
    (fun _ => holds_pure true fun s hs => ?_)) (fun _ s hs => ?_)) (fun hnone => ?_)
  · rw [Nat.zero_add] at hs
    exact ⟨_, cut, Or.inr rfl, hs⟩
  · -- The first exception ends the loop.
    rcases hs with ⟨j, hs⟩
    exact ⟨j, true, Or.inl rfl, hs⟩
  · -- There are no points.
    refine holds_pure true (fun s hs => ⟨0, cut, Or.inr ?_, hs⟩)
    rw [UInt32.not_lt] at hnone
    exact (Nat.le_zero.mp (UInt32.le_iff_toNat_le.mp hnone)).symm

/-- The row of a sweep, from a cursor where it can begin. -/
theorem holds_insertRawDataSweep (κ : Cursor ν) (idDevice : UInt64) (rawDataSet : RawDataSet ν)
    (part : Part) (baseId : UInt32) (cut : Bool)
    (hbegin : ∀ n success, Move env pushed n κ
      (.statement (.insertSweep (rawDataSet.sweep part).startFrequency
        (rawDataSet.sweep part).frequencyIncrement) success)
      (.inserted idDevice rawDataSet part baseId cut success)) :
    Effect.Holds (Tracks env pushed κ) (insertRawDataSweep env (rawDataSet.sweep part))
      (fun id s => ∃ cut',
        Tracks env pushed (.storing idDevice rawDataSet part baseId id 0 cut') s)
      (fun _ _ => False) := by
  have hthrown : ∀ (e : SQLException) s,
      Tracks env pushed (.storing idDevice rawDataSet part baseId 0 0 true) s →
      ∃ cut', Tracks env pushed (.storing idDevice rawDataSet part baseId 0 0 cut') s :=
    fun _ _ hs => ⟨true, hs⟩
  -- A sweep that was not inserted has the id 0, and its points are stored under it.
  refine holds_catchSql ?_ hthrown
  refine holds_bind (holds_execute _ (fun _ => .swept idDevice rawDataSet part baseId cut) _
    (fun n _ _ => hbegin n true) (fun n => hbegin n false)) (fun _ => ?_)
  refine holds_bind (holds_execute _
    (fun row => .storing idDevice rawDataSet part baseId (row.getD 0) 0 cut) _
    (fun n row hrow => .id idDevice rawDataSet part baseId cut row hrow)
    (fun n => .noId idDevice rawDataSet part baseId cut)) (fun row => ?_)
  exact holds_pure _ (fun s hs => ⟨cut, hs⟩)

theorem holds_insertRawDataSweepAndDatapoints (κ : Cursor ν) (idDevice : UInt64)
    (rawDataSet : RawDataSet ν) (part : Part) (baseId : UInt32) (cut : Bool)
    (hbegin : ∀ n success, Move env pushed n κ
      (.statement (.insertSweep (rawDataSet.sweep part).startFrequency
        (rawDataSet.sweep part).frequencyIncrement) success)
      (.inserted idDevice rawDataSet part baseId cut success)) :
    Effect.Holds (Tracks env pushed κ)
      (insertRawDataSweepAndDatapoints env rawDataSet (rawDataSet.sweep part)
        (rawDataSet.dataOffset part))
      (fun id s => ∃ i cut', (cut' = true ∨ i = (rawDataSet.sweep part).dataCount.toNat) ∧
        Tracks env pushed (.storing idDevice rawDataSet part baseId id i cut') s)
      (fun _ _ => False) := by
  -- First the row of the sweep, then its points under the id that was read back.
  refine holds_bind (holds_insertRawDataSweep κ idDevice rawDataSet part baseId cut hbegin)
    (fun id => ?_)
  refine holds_bind (Q := fun _ s => ∃ i cut',
    (cut' = true ∨ i = (rawDataSet.sweep part).dataCount.toNat) ∧
      Tracks env pushed (.storing idDevice rawDataSet part baseId id i cut') s) ?_
    (fun _ => holds_pure id fun _ hs => hs)
  exact holds_exists fun cut' =>
    holds_insertRawDatapoints idDevice rawDataSet part baseId id cut'

/-- A raw data set that was pushed. -/
theorem holds_mysqlInsertRawDataSet (idDevice : UInt64) (rawDataSet : RawDataSet ν)
    (h : pushed idDevice rawDataSet) :
    Effect.Holds (Tracked env pushed) (mysqlInsertRawDataSet env idDevice rawDataSet)
      (fun _ => Tracked env pushed) (fun _ _ => False) := by
  refine holds_exists fun κ => ?_
  refine holds_bind (holds_insertRawDataSweepAndDatapoints κ idDevice rawDataSet .base 0 false
    (fun _ success => .base κ idDevice rawDataSet h success)) (fun baseId => ?_)
  refine holds_bind (Q := fun id s => ∃ i cut',
    (cut' = true ∨ i = (rawDataSet.sweep .afterExposure).dataCount.toNat) ∧
      Tracks env pushed (.storing idDevice rawDataSet .afterExposure baseId id i cut') s)
    ?_ (fun id => ?_)
  · refine holds_exists fun i => holds_exists fun cut => ?_
    intro s hs
    exact holds_insertRawDataSweepAndDatapoints _ idDevice rawDataSet .afterExposure baseId cut
      (fun _ success => .afterExposure idDevice rawDataSet 0 baseId i cut hs.1 success) s hs.2
  · -- The update comes when all points are stored, or one has thrown.
    refine holds_exists fun i => holds_exists fun cut => ?_
    intro s hs
    refine holds_catchSql (holds_bind (holds_execute _
      (fun _ => .storing idDevice rawDataSet .afterExposure baseId id i cut)
      (.storing idDevice rawDataSet .afterExposure baseId id i cut)
      (fun _ _ _ => .refer idDevice rawDataSet baseId id i cut hs.1)
      (fun _ => .pass _ _ rfl)) (fun _ => ?_)) (fun _ t ht => ⟨_, ht⟩) s hs.2
    exact holds_pure true (fun t ht => ⟨_, ht⟩)

theorem holds_catch_plain {β : Type} (st : Statement ν) (f : Option UInt32 → β) (fallback : β)
    (h : ∀ success, (Event.statement st success).plain = true) :
    Effect.Holds (Tracked env pushed)
      (catchSql (do let row ← execute env st; pure (f row)) fallback)
      (fun _ => Tracked env pushed) (fun _ _ => False) :=
  holds_catchSql (holds_bind (holds_execute_plain st h) (fun _ => holds_pure _ fun _ hs => hs))
    (fun _ _ hs => hs)

theorem holds_mysqlInsertDataSet (idDevice : UInt64) (dataSet : DataSet ν) :
    Effect.Holds (Tracked env pushed) (mysqlInsertDataSet env idDevice dataSet)
      (fun _ => Tracked env pushed) (fun _ _ => False) :=
  holds_catchSql (holds_bind (holds_execute_plain _ fun _ => rfl) (fun _ =>
    holds_bind (holds_execute_plain _ fun _ => rfl) (fun _ => holds_pure true fun _ hs => hs)))
    (fun _ _ hs => hs)

/-! ### The handlers -/

theorem holds_respond (topic : Topic) :
    Effect.Holds (Tracked env pushed) (respond topic) (fun _ => Tracked env pushed)
      (fun _ _ => False) :=
  holds_bind (holds_emit _ rfl rfl) (fun _ =>
    holds_bind (holds_emit _ rfl rfl) (fun _ => holds_emit _ rfl rfl))

theorem holds_handleOther : ∀ queries responses : Nat,
    Effect.Holds (Tracked env pushed) (handleOther env queries responses)
      (fun _ => Tracked env pushed) (fun _ _ => False) := by
  intro queries
  induction queries with
  | zero =>
      intro responses
      induction responses with
      | zero =>
          rw [handleOther]
          exact holds_pure () (fun _ hs => hs)
      | succ responses ih =>
          rw [handleOther]
          exact holds_bind (holds_respond .other) (fun _ => ih)
  | succ queries ih =>
      intro responses
      rw [handleOther]
      exact holds_bind (holds_catch_plain .query (fun _ => true) false fun _ => rfl)
        (fun _ => ih responses)

/-- The session changes, and its log does not. -/
theorem tracked_same {s t : Session ν} (hs : Tracked env pushed s) (hevents : t.events = s.events)
    (hstatements : t.statements = s.statements) : Tracked env pushed t := by
  rcases hs with ⟨κ, hfollows, hlen⟩
  exact ⟨κ, by rw [hevents]; exact hfollows, by rw [hevents, hstatements]; exact hlen⟩

theorem holds_storeTransfer (L : Layout ν) (s : Session ν) (hs : Tracked env pushed s)
    (h : pushed s.idDevice (L.rawDataSet (s.rawDataSetAssemblyBuffer.getD []))) :
    Effect.Holds (fun t => t = s) (storeTransfer L env) (fun _ => Tracked env pushed)
      (fun _ _ => False) := by
  refine holds_bind (Q := fun t u => t = s ∧ u = s) (holds_get fun t ht => ⟨ht, ht⟩) (fun t => ?_)
  rintro u ⟨rfl, rfl⟩
  refine holds_bind (holds_mysqlInsertRawDataSet _ _ h) (fun _ => ?_) u hs
  refine holds_bind (holds_catch_plain (.updateDataRequired 0 _ _) (fun _ => true) false
    fun _ => rfl) (fun _ => ?_)
  refine holds_bind (holds_respond _) (fun _ => holds_modify _ fun v hv => ?_)
  exact tracked_same hv rfl rfl

/-- The requests that are not about raw data that arrive. -/
theorem holds_handleRequest (L : Layout ν) (r : Request L) (h : ∀ block, r ≠ .rawDataPush block) :
    Effect.Holds (Tracked env pushed) (handleRequest L env r) (fun _ => Tracked env pushed)
      (fun _ _ => False) := by
  have hend : ∀ more : Bool, Effect.Holds (Tracked env pushed) (pure more : PushM ν Bool)
      (fun _ => Tracked env pushed) (fun _ _ => False) :=
    fun more => holds_pure more fun _ hs => hs
  have hget : Effect.Holds (Tracked env pushed) (get : PushM ν (Session ν))
      (fun _ => Tracked env pushed) (fun _ _ => False) := holds_get fun _ hs => hs
  -- No request but a push stores, so the cursor stays where a store has left it.
  cases r with
  | rawDataPush block => exact absurd rfl (h block)
  | goodbye => exact hend false
  | dataLogPush dataSet =>
      refine holds_bind (holds_bind hget fun s => ?_) (fun _ => hend true)
      exact holds_bind (holds_mysqlInsertDataSet s.idDevice dataSet) (fun _ => holds_respond _)
  | deviceRegister idDevice =>
      refine holds_bind (holds_bind (holds_modify _ fun s hs => ?_) fun _ => holds_respond _)
        (fun _ => hend true)
      exact tracked_same hs rfl rfl
  | rawDataRequired =>
      refine holds_bind (holds_bind hget fun s => ?_) (fun _ => hend true)
      exact holds_bind (holds_catch_plain (.selectDataRequired s.idDevice) (fun row => row.getD 0)
        0 fun _ => rfl) (fun _ => holds_respond _)
  | other queries responses =>
      exact holds_bind (holds_handleOther queries responses) (fun _ => hend true)

end Rules

/-- A request keeps to the rules, with the raw data sets the connection has
    received. -/
theorem tracked_step (L : Layout ν) (env : Environment) (s t : Session ν) (r : Request L)
    (hreach : (sessions L env).Reaches (Session.opened ν) s)
    (hs : Tracked env (Pushed L env) s) (hstep : (sessions L env).step s r = some t) :
    Tracked env (Pushed L env) t := by
  by_cases hpush : ∃ block, r = .rawDataPush block
  · rcases hpush with ⟨block, rfl⟩
    have hquiet := quiet_receiveBlock L env block s
    rcases rawDataPush_step L env s t block hstep with hincomplete | ⟨u, hcomplete, hstored⟩
    · rw [hincomplete] at hquiet
      exact tracked_same hs hquiet.1 hquiet.2.1
    · rw [hcomplete] at hquiet
      -- The raw data set is the one this block completes.
      have hpushed : Pushed L env u.idDevice (L.rawDataSet (u.rawDataSetAssemblyBuffer.getD [])) :=
        ⟨s, block, hreach, hquiet.2.2.symm, by rw [completedSet, hcomplete]⟩
      have hend := holds_storeTransfer L u (tracked_same hs hquiet.1 hquiet.2.1) hpushed u rfl
      rw [hstored] at hend
      exact hend
  · rw [not_exists] at hpush
    have hend := holds_handleRequest L r hpush s hs
    simp only [sessions, sessionStep] at hstep
    split at hstep
    · rename_i hrun
      rw [hrun] at hend
      rw [← Option.some.inj hstep]
      exact hend
    · simp only [reduceCtorEq] at hstep
    · simp only [reduceCtorEq] at hstep

/-- The log of a connection, however many requests it has sent. -/
theorem reaches_tracked (L : Layout ν) (env : Environment) (s : Session ν)
    (h : (sessions L env).Reaches (Session.opened ν) s) : Tracked env (Pushed L env) s :=
  Machine.invariant_of (K := fun t => (sessions L env).Reaches (Session.opened ν) t) h
    (fun _ ht => Machine.reaches_of_reachesBy ht) ⟨.idle, .nil, rfl⟩
    (fun t r u ht htracked _ hstep => tracked_step L env t u r ht htracked hstep)

/-- The cursor along a log. -/
theorem path_of_follows {env : Environment} {pushed : UInt64 → RawDataSet ν → Prop}
    {E : List (Event ν)} {κ : Cursor ν} (h : Follows env pushed E κ) :
    ∃ path : Nat → Cursor ν, path 0 = .idle ∧ path E.length = κ ∧
      ∀ i e, E[i]? = some e →
        Move env pushed (flags (E.take i)).length (path i) e (path (i + 1)) := by
  -- The path of a longer log is the old one with the new cursor behind it.
  induction h with
  | nil => exact ⟨fun _ => .idle, rfl, rfl, fun i e he => by
      simp only [List.getElem?_nil, reduceCtorEq] at he⟩
  | snoc E e κ κ' _ hmove ih =>
      rcases ih with ⟨path, hstart, hend, hpath⟩
      refine ⟨fun i => if i ≤ E.length then path i else κ', ?_, ?_, fun i e' he => ?_⟩
      · simp only [Nat.zero_le, if_true, hstart]
      · simp only [List.length_append, List.length_singleton, Nat.not_succ_le_self, if_false]
      · by_cases hi : i < E.length
        · rw [List.getElem?_append_left hi] at he
          rw [List.take_append_of_le_length hi.le]
          simp only [hi.le, Nat.succ_le_of_lt hi, if_true]
          exact hpath i e' he
        · -- The last event.
          have hlen := (List.getElem?_eq_some_iff.mp he).1
          rw [List.length_append, List.length_singleton] at hlen
          have hi' : i = E.length := by omega
          subst hi'
          rw [List.getElem?_append_right le_rfl, Nat.sub_self, List.getElem?_cons_zero,
            Option.some.injEq] at he
          rw [List.take_left' rfl, ← he]
          simp only [le_rfl, Nat.not_succ_le_self, if_true, if_false, hend]
          exact hmove

end Push

end EpollServer
