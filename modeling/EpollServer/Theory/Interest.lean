import EpollServer.Lib.Effect
import EpollServer.Core.Requests
import EpollServer.Theory.Json
import EpollServer.Theory.Push
import EpollServer.Theory.Link

/-!
# The Events a Socket is Registered for

A handler that sends registers its socket for `EPOLLOUT`, and whoever waits for
the client next has to find it registered for `EPOLLIN`: `readAck` as well as
the next pass of `connectionHandler`.

The functions nest. A handler sets `EPOLLOUT`, calls `amilinkSendMessage`,
which sets both events at each attempt and may make none, and sets `EPOLLIN`.
So there are two conditions on a state. `Attentive` says that no wait has
found the wrong event and that no other socket was touched. `Calm` says in
addition that the socket is registered for `EPOLLIN`. Every function of the
server starts and ends `Calm`, whether it returns or throws; sending starts in
any `Attentive` state and waits in a `Calm` one; and a response starts
`Attentive` and ends `Calm`, which is why a response inside a failed loop does
no harm (`settles_fileErrorResponse`).

The handlers of the pushes are described by what they record: statements, and
whole responses (`Balanced`).

## Main definitions

* `Push.Balanced`: Statements and whole responses.
* `Attentive`, `Calm`: The conditions on a state.
* `Keeps`: From `Calm` to `Calm`.
* `Settles`: From `Attentive` to `Calm`.

## Theorems

* `Push.balanced_handleRequest`: What the handlers of the pushes record.
* `holds_setEvents`: A modification.
* `holds_linkSendData`: An attempt waits in a calm state.
* `settles_respond`: A response.
* `keeps_push`, `keeps_sendChunks`, `keeps_firmwareLoop`: The parts of the
  handlers.
* `keeps_handleRequest`, `keeps_amilinkReadMessage`, `keeps_amilinkHeartbeat`:
  What the server does on a connection.
* `never_deaf`: The socket is registered for `EPOLLIN` whenever it should be.
-/

namespace EpollServer

open Effect (Holds holds_pure holds_throw holds_modify holds_get holds_bind holds_ite holds_mono)

/-! ### What the handlers of the pushes record -/

namespace Push

variable {ν : Type}

/-- Statements and whole responses. -/
inductive Balanced : List (Event ν) → Prop
  | nil : Balanced []
  | statement (st : Statement ν) (success : Bool) {E : List (Event ν)} :
      Balanced E → Balanced (.statement st success :: E)
  | response (topic : Topic) {E : List (Event ν)} : Balanced E →
      Balanced (.modifyEpollEvent .epollOut :: .send topic :: .modifyEpollEvent .epollIn :: E)

theorem balanced_append {E F : List (Event ν)} (hE : Balanced E) (hF : Balanced F) :
    Balanced (E ++ F) := by
  induction hE with
  | nil => exact hF
  | statement st success _ ih => exact .statement st success ih
  | response topic _ ih => exact .response topic ih

/-- Since some point only statements and whole responses were recorded. -/
def BalancedSince (L : List (Event ν)) (s : Session ν) : Prop := ∃ E, s.events = L ++ E ∧ Balanced E

/-- A function that records statements and whole responses. -/
def Records {ε β : Type} (x : EStateM ε (Session ν) β) : Prop :=
  ∀ L, Effect.Holds (BalancedSince L) x (fun _ => BalancedSince L) fun _ => BalancedSince L

theorem records_pure {ε β : Type} (b : β) : Records (pure b : EStateM ε (Session ν) β) :=
  fun _ => holds_pure b fun _ hs => hs

theorem records_bind {ε β γ : Type} {x : EStateM ε (Session ν) β}
    {f : β → EStateM ε (Session ν) γ} (hx : Records x) (hf : ∀ b, Records (f b)) :
    Records (x >>= f) := fun L => holds_bind (hx L) fun b => hf b L

theorem records_get {ε β : Type} {f : Session ν → EStateM ε (Session ν) β}
    (hf : ∀ s, Records (f s)) : Records (get >>= f) :=
  fun L => holds_bind (Q := fun _ => BalancedSince L) (holds_get fun _ hs => hs) fun s => hf s L

/-- A change of the other fields. -/
theorem records_modify {ε : Type} (g : Session ν → Session ν) (hg : ∀ s, (g s).events = s.events) :
    Records (modify g : EStateM ε (Session ν) PUnit) :=
  fun L => holds_modify g fun s hs => by
    rcases hs with ⟨E, hE, hbal⟩
    exact ⟨E, (hg s).trans hE, hbal⟩

theorem records_execute (env : Environment) (st : Statement ν) : Records (execute env st) := by
  rintro L s ⟨E, hE, hbal⟩
  have hrec : ∀ success : Bool, BalancedSince L { s with
      statements := s.statements + 1,
      events := s.events ++ [.statement st success] } := fun success =>
    ⟨E ++ [.statement st success], by simp only [hE, List.append_assoc],
      balanced_append hbal (.statement st success .nil)⟩
  unfold execute
  cases env.outcomes s.statements with
  | done row => exact hrec _
  | exception => exact hrec _

theorem records_catchSql {β : Type} (body : SqlM ν β) (fallback : β) (h : Records body) :
    Records (catchSql body fallback) := by
  intro L s hs
  have hend := h L s hs
  unfold catchSql
  -- Caught or not, what was recorded up to the exception stays.
  cases hrun : body s with
  | ok b t =>
      rw [hrun] at hend
      exact hend
  | error e t =>
      rw [hrun] at hend
      exact hend

theorem records_respond (topic : Topic) : Records (respond (ν := ν) topic) := by
  rintro L s ⟨E, hE, hbal⟩
  change BalancedSince L { s with
    events := s.events ++ [.modifyEpollEvent .epollOut] ++ [.send topic] ++
      [.modifyEpollEvent .epollIn] }
  refine ⟨E ++ [.modifyEpollEvent .epollOut, .send topic, .modifyEpollEvent .epollIn], ?_,
    balanced_append hbal (.response topic .nil)⟩
  simp only [hE, List.append_assoc, List.cons_append, List.nil_append]

theorem records_insertPoints (env : Environment) (rawDataSet : RawDataSet ν)
    (sweepId dataOffset : UInt32) : ∀ (n : Nat) (i : UInt32),
    Records (insertPoints env rawDataSet sweepId dataOffset n i) := by
  intro n
  induction n with
  | zero => exact fun _ => records_pure ()
  | succ n ih => exact fun i => records_bind (records_execute env _) fun _ => ih (i + 1)

theorem records_sweep (env : Environment) (rawDataSet : RawDataSet ν) (sweep : RawDataSweep ν)
    (dataOffset : UInt32) :
    Records (insertRawDataSweepAndDatapoints env rawDataSet sweep dataOffset) := by
  refine records_bind ?_ fun id => records_bind ?_ fun _ => records_pure id
  · exact records_catchSql _ _ (records_bind (records_execute env _) fun _ =>
      records_bind (records_execute env _) fun row => records_pure _)
  · unfold insertRawDatapoints
    split
    · exact records_catchSql _ _ (records_bind (records_insertPoints env _ _ _ _ _)
        fun _ => records_pure true)
    · exact records_pure true

theorem records_mysqlInsertRawDataSet (env : Environment) (idDevice : UInt64)
    (rawDataSet : RawDataSet ν) : Records (mysqlInsertRawDataSet env idDevice rawDataSet) :=
  records_bind (records_sweep env _ _ _) fun _ => records_bind (records_sweep env _ _ _) fun _ =>
    records_catchSql _ _ (records_bind (records_execute env _) fun _ => records_pure true)

/-- A function that leaves the log alone. -/
theorem records_of_quiet {β : Type} {f : PushM ν β} (hf : Quiet f) : Records f := by
  rintro L s ⟨E, hE, hbal⟩
  have hquiet := (hf s).1
  cases hrun : f s with
  | ok b t =>
      rw [hrun] at hquiet
      exact ⟨E, hquiet.trans hE, hbal⟩
  | error e t =>
      rw [hrun] at hquiet
      exact ⟨E, hquiet.trans hE, hbal⟩

theorem records_handleDataLogPushRequest (env : Environment) (dataSet : DataSet ν) :
    Records (handleDataLogPushRequest env dataSet) := by
  refine records_get fun s => records_bind ?_ fun _ => records_respond _
  exact records_catchSql _ _ (records_bind (records_execute env _) fun _ =>
    records_bind (records_execute env _) fun _ => records_pure true)

theorem records_handleRawDataPushRequest (L : Layout ν) (env : Environment)
    (block : MqsCldFile L.payloadMax) : Records (handleRawDataPushRequest L env block) := by
  refine records_bind (records_of_quiet (quiet_receiveBlock L env block)) fun complete => ?_
  cases complete with
  | false => exact records_pure ()
  | true =>
      refine records_get fun s => records_bind (records_mysqlInsertRawDataSet env _ _) fun _ =>
        records_bind ?_ fun _ => records_bind (records_respond _) fun _ =>
        records_modify _ fun _ => rfl
      exact records_catchSql _ _ (records_bind (records_execute env _) fun _ => records_pure true)

theorem records_handleRawDataRequiredRequest (env : Environment) :
    Records (ν := ν) (handleRawDataRequiredRequest env) := by
  refine records_get fun s => records_bind ?_ fun _ => records_respond _
  exact records_catchSql _ _ (records_bind (records_execute env _) fun _ => records_pure _)

theorem records_handleOther (env : Environment) : ∀ queries responses : Nat,
    Records (ν := ν) (handleOther env queries responses) := by
  intro queries
  -- Induction on the queries, then on the responses.
  induction queries with
  | zero =>
      intro responses
      induction responses with
      | zero =>
          rw [handleOther]
          exact records_pure ()
      | succ responses ih =>
          rw [handleOther]
          exact records_bind (records_respond .other) fun _ => ih
  | succ queries ih =>
      intro responses
      rw [handleOther]
      refine records_bind ?_ fun _ => ih responses
      exact records_catchSql _ _ (records_bind (records_execute env _) fun _ => records_pure true)

/-- What a request of `Core.Push` records. -/
theorem records_handleRequest (L : Layout ν) (env : Environment) (r : Request L) :
    Records (handleRequest L env r) := by
  cases r with
  | dataLogPush dataSet =>
      exact records_bind (records_handleDataLogPushRequest env dataSet) fun _ => records_pure true
  | deviceRegister idDevice =>
      exact records_bind (records_bind (records_modify _ fun _ => rfl) fun _ => records_respond _)
        fun _ => records_pure true
  | goodbye => exact records_pure false
  | rawDataPush block =>
      exact records_bind (records_handleRawDataPushRequest L env block) fun _ => records_pure true
  | rawDataRequired =>
      exact records_bind (records_handleRawDataRequiredRequest env) fun _ => records_pure true
  | other queries responses =>
      exact records_bind (records_handleOther env queries responses) fun _ => records_pure true

/-- A request that does not crash records statements and whole responses. -/
theorem balanced_handleRequest (L : Layout ν) (env : Environment) (r : Request L)
    (s t : Session ν) (more : Bool) (h : handleRequest L env r s = .ok more t) :
    Balanced (t.events.drop s.events.length) := by
  have hend := records_handleRequest L env r s.events s ⟨[], (List.append_nil _).symm, .nil⟩
  rw [h] at hend
  rcases hend with ⟨E, hE, hbal⟩
  rw [hE, List.drop_left]
  exact hbal

end Push

/-! ### The link -/

namespace Requests

open Library (Json Interruption LibraryFile)
open Push (Balanced)

variable {ν : Type}

/-- No wait has found the wrong event since some point, and no other socket was
    touched. -/
structure Attentive (X : Context ν) (f : Nat → Epoll.Interest)
    (L : List (Event X.layout.payloadMax))
    (w : World ν X.layout.payloadMax) : Prop where
  others : ∀ fd, fd ≠ X.connection → w.interest fd = f fd
  awaits : ∃ E, w.log = L ++ E ∧ ∀ registered, .awaitAck registered ∈ E → registered = .epollIn

/-- The socket is registered for `EPOLLIN` as well. -/
structure Calm (X : Context ν) (f : Nat → Epoll.Interest) (L : List (Event X.layout.payloadMax))
    (w : World ν X.layout.payloadMax) : Prop extends Attentive X f L w where
  registered : w.interest X.connection = .epollIn

variable {X : Context ν} {f : Nat → Epoll.Interest} {L : List (Event X.layout.payloadMax)}

/-- From `Calm` to `Calm`. -/
def Keeps (X : Context ν) (f : Nat → Epoll.Interest) (L : List (Event X.layout.payloadMax))
    {β : Type} (x : X.M β) : Prop :=
  Holds (Calm X f L) x (fun _ => Calm X f L) (fun _ => Calm X f L)

/-- From `Attentive` to `Calm`. -/
def Settles (X : Context ν) (f : Nat → Epoll.Interest) (L : List (Event X.layout.payloadMax))
    {β : Type} (x : X.M β) : Prop :=
  Holds (Attentive X f L) x (fun _ => Calm X f L) (fun _ => Calm X f L)

theorem keeps_pure {β : Type} (b : β) : Keeps X f L (pure b : X.M β) :=
  holds_pure b fun _ hw => hw

theorem keeps_throw {β : Type} (e : Interruption) : Keeps X f L (throw e : X.M β) :=
  holds_throw e fun _ hw => hw

theorem keeps_bind {β γ : Type} {x : X.M β} {g : β → X.M γ} (hx : Keeps X f L x)
    (hg : ∀ b, Keeps X f L (g b)) : Keeps X f L (x >>= g) := holds_bind hx hg

theorem keeps_get {β : Type} {g : World ν X.layout.payloadMax → X.M β}
    (hg : ∀ w, Keeps X f L (g w)) : Keeps X f L (get >>= g) :=
  holds_bind (Q := fun _ => Calm X f L) (holds_get fun _ hw => hw) hg

theorem keeps_of_settles {β : Type} {x : X.M β} (h : Settles X f L x) : Keeps X f L x :=
  holds_mono h (fun _ hw => hw.toAttentive) (fun _ _ hw => hw) fun _ _ hw => hw

/-- A change of other fields. -/
theorem Calm.of_eq {w t : World ν X.layout.payloadMax} (hw : Calm X f L w)
    (hinterest : t.interest = w.interest) (hlog : t.log = w.log) : Calm X f L t where
  others := by rw [hinterest]; exact hw.others
  awaits := by rw [hlog]; exact hw.awaits
  registered := by rw [hinterest]; exact hw.registered

/-- One more record, unless it is a wait for the wrong event. -/
theorem Attentive.record {w t : World ν X.layout.payloadMax} (hw : Attentive X f L w)
    (e : Event X.layout.payloadMax) (he : ∀ registered, e = .awaitAck registered →
      registered = .epollIn) (hinterest : t.interest = w.interest) (hlog : t.log = w.log ++ [e]) :
    Attentive X f L t where
  others := by rw [hinterest]; exact hw.others
  awaits := by
    rcases hw.awaits with ⟨E, hE, hin⟩
    refine ⟨E ++ [e], by rw [hlog, hE, List.append_assoc], fun registered hmem => ?_⟩
    rcases List.mem_append.mp hmem with hmem | hmem
    · exact hin registered hmem
    · exact he registered (List.mem_singleton.mp hmem).symm

theorem Calm.record {w t : World ν X.layout.payloadMax} (hw : Calm X f L w)
    (e : Event X.layout.payloadMax) (he : ∀ registered, e = .awaitAck registered →
      registered = .epollIn) (hinterest : t.interest = w.interest) (hlog : t.log = w.log ++ [e]) :
    Calm X f L t where
  toAttentive := hw.toAttentive.record e he hinterest hlog
  registered := by rw [hinterest]; exact hw.registered

/-- A record that is no wait. -/
theorem attentive_emit (e : Event X.layout.payloadMax)
    (he : ∀ registered, e ≠ .awaitAck registered) :
    Holds (Attentive X f L) (emit X e) (fun _ => Attentive X f L) (fun _ => Calm X f L) :=
  holds_modify _ fun _ hw => hw.record e (fun i hi => absurd hi (he i)) rfl rfl

/-- In a calm state `readAck` waits for the right event. -/
theorem keeps_readAck : Keeps X f L (readAck X) := by
  intro w hw
  refine hw.record (.awaitAck (w.interest X.connection)) (fun registered he => ?_) rfl rfl
  rw [Event.awaitAck.injEq] at he
  rw [← he, hw.registered]

theorem keeps_lift {β : Type} (x : Except Interruption β) : Keeps X f L (lift X x) := by
  cases x with
  | ok b => exact keeps_pure b
  | error e => exact keeps_throw e

theorem keeps_query (q : Query) : Keeps X f L (query X q) := by
  intro w hw
  exact hw.record (.query q) (fun registered h => by cases h) rfl rfl

/-- An exception is handled where it was thrown, in a calm state. -/
theorem keeps_catchException {body handler : X.M Unit} (hbody : Keeps X f L body)
    (hhandler : Keeps X f L handler) : Keeps X f L (catchException X body handler) := by
  intro w hw
  have hend := hbody w hw
  unfold catchException
  cases hrun : body w with
  | ok b t =>
      rw [hrun] at hend
      exact hend
  | error e t =>
      rw [hrun] at hend
      cases e with
      -- The other two end the whole request.
      | exception => exact hhandler t hend
      | undefined => exact hend
      | unfinished => exact hend

section Modifications

variable (hmod : ∀ n, X.modifications n = true)
include hmod

/-- A modification sets the events of the connection. -/
theorem setEvents_run (events : Epoll.Interest) (w : World ν X.layout.payloadMax) :
    setEvents X events w = .ok () { w with
      interest := Function.update w.interest X.connection events
      modified := w.modified + 1 } := by
  change EStateM.Result.ok () _ = _
  rw [hmod w.modified, if_pos rfl]

theorem attentive_setEvents (events : Epoll.Interest) :
    Holds (Attentive X f L) (setEvents X events) (fun _ => Attentive X f L)
      (fun _ => Calm X f L) := by
  intro w hw
  rw [setEvents_run hmod]
  exact ⟨fun fd hfd => by rw [← hw.others fd hfd]; exact Function.update_of_ne hfd _ _, hw.awaits⟩

theorem settles_epollIn : Settles X f L (setEvents X .epollIn) := by
  intro w hw
  have hatt := attentive_setEvents hmod .epollIn w hw
  rw [setEvents_run hmod] at hatt ⊢
  exact ⟨hatt, Function.update_self _ _ _⟩

/-! ### Sending -/

/-- An attempt to send waits in a calm state. -/
theorem settles_linkSendData (response : Response X.layout.payloadMax) (length : UInt16) :
    Settles X f L (Link.linkSendData (port X) response length) := by
  refine holds_bind (attentive_setEvents hmod .epollOut) fun _ => holds_bind
    (attentive_emit _ fun registered h => by cases h) fun _ => ?_
  -- The second modification comes before the wait, and not behind it.
  refine holds_bind (settles_epollIn hmod) fun _ => ?_
  exact keeps_bind keeps_readAck fun acknowledged => keeps_pure _

theorem attentive_sendRetry (response : Response X.layout.payloadMax) (length : UInt16) :
    ∀ (attempts : Nat) (dataSent : UInt16),
    Holds (Attentive X f L) (Link.sendRetry (port X) response length attempts dataSent)
      (fun _ => Attentive X f L) (fun _ => Calm X f L) := by
  intro attempts
  induction attempts with
  -- Without an attempt nothing sets `EPOLLIN`, so no more than this holds.
  | zero => exact fun dataSent => holds_pure dataSent fun _ hw => hw
  | succ attempts ih =>
      intro dataSent
      refine holds_ite (fun _ => holds_pure dataSent fun _ hw => hw) fun _ => ?_
      refine holds_bind (settles_linkSendData hmod response length) fun sent => ?_
      exact holds_mono (ih sent) (fun _ hw => hw.toAttentive) (fun _ _ hw => hw) fun _ _ hw => hw

theorem attentive_amilinkSendMessage (response : Response X.layout.payloadMax) :
    Holds (Attentive X f L) (amilinkSendMessage X response) (fun _ => Attentive X f L)
      (fun _ => Calm X f L) := by
  refine holds_bind (Q := fun _ => Attentive X f L)
    (holds_modify _ fun _ hw => ⟨hw.others, hw.awaits⟩) fun _ => ?_
  refine holds_bind (attentive_sendRetry hmod response _ _ _) fun dataSent => ?_
  refine holds_bind (Q := fun _ => Attentive X f L) (holds_modify _ fun _ hw => ?_)
    fun _ => holds_pure dataSent fun _ hw => hw
  exact hw.record (.message response dataSent) (fun registered h => by cases h) rfl rfl

/-- A response ends in a calm state. -/
theorem settles_respond (response : Response X.layout.payloadMax) :
    Settles X f L (respond X response) :=
  holds_bind (attentive_setEvents hmod .epollOut) fun _ =>
    holds_bind (attentive_amilinkSendMessage hmod response) fun _ => settles_epollIn hmod

/-- So does the zero response of a failed loop. -/
theorem settles_fileErrorResponse : Settles X f L (fileErrorResponse X) := settles_respond hmod _

/-! ### The pushes -/

/-- The message of a response is sent between two modifications. -/
theorem attentive_perform (topic : Push.Topic) :
    Holds (Attentive X f L) (perform X (.send topic)) (fun _ => Attentive X f L)
      (fun _ => Calm X f L) := by
  have hsend : ∀ response, Holds (Attentive X f L)
      (do let _ ← amilinkSendMessage X response; pure ()) (fun _ => Attentive X f L)
      (fun _ => Calm X f L) := fun response =>
    holds_bind (attentive_amilinkSendMessage hmod response) fun _ => holds_pure () fun _ hw => hw
  cases topic with
  | dataLogPushResponse => exact hsend _
  | rawDataPushResponse => exact hsend _
  | rawDataRequiredResponse idMeasurement => exact hsend _
  | deviceRegisterResponse => exact hsend _
  | other => exact holds_pure () fun _ hw => hw

theorem keeps_performAll {E : List (Push.Event ν)} (hE : Balanced E) :
    Keeps X f L (performAll X E) := by
  induction hE with
  | nil => exact keeps_pure ()
  | statement st success _ ih => exact keeps_bind (keeps_pure ()) fun _ => ih
  | response topic _ ih =>
      refine keeps_of_settles (holds_bind (attentive_setEvents hmod .epollOut) fun _ => ?_)
      refine holds_bind (attentive_perform hmod topic) fun _ => ?_
      exact holds_bind (settles_epollIn hmod) fun _ => ih

/-- A request of `Core.Push`. -/
theorem keeps_push (r : Push.Request X.layout) : Keeps X f L (push X r) := by
  intro w hw
  unfold push
  cases hrun : Push.handleRequest X.layout X.push r w.session with
  | error crash s => exact hw.of_eq rfl rfl
  | ok more s =>
      have hbal := Push.balanced_handleRequest X.layout X.push r w.session s more hrun
      exact keeps_bind (keeps_performAll hmod hbal) (fun _ => keeps_pure more) _
        (hw.of_eq rfl rfl)

/-! ### The other handlers -/

theorem keeps_handleDataFetchRequest : Keeps X f L (handleDataFetchRequest X) := by
  refine keeps_get fun w => keeps_bind (keeps_bind (keeps_query _) fun n => keeps_pure _)
    fun companyID => ?_
  have hbatches : Keeps X f L (companyBatches X companyID) :=
    holds_ite (fun _ => keeps_pure _) fun _ => keeps_bind (keeps_query _) fun n => keeps_pure _
  have hfill : ∀ batchInfobuffer, Keeps X f L (fillBatches X batchInfobuffer) :=
    fun batchInfobuffer => holds_ite (fun _ => keeps_pure _) fun _ => keeps_lift _
  exact keeps_bind hbatches fun batchInfobuffer => keeps_bind (hfill batchInfobuffer)
    fun batchStruct => keeps_of_settles (settles_respond hmod _)

theorem keeps_handleVersionRequest (pre post : List UInt8) (algoVersion : UInt32) :
    Keeps X f L (handleVersionRequest X pre post algoVersion) := by
  have hcompare : ∀ version, Keeps X f L (compareVersions X version algoVersion) := fun version =>
    holds_modify _ fun w hw => by
      by_cases hne : version ≠ algoVersion
      · rw [if_pos hne]
        exact hw.of_eq rfl rfl
      · rw [if_neg hne]
        exact hw
  refine keeps_bind (holds_ite (fun _ => ?_) fun _ => keeps_lift _) fun version =>
    keeps_of_settles (settles_respond hmod _)
  exact keeps_bind (hcompare _) fun _ => keeps_pure _

/-! ### Files -/

/-- After each chunk the state is calm, and after a failed one too. -/
theorem keeps_sendChunks (updatedJson : List UInt8) :
    ∀ (fuel remain offset : Nat) (data : Vector UInt8 X.layout.payloadMax),
    Keeps X f L (sendChunks X updatedJson fuel remain offset data) := by
  intro fuel
  induction fuel with
  | zero => exact fun _ _ _ => keeps_throw _
  | succ fuel ih =>
      intro remain offset data
      refine holds_ite (fun _ => ?_) fun _ => keeps_pure ()
      refine keeps_of_settles (holds_bind (attentive_setEvents hmod .epollOut) fun _ => ?_)
      refine holds_bind (attentive_amilinkSendMessage hmod _) fun dataSent => ?_
      -- The error response leaves the loop before the handler sets `EPOLLIN` itself.
      refine holds_ite (fun _ => settles_fileErrorResponse hmod) fun _ => ?_
      exact holds_bind (settles_epollIn hmod) fun _ => ih _ _ _

theorem keeps_sendAlgoFile (fuel : Nat) (requestedIds : List Int) (filename : List UInt8) :
    Keeps X f L (sendAlgoFile X fuel requestedIds filename) := by
  unfold sendAlgoFile
  cases X.file (Library.path filename) with
  | closed => exact keeps_throw _
  | malformed => exact keeps_throw _
  -- The shared variable is no part of what is recorded here.
  | json originalJson =>
      have hneeded : Keeps X f L
          (modify fun w => { w with isAlgorithmNeeded := false } : X.M PUnit) :=
        holds_modify _ fun w hw => hw.of_eq rfl rfl
      have halgorithm : Keeps X f L (takeAlgorithm X originalJson) :=
        keeps_get fun w => holds_ite (fun _ => keeps_bind (keeps_lift _) fun algorithm =>
          keeps_bind hneeded fun _ => keeps_pure _) fun _ => keeps_pure _
      exact keeps_bind halgorithm fun algorithm => keeps_bind (keeps_lift _) fun meatTypes =>
        keeps_bind (keeps_lift _) fun filteredMeatTypes => keeps_sendChunks hmod _ _ _ _ _

theorem keeps_handleAlgoRequest (fuel : Nat) (filename : List UInt8) :
    Keeps X f L (handleAlgoRequest X fuel filename) :=
  keeps_get fun _ => keeps_bind (keeps_bind (keeps_query _) fun _ => keeps_pure _) fun _ =>
    keeps_bind (keeps_bind (keeps_query _) fun _ => keeps_pure _) fun requestedIds =>
      keeps_catchException (keeps_sendAlgoFile hmod fuel requestedIds filename)
        (keeps_of_settles (settles_fileErrorResponse hmod))

theorem keeps_firmwareLoop (totalLength : UInt32) :
    ∀ (fuel : Nat) (remain offset : UInt32) (ok : Bool) (data : Vector UInt8 X.layout.payloadMax),
    Keeps X f L (firmwareLoop X totalLength fuel remain offset ok data) := by
  -- Induction on the fuel: a pass that goes on has set the mask to `EPOLLIN` last.
  intro fuel
  induction fuel with
  | zero => exact fun _ _ _ _ => keeps_throw _
  | succ fuel ih =>
      intro remain offset ok data
      refine holds_ite (fun _ => ?_) fun _ => keeps_pure ok
      have hread : Keeps X f L (read X) := fun w hw => hw.of_eq rfl rfl
      refine keeps_bind hread fun result => holds_ite (fun _ => ?_) fun _ => ih _ _ _ _
      refine keeps_of_settles (holds_bind (attentive_setEvents hmod .epollOut) fun _ => ?_)
      refine holds_bind (attentive_amilinkSendMessage hmod _) fun dataSent => ?_
      exact holds_bind (settles_epollIn hmod) fun _ => ih _ _ _ _

theorem keeps_handleFirmwareRequest (fuel : Nat) (filename : List UInt8) :
    Keeps X f L (handleFirmwareRequest X fuel filename) := by
  have hseek : Keeps X f L (lseek X) := fun w hw => hw.of_eq rfl rfl
  have hsend : Keeps X f L (sendFirmware X fuel filename) :=
    holds_ite (fun _ => keeps_bind hseek fun totalLength =>
      holds_ite (fun _ => keeps_pure false) fun _ => keeps_bind hseek fun status =>
        holds_ite (fun _ => keeps_pure false) fun _ => keeps_firmwareLoop hmod _ _ _ _ _ _)
      fun _ => keeps_pure false
  exact keeps_bind hsend fun ok => holds_ite (fun _ => keeps_pure ()) fun _ =>
    keeps_of_settles (settles_fileErrorResponse hmod)

theorem keeps_handleFileRequest (fuel : Nat) (filename : List UInt8) :
    Keeps X f L (handleFileRequest X fuel filename) :=
  holds_ite (fun _ => holds_ite (fun _ => keeps_handleAlgoRequest hmod fuel filename) fun _ =>
    holds_ite (fun _ => keeps_handleFirmwareRequest hmod fuel filename) fun _ => keeps_pure ())
    fun _ => keeps_pure ()

/-! ### The server -/

/-- A request. -/
theorem keeps_handleRequest (fuel : Nat) (request : List UInt8) :
    Keeps X f L (handleRequest X fuel request) := by
  unfold handleRequest
  -- The topics of the device's requests run a handler; all others fall through the switch.
  cases X.request.topic.get request with
  | dataLogPushRequest => exact keeps_push hmod _
  | deviceRegisterRequest => exact keeps_push hmod _
  | fileRequest => exact keeps_bind (keeps_handleFileRequest hmod _ _) fun _ => keeps_pure true
  | goodbyeRequest => exact keeps_push hmod _
  | rawDataPushRequest => exact keeps_push hmod _
  | rawDataRequiredRequest => exact keeps_push hmod _
  | versionRequest =>
      exact keeps_bind (keeps_handleVersionRequest hmod _ _ _) fun _ => keeps_pure true
  | fetchTestRequest =>
      exact keeps_bind (keeps_handleDataFetchRequest hmod) fun _ => keeps_pure true
  | dataLogPushResponse => exact keeps_pure true
  | fetchTestResponse => exact keeps_pure true
  | fileResponse => exact keeps_pure true
  | rawDataPushResponse => exact keeps_pure true
  | rawDataRequiredResponse => exact keeps_pure true
  | versionResponse => exact keeps_pure true
  | deviceRegisterResponse => exact keeps_pure true
  | other code => exact keeps_pure true

/-- Acknowledges with the modifications around them. -/
inductive Replies : List Link.Event → Prop
  | nil : Replies []
  | reply (header : Link.Header) {E : List Link.Event} : Replies E →
      Replies (.modifyEpollEvent .epollOut :: .sendHeader header :: .modifyEpollEvent .epollIn :: E)

omit hmod in
theorem replies_readMessage {cfg : Link.Config} {message message' : List UInt8} {s t : Link.State}
    {n : Nat} (h : Link.readMessage cfg message s = some (n, message', t)) :
    ∃ reply, t.log = s.log ++ Link.replyEvents cfg reply := by
  unfold Link.readMessage at h
  cases hframe : Link.readFrame cfg s with
  | none =>
      rw [hframe] at h
      exact absurd h (Option.some_ne_none _).symm
  | some read =>
      rw [hframe] at h
      simp only [Option.some.injEq, Prod.mk.injEq] at h
      refine ⟨(Link.handleFrame cfg message read.1).2.2, ?_⟩
      rw [← h.2.2, (Link.readFrame_some hframe).2.2]

omit hmod in
/-- What `amilinkReadMessage` does to the link. -/
theorem replies_readRetry (cfg : Link.Config) : ∀ (attempts : Nat) (message message' : List UInt8)
    (s t : Link.State) (n : Nat),
    Link.readRetry cfg attempts message s = some (n, message', t) →
      ∃ E, t.log = s.log ++ E ∧ Replies E := by
  intro attempts
  induction attempts with
  | zero =>
      intro message message' s t n h
      rw [Link.readRetry, Option.some.injEq, Prod.mk.injEq, Prod.mk.injEq] at h
      exact ⟨[], by rw [← h.2.2, List.append_nil], .nil⟩
  | succ attempts ih =>
      intro message message' s t n h
      rcases Link.readRetry_some h with ⟨length, message₁, u, hread, hattempt⟩
      rcases replies_readMessage hread with ⟨reply, hreply⟩
      -- At most one acknowledge for each attempt to read.
      have hone : ∀ {E}, Replies E → Replies (Link.replyEvents cfg reply ++ E) := by
        intro E hE
        cases reply with
        | none => exact hE
        | some cmd => exact .reply _ hE
      rcases hattempt with ⟨_, hlast⟩ | ⟨_, hnext⟩
      · rw [Prod.mk.injEq, Prod.mk.injEq] at hlast
        exact ⟨_, by rw [hlast.2.2, hreply, List.append_nil], hone .nil⟩
      · rcases ih message₁ message' u t n hnext with ⟨E, hE, hreplies⟩
        exact ⟨_, by rw [hE, hreply, List.append_assoc], hone hreplies⟩

theorem keeps_performLink {E : List Link.Event} (hE : Replies E) :
    Keeps X f L (performLink X E) := by
  induction hE with
  | nil => exact keeps_pure ()
  | reply header _ ih =>
      refine keeps_of_settles (holds_bind (attentive_setEvents hmod .epollOut) fun _ => ?_)
      refine holds_bind (attentive_emit _ fun registered h => by cases h) fun _ => ?_
      exact holds_bind (settles_epollIn hmod) fun _ => ih

/-- Reading a message. -/
theorem keeps_amilinkReadMessage (message : List UInt8) (s : Link.State) :
    Keeps X f L (amilinkReadMessage X message s) := by
  unfold amilinkReadMessage
  cases hread : Link.amilinkReadMessage X.link message s with
  | none => exact keeps_throw _
  | some read =>
      rcases read with ⟨n, message', t⟩
      rcases replies_readRetry X.link _ _ _ _ _ _ hread with ⟨E, hE, hreplies⟩
      simp only [hE, List.drop_left]
      exact keeps_bind (keeps_performLink hmod hreplies) fun _ => keeps_pure _

/-- A heartbeat. -/
theorem keeps_amilinkHeartbeat (sendLen xmitBufferLength : Int) :
    Keeps X f L (amilinkHeartbeat X sendLen xmitBufferLength) := by
  refine keeps_of_settles (holds_bind (attentive_setEvents hmod .epollOut) fun _ => ?_)
  refine holds_bind (attentive_emit _ fun registered h => by cases h) fun _ => ?_
  exact holds_bind (settles_epollIn hmod) fun _ => keeps_pure _

end Modifications

/-- The sockets are registered as before, and every wait for an acknowledge in
    between found `EPOLLIN`. -/
def Heard (X : Context ν) (w t : World ν X.layout.payloadMax) : Prop :=
  t.interest = w.interest ∧
    ∃ E, t.log = w.log ++ E ∧ ∀ registered, .awaitAck registered ∈ E → registered = .epollIn

/-- Whatever keeps the socket calm is heard. -/
theorem heard_of_keeps {β : Type} {x : X.M β} {w : World ν X.layout.payloadMax}
    (hin : w.interest X.connection = .epollIn) (hx : Keeps X w.interest w.log x) :
    Heard X w (Push.finalState (x w)) := by
  have hcalm : Calm X w.interest w.log (Push.finalState (x w)) := by
    have hend := hx w ⟨⟨fun _ _ => rfl, [], (List.append_nil _).symm, fun _ h => by cases h⟩, hin⟩
    cases hrun : x w with
    | ok b t =>
        rw [hrun] at hend
        exact hend
    | error e t =>
        rw [hrun] at hend
        exact hend
  refine ⟨funext fun fd => ?_, hcalm.awaits⟩
  -- Its own socket is registered for `EPOLLIN` at both ends of the run.
  by_cases hfd : fd = X.connection
  · rw [hfd, hcalm.registered, hin]
  · exact hcalm.others fd hfd

/-- If every modification succeeds, then on every path a request, the reading of
    a message and a heartbeat leave each socket registered as it was, and every
    wait for an acknowledge in between finds `EPOLLIN`. -/
theorem never_deaf (X : Context ν) (hmod : ∀ n, X.modifications n = true)
    (w : World ν X.layout.payloadMax) (hin : w.interest X.connection = .epollIn) :
    (∀ fuel request, Heard X w (Push.finalState (handleRequest X fuel request w))) ∧
      (∀ message s, Heard X w (Push.finalState (amilinkReadMessage X message s w))) ∧
      ∀ sendLen xmitBufferLength,
        Heard X w (Push.finalState (amilinkHeartbeat X sendLen xmitBufferLength w)) :=
  ⟨fun fuel request => heard_of_keeps hin (keeps_handleRequest hmod fuel request),
    fun message s => heard_of_keeps hin (keeps_amilinkReadMessage hmod message s),
    fun sendLen length => heard_of_keeps hin (keeps_amilinkHeartbeat hmod sendLen length)⟩

/-! ### One server -/

/-- A text as its bytes. -/
def bytesOf (s : String) : List UInt8 := s.toList.map fun ch => UInt8.ofNat ch.toNat

/-- The digits of a number. -/
def decimal (n : Nat) : List UInt8 :=
  if n = 0 then bytesOf "0" else (Nat.digits 10 n).reverse.map fun d => UInt8.ofNat (48 + d)

/-- A string without characters to escape. -/
def quoted (s : String) : List UInt8 := bytesOf "\"" ++ bytesOf s ++ bytesOf "\""

mutual

/-- JSON without spaces, as `dump` writes it. -/
def dumpJson : Json UInt32 → List UInt8
  | .null => bytesOf "null"
  | .boolean b => bytesOf (if b then "true" else "false")
  | .integer n => if n < 0 then bytesOf "-" ++ decimal n.natAbs else decimal n.natAbs
  | .float x => decimal x.toNat ++ bytesOf ".0"
  | .string s => quoted s
  | .array elements => bytesOf "[" ++ dumpElements elements ++ bytesOf "]"
  | .object members => bytesOf "\x7b" ++ dumpMembers members ++ bytesOf "\x7d"

/-- The values of an array, with commas. -/
def dumpElements : List (Json UInt32) → List UInt8
  | [] => []
  | [value] => dumpJson value
  | value :: rest => dumpJson value ++ bytesOf "," ++ dumpElements rest

/-- The members of an object, with commas. -/
def dumpMembers : List (String × Json UInt32) → List UInt8
  | [] => []
  | [(key, value)] => quoted key ++ bytesOf ":" ++ dumpJson value
  | (key, value) :: rest =>
      quoted key ++ bytesOf ":" ++ dumpJson value ++ bytesOf "," ++ dumpMembers rest

end

/-- A topic in one byte. -/
def topicOf : List UInt8 → Message.Topic
  | [1] => .dataLogPushRequest
  | [2] => .deviceRegisterRequest
  | [3] => .fileRequest
  | [4] => .goodbyeRequest
  | [5] => .rawDataPushRequest
  | [6] => .rawDataRequiredRequest
  | [7] => .versionRequest
  | [8] => .fetchTestRequest
  | memory => .other (memory.headD 0).toNat

/-- Requests of fields one behind the other. -/
def packedRequest : RequestLayout UInt32 :=
  { topic := { start := 0, size := 1, read := topicOf }
    dataLogPushReq :=
      { start := 1, size := 52, read := fun memory =>
          { idMeasurement := Push.word memory 0, idCartridge := Push.word memory 4
            versionDevice := Push.word memory 8, versionAlgorithm := Push.word memory 12
            meatType := Push.word memory 16, meatQualityIndex := Push.word memory 20
            meatTemperature := Push.word memory 24
            timestamp := UInt64.ofNat (Push.word memory 28).toNat
            batch_uid := Push.word memory 36, sweep1fs := Push.word memory 40
            sweep2fs := Push.word memory 44, initFreq := Push.word memory 48 } }
    idDevice :=
      { start := 1, size := 8, read := fun memory =>
          UInt64.ofNat ((Push.word memory 0).toNat + 2 ^ 32 * (Push.word memory 4).toNat) }
    filename := 1
    versionPrefix := 1
    versionPostfix := 33
    algoVersion := { start := 65, size := 4, read := fun memory => Push.word memory 0 }
    blockOffset := { start := 1, size := 4, read := fun memory => Push.word memory 0 }
    blockLength := { start := 5, size := 4, read := fun memory => Push.word memory 0 }
    blockTotalLength := { start := 9, size := 4, read := fun memory => Push.word memory 0 }
    blockData := 13 }

/-- Messages of these requests. -/
def packedSizes : Message.Sizes :=
  { topic := 1, dataLogPushReq := 52, dataLogPushResp := 0, testFetchReq := 0,
    testFetchResp := 84, filePullReq := 64, filePullResp := 76, rawDataPushReq := 76,
    rawDataPushResponse := 0, rawDataRequiredReq := 0, rawDataRequiredResp := 4,
    versionReq := 68, versionResp := 4, deviceRegisterReq := 8, deviceRegisterResp := 0,
    payloadMax := 64 }

/-- A server that is acknowledged at once, with a database and an empty
    library. -/
def quietServer : Context UInt32 :=
  { layout := Push.packedLayout
    sizes := packedSizes
    request := packedRequest
    sizeofBatchNumber := 8
    link :=
      { retryMax := 3, seed := 0xFFFF, calcCrc16 := fun _ seed => seed, losePacketInterval := 0 }
    json := Library.nlohmann (fun x => x.toNat) dumpJson
    connection := 5
    push := { outcomes := fun _ => .done (some 1), reallocs := fun _ => some fun _ => 0 }
    modifications := fun _ => true
    replies := fun _ _ => .whole { crc16 := 0xFFFF, cmd := .ack } []
    companies := fun _ => { rows := [1], throws := false }
    meatTypes := fun _ => { rows := [7], throws := false }
    batches := fun _ => { rows := [], throws := false }
    file := fun _ => .closed
    listing := some []
    openable := fun _ => false
    seeks := fun _ => 0
    reads := fun _ => some ⟨[], Nat.zero_le _⟩ }

/-- A new connection. -/
def openedWorld (P : Nat) : World UInt32 P :=
  { session := Push.Session.opened UInt32, isAlgorithmNeeded := false
    interest := fun _ => .epollIn, modified := 0, sends := 0, attempts := 0, seeks := 0, reads := 0
    log := [] }

/-- A device registers. -/
theorem never_deaf_register : Heard quietServer (openedWorld _)
    (Push.finalState (handleRequest quietServer 1 [2, 9, 0, 0, 0, 0, 0, 0, 0] (openedWorld _))) :=
  (never_deaf quietServer (fun _ => rfl) (openedWorld _) rfl).1 1 [2, 9, 0, 0, 0, 0, 0, 0, 0]

end Requests

end EpollServer
