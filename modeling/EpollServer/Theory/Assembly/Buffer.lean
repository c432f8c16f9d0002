import EpollServer.Lib.Splice
import EpollServer.Theory.Push

/-!
# The Assembly Buffer

What the requests of a connection do to its assembly buffer, and when a block
that `checkAssemblyBuffer` accepts is copied within bounds.

Everything a request can do to the buffer is in two lemmas.
`checkAssemblyBuffer_accepts` gives the two ways a block is accepted: at
offset 0 it gets a buffer of the size its header declares, elsewhere it has to
name the size the buffer has. `handleRequest_keeps` says that no request but a
raw data push touches the buffer.

From these, between requests the buffer has the recorded size, and is null
only with the recorded size 0 (`Sized`). A `realloc` that fails breaks this,
but not for long: the block that asked for it is copied to the null pointer.

The check is made on 32-bit sums and does not look at the result of `realloc`
or at the array of the block, and these are the three ways out of bounds.

## Main definitions

* `MqsCldFile.payload`: The bytes a block carries.
* `declaredLength`: The size a first block declares.
* `SameAssembly`, `Bystander`: The assembly is as it was.
* `Sized`: The buffer has the recorded size.
* `InBounds`: The copy of an accepted block reads and writes within bounds.

## Theorems

* `checkAssemblyBuffer_accepts`, `checkAssemblyBuffer_rejects`: What the check
  does.
* `copyBlock_ok`: When a block is copied, and what is copied.
* `receiveBlock_ok`: What an accepted block leaves behind.
* `handleRequest_keeps`: The other requests leave the buffer alone.
* `reaches_of_serve`: The requests `serve` goes through are steps of
  `sessions`.
* `sized_of_reaches`: The buffer has the recorded size.
* `assembly_in_bounds_iff`: When an accepted block is copied within bounds.
* `assembly_out_of_bounds`: An accepted block that is not.
-/

namespace EpollServer

namespace Push

open Splice

variable {ν : Type}

/-- The bytes a block carries. -/
def MqsCldFile.payload {n : Nat} (block : MqsCldFile n) : List UInt8 :=
  block.data.toList.take block.length.toNat

/-- A block as a piece of the buffer. -/
def MqsCldFile.piece {n : Nat} (block : MqsCldFile n) : Piece UInt8 :=
  { offset := block.offset.toNat, data := block.payload }

/-- The size a first block declares: that of the raw data set whose header it
    carries, as a 32-bit number. -/
def declaredLength (L : Layout ν) (block : MqsCldFile L.payloadMax) : UInt32 :=
  UInt32.ofNat (L.sizeofRawDataSet +
    ((L.rawDataSet block.data.toList).base.dataCount +
      (L.rawDataSet block.data.toList).afterExposure.dataCount).toNat * L.sizeofRawDataPoint)

/-- The buffer has the recorded size, and is null only if that is 0. -/
def Sized (s : Session ν) : Prop :=
  match s.rawDataSetAssemblyBuffer with
  | none => s.maxAssemblyLength = 0
  | some buffer => buffer.length = s.maxAssemblyLength.toNat

/-- The copy of an accepted block reads bytes the block has, and writes bytes
    the buffer has. `t` is the session after the check. -/
def InBounds (L : Layout ν) (block : MqsCldFile L.payloadMax) (t : Session ν) : Prop :=
  block.offset.toNat + block.length.toNat ≤ t.maxAssemblyLength.toNat ∧
    (∃ buffer, t.rawDataSetAssemblyBuffer = some buffer ∧
      buffer.length = t.maxAssemblyLength.toNat) ∧
    block.length.toNat ≤ L.payloadMax

theorem length_payload {n : Nat} (block : MqsCldFile n) (h : block.length.toNat ≤ n) :
    block.payload.length = block.length.toNat := by
  rw [MqsCldFile.payload, List.length_take, Vector.length_toList, Nat.min_eq_left h]

theorem stop_piece {n : Nat} (block : MqsCldFile n) (h : block.length.toNat ≤ n) :
    block.piece.stop = block.offset.toNat + block.length.toNat := by
  rw [MqsCldFile.piece, Piece.stop, length_payload block h]

theorem length_realloc (env : Environment) (s : Session ν) (n : Nat) (buffer : List UInt8)
    (h : realloc env s n = some buffer) : buffer.length = n := by
  rw [realloc, Option.map_eq_some_iff] at h
  rcases h with ⟨fresh, _, rfl⟩
  rw [List.length_map, List.length_range]

theorem exists_realloc (env : Environment) (s : Session ν) (n : Nat) :
    (∃ buffer, realloc env s n = some buffer) ↔ (env.reallocs s.allocations).isSome = true := by
  rw [← Option.isSome_iff_exists, realloc, Option.isSome_map]

/-! ### The check -/

/-- The check as one function of the session. -/
theorem checkAssemblyBuffer_eq (L : Layout ν) (env : Environment) (block : MqsCldFile L.payloadMax)
    (s : Session ν) :
    checkAssemblyBuffer L env block s =
      if block.offset + block.length ≤ block.totalLength then
        if block.offset = 0 then
          if L.sizeofRawDataSet ≤ block.length.toNat ∧
              block.totalLength = declaredLength L block then
            .ok true { s with
              rawDataSetAssemblyBuffer := realloc env s block.totalLength.toNat,
              maxAssemblyLength := block.totalLength, allocations := s.allocations + 1 }
          else .ok false s
        else .ok (decide (block.totalLength = s.maxAssemblyLength)) s
      else .ok false s := by
  simp only [checkAssemblyBuffer, bind, EStateM.bind, get, getThe, MonadStateOf.get, EStateM.get]
  by_cases hsum : block.offset + block.length ≤ block.totalLength
  · -- The order of the checks is the source's: the sum, the offset, then what the first block says.
    simp only [if_pos hsum]
    by_cases hzero : block.offset = 0
    · simp only [if_pos hzero]
      -- A first block must hold the structure's fixed part, and the length in it is the total.
      by_cases hlong : L.sizeofRawDataSet ≤ block.length.toNat
      · by_cases htotal : block.totalLength = declaredLength L block
        · have hboth : L.sizeofRawDataSet ≤ block.length.toNat ∧
              block.totalLength = declaredLength L block := ⟨hlong, htotal⟩
          have hmax := htotal
          rw [declaredLength] at hmax
          simp only [if_pos hlong, if_pos hboth, if_pos hmax]
          rw [hmax]
          rfl
        · have hnot : ¬ (L.sizeofRawDataSet ≤ block.length.toNat ∧
              block.totalLength = declaredLength L block) := fun h => htotal h.2
          have hmax := htotal
          rw [declaredLength] at hmax
          simp only [if_pos hlong, if_neg hnot, if_neg hmax]
          rfl
      · have hnot : ¬ (L.sizeofRawDataSet ≤ block.length.toNat ∧
            block.totalLength = declaredLength L block) := fun h => hlong h.1
        simp only [if_neg hlong, if_neg hnot]
        rfl
    · simp only [if_neg hzero]
      -- A later block has to name the total of the first one.
      rfl
  · simp only [if_neg hsum]
    rfl

/-- The two ways a block is accepted. -/
theorem checkAssemblyBuffer_accepts (L : Layout ν) (env : Environment)
    (block : MqsCldFile L.payloadMax) (s t : Session ν)
    (h : checkAssemblyBuffer L env block s = .ok true t) :
    (block.offset = 0 ∧ L.sizeofRawDataSet ≤ block.length.toNat ∧
      block.length ≤ block.totalLength ∧ block.totalLength = declaredLength L block ∧
      t = { s with
        rawDataSetAssemblyBuffer := realloc env s block.totalLength.toNat,
        maxAssemblyLength := block.totalLength, allocations := s.allocations + 1 }) ∨
    (block.offset ≠ 0 ∧ block.offset + block.length ≤ block.totalLength ∧
      block.totalLength = s.maxAssemblyLength ∧ t = s) := by
  rw [checkAssemblyBuffer_eq] at h
  by_cases hsum : block.offset + block.length ≤ block.totalLength
  · rw [if_pos hsum] at h
    -- A first block: accepted only when the buffer was made for it.
    by_cases hzero : block.offset = 0
    · rw [if_pos hzero] at h
      by_cases hdecl : L.sizeofRawDataSet ≤ block.length.toNat ∧
          block.totalLength = declaredLength L block
      · rw [if_pos hdecl, EStateM.Result.ok.injEq] at h
        rw [hzero, UInt32.zero_add] at hsum
        exact Or.inl ⟨hzero, hdecl.1, hsum, hdecl.2, h.2.symm⟩
      · rw [if_neg hdecl, EStateM.Result.ok.injEq] at h
        -- No buffer is made, so nothing of the session changes.
        exact absurd h.1 Bool.false_ne_true
    · rw [if_neg hzero, EStateM.Result.ok.injEq, decide_eq_true_eq] at h
      exact Or.inr ⟨hzero, hsum, h.1, h.2.symm⟩
  · rw [if_neg hsum, EStateM.Result.ok.injEq] at h
    exact absurd h.1 Bool.false_ne_true

/-- A block that is not accepted is rejected, and changes nothing. -/
theorem checkAssemblyBuffer_rejects (L : Layout ν) (env : Environment)
    (block : MqsCldFile L.payloadMax) (s : Session ν)
    (h : ∀ t, checkAssemblyBuffer L env block s ≠ .ok true t) :
    checkAssemblyBuffer L env block s = .ok false s := by
  rw [checkAssemblyBuffer_eq] at h ⊢
  by_cases hsum : block.offset + block.length ≤ block.totalLength
  · rw [if_pos hsum] at h ⊢
    by_cases hzero : block.offset = 0
    · rw [if_pos hzero] at h ⊢
      by_cases hdecl : L.sizeofRawDataSet ≤ block.length.toNat ∧
          block.totalLength = declaredLength L block
      · rw [if_pos hdecl] at h
        exact absurd rfl (h _)
      · rw [if_neg hdecl]
    · rw [if_neg hzero] at h ⊢
      -- A later block must declare the size of the first one.
      by_cases hmax : block.totalLength = s.maxAssemblyLength
      · rw [decide_eq_true hmax] at h
        exact absurd rfl (h s)
      · rw [decide_eq_false hmax]
  · rw [if_neg hsum]

/-- A rejected block changes nothing. -/
theorem eq_of_rejected (L : Layout ν) (env : Environment) (block : MqsCldFile L.payloadMax)
    (s t : Session ν) (h : checkAssemblyBuffer L env block s = .ok false t) : t = s := by
  have hreject := checkAssemblyBuffer_rejects L env block s (fun u hu => by
    rw [h, EStateM.Result.ok.injEq] at hu
    exact absurd hu.1 Bool.false_ne_true)
  rw [h, EStateM.Result.ok.injEq] at hreject
  exact hreject.2

/-! ### The copy -/

/-- When a block is copied, and what is copied where. -/
theorem copyBlock_ok (L : Layout ν) (block : MqsCldFile L.payloadMax) (t u : Session ν) :
    copyBlock L block t = .ok () u ↔
      ∃ buffer, t.rawDataSetAssemblyBuffer = some buffer ∧
        block.offset.toNat + block.length.toNat ≤ buffer.length ∧
        block.length.toNat ≤ L.payloadMax ∧
        u = { t with
          rawDataSetAssemblyBuffer := some (splice buffer block.payload block.offset.toNat) } := by
  simp only [copyBlock, bind, EStateM.bind, get, getThe, MonadStateOf.get, EStateM.get]
  cases hbuffer : t.rawDataSetAssemblyBuffer with
  | none =>
      -- The copy goes to the null pointer.
      refine iff_of_false (fun h => ?_) (fun h => ?_)
      · simp only [throw, throwThe, MonadExceptOf.throw, EStateM.throw, reduceCtorEq] at h
      · rcases h with ⟨buffer, hb, _⟩
        simp only [reduceCtorEq] at hb
  | some buffer =>
      simp only [Option.some.injEq, exists_eq_left']
      -- Both `memcpy` bounds: the block that is read, and the buffer that is written.
      by_cases hfits : block.offset.toNat + block.length.toNat ≤ buffer.length ∧
          block.length.toNat ≤ L.payloadMax
      · simp only [if_pos hfits]
        have hlen := length_payload block hfits.2
        constructor
        · intro h
          refine ⟨hfits.1, hfits.2, ?_⟩
          simp only [set, MonadStateOf.set, EStateM.set, EStateM.Result.ok.injEq, true_and] at h
          rw [← h, splice, hlen]
          rfl
        · rintro ⟨_, _, rfl⟩
          simp only [splice, hlen]
          rfl
      · simp only [if_neg hfits]
        refine iff_of_false (fun h => ?_) (fun h => hfits ⟨h.1, h.2.1⟩)
        simp only [throw, throwThe, MonadExceptOf.throw, EStateM.throw, reduceCtorEq] at h

/-- What an accepted block leaves behind. -/
theorem receiveBlock_ok (L : Layout ν) (env : Environment) (block : MqsCldFile L.payloadMax)
    (s u : Session ν) (complete : Bool) (h : receiveBlock L env block s = .ok complete u) :
    (complete = false ∧ u = s ∧ checkAssemblyBuffer L env block s = .ok false s) ∨
      ∃ t, checkAssemblyBuffer L env block s = .ok true t ∧ copyBlock L block t = .ok () u ∧
        complete = decide (block.offset + block.length = block.totalLength) := by
  simp only [receiveBlock, bind, EStateM.bind] at h
  -- Only an exception of the check or of the copy leaves the handler without an answer.
  cases hc : checkAssemblyBuffer L env block s with
  | error e t => simp only [hc, reduceCtorEq] at h
  | ok accepted t =>
      rw [hc] at h
      cases accepted with
      | false =>
          have ht := eq_of_rejected L env block s t hc
          rw [ht] at h ⊢
          simp only [Bool.false_eq_true, if_false, pure, EStateM.pure, EStateM.Result.ok.injEq] at h
          exact Or.inl ⟨h.1.symm, h.2.symm, rfl⟩
      | true =>
          refine Or.inr ⟨t, rfl, ?_⟩
          simp only [if_true] at h
          cases hcopy : copyBlock L block t with
          | error e v => simp only [EStateM.bind, hcopy, reduceCtorEq] at h
          | ok r v =>
              -- The answer says whether this block ends at the declared total.
              simp only [EStateM.bind, hcopy, pure, EStateM.pure, EStateM.Result.ok.injEq] at h
              rw [h.2]
              exact ⟨rfl, h.1.symm⟩

/-- The converse, for an accepted block. -/
theorem receiveBlock_of_copy (L : Layout ν) (env : Environment) (block : MqsCldFile L.payloadMax)
    (s t u : Session ν) (hcheck : checkAssemblyBuffer L env block s = .ok true t)
    (hcopy : copyBlock L block t = .ok () u) :
    receiveBlock L env block s =
      .ok (decide (block.offset + block.length = block.totalLength)) u := by
  simp only [receiveBlock, bind, EStateM.bind, hcheck, if_true, hcopy, pure, EStateM.pure]

/-! ### The other requests -/

/-- The assembly is as it was. -/
def SameAssembly (s t : Session ν) : Prop :=
  t.rawDataSetAssemblyBuffer = s.rawDataSetAssemblyBuffer ∧
    t.maxAssemblyLength = s.maxAssemblyLength ∧ t.allocations = s.allocations

/-- An event of a raw data push: a statement that stores it, or its answer. -/
def isPush : Event ν → Bool
  | .send .rawDataPushResponse => true
  | e => ofRawDataSet e

/-- Nothing but the log, and perhaps the device, is new in `t`, and the log has
    nothing of a raw data push. -/
def Bystander (s t : Session ν) : Prop :=
  SameAssembly s t ∧ ∃ E, t.events = s.events ++ E ∧ ∀ e ∈ E, isPush e = false

theorem bystander_after (s : Session ν) (E : List (Event ν)) (h : ∀ e ∈ E, isPush e = false) :
    Bystander s (s.after E) :=
  ⟨⟨rfl, rfl, rfl⟩, E, rfl, h⟩

theorem isPush_of_ofOther {E : List (Event ν)} (h : ∀ e ∈ E, ofOther e = true) :
    ∀ e ∈ E, isPush e = false := by
  intro e he
  have hother := h e he
  cases e with
  | statement st success => exact Bool.not_eq_true' _ |>.mp hother
  | send | modifyEpollEvent => exact Bool.noConfusion hother

/-- Other statements, and a response to something else. -/
theorem bystander_append {topic : Topic} {E : List (Event ν)} (hE : ∀ e ∈ E, isPush e = false)
    (htopic : topic ≠ .rawDataPushResponse) :
    ∀ e ∈ E ++ responseEvents topic, isPush e = false := by
  intro e he
  rcases List.mem_append.mp he with hold | hnew
  · exact hE e hold
  · simp only [responseEvents, List.mem_cons, List.not_mem_nil, or_false] at hnew
    rcases hnew with rfl | rfl | rfl
    · rfl
    · cases topic with
      | rawDataPushResponse => exact absurd rfl htopic
      | dataLogPushResponse | rawDataRequiredResponse | deviceRegisterResponse | other => rfl
    · rfl

/-- A request of the remaining handlers only adds to the log. -/
theorem handleOther_runs (env : Environment) : ∀ (queries responses : Nat) (s : Session ν),
    ∃ E, handleOther env queries responses s = .ok () (s.after E) ∧
      ∀ e ∈ E, isPush e = false := by
  intro queries
  -- Outer induction on the queries, inner one on the responses left behind them.
  induction queries with
  | zero =>
      intro responses
      induction responses with
      | zero =>
          intro s
          refine ⟨[], ?_, fun e he => absurd he List.not_mem_nil⟩
          rw [after_nil, handleOther]
          rfl
      | succ responses ih =>
          intro s
          rcases ih (s.after (responseEvents .other)) with ⟨E, hE, hmem⟩
          refine ⟨responseEvents .other ++ E, ?_, fun e he => ?_⟩
          · rw [handleOther]
            simp only [bind, EStateM.bind, respond_eq, hE, after_after]
          · rcases List.mem_append.mp he with hnew | hold
            · have hnone : ∀ e ∈ [] ++ responseEvents .other, isPush (ν := ν) e = false :=
                bystander_append (fun e he => absurd he List.not_mem_nil) Topic.noConfusion
              exact hnone e hnew
            · exact hmem e hold
  | succ queries ih =>
      intro responses s
      -- A query that throws is caught, so it logs and goes on in either case.
      have hlogs : Logs (ν := ν) env (catchSql (do let _ ← execute env .query; pure true) false) :=
        logs_catch env _ _ (logsBody_bind env _ _ (logsBody_execute env _)
          (fun _ => logsBody_pure env true))
      rcases hlogs s with ⟨b, E, hE, _⟩
      have hother := isPush_of_ofOther (log_of_logsOnly _
        (logsOnly_try env .query (fun _ => true) false (fun _ => rfl)) s b E hE)
      rcases ih responses (s.after E) with ⟨F, hF, hmem⟩
      refine ⟨E ++ F, ?_, fun e he => ?_⟩
      · rw [handleOther]
        simp only [bind, EStateM.bind] at hE ⊢
        simp only [hE, hF, after_after]
      · rcases List.mem_append.mp he with hnew | hold
        · exact hother e hnew
        · exact hmem e hold

/-- Every request but a raw data push returns, and leaves the assembly
    alone. -/
theorem handleRequest_keeps (L : Layout ν) (env : Environment) (s : Session ν) (r : Request L)
    (h : ∀ block, r ≠ .rawDataPush block) :
    ∃ more t, handleRequest L env r s = .ok more t ∧ Bystander s t ∧
      (r ≠ .goodbye → more = true) := by
  -- Every branch adds statements and responses, and none of them is a push.
  have hnone : ∀ e ∈ ([] : List (Event ν)), isPush e = false :=
    fun e he => absurd he List.not_mem_nil
  cases r with
  | rawDataPush block => exact absurd rfl (h block)
  | goodbye =>
      refine ⟨false, s, rfl, ⟨⟨rfl, rfl, rfl⟩, [], (List.append_nil _).symm, hnone⟩, ?_⟩
      intro hne
      exact absurd rfl hne
  | dataLogPush dataSet =>
      rcases handleDataLogPushRequest_events env dataSet s with ⟨E, b, hE, hrun, _⟩
      have hother := isPush_of_ofOther (log_of_logsOnly _
        (logsOnly_mysqlInsertDataSet env s.idDevice dataSet) s b E hE)
      refine ⟨true, s.after (E ++ responseEvents .dataLogPushResponse), ?_,
        bystander_after s _ (bystander_append hother Topic.noConfusion), fun _ => rfl⟩
      simp only [handleRequest, bind, EStateM.bind, hrun]
      rfl
  | deviceRegister idDevice =>
      refine ⟨true, { s with idDevice := idDevice }.after (responseEvents .deviceRegisterResponse),
        ?_, ⟨⟨rfl, rfl, rfl⟩, responseEvents .deviceRegisterResponse, rfl,
          bystander_append (E := []) hnone Topic.noConfusion⟩, fun _ => rfl⟩
      simp only [handleRequest, handleDeviceRegistrationRequest, bind, EStateM.bind, modify,
        modifyGet, MonadStateOf.modifyGet, EStateM.modifyGet, respond_eq]
      rfl
  | rawDataRequired =>
      rcases logs_mysqlGetDataRequired env s.idDevice s with ⟨id, E, hE, _⟩
      have hother := isPush_of_ofOther (log_of_logsOnly _
        (logsOnly_mysqlGetDataRequired env s.idDevice) s id E hE)
      refine ⟨true, s.after (E ++ responseEvents (.rawDataRequiredResponse id)), ?_,
        bystander_after s _ (bystander_append hother Topic.noConfusion), fun _ => rfl⟩
      simp only [handleRequest, handleRawDataRequiredRequest, bind, EStateM.bind, get, getThe,
        MonadStateOf.get, EStateM.get, hE, respond_eq, after_after]
      rfl
  | other queries responses =>
      rcases handleOther_runs env queries responses s with ⟨E, hE, hmem⟩
      refine ⟨true, s.after E, ?_, bystander_after s E hmem, fun _ => rfl⟩
      simp only [handleRequest, bind, EStateM.bind, hE]
      rfl

/-! ### A raw data push -/

/-- A raw data push whose copy stays within bounds keeps the connection open.
    The block is stored at once if it completes the transfer. -/
theorem handleRequest_rawDataPush (L : Layout ν) (env : Environment) (s : Session ν)
    (block : MqsCldFile L.payloadMax) :
    handleRequest L env (.rawDataPush block) s =
      match receiveBlock L env block s with
      | .ok true t => (match storeTransfer L env t with
        | .ok _ u => .ok true u
        | .error e u => .error e u)
      | .ok false t => .ok true t
      | .error e t => .error e t := by
  simp only [handleRequest, handleRawDataPushRequest, bind, EStateM.bind]
  cases receiveBlock L env block s with
  | error e t => rfl
  | ok complete t =>
      cases complete with
      | false => rfl
      | true =>
          simp only [if_true]
          cases storeTransfer L env t <;> rfl

/-- The session after a raw data push that keeps the connection open. -/
theorem rawDataPush_step (L : Layout ν) (env : Environment) (s u : Session ν)
    (block : MqsCldFile L.payloadMax)
    (h : (sessions L env).step s (.rawDataPush block) = some u) :
    receiveBlock L env block s = .ok false u ∨
      ∃ t, receiveBlock L env block s = .ok true t ∧ storeTransfer L env t = .ok () u := by
  simp only [sessions, sessionStep, handleRequest_rawDataPush] at h
  cases hr : receiveBlock L env block s with
  | error e t => simp only [hr, reduceCtorEq] at h
  | ok complete t =>
      cases complete with
      | false =>
          simp only [hr, Option.some.injEq] at h
          exact Or.inl (by rw [h])
      | true =>
          cases hst : storeTransfer L env t with
          | error e v => simp only [hr, hst, reduceCtorEq] at h
          | ok x v =>
              simp only [hr, hst, Option.some.injEq] at h
              exact Or.inr ⟨t, rfl, by rw [hst, h]⟩

/-- The session after any other request that keeps the connection open. -/
theorem bystander_step (L : Layout ν) (env : Environment) (s u : Session ν) (r : Request L)
    (h : ∀ block, r ≠ .rawDataPush block) (hstep : (sessions L env).step s r = some u) :
    Bystander s u := by
  rcases handleRequest_keeps L env s r h with ⟨more, t, hrun, hby, _⟩
  cases more with
  | true =>
      simp only [sessions, sessionStep, hrun, Option.some.injEq] at hstep
      rw [← hstep]
      exact hby
  | false => simp only [sessions, sessionStep, hrun, reduceCtorEq] at hstep

/-- The requests `serve` handles are runs of the machine. -/
theorem reaches_of_serve (L : Layout ν) (env : Environment) : ∀ (rs : List (Request L))
    (s : Session ν), ∀ x ∈ serve L env s rs, (sessions L env).Reaches s x.before := by
  intro rs
  induction rs with
  | nil => exact fun s x hx => absurd hx List.not_mem_nil
  | cons r rs ih =>
      intro s x hx
      rcases mem_serve_cons.mp hx with rfl | ⟨t, hstep, hx⟩
      · exact Machine.reaches_refl s
      · exact Machine.reachesBy_head trivial hstep (ih t x hx)

/-! ### The recorded size -/

theorem length_of_sized (s : Session ν) (buffer : List UInt8) (hs : Sized s)
    (hbuffer : s.rawDataSetAssemblyBuffer = some buffer) :
    buffer.length = s.maxAssemblyLength.toNat := by
  unfold Sized at hs
  rw [hbuffer] at hs
  exact hs

/-- So has the buffer an accepted block is copied to. -/
theorem length_of_accepted (L : Layout ν) (env : Environment) (s t : Session ν)
    (block : MqsCldFile L.payloadMax) (buffer : List UInt8) (hs : Sized s)
    (hcheck : checkAssemblyBuffer L env block s = .ok true t)
    (hbuffer : t.rawDataSetAssemblyBuffer = some buffer) :
    buffer.length = t.maxAssemblyLength.toNat ∧ t.maxAssemblyLength = block.totalLength := by
  rcases checkAssemblyBuffer_accepts L env block s t hcheck with
    ⟨_, _, _, _, rfl⟩ | ⟨_, _, hmax, rfl⟩
  · exact ⟨length_realloc env s _ buffer hbuffer, rfl⟩
  · exact ⟨length_of_sized t buffer hs hbuffer, hmax.symm⟩

/-- A first block that is copied was given a buffer of the size it names, and
    any other accepted block found the buffer as it was. -/
theorem sized_of_receive (L : Layout ν) (env : Environment) (s u : Session ν)
    (block : MqsCldFile L.payloadMax) (complete : Bool) (hs : Sized s)
    (h : receiveBlock L env block s = .ok complete u) : Sized u := by
  rcases receiveBlock_ok L env block s u complete h with ⟨_, rfl, _⟩ | ⟨t, hcheck, hcopy, _⟩
  · exact hs
  · rcases (copyBlock_ok L block t u).mp hcopy with ⟨buffer, hbuffer, hfits, hpayload, rfl⟩
    have hlen : (splice buffer block.payload block.offset.toNat).length = buffer.length :=
      length_splice _ _ _ (by rw [length_payload block hpayload]; exact hfits)
    have hsize := (length_of_accepted L env s t block buffer hs hcheck hbuffer).1
    unfold Sized
    exact hlen.trans hsize

theorem sized_step (L : Layout ν) (env : Environment) (s u : Session ν) (r : Request L)
    (hs : Sized s) (hstep : (sessions L env).step s r = some u) : Sized u := by
  by_cases hraw : ∃ block, r = .rawDataPush block
  · rcases hraw with ⟨block, rfl⟩
    rcases rawDataPush_step L env s u block hstep with hreceive | ⟨t, hreceive, hstore⟩
    · exact sized_of_receive L env s u block false hs hreceive
    · -- A stored transfer leaves the null pointer and 0.
      rcases storeTransfer_runs L env t with ⟨E, F, b, _, hrun, _⟩
      rw [hrun, EStateM.Result.ok.injEq] at hstore
      rw [← hstore.2]
      rfl
  · have hother : ∀ block, r ≠ .rawDataPush block := fun block hr => hraw ⟨block, hr⟩
    rcases (bystander_step L env s u r hother hstep).1 with ⟨hbuffer, hmax, _⟩
    unfold Sized at hs ⊢
    rw [hbuffer, hmax]
    exact hs

/-- Between the requests of a connection the buffer has the recorded size. -/
theorem sized_of_reaches (L : Layout ν) (env : Environment) (s : Session ν)
    (h : (sessions L env).Reaches (Session.opened ν) s) : Sized s :=
  Machine.invariant h rfl (fun t r u ht _ hstep => sized_step L env t u r ht hstep)

/-! ### Within bounds -/

/-- A 32-bit sum that stays below a bound without wrapping. -/
theorem add_le_of_no_wrap (a b c : UInt32) (h : a + b ≤ c) (hwrap : a.toNat + b.toNat < 2 ^ 32) :
    a.toNat + b.toNat ≤ c.toNat := by
  rw [UInt32.le_iff_toNat_le, UInt32.toNat_add, Nat.mod_eq_of_lt hwrap] at h
  exact h

/-- An accepted block is copied exactly if the copy stays within bounds. -/
theorem copies_iff_inBounds (L : Layout ν) (env : Environment) (s t : Session ν)
    (block : MqsCldFile L.payloadMax) (hs : Sized s)
    (hcheck : checkAssemblyBuffer L env block s = .ok true t) :
    (∃ u, copyBlock L block t = .ok () u) ↔ InBounds L block t := by
  constructor
  · rintro ⟨u, hcopy⟩
    rcases (copyBlock_ok L block t u).mp hcopy with ⟨buffer, hbuffer, hfits, hpayload, _⟩
    have hlen := (length_of_accepted L env s t block buffer hs hcheck hbuffer).1
    exact ⟨by rw [← hlen]; exact hfits, ⟨buffer, hbuffer, hlen⟩, hpayload⟩
  · rintro ⟨hfits, ⟨buffer, hbuffer, hlen⟩, hpayload⟩
    exact ⟨_, (copyBlock_ok L block t _).mpr
      ⟨buffer, hbuffer, by rw [hlen]; exact hfits, hpayload, rfl⟩⟩

/-- When the copy of an accepted block stays within bounds: if the end of the
    block does not wrap, the block has the bytes it claims, and the buffer a
    first block asks for could be allocated. These are also the blocks whose
    copy does not crash. -/
theorem assembly_in_bounds_iff (L : Layout ν) (env : Environment) (s t : Session ν)
    (h : (sessions L env).Reaches (Session.opened ν) s) (block : MqsCldFile L.payloadMax)
    (hcheck : checkAssemblyBuffer L env block s = .ok true t) :
    (InBounds L block t ↔
      block.offset.toNat + block.length.toNat < 2 ^ 32 ∧
        block.length.toNat ≤ L.payloadMax ∧
        (block.offset = 0 → (env.reallocs s.allocations).isSome = true)) ∧
    ((∃ u, copyBlock L block t = .ok () u) ↔ InBounds L block t) := by
  have hs := sized_of_reaches L env s h
  refine ⟨?_, copies_iff_inBounds L env s t block hs hcheck⟩
  rcases checkAssemblyBuffer_accepts L env block s t hcheck with
    ⟨hzero, _, hlen, _, rfl⟩ | ⟨hne, hsum, hmax, rfl⟩
  · -- The buffer of a first block is the one just allocated.
    have hoff : block.offset.toNat = 0 := by rw [hzero]; rfl
    have hle := UInt32.le_iff_toNat_le.mp hlen
    have hlt := block.length.toNat_lt
    -- It is as long as the total length, so only the allocation can fail.
    constructor
    · rintro ⟨_, ⟨buffer, hbuffer, _⟩, hpayload⟩
      exact ⟨by omega, hpayload, fun _ => (exists_realloc env s _).mp ⟨buffer, hbuffer⟩⟩
    · rintro ⟨_, hpayload, hrealloc⟩
      rcases (exists_realloc env s block.totalLength.toNat).mpr (hrealloc hzero)
        with ⟨buffer, hbuffer⟩
      refine ⟨?_, ⟨buffer, hbuffer, length_realloc env s _ buffer hbuffer⟩, hpayload⟩
      rw [hoff, Nat.zero_add]
      exact hle
  · constructor
    · rintro ⟨hfits, _, hpayload⟩
      have hlt := t.maxAssemblyLength.toNat_lt
      exact ⟨by omega, hpayload, fun hzero => absurd hzero hne⟩
    · rintro ⟨hwrap, hpayload, _⟩
      have hfits := add_le_of_no_wrap _ _ _ hsum hwrap
      rw [hmax] at hfits
      refine ⟨hfits, ?_, hpayload⟩
      -- A block behind offset 0 needs a size above 0, so there is a buffer.
      cases hbuffer : t.rawDataSetAssemblyBuffer with
      | some buffer => exact ⟨buffer, rfl, length_of_sized t buffer hs hbuffer⟩
      | none =>
          unfold Sized at hs
          rw [hbuffer] at hs
          have hpos : block.offset.toNat ≠ 0 := fun hz => hne (UInt32.toNat_inj.mp hz)
          have hzero : t.maxAssemblyLength.toNat = 0 := by rw [hs]; rfl
          omega

/-- The first block of a raw data set with one point, a header of 28 bytes. -/
def onePointHeader : MqsCldFile packedLayout.payloadMax :=
  ⟨0, 28, 36, Vector.ofFn fun i => if i.val = 4 then 1 else 0⟩

/-- Every statement and every allocation succeeds. -/
def allSucceed : Environment :=
  { outcomes := fun _ => .done none, reallocs := fun _ => some (fun _ => 0) }

theorem assembly_in_bounds_iff_one : ∃ t,
    checkAssemblyBuffer packedLayout allSucceed onePointHeader (Session.opened UInt32) =
      .ok true t ∧ InBounds packedLayout onePointHeader t :=
  ⟨_, rfl, (assembly_in_bounds_iff packedLayout allSucceed (Session.opened UInt32) _
    (Machine.reaches_refl _) onePointHeader rfl).1.mpr (by decide +kernel)⟩

/-- Behind the header follows a block of two bytes at offset 2^32 - 1. Their
    sum is 1, so the block is accepted, and copied out of bounds. -/
theorem assembly_out_of_bounds : ∃ s t,
    (sessions packedLayout allSucceed).execute (Session.opened UInt32)
      [.rawDataPush onePointHeader] = some s ∧
    checkAssemblyBuffer packedLayout allSucceed ⟨4294967295, 2, 36, Vector.replicate 64 0⟩ s =
      .ok true t ∧
    ¬ InBounds packedLayout ⟨4294967295, 2, 36, Vector.replicate 64 0⟩ t := by
  refine ⟨_, _, rfl, rfl, fun hin => ?_⟩
  exact absurd hin.1 (by decide +kernel)

end Push

end EpollServer
