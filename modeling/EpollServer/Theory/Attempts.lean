import EpollServer.Theory.ConnectionPool

/-!
# A Call that Does not End

For which outcomes of its validations and connects `getConnection` ends.

There are at most `maxAttempts` attempts, but within one of them the loop goes
on while the queue is not empty, and a connection that is not valid is replaced
by another one at the end of the queue. So the queue gets shorter only where no
connection can be made. A call that runs alone ends if and only if one of its
validations comes to something else than an invalid connection, or as many
connects fail as there were idle connections (`getConnection_ends_iff`).
Otherwise it keeps the mutex for ever.

The outcomes are two sequences without an end, of which the call uses one
outcome after the other.

## Main definitions

* `Outcomes`: What the validations and the connects come to.
* `Solo`: A call that runs alone.
* `Outcomes.step`: One step of it.
* `Ends`: The call comes to its end.
* `Fails`: No connection can be made.
* `Here`: Where the call is.
* `Stuck`: Where a call is that does not end.

## Theorems

* `ends_of_step`: A call ends if it does so after a step.
* `ends_of_empty`: With an empty queue the call ends.
* `ends_of_searching`: The loop ends.
* `stuck_step`, `not_ends`: The loop does not end.
* `getConnection_ends_iff`: When a call ends.
-/

namespace EpollServer

namespace ConnectionPool

/-- What `isConnectionValid` and `createNewConnection` come to, each time they
    are called. -/
structure Outcomes where
  validation : Nat → Validation
  connects : Nat → Nat → Connect

/-- A call that runs alone: the pool, and how many outcomes it has used. -/
structure Solo where
  pool : State
  validations : Nat
  creations : Nat

/-- What call `k` does next. It does nothing more when it has ended. -/
def Outcomes.next (O : Outcomes) (k : Nat) (r : Solo) : Option Act :=
  match r.pool.calls[k]? with
  | some (.waiting _) => some (.lock k)
  | some (.searching _) => some (.pass k)
  | some (.validating _ _) => some (.validate k (O.validation r.validations))
  | some (.creating _) => some (.create k (O.connects r.creations))
  | some (.found _) => some (.handOut k)
  | _ => none

/-- The outcomes that are used after an action. -/
def Solo.use (r : Solo) (t : State) : Act → Solo
  | .validate _ _ => { r with pool := t, validations := r.validations + 1 }
  | .create _ _ => { r with pool := t, creations := r.creations + 1 }
  | _ => { r with pool := t }

/-- One step of call `k`. -/
def Outcomes.step (O : Outcomes) (k : Nat) (r : Solo) : Solo :=
  match O.next k r with
  | none => r
  | some a => match ConnectionPool.step r.pool a with
    | none => r
    | some t => r.use t a

/-- The call has returned a connection or thrown, and does not hold the mutex. -/
def Ended (k : Nat) (r : Solo) : Prop :=
  ((∃ conn, r.pool.calls[k]? = some (.holding conn)) ∨ r.pool.calls[k]? = some .failed) ∧
    r.pool.mutex = none

/-- Call `k` ends after some steps. -/
def EndsFrom (O : Outcomes) (k : Nat) (r : Solo) : Prop := ∃ n, Ended k ((O.step k)^[n] r)

/-- A new call of `getConnection` that runs alone ends. -/
def Ends (O : Outcomes) (s : State) : Prop :=
  EndsFrom O s.calls.length { pool := called s, validations := 0, creations := 0 }

/-- No connection can be made. -/
def Fails (O : Outcomes) (i : Nat) : Prop := createNewConnection (O.connects i) ≠ .connection

instance (O : Outcomes) : DecidablePred (Fails O) := fun _ => inferInstanceAs (Decidable (_ ≠ _))

/-- Where call `k` is, and what it has used. -/
structure Here (k : Nat) (r : Solo) (p : Phase) (queue : List Nat) (mutex : Option Nat)
    (validations creations : Nat) : Prop where
  pool : At r.pool k p queue mutex
  validations : r.validations = validations
  creations : r.creations = creations

variable {O : Outcomes} {k : Nat} {r : Solo}

/-! ### Steps -/

/-- A call ends if it does so after a step. -/
theorem ends_of_step (h : EndsFrom O k (O.step k r)) : EndsFrom O k r := by
  rcases h with ⟨n, hn⟩
  exact ⟨n + 1, by rw [Function.iterate_succ_apply]; exact hn⟩

theorem step_eq {a : Act} {t : State} (hnext : O.next k r = some a)
    (hstep : ConnectionPool.step r.pool a = some t) : O.step k r = r.use t a := by
  simp only [Outcomes.step, hnext, hstep]

theorem here_lock {attempt v c : Nat} {queue : List Nat}
    (h : Here k r (.waiting attempt) queue none v c) :
    Here k (O.step k r) (.searching attempt) queue (some k) v c := by
  have hnext : O.next k r = some (.lock k) := by simp only [Outcomes.next, h.pool.call]
  have hstep : ConnectionPool.step r.pool (.lock k) =
      some { r.pool.setCall k (.searching attempt) with mutex := some k } := by
    simp only [ConnectionPool.step, h.pool.mutex, h.pool.call]
  rw [step_eq hnext hstep]
  exact ⟨⟨call_setCall _ k _ _ h.pool.call, h.pool.queue, rfl⟩, h.validations, h.creations⟩

/-- A test of the loop. -/
theorem step_search {attempt v c : Nat} {queue : List Nat} {mutex : Option Nat}
    (h : Here k r (.searching attempt) queue mutex v c) :
    O.step k r = { r with pool := search k attempt r.pool } := by
  have hnext : O.next k r = some (.pass k) := by simp only [Outcomes.next, h.pool.call]
  have hstep : ConnectionPool.step r.pool (.pass k) = some (search k attempt r.pool) := by
    simp only [ConnectionPool.step, h.pool.call]
  exact step_eq hnext hstep

theorem here_take {attempt conn v c : Nat} {rest : List Nat}
    (h : Here k r (.searching attempt) (conn :: rest) (some k) v c) :
    Here k (O.step k r) (.validating attempt conn) rest (some k) v c := by
  rw [step_search h]
  refine ⟨⟨?_, ?_, ?_⟩, h.validations, h.creations⟩
  · simp only [search, h.pool.queue]
    exact call_setCall { r.pool with connectionQueue := rest } k _ _ h.pool.call
  · simp only [search, h.pool.queue]
    rfl
  · simp only [search, h.pool.queue]
    exact h.pool.mutex

theorem here_empty {attempt v c : Nat} {mutex : Option Nat}
    (h : Here k r (.searching attempt) [] mutex v c) :
    Here k (O.step k r) (if attempt < maxAttempts - 1 then .waiting (attempt + 1) else .failed) []
      none v c := by
  rw [step_search h]
  simp only [search, h.pool.queue]
  by_cases hlast : attempt < maxAttempts - 1
  · simp only [hlast, if_true]
    exact ⟨⟨call_setCall r.pool k _ _ h.pool.call, h.pool.queue, rfl⟩, h.validations, h.creations⟩
  · simp only [hlast, if_false]
    exact ⟨⟨call_setCall r.pool k _ _ h.pool.call, h.pool.queue, rfl⟩, h.validations, h.creations⟩

theorem here_validate {attempt conn v c : Nat} {queue : List Nat}
    (h : Here k r (.validating attempt conn) queue (some k) v c) :
    match O.validation v with
    | .valid => Here k (O.step k r) (.found conn) queue (some k) (v + 1) c
    | .invalid => Here k (O.step k r) (.creating attempt) queue (some k) (v + 1) c
    | .exception => Here k (O.step k r) .failed queue none (v + 1) c := by
  have hnext : O.next k r = some (.validate k (O.validation v)) := by
    simp only [Outcomes.next, h.pool.call, h.validations]
  have hstep : ConnectionPool.step r.pool (.validate k (O.validation v)) =
      some (checkPopped k attempt conn (O.validation v) r.pool) := by
    simp only [ConnectionPool.step, h.pool.call]
  have hused := congrArg (· + 1) h.validations
  rw [step_eq hnext hstep]
  -- Each outcome of the validation uses up one entry, and none of the creations.
  cases O.validation v with
  | valid =>
      exact ⟨⟨call_setCall { r.pool with validated := r.pool.validated ++ [(k, conn)] } k _ _
        h.pool.call, h.pool.queue, h.pool.mutex⟩, hused, h.creations⟩
  | invalid =>
      exact ⟨⟨call_setCall r.pool k _ _ h.pool.call, h.pool.queue, h.pool.mutex⟩, hused,
        h.creations⟩
  | exception =>
      exact ⟨⟨call_setCall r.pool k _ _ h.pool.call, h.pool.queue, rfl⟩, hused, h.creations⟩

/-- The queue has got a connection in place of the one that was not valid, if
    one could be made. -/
theorem here_create {attempt v c : Nat} {queue : List Nat}
    (h : Here k r (.creating attempt) queue (some k) v c) :
    ∃ queue' : List Nat, Here k (O.step k r) (.searching attempt) queue' (some k) v (c + 1) ∧
      queue'.length + Nat.count (Fails O) (c + 1) = queue.length + 1 + Nat.count (Fails O) c := by
  have hnext : O.next k r = some (.create k (O.connects c)) := by
    simp only [Outcomes.next, h.pool.call, h.creations]
  have hstep : ConnectionPool.step r.pool (.create k (O.connects c)) =
      some (refill k attempt (createNewConnection (O.connects c)) r.pool) := by
    simp only [ConnectionPool.step, h.pool.call]
  have hcall := call_setCall r.pool k _ (.searching attempt) h.pool.call
  have hused := congrArg (· + 1) h.creations
  rw [step_eq hnext hstep, Nat.count_succ]
  -- `nullptr` and an exception both leave the queue as it is.
  cases hcreated : createNewConnection (O.connects c) with
  | connection =>
      refine ⟨queue ++ [r.pool.nextConnection], ⟨⟨hcall, ?_, h.pool.mutex⟩, h.validations, hused⟩,
        ?_⟩
      · exact congrArg (· ++ [r.pool.nextConnection]) h.pool.queue
      · rw [if_neg fun hfails => hfails hcreated, List.length_append, List.length_singleton]
        omega
  | nullptr =>
      refine ⟨queue, ⟨⟨hcall, h.pool.queue, h.pool.mutex⟩, h.validations, hused⟩, ?_⟩
      rw [if_pos (by rw [Fails, hcreated]; decide)]
      omega
  | exception =>
      refine ⟨queue, ⟨⟨hcall, h.pool.queue, h.pool.mutex⟩, h.validations, hused⟩, ?_⟩
      rw [if_pos (by rw [Fails, hcreated]; decide)]
      omega

theorem here_handOut {conn v c : Nat} {queue : List Nat} {mutex : Option Nat}
    (h : Here k r (.found conn) queue mutex v c) :
    Here k (O.step k r) (.holding conn) queue none v c := by
  have hnext : O.next k r = some (.handOut k) := by simp only [Outcomes.next, h.pool.call]
  have hstep : ConnectionPool.step r.pool (.handOut k) = some (returnFound k conn r.pool) := by
    simp only [ConnectionPool.step, h.pool.call]
  rw [step_eq hnext hstep]
  exact ⟨⟨call_setCall { r.pool with handedOut := r.pool.handedOut ++ [(k, conn)] } k _ _
    h.pool.call, h.pool.queue, rfl⟩, h.validations, h.creations⟩

/-! ### Calls that end -/

theorem ends_of_failed {queue : List Nat} {v c : Nat} (h : Here k r .failed queue none v c) :
    EndsFrom O k r := ⟨0, .inr h.pool.call, h.pool.mutex⟩

theorem ends_of_found {conn v c : Nat} {queue : List Nat} {mutex : Option Nat}
    (h : Here k r (.found conn) queue mutex v c) : EndsFrom O k r :=
  have hheld := here_handOut h
  ends_of_step ⟨0, .inl ⟨conn, hheld.pool.call⟩, hheld.pool.mutex⟩

/-- With an empty queue the call ends, by the last attempt at the latest. -/
theorem ends_of_empty (v c : Nat) : ∀ (left attempt : Nat) (r : Solo) (mutex : Option Nat),
    maxAttempts - 1 ≤ attempt + left → Here k r (.searching attempt) [] mutex v c →
    EndsFrom O k r := by
  intro left
  induction left with
  | zero =>
      intro attempt r mutex hle h
      have hfailed := here_empty (O := O) h
      rw [if_neg (by omega)] at hfailed
      exact ends_of_step (ends_of_failed hfailed)
  | succ left ih =>
      intro attempt r mutex hle h
      have hnext := here_empty (O := O) h
      -- Alone, the call gets the mutex back after it has slept.
      by_cases hlast : attempt < maxAttempts - 1
      · rw [if_pos hlast] at hnext
        exact ends_of_step (ends_of_step
          (ih (attempt + 1) _ (some k) (by omega) (here_lock hnext)))
      · rw [if_neg hlast] at hnext
        exact ends_of_step (ends_of_failed hnext)

/-- The loop ends before it has used `N` outcomes, if one of the validations up
    to there does not come to an invalid connection, or as many connects fail as
    there are connections in the queue. -/
theorem ends_of_searching (N : Nat) : ∀ (left i : Nat) (r : Solo) (queue : List Nat),
    N ≤ i + left → Here k r (.searching 0) queue (some k) i i →
    ((∃ j, i ≤ j ∧ j < N ∧ O.validation j ≠ .invalid) ∨
      queue.length + Nat.count (Fails O) i ≤ Nat.count (Fails O) N) →
    EndsFrom O k r := by
  intro left
  induction left with
  | zero =>
      intro i r queue hle h hor
      -- Nothing is left, so that the queue is empty.
      have hmono := Nat.count_monotone (Fails O) hle
      rcases hor with ⟨j, hij, hj, _⟩ | hcount
      · omega
      · have hnil : queue = [] := List.eq_nil_of_length_eq_zero (by
          rw [Nat.add_zero] at hmono
          omega)
        rw [hnil] at h
        exact ends_of_empty i i 2 0 r (some k) (by decide) h
  | succ left ih =>
      intro i r queue hle h hor
      cases queue with
      | nil => exact ends_of_empty i i 2 0 r (some k) (by decide) h
      | cons conn rest =>
          have hvalidate := here_validate (O := O) (here_take (O := O) h)
          cases hvalidation : O.validation i with
          | valid =>
              rw [hvalidation] at hvalidate
              exact ends_of_step (ends_of_step (ends_of_found hvalidate))
          | exception =>
              rw [hvalidation] at hvalidate
              exact ends_of_step (ends_of_step (ends_of_failed hvalidate))
          | invalid =>
              rw [hvalidation] at hvalidate
              rcases here_create (O := O) hvalidate with ⟨queue', hsearching, hlength⟩
              refine ends_of_step (ends_of_step (ends_of_step
                (ih (i + 1) _ queue' (by omega) hsearching ?_)))
              rcases hor with ⟨j, hij, hj, hother⟩ | hcount
              · -- It is not this validation, so it is a later one.
                have hne : j ≠ i := fun heq => hother (heq ▸ hvalidation)
                exact .inl ⟨j, by omega, hj, hother⟩
              · rw [List.length_cons] at hcount
                exact .inr (by omega)

/-! ### Calls that do not end -/

/-- Where a call is in its loop with `q` connections, as long as all of them are
    found invalid. -/
inductive Stuck (O : Outcomes) (k q : Nat) (r : Solo) : Prop where
  | waiting (queue : List Nat) (h : Here k r (.waiting 0) queue none 0 0)
      (hlength : queue.length = q)
  | searching (i : Nat) (queue : List Nat) (h : Here k r (.searching 0) queue (some k) i i)
      (hlength : queue.length + Nat.count (Fails O) i = q)
  | validating (i conn : Nat) (queue : List Nat)
      (h : Here k r (.validating 0 conn) queue (some k) i i)
      (hlength : queue.length + 1 + Nat.count (Fails O) i = q)
  | creating (i : Nat) (queue : List Nat) (h : Here k r (.creating 0) queue (some k) (i + 1) i)
      (hlength : queue.length + 1 + Nat.count (Fails O) i = q)

theorem stuck_step {q : Nat} (hinvalid : ∀ i, O.validation i = .invalid)
    (hfew : ∀ N, Nat.count (Fails O) N < q) (h : Stuck O k q r) : Stuck O k q (O.step k r) := by
  cases h with
  | waiting queue h hlength =>
      refine .searching 0 queue (here_lock h) ?_
      rw [Nat.count_zero]
      exact hlength
  | searching i queue h hlength =>
      cases queue with
      | nil =>
          -- The queue is not empty: too few connects have failed.
          have hlt := hfew i
          rw [List.length_nil] at hlength
          omega
      | cons conn rest => exact .validating i conn rest (here_take h) hlength
  | validating i conn queue h hlength =>
      have hvalidate := here_validate (O := O) h
      rw [hinvalid] at hvalidate
      exact .creating i queue hvalidate hlength
  | creating i queue h hlength =>
      rcases here_create (O := O) h with ⟨queue', hsearching, hcount⟩
      exact .searching (i + 1) queue' hsearching (hcount.trans hlength)

theorem not_ended_of_stuck {q : Nat} (h : Stuck O k q r) : ¬ Ended k r := by
  have hcall : ∀ p : Phase, r.pool.calls[k]? = some p → (∀ conn, p ≠ .holding conn) →
      p ≠ .failed → ¬ Ended k r := by
    rintro p hp hholding hfailed ⟨⟨conn, hconn⟩ | hfail, _⟩
    · exact hholding conn (Option.some.inj (hp.symm.trans hconn))
    · exact hfailed (Option.some.inj (hp.symm.trans hfail))
  cases h with
  | waiting queue h _ =>
      exact hcall _ h.pool.call (fun _ heq => Phase.noConfusion heq) Phase.noConfusion
  | searching i queue h _ =>
      exact hcall _ h.pool.call (fun _ heq => Phase.noConfusion heq) Phase.noConfusion
  | validating i conn queue h _ =>
      exact hcall _ h.pool.call (fun _ heq => Phase.noConfusion heq) Phase.noConfusion
  | creating i queue h _ =>
      exact hcall _ h.pool.call (fun _ heq => Phase.noConfusion heq) Phase.noConfusion

theorem here_called (s : State) (hmutex : s.mutex = none) :
    Here s.calls.length { pool := called s, validations := 0, creations := 0 } (.waiting 0)
      s.connectionQueue none 0 0 :=
  ⟨at_called s hmutex, rfl, rfl⟩

/-- With all connections invalid, and fewer failures than connections, the call
    does not end. -/
theorem not_ends (s : State) (hmutex : s.mutex = none) (hinvalid : ∀ i, O.validation i = .invalid)
    (hfew : ∀ N, Nat.count (Fails O) N < s.connectionQueue.length) : ¬ Ends O s := by
  have hstuck : ∀ n, Stuck O s.calls.length s.connectionQueue.length
      ((O.step s.calls.length)^[n] { pool := called s, validations := 0, creations := 0 }) := by
    intro n
    induction n with
    | zero => exact .waiting _ (here_called s hmutex) rfl
    | succ n ih =>
        rw [Function.iterate_succ_apply']
        exact stuck_step hinvalid hfew ih
  rintro ⟨n, hn⟩
  exact not_ended_of_stuck (hstuck n) hn

/-- With no other call inside, and for all outcomes, a call that runs alone ends
    if and only if one of its validations does not come to an invalid
    connection, or as many connects fail as there are idle connections. -/
theorem getConnection_ends_iff (O : Outcomes) (s : State) (hmutex : s.mutex = none) :
    Ends O s ↔ (∃ i, O.validation i ≠ .invalid) ∨
      ∃ N, s.connectionQueue.length ≤ Nat.count (Fails O) N := by
  constructor
  · intro hends
    -- If every validation is bad and the replacements last, the search goes on.
    by_contra hnone
    rw [not_or] at hnone
    refine not_ends s hmutex (fun i => ?_) (fun N => ?_) hends
    · by_contra hother
      exact hnone.1 ⟨i, hother⟩
    · by_contra hge
      exact hnone.2 ⟨N, Nat.le_of_not_lt hge⟩
  · intro hor
    have hsearching := here_lock (O := O) (here_called s hmutex)
    refine ends_of_step ?_
    -- A validation that is not bad ends the search, and so does a queue that runs empty.
    rcases hor with ⟨i, hi⟩ | ⟨N, hN⟩
    · exact ends_of_searching (i + 1) (i + 1) 0 _ _ (by omega) hsearching
        (.inl ⟨i, Nat.zero_le _, Nat.lt_succ_self i, hi⟩)
    · refine ends_of_searching N N 0 _ _ (by omega) hsearching (.inr ?_)
      rw [Nat.count_zero]
      exact hN

/-- A pool with one idle connection. -/
def oneIdle : State :=
  { connectionQueue := [0], mutex := none, calls := [], nextConnection := 1, dropped := 0,
    validated := [], handedOut := [] }

/-- The first connection is invalid, and the one made in its place is valid. And
    of three connections none is valid, but no other can be made, so that the
    queue is used up: the call ends as well. -/
theorem getConnection_ends_second :
    Ends ⟨fun i => if i = 0 then .invalid else .valid, fun _ _ => .connected⟩ oneIdle ∧
      Ends ⟨fun _ => .invalid, fun _ _ => .sqlException⟩ threeIdle := by
  refine ⟨(getConnection_ends_iff _ oneIdle rfl).mpr (.inl ⟨1, by decide⟩),
    (getConnection_ends_iff _ threeIdle rfl).mpr (.inr ⟨3, ?_⟩)⟩
  -- All three connects fail.
  decide

/-- A server that accepts every connection, and on which `SELECT 1` fails. -/
def brokenServer : Outcomes :=
  { validation := fun _ => .invalid, connects := fun _ _ => .connected }

/-- On such a server a call with one idle connection does not end. -/
theorem broken_server_not_ends : ¬ Ends brokenServer oneIdle := by
  refine not_ends oneIdle rfl (fun _ => rfl) (fun N => ?_)
  have hnone : ∀ i, ¬ Fails brokenServer i := fun i hfails => hfails rfl
  have hzero : Nat.count (Fails brokenServer) N = 0 := by
    induction N with
    | zero => exact Nat.count_zero _
    | succ N ih => rw [Nat.count_succ, ih, if_neg (hnone N)]
  rw [hzero]
  exact Nat.one_pos

end ConnectionPool

end EpollServer
