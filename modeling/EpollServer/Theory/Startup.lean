import EpollServer.Core.Startup
import EpollServer.Theory.Gathering
import EpollServer.Theory.Config
import EpollServer.Theory.Numbers

/-!
# From the Configuration File to the Clients

How many clients a server can serve that was started with a configuration file,
a database and an operating system of any kind.

The constructor of the pool makes as many places as the file says, and a place
whose connection could not be made is dropped before the first client comes
(`createConnections_dropped`). No exception tells of it, so a server that was
started while its database was away is there, accepts clients, and serves
nobody, also when the database is back. An exception that is none of the
driver's leaves no server, and so does a size that is no number (`manager_iff`).
A size that is not positive is no error either.

All this is in one number (`startup_iff`), and if the file has been written
with a size, it is that size less the failures (`written_capacity`).

## Main definitions

* `refuses`, `isDown`, `aborts`: What may become of a connection of the pool.
* `failures`: The connections that could not be made.
* `answers`: The driver, with what the file says.
* `Calls.succeed`: No system call fails.

## Theorems

* `isDown_iff`, `aborts_iff`: The ends of the connection loop.
* `construct_dropped`, `construct_isSome`: The constructor.
* `manager_iff`, `process_iff`: When there is a manager, and a server that runs.
* `initial_capacity`: How many clients a pool can serve that was just made.
* `startup_iff`: How many clients a server can serve that was started.
* `written_capacity`: The same for a file that was written with a size.
-/

namespace EpollServer

namespace Startup

open ConnectionPool (Connect Created createLoop createNewConnection createConnections
  maxCreateAttempts)
open Push (Layout Environment packedLayout allSucceed)
open Address (Begins decimal)

/-! ### The connections -/

/-- The driver has said that there is no connection. -/
def refuses (connects : Nat → Connect) (attempt : Nat) : Prop :=
  connects attempt = .null ∨ connects attempt = .sqlException

instance (connects : Nat → Connect) (attempt : Nat) : Decidable (refuses connects attempt) :=
  inferInstanceAs (Decidable (_ ∨ _))

/-- No attempt of three gets a connection. -/
def isDown (connects : Nat → Connect) : Bool :=
  decide (∀ attempt < maxCreateAttempts, refuses connects attempt)

/-- An attempt ends with an exception that is none of the driver's. -/
def aborts (connects : Nat → Connect) : Bool :=
  decide (∃ attempt < maxCreateAttempts, connects attempt = .exception ∧
    ∀ earlier < attempt, refuses connects earlier)

/-- The connections of `n` that cannot be made. -/
def failures (connects : Nat → Nat → Connect) (n : Nat) : Nat :=
  (List.range n).countP fun i => isDown (connects i)

theorem createLoop_nullptr (connects : Nat → Connect) : ∀ remaining attempt : Nat,
    createLoop connects attempt remaining = .nullptr ↔
      ∀ j < remaining, refuses connects (attempt + j) := by
  intro remaining
  induction remaining with
  | zero => exact fun attempt => iff_of_true rfl (fun j hj => absurd hj (Nat.not_lt_zero j))
  | succ m ih =>
      intro attempt
      have hrest : (∀ j < m, refuses connects (attempt + (j + 1))) ↔
          createLoop connects (attempt + 1) m = .nullptr := by
        rw [ih]
        exact forall₂_congr fun j _ => by rw [Nat.add_assoc, Nat.add_comm 1 j]
      -- The first attempt decides, or the others do.
      rw [Nat.forall_lt_succ_left, hrest, Nat.add_zero, createLoop, refuses]
      cases connects attempt <;>
        simp only [reduceCtorEq, or_self, or_true, or_false, true_and, false_and]

theorem createLoop_exception (connects : Nat → Connect) : ∀ remaining attempt : Nat,
    createLoop connects attempt remaining = .exception ↔
      ∃ j < remaining, connects (attempt + j) = .exception ∧
        ∀ i < j, refuses connects (attempt + i) := by
  intro remaining
  induction remaining with
  | zero =>
      intro attempt
      refine iff_of_false (fun h => ?_) ?_
      · simp only [createLoop, reduceCtorEq] at h
      · rintro ⟨j, hj, _⟩
        exact Nat.not_lt_zero j hj
  | succ m ih =>
      intro attempt
      have hrest : (∃ j < m, connects (attempt + (j + 1)) = .exception ∧
          ∀ i < j + 1, refuses connects (attempt + i)) ↔
            refuses connects attempt ∧ createLoop connects (attempt + 1) m = .exception := by
        have hone : ∀ j, attempt + (j + 1) = attempt + 1 + j := fun j => by omega
        -- Behind the first attempt they are counted from the next one.
        constructor
        · rintro ⟨j, hj, hexception, hall⟩
          refine ⟨hall 0 (Nat.succ_pos j), (ih (attempt + 1)).mpr ⟨j, hj, ?_, fun i hi => ?_⟩⟩
          · rw [← hone]
            exact hexception
          · rw [← hone]
            exact hall (i + 1) (Nat.succ_lt_succ hi)
        · rintro ⟨hfirst, hloop⟩
          rcases (ih (attempt + 1)).mp hloop with ⟨j, hj, hexception, hall⟩
          refine ⟨j, hj, ?_, fun i hi => ?_⟩
          · rw [hone]
            exact hexception
          · cases i with
            | zero => exact hfirst
            | succ i =>
                rw [hone]
                exact hall i (Nat.lt_of_succ_lt_succ hi)
      rw [Nat.exists_lt_succ_left, hrest, Nat.add_zero, createLoop, refuses]
      cases connects attempt <;>
        simp only [reduceCtorEq, Nat.not_lt_zero, false_implies, implies_true, or_self, or_true,
          or_false, true_and, false_and, false_or, and_true]

theorem isDown_iff (connects : Nat → Connect) :
    createNewConnection connects = .nullptr ↔ isDown connects = true := by
  rw [createNewConnection, createLoop_nullptr, isDown, decide_eq_true_eq]
  simp only [Nat.zero_add]

theorem aborts_iff (connects : Nat → Connect) :
    createNewConnection connects = .exception ↔ aborts connects = true := by
  rw [createNewConnection, createLoop_exception, aborts, decide_eq_true_eq]
  simp only [Nat.zero_add]

/-- A place whose connection cannot be made is dropped. -/
theorem createConnection_dropped (connects : Nat → Connect) (s t : ConnectionPool.State)
    (h : ConnectionPool.createConnection connects s = some t) :
    t.dropped = s.dropped + if isDown connects = true then 1 else 0 := by
  rw [ConnectionPool.createConnection] at h
  -- A place is filled, or counted as dropped, or the constructor ends.
  cases hcreated : createNewConnection connects with
  | connection =>
      have hup : ¬ isDown connects = true := by
        rw [← isDown_iff, hcreated]
        exact Created.noConfusion
      rw [hcreated] at h
      rw [if_neg hup, ← Option.some.inj h]
      rfl
  | nullptr =>
      rw [hcreated] at h
      rw [if_pos ((isDown_iff connects).mp hcreated), ← Option.some.inj h]
      rfl
  | exception =>
      rw [hcreated] at h
      exact absurd h (Option.some_ne_none t).symm

theorem createConnections_dropped (connects : Nat → Nat → Connect) :
    ∀ (remaining i : Nat) (s t : ConnectionPool.State),
      createConnections connects i remaining s = some t →
        t.dropped = s.dropped + (List.range' i remaining).countP fun j => isDown (connects j) := by
  -- Induction on the attempts that are left, from the attempt `i` on.
  intro remaining
  induction remaining with
  | zero =>
      intro i s t h
      rw [← Option.some.inj h]
      rfl
  | succ m ih =>
      intro i s t h
      rw [createConnections] at h
      cases hone : ConnectionPool.createConnection (connects i) s with
      | none =>
          rw [hone] at h
          exact absurd h (Option.some_ne_none t).symm
      | some u =>
          rw [hone] at h
          rw [ih (i + 1) u t h, createConnection_dropped (connects i) s u hone, List.range'_succ,
            List.countP_cons]
          omega

/-- Only an exception that is none of the driver's leaves no pool. -/
theorem createConnections_isSome (connects : Nat → Nat → Connect) :
    ∀ (remaining i : Nat) (s : ConnectionPool.State),
      (∃ t, createConnections connects i remaining s = some t) ↔
        ∀ j ∈ List.range' i remaining, aborts (connects j) = false := by
  intro remaining
  induction remaining with
  | zero => exact fun i s => iff_of_true ⟨s, rfl⟩ (fun j hj => absurd hj List.not_mem_nil)
  | succ m ih =>
      intro i s
      rw [List.range'_succ, List.forall_mem_cons, createConnections,
        ConnectionPool.createConnection]
      cases hcreated : createNewConnection (connects i) with
      -- With a connection or without it the loop goes on.
      | connection | nullptr =>
          have hno : aborts (connects i) = false := by
            rw [← Bool.not_eq_true, ← aborts_iff, hcreated]
            exact Created.noConfusion
          rw [hno]
          exact (ih (i + 1) _).trans ⟨fun h => ⟨rfl, h⟩, fun h => h.2⟩
      | exception =>
          rw [(aborts_iff (connects i)).mp hcreated]
          refine iff_of_false ?_ (fun h => absurd h.1.symm Bool.false_ne_true)
          rintro ⟨t, h⟩
          exact Option.some_ne_none t h.symm

theorem construct_dropped (poolSize : Int) (connects : Nat → Nat → Connect)
    (pool : ConnectionPool.State) (h : ConnectionPool.construct poolSize connects = some pool) :
    pool.dropped = failures connects poolSize.toNat := by
  rw [createConnections_dropped connects _ _ _ pool h, failures, List.range_eq_range']
  exact Nat.zero_add _

theorem construct_isSome (poolSize : Int) (connects : Nat → Nat → Connect) :
    (∃ pool, ConnectionPool.construct poolSize connects = some pool) ↔
      ∀ i < poolSize.toNat, aborts (connects i) = false := by
  rw [ConnectionPool.construct, createConnections_isSome]
  refine forall_congr' fun i => ?_
  rw [← List.range_eq_range', List.mem_range]

/-! ### The server -/

/-- The driver, with what the file says. -/
def answers (file : Option (List UInt8)) (driver : Driver) : Nat → Nat → Connect :=
  driver (lookUp (Config.loadConfig file) dbUriKey) (lookUp (Config.loadConfig file) userKey)
    (lookUp (Config.loadConfig file) passwordKey)

/-- No system call fails. -/
def Calls.succeed (calls : Calls) : Bool :=
  calls.socket && calls.bind && calls.listen && calls.getFlags && calls.setFlags &&
    calls.epollCreate && calls.epollAdd

theorem initializeServer_result (calls : Calls) (server : Server) :
    (initializeServer calls server).1 = calls.succeed ∧
      (initializeServer calls server).2.running = server.running ∧
      (initializeServer calls server).2.pool = server.pool := by
  have hsucceed : calls.succeed = (ipUtilListen calls &&
      ((calls.getFlags && calls.setFlags) && (calls.epollCreate && calls.epollAdd))) := by
    simp only [Calls.succeed, ipUtilListen, Bool.and_assoc]
  rw [hsucceed, initializeServer]
  -- Every call that fails ends the start, and leaves the pool and the flag alone.
  cases ipUtilListen calls with
  | false => exact ⟨rfl, rfl, rfl⟩
  | true =>
      cases calls.getFlags && calls.setFlags with
      | false => exact ⟨rfl, rfl, rfl⟩
      | true => cases calls.epollCreate <;> exact ⟨rfl, rfl, rfl⟩

/-- A server runs as soon as no system call has failed. -/
theorem running_start (calls : Calls) (server : Server) (h : server.running = false) :
    (start calls server).running = calls.succeed ∧ (start calls server).pool = server.pool := by
  rcases initializeServer_result calls server with ⟨hresult, hrunning, hpool⟩
  rw [start]
  split
  · rename_i after heq
    rw [heq] at hresult hpool
    exact ⟨hresult, hpool⟩
  · rename_i after heq
    rw [heq] at hresult hrunning hpool
    exact ⟨(hrunning.trans h).trans hresult, hpool⟩

theorem manager_iff (file : Option (List UInt8)) (driver : Driver) (pool : ConnectionPool.State) :
    mySqlConnectionManager file driver = some pool ↔
      ∃ size, Library.stoi (lookUp (Config.loadConfig file) poolSizeKey) = some size ∧
        ConnectionPool.construct size (answers file driver) = some pool := by
  rw [mySqlConnectionManager]
  -- A size that is no number throws before the pool is made.
  cases hsize : Library.stoi (lookUp (Config.loadConfig file) poolSizeKey) with
  | none =>
      refine iff_of_false (Option.some_ne_none pool).symm ?_
      rintro ⟨size, h, _⟩
      exact Option.some_ne_none size h.symm
  | some size =>
      constructor
      · exact fun h => ⟨size, rfl, h⟩
      · rintro ⟨_, hsame, h⟩
        rw [← Option.some.inj hsame] at h
        exact h

/-- There is a server that runs if and only if there is a manager and no system
    call has failed. -/
theorem process_iff (ν : Type) (file : Option (List UInt8)) (driver : Driver) (calls : Calls)
    (s : Whole.State ν) :
    process ν (serverInit file driver calls) = some s ↔
      ∃ pool, mySqlConnectionManager file driver = some pool ∧ calls.succeed = true ∧
        -- Without the pool the constructor has thrown; with it the calls of `start` decide.
        s = Whole.initial ν pool := by
  rw [serverInit]
  cases mySqlConnectionManager file driver with
  | none =>
      refine iff_of_false (Option.some_ne_none s).symm ?_
      rintro ⟨pool, h, _⟩
      exact Option.some_ne_none pool h.symm
  | some pool =>
      rcases running_start calls { sLink := false, efd := false, running := false, pool := pool }
        rfl with ⟨hrunning, hpool⟩
      rw [Option.map_some, process, hrunning, hpool]
      constructor
      · intro h
        split at h
        · rename_i hsucceed
          exact ⟨pool, rfl, hsucceed, (Option.some.inj h).symm⟩
        · exact absurd h (Option.some_ne_none s).symm
      · rintro ⟨_, hsame, hsucceed, rfl⟩
        rw [if_pos hsucceed, Option.some.inj hsame]

/-! ### How many clients -/

/-- The server with a pool that was just made can serve as many clients as could
    be made. -/
theorem initial_capacity {ν : Type} (L : Layout ν) (env : Nat → Environment) (size : Int)
    (connects : Nat → Nat → Connect) (pool : ConnectionPool.State)
    (h : ConnectionPool.construct size connects = some pool) (m : Nat) :
    (∃ t, (Whole.machine L env).Reaches (Whole.initial ν pool) t ∧
        m ≤ Serving.served t.serving) ↔
      m + failures connects size.toNat ≤ size.toNat := by
  have hdropped := construct_dropped size connects pool h
  constructor
  · rintro ⟨t, ht, hserved⟩
    have hserved_le : Serving.served t.serving ≤ size.toNat - 0 - pool.dropped :=
      (Whole.capacity L env size connects pool _ h (Machine.reaches_refl _)).2 t ht
    -- No more was lost than there was to make.
    have hlost : 0 + 0 + pool.connectionQueue.length + pool.dropped ≤ size.toNat :=
      Serving.places_bound L env size connects pool (Serving.initial ν pool) h
        (Machine.reaches_refl _)
    omega
  · intro hroom
    rcases Whole.reaches_asking L env pool m with ⟨s, hs, hpool, hnone, hwasted, hasking⟩
    rcases (Whole.capacity L env size connects pool s h hs).1 with ⟨t, hst, hserved⟩
    rw [hpool, hnone, hwasted, hasking] at hserved
    exact ⟨t, Machine.reaches_trans hs hst, by omega⟩

/-- For every configuration file, also one that is missing, whatever the driver
    answers at startup and whichever system calls succeed: the process serves
    `m + 1` clients at a time in some run if and only if the file has a size
    that begins with a number and is an `int`, no connection of the pool ends
    in an exception that is none of the driver's, no system call fails, and the
    size is `m + 1` at least when the connections that could not be made are
    taken off. -/
theorem startup_iff {ν : Type} (L : Layout ν) (env : Nat → Environment)
    (file : Option (List UInt8)) (driver : Driver) (calls : Calls) (m : Nat) :
    (∃ s t, process ν (serverInit file driver calls) = some s ∧
        (Whole.machine L env).Reaches s t ∧ m + 1 ≤ Serving.served t.serving) ↔
      ∃ value size, Config.loadConfig file poolSizeKey = some value ∧ Begins value size ∧
        size < 2 ^ 31 ∧ (∀ i < size.toNat, aborts (answers file driver i) = false) ∧
        calls.succeed = true ∧ m + 1 + failures (answers file driver) size.toNat ≤ size.toNat := by
  constructor
  · rintro ⟨s, t, hs, ht, hserved⟩
    rcases (process_iff ν file driver calls s).mp hs with ⟨pool, hmanager, hsucceed, rfl⟩
    rcases (manager_iff file driver pool).mp hmanager with ⟨size, hsize, hpool⟩
    rcases (Address.stoi_iff _ size).mp hsize with ⟨hbegins, _, hint⟩
    have hroom := (initial_capacity L env size _ pool hpool (m + 1)).mp ⟨t, ht, hserved⟩
    have hclean := (construct_isSome size (answers file driver)).mp ⟨pool, hpool⟩
    cases hvalue : Config.loadConfig file poolSizeKey with
    | none =>
        -- `std::stoi` throws for an empty value.
        have hempty : Library.stoi [] = none := by decide
        rw [lookUp, hvalue] at hsize
        exact absurd (hsize.symm.trans hempty) (Option.some_ne_none size)
    | some value =>
        rw [lookUp, hvalue] at hbegins
        exact ⟨value, size, rfl, hbegins, hint, hclean, hsucceed, hroom⟩
  · rintro ⟨value, size, hvalue, hbegins, hint, hclean, hsucceed, hroom⟩
    rcases (construct_isSome size (answers file driver)).mpr hclean with ⟨pool, hpool⟩
    have hsize : Library.stoi (lookUp (Config.loadConfig file) poolSizeKey) = some size := by
      rw [lookUp, hvalue]
      exact (Address.stoi_iff value size).mpr ⟨hbegins, by omega, hint⟩
    have hmanager := (manager_iff file driver pool).mpr ⟨size, hsize, hpool⟩
    rcases (initial_capacity L env size _ pool hpool (m + 1)).mpr hroom with ⟨t, ht, hserved⟩
    exact ⟨_, t, (process_iff ν file driver calls _).mpr ⟨pool, hmanager, hsucceed, rfl⟩, ht,
      hserved⟩

/-- For every file whose last line for the size has been written with the
    number `n`, in any padding and with anything behind it that is no digit, and
    whatever the other lines are: with no such exception and no failing system
    call there is a server that runs, and it can serve at a time exactly as many
    clients as `n` is when the connections that could not be made are taken
    off. -/
theorem written_capacity {ν : Type} (L : Layout ν) (env : Nat → Environment)
    (lines : List Config.Line) (e : Config.Entry) (n : Nat) (rest : List UInt8) (driver : Driver)
    (calls : Calls) (hlast : Config.lastEntry lines poolSizeKey = some e)
    (hvalue : e.value = decimal n ++ rest)
    (hrest : ∀ b ∈ rest.head?, Library.isDigit b = false) (hint : n < 2 ^ 31)
    (hclean : ∀ i < n, aborts (answers (some (Config.text lines)) driver i) = false)
    (hsucceed : calls.succeed = true) :
    ∃ s, process ν (serverInit (some (Config.text lines)) driver calls) = some s ∧
      ∀ m, (∃ t, (Whole.machine L env).Reaches s t ∧ m ≤ Serving.served t.serving) ↔
        m + failures (answers (some (Config.text lines)) driver) n ≤ n := by
  -- What is read as the number is what was written for it.
  have hbegins := Address.begins_decimal n rest hrest
  rw [← hvalue] at hbegins
  have hne : e.value ≠ [] := by
    rintro hempty
    rw [hempty, Address.begins_iff] at hbegins
    exact hbegins.1 rfl
  have hloaded : e.loaded = e.value := (Config.loaded_eq_iff e).mpr (Or.inl hne)
  have hsize : Library.stoi (lookUp (Config.loadConfig (some (Config.text lines))) poolSizeKey) =
      some (n : Int) := by
    rw [lookUp, Config.loadConfig_text, hlast, Option.map_some, Option.getD_some, hloaded]
    exact (Address.stoi_iff _ _).mpr ⟨hbegins, by omega, by omega⟩
  rcases (construct_isSome n (answers (some (Config.text lines)) driver)).mpr hclean with
    ⟨pool, hpool⟩
  have hmanager := (manager_iff _ driver pool).mpr ⟨n, hsize, hpool⟩
  exact ⟨_, (process_iff ν _ driver calls _).mpr ⟨pool, hmanager, hsucceed, rfl⟩,
    initial_capacity L env n _ pool hpool⟩

/-- The size one, in quotes. -/
def oneEntry : Config.Entry where
  key := poolSizeKey
  left := [32, 39]
  value := [49]
  right := [39, 9]
  key_plain := ⟨by decide, by decide⟩
  value_line := fun h => absurd (List.mem_singleton.mp h) (by decide)
  value_head := by
    intro _ h
    cases h
    rfl
  value_last := by
    intro _ h
    cases h
    rfl
  left_padding := List.forall_mem_cons.mpr ⟨rfl, List.forall_mem_singleton.mpr rfl⟩
  right_padding := List.forall_mem_cons.mpr ⟨rfl, List.forall_mem_singleton.mpr rfl⟩

/-- A server with one place, started while its database is away: it runs, and
    serves nobody in any run. -/
theorem written_capacity_down :
    ∃ s, process UInt32 (serverInit (some (Config.text [.entry oneEntry]))
        (fun _ _ _ _ _ => .sqlException)
        { socket := true, bind := true, listen := true, getFlags := true, setFlags := true,
          epollCreate := true, epollAdd := true }) = some s ∧
      ∀ t, (Whole.machine packedLayout (fun _ => allSucceed)).Reaches s t →
        Serving.served t.serving = 0 := by
  rcases written_capacity packedLayout (fun _ => allSucceed) [.entry oneEntry] oneEntry 1 []
    (fun _ _ _ _ _ => .sqlException)
    { socket := true, bind := true, listen := true, getFlags := true, setFlags := true,
      epollCreate := true, epollAdd := true } rfl rfl (fun _ h => by cases h) (by decide)
    (fun _ _ => rfl) rfl with ⟨s, hs, hcapacity⟩
  refine ⟨s, hs, fun t ht => Nat.eq_zero_of_not_pos fun hpos => ?_⟩
  -- The one connection could not be made, so there is no room for a client.
  have hroom := (hcapacity 1).mp ⟨t, ht, hpos⟩
  have hdown : failures (answers (some (Config.text [.entry oneEntry]))
      (fun _ _ _ _ _ => .sqlException)) 1 = 1 := by decide
  rw [hdown] at hroom
  exact absurd hroom (by decide)

end Startup

end EpollServer
