import EpollServer.Theory.Whole

/-!
# How the Server Ends

What becomes of a server that gets more clients than its pool has workers.

Whom the server serves has a worker and a database connection of his own
(`served_worker`), so ten workers serve ten clients. The pool grows only when
more tasks wait than there are workers, and a pool that has grown is in danger
as soon as the queue is short again: then whoever reads the sizes asks for
fewer workers and does not come back (`Theory.Growth`). The main thread is the
only one that accepts and queues, so at most one client more gets in, and he is
not queued; and a client that leaves takes his worker with him (`Declines`).

So whenever the main thread waits for a client, the server serves ten at the
most, or ten or more wait, or it is at its end (`ten_or_declines`). The next
client is enough (`next_client_hangs`).

## Main definitions

* `Declines`: What a server at its end still does.
* `Sinking`: The invariant of its runs.

## Theorems

* `worker_of_inside`: A worker for whoever is in `connectionHandler`.
* `served_worker`: A worker and a database connection for whom is served.
* `sinking_step`: Every step keeps the invariant.
* `declines_of_spent`: What is left of a server with a grown and drained pool.
* `ten_or_declines`: The three cases.
* `hung_forever`: With the mutex owned, nobody is begun again.
* `next_client_hangs`: One client more.
-/

namespace EpollServer

namespace Whole

open Handler (TaskAct Phase)
open Push (Layout Environment packedLayout allSucceed)
open Accepting (Open Declining Spent)
open ThreadPool (Task)

variable {ν : Type}

/-! ### Who is served -/

/-- A connection whose task is in `connectionHandler` is with a worker. -/
theorem worker_of_inside (s : State ν) (hs : Placed s)
    (hconserved : ThreadPool.Conserved s.threads.pool) (c : Nat) (p : Phase)
    (hp : phase s.serving c = some p) (hinside : inside p = true) :
    ∃ i, s.threads.runs i = some c ∧ s.threads.tasks i = .handling := by
  -- Of all places only that of a worker has these phases.
  cases place_of_phase s hs hconserved c p hp with
  | main | queue => exact absurd hinside Bool.false_ne_true
  | past _ _ hended =>
      cases p <;> simp only [inside, Phase.hasEnded, Bool.false_eq_true] at hinside hended
  | worker i _ hruns hsuits =>
      refine ⟨i, hruns, ?_⟩
      cases hi : s.threads.tasks i with
      | handling => rfl
      | leaving | failed =>
          rw [hi] at hsuits
          simp only [Suits] at hsuits
          rw [hsuits] at hinside
          exact absurd hinside Bool.false_ne_true

/-- So is one in the loop, or just out of it. -/
theorem worker_of_serves (s : State ν) (hs : Placed s)
    (hconserved : ThreadPool.Conserved s.threads.pool) (c : Nat) (task : Serving.Task ν)
    (hc : s.serving.tasks[c]? = some task) (hserves : Serving.serves task.handler = true) :
    ∃ i, s.threads.runs i = some c ∧ s.threads.tasks i = .handling := by
  refine worker_of_inside s hs hconserved c task.handler.phase ?_ ?_
  · rw [phase, hc, Option.map_some]
  · unfold Serving.serves at hserves
    cases hp : task.handler.phase <;>
      simp only [hp, Bool.false_eq_true, inside] at hserves ⊢

/-- The number of a connection whose task this is. -/
def client : ThreadPool.Task Nat → Option Nat
  | .user c => some c
  | .terminate => none

theorem served_le_workers (s : State ν) (hs : Placed s)
    (hconserved : ThreadPool.Conserved s.threads.pool) :
    Serving.served s.serving ≤ s.threads.pool.workers.length := by
  have hle := ListModify.countP_le_length (fun task : Serving.Task ν =>
    Serving.serves task.handler) s.serving.tasks (s.threads.pool.held.filterMap client)
    (fun c task hc hserves => by
      rcases worker_of_serves s hs hconserved c task hc hserves with ⟨i, hruns, _⟩
      exact List.mem_filterMap.mpr ⟨.user c, mem_held s.threads i c hruns, rfl⟩)
  have hclients := List.length_filterMap_le client s.threads.pool.held
  have hheld := List.length_filterMap_le
    (fun w : ThreadPool.Worker Nat => w.position.task?) s.threads.pool.workers
  exact Nat.le_trans hle (Nat.le_trans hclients hheld)

/-- In every reachable state of the server, whatever its clients do and
    whatever becomes of the database: it serves no more clients than it has
    workers, and no more than its database pool has places left. Each one that
    is served has one worker of his own, which is in the handler of no other,
    and one database connection of his own. -/
theorem served_worker (L : Layout ν) (env : Nat → Environment) (poolSize : Int)
    (connects : Nat → Nat → ConnectionPool.Connect) (pool : ConnectionPool.State) (s : State ν)
    (h0 : ConnectionPool.construct poolSize connects = some pool)
    (h : (machine L env).Reaches (initial ν pool) s) :
    Serving.served s.serving ≤ s.threads.pool.workers.length ∧
      Serving.served s.serving + Serving.wasted s.serving +
        s.serving.pool.connectionQueue.length + s.serving.pool.dropped ≤ poolSize.toNat ∧
      ∀ c task, s.serving.tasks[c]? = some task → Serving.serves task.handler = true →
        (∃ i, s.threads.runs i = some c ∧ s.threads.tasks i = .handling ∧
          ∀ j, s.threads.runs j = some c → j = i) ∧
        ∃ conn, Serving.Has s.serving c conn ∧ conn ∉ s.serving.pool.connectionQueue ∧
          ∀ d, Serving.Has s.serving d conn → d = c := by
  have hs := reaches_placed L env pool s h
  have hconserved := reaches_conserved L env pool s h
  rcases Serving.served_bounded L env poolSize connects pool s.serving h0
    (reaches_serving L env _ s h) with ⟨hbound, hhas⟩
  -- The bound is the connection pool's; the worker is who has taken the client's task.
  refine ⟨served_le_workers s hs hconserved, hbound, fun c task hc hserves => ⟨?_, ?_⟩⟩
  · rcases worker_of_serves s hs hconserved c task hc hserves with ⟨i, hruns, hhandling⟩
    exact ⟨i, hruns, hhandling, fun j hj => runs_unique s hs hconserved j i c hj hruns⟩
  · exact hhas c task hc hserves

/-- The first client, from its arrival to the loop of its handler. -/
def firstClient {L : Layout ν} : List (Act L) :=
  [.accept true, .proceed, .proceed, .proceed, .proceed, .work 0, .handler 0 .getConnection,
    .database (.lock 0), .database (.pass 0), .database (.validate 0 .valid),
    .database (.handOut 0), .handler 0 .gotConnection]

/-- One client, served by the first of ten workers. -/
theorem served_worker_one :
    ∃ s : State UInt32, (machine packedLayout (fun _ => allSucceed)).Reaches
        (initial UInt32 Serving.onePool) s ∧
      Serving.served s.serving = 1 ∧ 1 ≤ s.threads.pool.workers.length ∧
      ∃ i, s.threads.runs i = some 0 ∧ ∀ j, s.threads.runs j = some 0 → j = i := by
  have hrun := Machine.reaches_of_execute (M := machine packedLayout (fun _ => allSucceed))
    firstClient (initial UInt32 Serving.onePool) _ rfl
  rcases served_worker packedLayout (fun _ => allSucceed) 1 (fun _ _ => .connected)
    Serving.onePool _ rfl hrun with ⟨hworkers, _, hown⟩
  rcases (hown 0 _ rfl rfl).1 with ⟨i, hruns, _, hunique⟩
  exact ⟨_, hrun, rfl, hworkers, i, hruns, hunique⟩

/-! ### A server at its end -/

/-- What a server at its end still does: one client more gets in, no task is
    queued, and who leaves takes his worker with him. -/
structure Declines (s t : State ν) : Prop where
  clients : t.serving.tasks.length ≤ s.serving.tasks.length + 1
  queued : t.threads.pool.accepted = s.threads.pool.accepted
  waits : ∀ c p, s.serving.tasks.length ≤ c → phase t.serving c = some p → p = .accepted
  keeps : ∀ c, phase s.serving c ≠ some .ended → phase t.serving c = some .ended →
    ∃ i, t.threads.runs i = some c

/-- The pool declines, and the tasks that are over are those of connections that
    had left at the beginning, and of exceptions. -/
structure Sinking (old : Nat → Prop) (s : State ν) : Prop where
  declining : Declining old s.threads
  finished : ∀ c, Task.user c ∈ s.threads.pool.finished → ¬ old c →
    phase s.serving c = some .failed

/-- A task that is over stays as it is. -/
theorem finished_step (L : Layout ν) (env : Nat → Environment) (old : Nat → Prop)
    (s t : State ν) (hplaced : Placed s) (hs : Sinking old s) (h : Went L env s t) (c : Nat)
    (hc : Task.user c ∈ t.threads.pool.finished) (hold : ¬ old c) :
    phase t.serving c = some .failed := by
  -- A connection whose handler runs has not failed, so it is another one.
  have hinside : ∀ i d p q, s.threads.runs i = some d → s.threads.tasks i = .handling →
      Goes s.serving t.serving d p q → Phase.failed ≠ p := by
    rintro i d p q hruns hhandling hgoes rfl
    exact absurd (inside_of_goes s t.serving i d _ q hplaced hruns hhandling hgoes)
      Bool.false_ne_true
  cases h with
  | close hafter =>
      rw [hafter] at hc ⊢
      exact hs.finished c hc hold
  | accept _ hthreads htasks _ =>
      rw [hthreads] at hc
      exact phase_append _ _ _ htasks c _ (hs.finished c hc hold)
  | enqueue d _ hthreads hgoes =>
      rw [hthreads] at hc
      exact others_of_goes _ _ d c _ _ _ hgoes (hs.finished c hc hold) Phase.noConfusion
  | begin i d pool _ hrecords _ hthreads hgoes =>
      rw [hthreads] at hc
      exact others_of_goes _ _ d c _ _ _ hgoes (hs.finished c (hrecords.2 ▸ hc) hold)
        Phase.noConfusion
  | handler i d p q hruns hhandling hthreads hgoes _ =>
      rw [hthreads] at hc
      exact others_of_goes _ _ d c _ _ _ hgoes (hs.finished c hc hold)
        (hinside i d p q hruns hhandling hgoes)
  | fail i d p hruns hhandling hthreads hgoes =>
      rw [hthreads] at hc
      exact others_of_goes _ _ d c _ _ _ hgoes (hs.finished c hc hold)
        (hinside i d p _ hruns hhandling hgoes)
  | leave i d hruns hhandling hthreads hgoes =>
      rw [hthreads] at hc
      exact others_of_goes _ _ d c _ _ _ hgoes (hs.finished c hc hold) Phase.noConfusion
  | main _ _ _ pool _ hstill hthreads hserving
  | adjustTask _ _ _ _ pool _ _ hstill hthreads hserving
  | idle _ pool hstill _ hthreads hserving | pool pool hstill hthreads hserving =>
      rw [hthreads] at hc
      rw [hserving]
      exact hs.finished c (hstill.finished ▸ hc) hold
  | finish i d hruns hended hthreads hserving =>
      rw [hthreads] at hc
      rw [hserving]
      rcases List.mem_append.mp hc with hbefore | hnew
      · exact hs.finished c hbefore hold
      · -- It has not come back from its resize, so it has failed.
        have hcd := Task.user.inj (List.mem_singleton.mp hnew)
        rw [hcd] at hold ⊢
        rcases hended with hleft | hfailed
        · exact absurd (hs.declining.task i d .returned hruns hold hleft) id
        · rcases hplaced.holds i d hruns with ⟨p, hp, hsuits⟩
          rw [hfailed] at hsuits
          rw [hp, hsuits]
  | database hthreads hphases _ _ =>
      rw [hthreads] at hc
      rw [hphases]
      exact hs.finished c hc hold

theorem sinking_step (L : Layout ν) (env : Nat → Environment) (old : Nat → Prop)
    (s t : State ν) (a : Act L) (hplaced : Placed s) (hopen : Open s.threads.pool)
    (hs : Sinking old s) (h : step L env s a = some t) : Sinking old t := by
  refine ⟨?_, fun c hc hold =>
    finished_step L env old s t hplaced hs (went_of_step L env s t a hopen h) c hc hold⟩
  rcases (parts_of_step L env s t a h).1 with hsame | ⟨b, hb⟩
  · rw [hsame]
    exact hs.declining
  · exact (Accepting.declining_step old _ _ b hopen hs.declining hb).1

/-- The state a server with a grown and drained pool is in while its main thread
    waits. -/
theorem sinking_of_spent (s : State ν) (hplaced : Placed s) (hmain : s.threads.main = .waiting)
    (hspent : Spent s.threads.pool) :
    Sinking (fun c => phase s.serving c = some .ended) s := by
  -- The main thread waits, so only tasks that were taken before can still adjust.
  refine ⟨⟨hspent, fun c p hp => ?_, fun i c p hruns hold hp => ?_⟩, fun c hc hold => ?_⟩
  · rw [hmain] at hp
    simp only [reduceCtorEq] at hp
  · rcases hplaced.holds i c hruns with ⟨q, hq, hsuits⟩
    rw [hp] at hsuits
    rw [hsuits] at hq
    exact absurd hq hold
  · rcases hplaced.finished c hc with ⟨p, hp, hended⟩
    cases p with
    | ended => exact absurd hp hold
    | failed => exact hp
    | _ => exact absurd hended Bool.false_ne_true

theorem reaches_sinking (L : Layout ν) (env : Nat → Environment) (pool : ConnectionPool.State)
    (old : Nat → Prop) (s t : State ν) (h : (machine L env).Reaches (initial ν pool) s)
    (hs : Sinking old s) (ht : (machine L env).Reaches s t) : Sinking old t := by
  refine Machine.invariant_of (K := fun u : State ν => Placed u ∧ Open u.threads.pool) ht
    (fun u hu => ⟨?_, ?_⟩) hs (fun u a v hknown hu _ hstep =>
      sinking_step L env old u v a hknown.1 hknown.2 hu hstep)
  · exact reaches_placed L env pool u (Machine.reaches_trans h hu)
  · exact reaches_open L env pool u (Machine.reaches_trans h hu)

/-- As long as nothing is queued, one client more can be in the hands of the
    main thread. -/
theorem clients_of_accepted (s t : State ν) (hs : Placed s) (ht : Placed t)
    (haccepted : t.threads.pool.accepted = s.threads.pool.accepted) :
    t.serving.tasks.length - t.threads.main.pending =
      s.serving.tasks.length - s.threads.main.pending := by
  have hlength := congrArg List.length haccepted
  rw [ht.accepted, hs.accepted, List.length_map, List.length_map, List.length_range,
    List.length_range] at hlength
  exact hlength

theorem declines_of_spent (L : Layout ν) (env : Nat → Environment) (pool : ConnectionPool.State)
    (s t : State ν) (h : (machine L env).Reaches (initial ν pool) s)
    (hmain : s.threads.main = .waiting) (hspent : Spent s.threads.pool)
    (ht : (machine L env).Reaches s t) : Declines s t := by
  have hplaced := reaches_placed L env pool s h
  have hreach := Machine.reaches_trans h ht
  have hplacedt := reaches_placed L env pool t hreach
  -- From the state where the sizes settle the pool no longer grows, in any run.
  have hstart := sinking_of_spent s hplaced hmain hspent
  have hsinking := reaches_sinking L env pool _ s t h hstart ht
  have haccepted := (Accepting.reaches_declining _ s.threads t.threads
    (reaches_open L env pool s h) hstart.declining (reaches_threads L env s t ht)).2
  have hclients := clients_of_accepted s t hplaced hplacedt haccepted
  rw [hmain, Accepting.MainPhase.pending, Nat.sub_zero] at hclients
  refine ⟨?_, haccepted, fun c p hc hp => ?_, fun c hold hended => ?_⟩
  · cases hmaint : t.threads.main with
    -- No client was accepted in between, so nobody's task is still with the main thread.
    | waiting => rw [hmaint, Accepting.MainPhase.pending] at hclients; omega
    | adding => rw [hmaint, Accepting.MainPhase.pending] at hclients; omega
  · have hlt := lt_of_phase t.serving c p hp
    cases hmaint : t.threads.main with
    | waiting =>
        rw [hmaint, Accepting.MainPhase.pending] at hclients
        omega
    | adding d a =>
        rw [hmaint, Accepting.MainPhase.pending] at hclients
        have hlast := hplacedt.main d a hmaint
        have hcd : c = d := by omega
        rw [hcd, hlast.2, Option.some.injEq] at hp
        exact hp.symm
  · -- Who has left is with a worker, because his task is not over.
    cases place_of_phase t hplacedt (reaches_conserved L env pool t hreach) c _ hended with
    | worker i _ hruns _ => exact ⟨i, hruns⟩
    | past _ hfinished _ =>
        have hfailed := hsinking.finished c hfinished hold
        rw [hended] at hfailed
        simp only [Option.some.injEq, reduceCtorEq] at hfailed

/-- Whenever the main thread waits for a client, in any run: the server serves
    ten clients at the most, or ten or more are in the queue and wait, or it is
    at its end and accepts one client more at the most, whom it never queues. -/
theorem ten_or_declines (L : Layout ν) (env : Nat → Environment) (pool : ConnectionPool.State)
    (s : State ν) (h : (machine L env).Reaches (initial ν pool) s)
    (hmain : s.threads.main = .waiting) :
    Serving.served s.serving ≤ 10 ∨ 10 ≤ s.threads.pool.tasks.length ∨
      ∀ t, (machine L env).Reaches s t → Declines s t := by
  have hserved := served_le_workers s (reaches_placed L env pool s h)
    (reaches_conserved L env pool s h)
  -- The pool has its ten workers, or has been grown to twenty and more.
  rcases (Accepting.reaches_counted s.threads (reaches_threads L env _ s h)).sized with
    hten | htwenty
  · exact Or.inl (by omega)
  · by_cases hqueue : s.threads.pool.tasks.length < s.threads.pool.workers.length / 2
    · refine Or.inr (Or.inr fun t ht => ?_)
      exact declines_of_spent L env pool s t h hmain ⟨by omega, hqueue⟩ ht
    · exact Or.inr (Or.inl (by omega))

/-- The pool of twelve connections, made. -/
def twelvePool : ConnectionPool.State :=
  { connectionQueue := List.range 12, mutex := none, calls := [], nextConnection := 12,
    dropped := 0, validated := [], handedOut := [] }

/-- Worker `i` takes a task, and gets a database connection for it. -/
def servesNext {L : Layout ν} (i : Nat) : List (Act L) :=
  [.work i, .handler i .getConnection, .database (.lock i), .database (.pass i),
    .database (.validate i .valid), .database (.handOut i), .handler i .gotConnection]

/-- Twelve clients come before a worker takes a task, and all of them are served.
    Nobody is in the queue, so that the server is at its end. -/
theorem ten_or_declines_twelve :
    ∃ s : State UInt32, (machine packedLayout (fun _ => allSucceed)).Reaches
        (initial UInt32 twelvePool) s ∧
      s.threads.pool.workers.length = 20 ∧ Serving.served s.serving = 12 ∧
      s.threads.pool.tasks = [] ∧
      ∀ t, (machine packedLayout (fun _ => allSucceed)).Reaches s t → Declines s t := by
  have hrun : ((machine packedLayout (fun _ => allSucceed)).execute (initial UInt32 twelvePool)
      ((List.range 12).flatMap (fun _ => [.accept true, .proceed, .proceed, .proceed, .proceed]) ++
        (List.range 12).flatMap servesNext)).map (fun s =>
        decide (s.threads.main = .waiting ∧ s.threads.pool.workers.length = 20 ∧
          Serving.served s.serving = 12 ∧ s.threads.pool.tasks = [])) = some true := by
    decide +kernel
  rcases Machine.reaches_of_check _ _ hrun with ⟨s, hs, hcheck⟩
  rcases of_decide_eq_true hcheck with ⟨hmain, hworkers, hserved, hqueue⟩
  refine ⟨s, hs, hworkers, hserved, hqueue, ?_⟩
  rcases ten_or_declines packedLayout (fun _ => allSucceed) twelvePool s hs hmain with
    hten | hten | hdeclines
  · omega
  · rw [hqueue, List.length_nil] at hten
    omega
  · exact hdeclines

/-! ### A mutex that is owned -/

theorem pending_le (m : Accepting.MainPhase) : m.pending ≤ 1 := by
  cases m with
  | waiting => exact Nat.zero_le 1
  | adding => exact Nat.le_refl 1

/-- Once a thread waits for the mutex it owns, in any run from there: at most
    one client more gets in, and whoever has not been taken by a worker by then
    never is. -/
theorem hung_forever (L : Layout ν) (env : Nat → Environment) (pool : ConnectionPool.State)
    (s t : State ν) (o : ThreadPool.Thread) (h : (machine L env).Reaches (initial ν pool) s)
    (hown : s.threads.pool.queueMutex = some o) (ht : (machine L env).Reaches s t) :
    t.threads.pool.queueMutex = some o ∧
      t.serving.tasks.length + s.threads.main.pending ≤ s.serving.tasks.length + 1 ∧
      ∀ c p, phase t.serving c = some p → Task.user c ∉ s.threads.pool.dequeued →
        p = .accepted ∨ p = .queued := by
  have hplaced := reaches_placed L env pool s h
  have hreach := Machine.reaches_trans h ht
  have hplacedt := reaches_placed L env pool t hreach
  have hconserved := reaches_conserved L env pool t hreach
  -- With the mutex owned, the records of the queue stand still.
  rcases Accepting.reaches_owned s.threads t.threads o hown (reaches_threads L env s t ht) with
    ⟨hmutex, _, haccepted, hdequeued, _⟩
  refine ⟨hmutex, ?_, fun c p hp hnew => ?_⟩
  · have hclients := clients_of_accepted s t hplaced hplacedt haccepted
    have hpending := pending_le t.threads.main
    have hs : s.threads.main.pending ≤ s.serving.tasks.length := by
      cases hmain : s.threads.main with
      | waiting => exact Nat.zero_le _
      | adding c a =>
          rw [← (hplaced.main c a hmain).1]
          exact Nat.le_add_left 1 c
    omega
  · rw [← hdequeued] at hnew
    cases place_of_phase t hplacedt hconserved c p hp with
    | main => exact Or.inl rfl
    | queue => exact Or.inr rfl
    -- Who is with a worker, or past it, has been taken by one.
    | worker i _ hruns _ =>
        have hheld := mem_held t.threads i c hruns
        exact absurd (hconserved.held.mem_iff.mpr (List.mem_append_right _ hheld)) hnew
    | past _ hfinished _ =>
        exact absurd (hconserved.held.mem_iff.mpr (List.mem_append_left _ hfinished)) hnew

/-- The next client is accepted. -/
theorem accept_exists (L : Layout ν) (env : Nat → Environment) (s : State ν)
    (hmain : s.threads.main = .waiting) :
    ∃ t, (machine L env).step s (.accept true) = some t ∧
      t.threads.main = .adding s.serving.tasks.length .called ∧
      t.threads.pool = s.threads.pool ∧
      t.serving.tasks.length = s.serving.tasks.length + 1 := by
  simp only [machine, step, accept, Accepting.accept, hmain, if_true, Option.bind_some,
    Serving.step, Option.map_some, Option.some.injEq, exists_eq_left', List.length_append,
    List.length_singleton, and_self]

/-- The main thread goes on in `adjustThreadPoolSize`. -/
theorem adjust_exists (L : Layout ν) (env : Nat → Environment) (s : State ν) (c : Nat)
    (p p' : ThreadPool.Adjust) (pool : ThreadPool.Pool Nat)
    (hmain : s.threads.main = .adding c p) (hp : p ≠ .returned)
    (hadjust : ThreadPool.adjustThreadPoolSize (.caller 0) s.threads.pool p = some (p', pool)) :
    ∃ t, (machine L env).step s .proceed = some t ∧ t.threads.main = .adding c p' ∧
      t.threads.pool = pool ∧ t.serving = s.serving := by
  have hthreads : Accepting.proceed s.threads =
      some { s.threads with main := .adding c p', pool := pool } := by
    unfold Accepting.proceed
    cases p with
    | returned => exact absurd rfl hp
    | _ => simp only [hmain, hadjust, Option.map_some]
  simp only [machine, step, proceed, hthreads, Option.bind_some, hmain, Option.some.injEq,
    exists_eq_left', and_self]

/-- One client more is enough for a server whose pool is grown and drained: it
    comes to hang when the client has been accepted, and from then on nobody is
    accepted, and whoever was not with a worker before is not served. -/
theorem next_client_hangs (L : Layout ν) (env : Nat → Environment) (pool : ConnectionPool.State)
    (s : State ν) (h : (machine L env).Reaches (initial ν pool) s)
    (hmain : s.threads.main = .waiting) (hfree : s.threads.pool.queueMutex = none)
    (hspent : Spent s.threads.pool) :
    ∃ t, (machine L env).Reaches s t ∧
      t.serving.tasks.length = s.serving.tasks.length + 1 ∧
      ∀ u, (machine L env).Reaches t u →
        u.threads.pool.queueMutex = some (.caller 0) ∧
        u.serving.tasks.length ≤ t.serving.tasks.length ∧
        ∀ c p, phase u.serving c = some p → Task.user c ∉ s.threads.pool.dequeued →
          p = .accepted ∨ p = .queued := by
  rcases Accepting.adjust_spent (.caller 0) s.threads.pool hfree hspent with
    ⟨hcalled, hqueueRead, hsizesRead⟩
  -- Four steps of the main thread: it accepts, reads both sizes, and resizes.
  rcases accept_exists L env s hmain with ⟨s1, hstep1, hmain1, hpool1, hlength1⟩
  rcases adjust_exists L env s1 _ _ _ _ hmain1 ThreadPool.Adjust.noConfusion
    (by rw [hpool1]; exact hcalled) with ⟨s2, hstep2, hmain2, hpool2, hserving2⟩
  rcases adjust_exists L env s2 _ _ _ _ hmain2 ThreadPool.Adjust.noConfusion
    (by rw [hpool2]; exact hqueueRead) with ⟨s3, hstep3, hmain3, hpool3, hserving3⟩
  rcases adjust_exists L env s3 _ _ _ _ hmain3 ThreadPool.Adjust.noConfusion
    (by rw [hpool3]; exact hsizesRead) with ⟨t, hstep4, hmain4, hpool4, hserving4⟩
  have hreach : (machine L env).Reaches s t :=
    Machine.reaches_step (Machine.reaches_step (Machine.reaches_step
      (Machine.reaches_step (Machine.reaches_refl s) hstep1) hstep2) hstep3) hstep4
  have hlength : t.serving.tasks.length = s.serving.tasks.length + 1 := by
    rw [hserving4, hserving3, hserving2]
    exact hlength1
  refine ⟨t, hreach, hlength, fun u hu => ?_⟩
  rcases hung_forever L env pool t u (.caller 0) (Machine.reaches_trans h hreach)
    (by rw [hpool4]) hu with ⟨hmutex, hclients, hbegun⟩
  rw [hmain4] at hclients
  rw [hpool4] at hbegun
  exact ⟨hmutex, Nat.le_of_add_le_add_right hclients, hbegun⟩

/-- Twelve clients come before a worker takes a task, and then three workers do.
    The pool has been doubled after the first eleven. -/
def burst {L : Layout ν} : List (Act L) :=
  (List.range 12).flatMap (fun _ => [.accept true, .proceed, .proceed, .proceed, .proceed]) ++
    [.work 0, .work 1, .work 2]

theorem reaches_burst :
    ∃ s : State UInt32, (machine packedLayout (fun _ => allSucceed)).Reaches
        (initial UInt32 Serving.onePool) s ∧
      s.threads.main = .waiting ∧ s.threads.pool.queueMutex = none ∧
      s.threads.pool.workers.length = 20 ∧ s.threads.pool.tasks.length = 9 ∧
      s.serving.tasks.length = 12 := by
  have hrun : ((machine packedLayout (fun _ => allSucceed)).execute
      (initial UInt32 Serving.onePool) burst).map (fun s =>
        decide (s.threads.main = .waiting ∧ s.threads.pool.queueMutex = none ∧
          s.threads.pool.workers.length = 20 ∧ s.threads.pool.tasks.length = 9 ∧
          s.serving.tasks.length = 12)) = some true := by decide +kernel
  rcases Machine.reaches_of_check burst _ hrun with ⟨s, hs, hcheck⟩
  exact ⟨s, hs, of_decide_eq_true hcheck⟩

/-- The thirteenth client. -/
theorem next_client_hangs_burst :
    ∃ s t : State UInt32, (machine packedLayout (fun _ => allSucceed)).Reaches
        (initial UInt32 Serving.onePool) s ∧
      s.serving.tasks.length = 12 ∧
      (machine packedLayout (fun _ => allSucceed)).Reaches s t ∧ t.serving.tasks.length = 13 ∧
      ∀ u, (machine packedLayout (fun _ => allSucceed)).Reaches t u →
        u.threads.pool.queueMutex = some (.caller 0) ∧ u.serving.tasks.length ≤ 13 := by
  -- The burst leaves the pool grown and the queue short.
  rcases reaches_burst with ⟨s, hs, hmain, hfree, hworkers, hqueue, hclients⟩
  have hspent : Spent s.threads.pool := by
    unfold Spent
    rw [hworkers, hqueue]
    decide
  rcases next_client_hangs packedLayout (fun _ => allSucceed) Serving.onePool s hs hmain hfree
    hspent with ⟨t, hst, hlength, hhang⟩
  rw [hclients] at hlength
  refine ⟨s, t, hs, hclients, hst, hlength, fun u hu => ?_⟩
  rcases hhang u hu with ⟨hmutex, hle, _⟩
  rw [hlength] at hle
  exact ⟨hmutex, hle⟩

end Whole

end EpollServer
