import EpollServer.Lib.ListModify
import EpollServer.Core.EventLoop

/-!
# Reading what Was Reported

Which events the loop of `Server::run` reads, in every run.

`epoll_wait` has filled the vector when it is resized, and the new size comes
from a counter that handlers decrement meanwhile. At `epoll_wait` there are no
more descriptors than the listening socket and the connections counted, because
a handler removes its descriptor before it decrements the counter. So no more
events are reported than that, and the vector is too short for them only if at
least `INITIAL_EVENTS` handlers have ended between the wait and the resize. Then
the loop reads behind it.

## Main definitions

* `Handler.counted`: The share of a connection in `activeConnections`.
* `connections`: The connections that are counted.
* `Turn`: What a step can be.
* `Sound`: What every run keeps.
* `ReadsReported`: The loop reads what was reported.
* `Intact`: While the loop runs, the vector begins with what was reported.
* `Fits`: The vector holds what was reported after it is resized.

## Theorems

* `turn_of_step`: What a step can be.
* `length_le_of_reportable`: No more is reported than is counted.
* `sound_step`, `intact_step`: What a step keeps.
* `reaches_index`, `reads_behind`: The main thread goes on to the end of a
  vector that is too short.
* `event_loop_reads_reported`: When the loop reads what was reported.
-/

namespace EpollServer

namespace EventLoop

/-- The share of a connection in `activeConnections`. -/
def Handler.counted : Handler → Nat
  | .ended => 0
  | _ => 1

/-- The connections that are counted. -/
def connections (handlers : List Handler) : Nat := (handlers.map Handler.counted).sum

/-- What a step can be. -/
inductive Turn (s : State) : Act → State → Prop where
  | wait (reported : List Descriptor) (phase : s.phase = .waiting) (h : Reportable s reported) :
      Turn s (.wait reported)
        { s with phase := .resizing reported, events := fill reported s.events, ended := 0 }
  | resize (reported : List Descriptor) (phase : s.phase = .resizing reported) :
      Turn s .resize { s with
        phase := .visiting reported 0
        events := EventLoop.resize (initialEvents + s.activeConnections) s.events }
  | visit (reported : List Descriptor) (i : Nat) (t : State)
      (phase : s.phase = .visiting reported i) (h : EventLoop.visit reported i s = some t) :
      Turn s .visit t
  | accept (added : Bool) (reported : List Descriptor) (i : Nat)
      (phase : s.phase = .accepting reported i) :
      Turn s (.accept added) (EventLoop.accept added s)
  | accepted (reported : List Descriptor) (i : Nat) (phase : s.phase = .accepting reported i) :
      Turn s .accepted { s with phase := .visiting reported (i + 1) }
  | stop : Turn s .stop { s with running := false }
  | finish (phase : s.phase = .waiting) : Turn s .finish { s with phase := .stopped }
  | remove (k : Nat) (h : s.handlers[k]? = some .serving) :
      Turn s (.remove k) (s.setHandler k .removed)
  | decrement (k : Nat) (h : s.handlers[k]? = some .removed) :
      Turn s (.decrement k)
        { s.setHandler k .ended with
          activeConnections := s.activeConnections - 1
          ended := s.ended + 1 }
  | fail (k : Nat) (h : s.handlers[k]? = some .serving) :
      Turn s (.fail k) (s.setHandler k (.failed true))
  | failRemoved (k : Nat) (h : s.handlers[k]? = some .removed) :
      Turn s (.fail k) (s.setHandler k (.failed false))

/-- What every run keeps: the counter counts, and between `epoll_wait` and the
    resize the events reported are in front of the vector, and not more than the
    descriptors counted at the wait. -/
structure Sound (s : State) : Prop where
  counts : s.activeConnections = connections s.handlers
  few : ∀ reported, s.phase = .resizing reported →
    reported.length ≤ s.activeConnections + s.ended + 1
  filled : ∀ reported, s.phase = .resizing reported →
    s.events.take reported.length = reported.map some

/-- The event the loop is about to read is within the vector, and is the one
    that was reported. -/
def ReadsReported (s : State) : Prop :=
  ∀ reported i, s.phase = .visiting reported i → i < reported.length →
    i < s.events.length ∧ s.events[i]? = reported[i]?.map some

/-- While the loop runs, the events reported are in front of the vector. -/
def Intact (s : State) : Prop :=
  ∀ reported i, s.phase = .visiting reported i ∨ s.phase = .accepting reported i →
    s.events.take reported.length = reported.map some

/-- The vector holds the events reported after it is resized. -/
def Fits (s : State) : Act → Prop
  | .resize => ∀ reported, s.phase = .resizing reported →
      reported.length ≤ initialEvents + s.activeConnections
  | _ => True

/-! ### Steps -/

theorem turn_of_step {s t : State} {a : Act} (h : step s a = some t) : Turn s a t := by
  cases a <;> simp only [step] at h
  case wait reported =>
    split at h
    · rename_i hwait
      rw [Option.some.injEq] at h
      rw [← h]
      exact .wait reported hwait.1 hwait.2.2
    · simp only [reduceCtorEq] at h
  case visit =>
    split at h
    · exact .visit _ _ t ‹_› h
    · simp only [reduceCtorEq] at h
  case stop =>
    rw [Option.some.injEq] at h
    rw [← h]
    exact .stop
  case finish =>
    split at h
    · rename_i hfinish
      rw [Option.some.injEq] at h
      rw [← h]
      exact .finish hfinish.1
    · simp only [reduceCtorEq] at h
  case fail k =>
    split at h
    · rw [Option.some.injEq] at h
      rw [← h]
      exact .fail k ‹_›
    · rw [Option.some.injEq] at h
      rw [← h]
      exact .failRemoved k ‹_›
    · simp only [reduceCtorEq] at h
  all_goals
    split at h <;> simp only [reduceCtorEq, Option.some.injEq] at h
    all_goals
      rw [← h]
      constructor <;> assumption

/-- A pass of the loop changes nothing but the place in it. -/
theorem visit_eq {reported : List Descriptor} {i : Nat} {s t : State}
    (h : visit reported i s = some t) :
    ∃ p, t = { s with phase := p } ∧
      (p = .waiting ∨ p = .accepting reported i ∨ p = .visiting reported (i + 1)) := by
  rw [visit] at h
  split at h
  · split at h
    · simp only [reduceCtorEq] at h
    · split at h
      · exact ⟨_, (Option.some.inj h).symm, .inr (.inl rfl)⟩
      · exact ⟨_, (Option.some.inj h).symm, .inr (.inr rfl)⟩
  · exact ⟨_, (Option.some.inj h).symm, .inl rfl⟩

/-! ### Counting -/

theorem length_clients_le (handlers : List Handler) :
    (clients handlers).length ≤ connections handlers := by
  have hle := ListModify.length_filterMap_le_sum
    (fun p : Handler × Nat => if p.1.registered then some (Descriptor.client p.2) else none)
    (fun p : Handler × Nat => p.1.counted) (fun p => by
      rcases p with ⟨handler, k⟩
      -- A descriptor is removed before its connection is no longer counted.
      cases handler with
      | serving => exact Nat.le_refl 1
      | removed => exact Nat.zero_le 1
      | ended => exact Nat.le_refl 0
      | failed registered => cases registered with
        | false => exact Nat.zero_le 1
        | true => exact Nat.le_refl 1) handlers.zipIdx
  have hmap : handlers.zipIdx.map (fun p : Handler × Nat => p.1.counted) =
      handlers.map Handler.counted := by
    have hcomp : (fun p : Handler × Nat => p.1.counted) = Handler.counted ∘ Prod.fst := rfl
    rw [hcomp, ← List.map_map, List.zipIdx_map_fst]
  rw [hmap] at hle
  exact hle

/-- No more is reported than is counted, and the listening socket. -/
theorem length_le_of_reportable {s : State} {reported : List Descriptor}
    (h : Reportable s reported) : reported.length ≤ connections s.handlers + 1 := by
  have hle := (List.Nodup.subperm h.2.1 h.2.2).length_le
  have hclients := length_clients_le s.handlers
  rw [registered, List.length_cons] at hle
  omega

/-- A handler that goes on. -/
theorem connections_setHandler {s : State} {k : Nat} {handler : Handler} (handler' : Handler)
    (h : s.handlers[k]? = some handler) :
    connections (s.setHandler k handler').handlers + handler.counted =
      connections s.handlers + handler'.counted :=
  ListModify.sum_modify Handler.counted (fun _ => handler') h

/-! ### What a run keeps -/

/-- Another handler has gone on, or something that does not matter has
    happened. -/
theorem sound_of_same {s t : State} (hs : Sound s) (hphase : t.phase = s.phase)
    (hevents : t.events = s.events) (hended : t.ended = s.ended)
    (hactive : t.activeConnections = s.activeConnections)
    (hcount : connections t.handlers = connections s.handlers) : Sound t := by
  refine ⟨?_, ?_, ?_⟩
  · rw [hactive, hcount]
    exact hs.counts
  · rw [hphase, hactive, hended]
    exact hs.few
  · rw [hphase, hevents]
    exact hs.filled

/-- A handler goes on, and is counted as before. -/
theorem sound_setHandler {s : State} {k : Nat} {handler handler' : Handler} (hs : Sound s)
    (h : s.handlers[k]? = some handler) (hcounted : handler'.counted = handler.counted) :
    Sound (s.setHandler k handler') := by
  have hcount := connections_setHandler handler' h
  exact sound_of_same hs rfl rfl rfl rfl (by omega)

/-- Outside of the time between the wait and the resize only the counter
    matters. -/
theorem sound_of_phase {t : State} (hcount : t.activeConnections = connections t.handlers)
    (hphase : ∀ reported, t.phase ≠ .resizing reported) : Sound t :=
  ⟨hcount, fun reported h => absurd h (hphase reported), fun reported h =>
    absurd h (hphase reported)⟩

theorem sound_step {s t : State} {a : Act} (hs : Sound s) (h : step s a = some t) : Sound t := by
  cases turn_of_step h with
  | wait reported hphase hreport =>
      -- At the wait the counter still has everything that is registered.
      have hle := length_le_of_reportable hreport
      refine ⟨hs.counts, fun other hother => ?_, fun other hother => ?_⟩
      · rw [Phase.resizing.injEq] at hother
        subst hother
        have hcounts := hs.counts
        simp only
        omega
      · rw [Phase.resizing.injEq] at hother
        subst hother
        exact List.take_left' (List.length_map _)
  | resize reported hphase =>
      exact sound_of_phase hs.counts fun _ heq => Phase.noConfusion heq
  | visit reported i t hphase hvisit =>
      rcases visit_eq hvisit with ⟨p, rfl, rfl | rfl | rfl⟩
      · exact sound_of_phase hs.counts fun _ heq => Phase.noConfusion heq
      · exact sound_of_phase hs.counts fun _ heq => Phase.noConfusion heq
      · exact sound_of_phase hs.counts fun _ heq => Phase.noConfusion heq
  | accept added reported i hphase =>
      cases added with
      | false => exact hs
      | true =>
          refine sound_of_phase ?_ fun other heq => ?_
          · change s.activeConnections + 1 = connections (s.handlers ++ [.serving])
            rw [connections, List.map_append, List.sum_append, hs.counts]
            rfl
          · exact Phase.noConfusion (hphase.symm.trans heq)
  | accepted reported i hphase =>
      exact sound_of_phase hs.counts fun _ heq => Phase.noConfusion heq
  | stop => exact sound_of_same hs rfl rfl rfl rfl rfl
  | finish hphase => exact sound_of_phase hs.counts fun _ heq => Phase.noConfusion heq
  | remove k hk => exact sound_setHandler hs hk rfl
  | fail k hk => exact sound_setHandler hs hk rfl
  | failRemoved k hk => exact sound_setHandler hs hk rfl
  | decrement k hk =>
      -- One connection less is counted, and one handler more has ended.
      have hcount := connections_setHandler .ended hk
      have hcounts := hs.counts
      simp only [Handler.counted] at hcount
      refine ⟨?_, fun reported hreported => ?_, hs.filled⟩
      · simp only
        omega
      · have hle := hs.few reported hreported
        simp only
        omega

theorem sound_reaches {s : State} (h : machine.Reaches initial s) : Sound s := by
  refine Machine.invariant h ?_ fun t a u ht _ hstep => sound_step ht hstep
  exact sound_of_phase rfl fun _ heq => Phase.noConfusion heq

/-- A resize to a size that is large enough keeps the front of the vector. -/
theorem take_resize {n size : Nat} {events : List (Option Descriptor)}
    {front : List (Option Descriptor)} (htake : events.take n = front) (hlen : front.length = n)
    (hle : n ≤ size) : (resize size events).take n = front := by
  have hevents : n ≤ events.length := by
    rw [← htake, List.length_take] at hlen
    omega
  rw [resize, List.take_append_of_le_length (by rw [List.length_take]; omega), List.take_take,
    Nat.min_eq_left hle, htake]

/-- Outside of the loop nothing is read. -/
theorem intact_outside {t : State} (h : ∀ reported i, t.phase ≠ .visiting reported i ∧
    t.phase ≠ .accepting reported i) : Intact t := by
  rintro reported i (heq | heq)
  · exact absurd heq (h reported i).1
  · exact absurd heq (h reported i).2

theorem intact_visiting {t : State} {reported : List Descriptor} {i : Nat}
    (hphase : t.phase = .visiting reported i)
    (hfront : t.events.take reported.length = reported.map some) : Intact t := by
  rintro other j (heq | heq)
  · rw [hphase, Phase.visiting.injEq] at heq
    rw [← heq.1]
    exact hfront
  · rw [hphase] at heq
    exact Phase.noConfusion heq

theorem intact_accepting {t : State} {reported : List Descriptor} {i : Nat}
    (hphase : t.phase = .accepting reported i)
    (hfront : t.events.take reported.length = reported.map some) : Intact t := by
  rintro other j (heq | heq)
  · rw [hphase] at heq
    exact Phase.noConfusion heq
  · rw [hphase, Phase.accepting.injEq] at heq
    rw [← heq.1]
    exact hfront

/-- What the loop reads is untouched by every step that fits. -/
theorem intact_step {s t : State} {a : Act} (hsound : Sound s) (hs : Intact s) (hfits : Fits s a)
    (h : step s a = some t) : Intact t := by
  cases turn_of_step h with
  | wait reported hphase hreport =>
      exact intact_outside fun _ _ => ⟨fun heq => Phase.noConfusion heq, fun heq =>
        Phase.noConfusion heq⟩
  | resize reported hphase =>
      -- The only step that cuts the vector.
      exact intact_visiting rfl
        (take_resize (hsound.filled _ hphase) (List.length_map _) (hfits _ hphase))
  | visit reported i t hphase hvisit =>
      have hfront := hs reported i (.inl hphase)
      rcases visit_eq hvisit with ⟨p, rfl, rfl | rfl | rfl⟩
      · exact intact_outside fun _ _ => ⟨fun heq => Phase.noConfusion heq, fun heq =>
          Phase.noConfusion heq⟩
      · exact intact_accepting rfl hfront
      · exact intact_visiting rfl hfront
  | accept added reported i hphase =>
      cases added with
      | false => exact hs
      | true => exact hs
  | accepted reported i hphase => exact intact_visiting rfl (hs reported i (.inr hphase))
  | finish hphase =>
      exact intact_outside fun _ _ => ⟨fun heq => Phase.noConfusion heq, fun heq =>
        Phase.noConfusion heq⟩
  -- The handlers do not touch the vector.
  | stop => exact hs
  | remove k hk => exact hs
  | decrement k hk => exact hs
  | fail k hk => exact hs
  | failRemoved k hk => exact hs

theorem readsReported_of_intact {s : State} (h : Intact s) : ReadsReported s := by
  intro reported i hphase hi
  have hfront := h reported i (.inl hphase)
  have hread : s.events[i]? = reported[i]?.map some := by
    rw [← List.getElem?_map, ← hfront, List.getElem?_take_of_lt hi]
  refine ⟨?_, hread⟩
  rw [List.getElem?_eq_getElem hi, Option.map_some] at hread
  exact (List.getElem?_eq_some_iff.mp hread).1

/-! ### Reading behind the vector -/

/-- The main thread alone goes on to every index up to the size of the vector. -/
theorem reaches_index {s : State} {reported : List Descriptor}
    (h : s.phase = .visiting reported 0) : ∀ j, j ≤ s.events.length → j ≤ reported.length →
    ∃ t, machine.Reaches s t ∧ t.phase = .visiting reported j ∧ t.events = s.events := by
  intro j
  induction j with
  | zero => exact fun _ _ => ⟨s, Machine.reaches_refl s, h, rfl⟩
  | succ j ih =>
      intro hsize hreported
      rcases ih (by omega) (by omega) with ⟨t, ht, hphase, hevents⟩
      -- No handler takes a step, so that the vector stays as it is.
      have hj : j < t.events.length := by
        rw [hevents]
        omega
      have hvisit : machine.step t .visit = visit reported j t := by
        simp only [machine, step, hphase]
      have hread : visit reported j t = if t.events[j] = some .listening then
          some { t with phase := .accepting reported j }
        else some { t with phase := .visiting reported (j + 1) } := by
        rw [visit, if_pos (by omega), List.getElem?_eq_getElem hj]
      by_cases hlistening : t.events[j] = some .listening
      · -- No connection is accepted.
        rw [hread, if_pos hlistening] at hvisit
        have haccepting := Machine.reaches_step ht hvisit
        exact ⟨{ t with phase := .visiting reported (j + 1) },
          Machine.reaches_step (a := Act.accepted) haccepting rfl, rfl, hevents⟩
      · rw [hread, if_neg hlistening] at hvisit
        exact ⟨_, Machine.reaches_step ht hvisit, rfl, hevents⟩

theorem length_resize (size : Nat) (events : List (Option Descriptor)) :
    (resize size events).length = size := by
  rw [resize, List.length_append, List.length_take, List.length_replicate]
  omega

/-- If the vector is too short after the resize, the loop reads behind it. -/
theorem reads_behind {s : State} {reported : List Descriptor}
    (hphase : s.phase = .resizing reported)
    (hlt : initialEvents + s.activeConnections < reported.length) :
    ∃ t, machine.Reaches s t ∧ ¬ ReadsReported t := by
  have hresize : machine.step s .resize = some { s with
      phase := .visiting reported 0
      events := resize (initialEvents + s.activeConnections) s.events } := by
    simp only [machine, step, hphase]
  have hlen := length_resize (initialEvents + s.activeConnections) s.events
  rcases reaches_index (s := { s with
      phase := .visiting reported 0
      events := resize (initialEvents + s.activeConnections) s.events }) rfl
    (initialEvents + s.activeConnections) (Nat.le_of_eq hlen.symm) (Nat.le_of_lt hlt) with
    ⟨t, ht, hvisiting, hevents⟩
  refine ⟨t, Machine.reachesBy_head trivial hresize ht, fun hreads => ?_⟩
  -- The loop is at the end of the vector, and there is more to read.
  have hbelow := (hreads reported _ hvisiting hlt).1
  rw [hevents, hlen] at hbelow
  exact Nat.lt_irrefl _ hbelow

/-! ### When the loop reads what was reported -/

theorem not_fits {s : State} {reported : List Descriptor} (hphase : s.phase = .resizing reported)
    (h : ¬ Fits s .resize) : initialEvents + s.activeConnections < reported.length := by
  by_contra hge
  refine h fun other hother => ?_
  rw [hphase, Phase.resizing.injEq] at hother
  rw [← hother]
  omega

/-- As long as the vector holds what was reported whenever it is resized, the
    loop reads the events that were reported, in every run and between the steps
    of every handler. It does hold them if at most nine handlers have decremented
    the counter since `epoll_wait`. If it once does not, the loop can go on to an
    index behind the vector. -/
theorem event_loop_reads_reported (s : State) (h : machine.Reaches initial s) :
    (machine.ReachesBy Fits initial s → ReadsReported s) ∧
      ∀ reported, s.phase = .resizing reported →
        (s.ended < initialEvents → Fits s .resize) ∧
        (¬ Fits s .resize → ∃ t, machine.Reaches s t ∧ ¬ ReadsReported t) := by
  constructor
  · intro hfits
    refine readsReported_of_intact (Machine.invariant_of (I := Intact) (K := Sound) hfits ?_ ?_ ?_)
    · exact fun t ht => sound_reaches (Machine.reaches_of_reachesBy ht)
    · exact intact_outside fun _ _ => ⟨fun heq => Phase.noConfusion heq, fun heq =>
        Phase.noConfusion heq⟩
    · exact fun t a u hsound hintact hfits hstep => intact_step hsound hintact hfits hstep
  · intro reported hphase
    constructor
    · intro hended other hother
      have hle := (sound_reaches h).few other hother
      rw [initialEvents] at hended ⊢
      omega
    · exact fun hfits => reads_behind hphase (not_fits hphase hfits)

/-- The listening socket was reported, and the vector has been resized. -/
def firstVisit : State :=
  { initial with
    phase := .visiting [.listening] 0
    events := some .listening :: List.replicate 9 none }

theorem event_loop_reads_reported_first : ReadsReported firstVisit := by
  have hrun : machine.ReachesBy Fits initial firstVisit := by
    refine Machine.reachesBy_head (a := .wait [.listening]) trivial rfl ?_
    refine Machine.reachesBy_of_step (a := .resize) (fun reported hreported => ?_) rfl
    rw [← Phase.resizing.inj hreported]
    decide
  exact (event_loop_reads_reported firstVisit (Machine.reaches_of_reachesBy hrun)).1 hrun

/-- The listening socket and ten connections. -/
def eleven : List Descriptor := .listening :: (List.range 10).map .client

/-- Ten connections are accepted. Later all eleven descriptors are reported, and
    all ten handlers end before the vector is resized. -/
def tenHandlersEnd : List Act :=
  List.flatten [
    [.wait [.listening], .resize, .visit], List.replicate 10 (.accept true), [.accepted, .visit],
    [.wait [.listening], .resize, .visit, .accepted, .visit],
    [.wait eleven], (List.range 10).flatMap fun k => [.remove k, .decrement k],
    [.resize, .visit, .accepted], List.replicate 9 .visit]

/-- The loop reads behind the ten entries that are left. -/
theorem ten_handlers_ended_not_read : ∃ s, machine.Reaches initial s ∧ ¬ ReadsReported s := by
  rcases Machine.reaches_of_check (M := machine) (s := initial) tenHandlersEnd
    (fun s => s.phase = .visiting eleven 10 ∧ s.events.length = 10) (by decide) with ⟨s, hs, hcheck⟩
  rw [decide_eq_true_eq] at hcheck
  refine ⟨s, hs, fun hreads => ?_⟩
  have hbelow := (hreads eleven 10 hcheck.1 (by decide)).1
  rw [hcheck.2] at hbelow
  exact Nat.lt_irrefl 10 hbelow

end EventLoop

end EpollServer
