import EpollServer.Core.Algo

/-!
# Who Gets the Algorithm Section

When every device gets the "algorithm" section it needs, and no other does.

A connection waits for the section if its last `.algo` version request found
another version and no file with the section is on its way to it or has
arrived since (`Waits`). The program has one variable for all of them, so it
works as long as at most one connection waits: the variable is set exactly
while somebody does, and a file request finds it set exactly if it is that
connection's own (`Sound`).

Four things break this, and `FlagSafe` excludes them: a second connection
begins to wait, another connection takes the section, the waiting connection
asks again and finds no difference, or a transfer with the section fails after
the variable was cleared. Each of them can be continued to a wrong delivery
(`wrong_of_unsafe`): in the first, second and fourth somebody waits with
the variable cleared, in the third the variable is set with nobody waiting.

## Main definitions

* `Unserved`, `Waits`: Needing the section, and still waiting for it.
* `Delivery.Right`: A delivery that has the section if and only if it should.
* `FlagSafe`: The guard of the runs whose deliveries are right.
* `Sound`: The invariant of these runs.
* `Turn`: What a step can be.
* `GoesWrong`: A wrong delivery can follow.
* `Takes`: A connection can take the section.

## Theorems

* `turn_of_step`: What a step can be.
* `sound_step`: Every guarded step keeps the invariant.
* `wrong_of_starved`: Waiting with the variable cleared leads to a file
  without the section.
* `wrong_of_unsafe`: A step outside the guard can be continued to a wrong
  delivery.
* `algorithm_delivered_iff`: The exact condition.
* `algorithm_given_away`: The section one connection needs goes to another.
-/

namespace EpollServer

namespace Algo

/-- The transfer has taken the section. -/
def Phase.carries : Phase → Bool
  | .building algorithm => algorithm
  | .sending algorithm _ => algorithm
  | _ => false

/-- The transfer goes without the section. -/
def Phase.plain : Phase → Bool
  | .building algorithm => !algorithm
  | .sending algorithm _ => !algorithm
  | _ => false

/-- The last `.algo` version request found another version, and no file has
    been delivered since. -/
def Unserved (k : Connection) : Prop := k.lastVersion = some true ∧ k.served = false

/-- Unserved, and no transfer with the section is under way. -/
def Waits (k : Connection) : Prop := Unserved k ∧ k.phase.carries = false

/-- The first file after a version request that found a difference has the
    section. After one that found none, or without any, no file has it. -/
def Delivery.Right (d : Delivery) : Prop :=
  (d.lastVersion = some true → d.served = false → d.algorithm = true) ∧
    (d.lastVersion ≠ some true → d.algorithm = false)

/-- No second connection begins to wait, a waiting one does not ask again in
    vain, nobody takes the section another one waits for, and no transfer with
    the section fails. -/
def FlagSafe (s : State) : Act → Prop
  | .version c postfix' version algoVersion => postfix' = ".algo" →
      (version ≠ algoVersion → ∀ d, d ≠ c → ¬ Waits (s.connections d)) ∧
        (version = algoVersion → ¬ Waits (s.connections c))
  | .test c => ∀ d, d ≠ c → ¬ Waits (s.connections d)
  | .dump c none => (s.connections c).phase.carries = false
  | .send c false => (s.connections c).phase.carries = false
  | _ => True

/-- A connection whose transfer has what it should have. -/
structure Local (k : Connection) : Prop where
  tested : k.phase = .tested → Waits k
  carried : k.phase.carries = true → Unserved k
  plain : k.phase.plain = true → ¬ Unserved k

/-- The variable is set while one connection waits, and every transfer under
    way has what it should have. -/
structure Sound (s : State) : Prop where
  flag : s.isAlgorithmNeeded = true ↔ ∃ c, Waits (s.connections c)
  one : ∀ c d, Waits (s.connections c) → Waits (s.connections d) → c = d
  transfers : ∀ c, Local (s.connections c)
  right : ∀ d ∈ s.delivered, d.Right

/-! ### A step -/

@[simp] theorem connections_setPhase_self (s : State) (c : Nat) (p : Phase) :
    (s.setPhase c p).connections c = { s.connections c with phase := p } :=
  Function.update_self _ _ _

theorem connections_setPhase_ne (s : State) (c d : Nat) (p : Phase) (hne : d ≠ c) :
    (s.setPhase c p).connections d = s.connections d :=
  Function.update_of_ne hne _ _

/-- What a step can be: a piece of a handler, in the phase it belongs to. -/
inductive Turn (s : State) : Act → State → Prop where
  | version (c : Nat) (postfix' : String) (version algoVersion : UInt32)
      (h : (s.connections c).phase = .idle) :
      Turn s (.version c postfix' version algoVersion)
        (handleVersionRequest c postfix' version algoVersion s)
  | openFile (c : Nat) (parsed : Bool) (h : (s.connections c).phase = .idle) :
      Turn s (.openFile c parsed) (openLibraryFile c parsed s)
  | test (c : Nat) (h : (s.connections c).phase = .opened) : Turn s (.test c) (testNeeded c s)
  | clear (c : Nat) (object : Bool) (h : (s.connections c).phase = .tested) :
      Turn s (.clear c object) (clearNeeded c object s)
  | dump (c : Nat) (rest : Option Nat) (algorithm : Bool)
      (h : (s.connections c).phase = .building algorithm) :
      Turn s (.dump c rest) (dumpAnswer c algorithm rest s)
  | send (c : Nat) (acknowledged algorithm : Bool) (rest : Nat)
      (h : (s.connections c).phase = .sending algorithm rest) :
      Turn s (.send c acknowledged) (sendBlock c algorithm rest acknowledged s)

theorem turn_of_step (s t : State) (a : Act) (h : step s a = some t) : Turn s a t := by
  cases a <;> simp only [step] at h <;> split at h <;>
    simp only [reduceCtorEq, Option.some.injEq] at h
  -- What is left are the six steps that are taken.
  all_goals
    rename_i hphase
    rw [← h]
    constructor
    exact hphase

/-! ### Guarded steps -/

theorem local_idle (k : Connection) : Local { k with phase := .idle } := by
  refine ⟨fun h => ?_, fun h => ?_, fun h => ?_⟩
  · simp only [reduceCtorEq] at h
  · exact absurd h Bool.false_ne_true
  · exact absurd h Bool.false_ne_true

/-- A new phase that has the section, or goes without it, only if the old one
    did. -/
theorem local_phase (k : Connection) (p : Phase) (hk : Local k) (htested : p ≠ .tested)
    (hcarries : p.carries = true → k.phase.carries = true)
    (hplain : p.plain = true → k.phase.plain = true) : Local { k with phase := p } :=
  ⟨fun h => absurd h htested, fun h => hk.carried (hcarries h), fun h => hk.plain (hplain h)⟩

/-- The waiting connections after a change of one of them. -/
theorem waits_update (f : Nat → Connection) (c d : Nat) (k : Connection) :
    Waits (Function.update f c k d) ↔ (d = c ∧ Waits k) ∨ (d ≠ c ∧ Waits (f d)) := by
  by_cases hd : d = c
  · rw [hd, Function.update_self]
    constructor
    · exact fun h => Or.inl ⟨rfl, h⟩
    · rintro (⟨_, h⟩ | ⟨hne, _⟩)
      · exact h
      · exact absurd rfl hne
  · rw [Function.update_of_ne hd]
    constructor
    · exact fun h => Or.inr ⟨hd, h⟩
    · rintro (⟨heq, _⟩ | ⟨_, h⟩)
      · exact absurd heq hd
      · exact h

theorem local_update (f : Nat → Connection) (c : Nat) (k : Connection) (hf : ∀ d, Local (f d))
    (hk : Local k) : ∀ d, Local (Function.update f c k d) := by
  intro d
  by_cases hd : d = c
  · rw [hd, Function.update_self]
    exact hk
  · rw [Function.update_of_ne hd]
    exact hf d

/-- A change of one connection that waits afterwards if it did before. -/
theorem sound_same (s : State) (c : Nat) (k : Connection) (hs : Sound s)
    (hw : Waits k ↔ Waits (s.connections c)) (hk : Local k) : Sound (s.setConnection c k) := by
  have hsame : ∀ d, Waits (Function.update s.connections c k d) ↔ Waits (s.connections d) := by
    intro d
    rw [waits_update]
    by_cases hd : d = c
    · subst hd
      rw [hw]
      simp only [true_and, ne_eq, not_true_eq_false, false_and, or_false]
    · simp only [hd, false_and, ne_eq, not_false_eq_true, true_and, false_or]
  -- So the same connections wait, and the variable is as it was.
  refine ⟨?_, fun d e hd he => ?_, local_update _ c k hs.transfers hk, hs.right⟩
  · exact hs.flag.trans (exists_congr fun d => (hsame d).symm)
  · exact hs.one d e ((hsame d).mp hd) ((hsame e).mp he)

/-- A new phase that carries the section if the old one did. -/
theorem sound_phase (s : State) (c : Nat) (p : Phase) (hs : Sound s)
    (hp : p.carries = (s.connections c).phase.carries)
    (hk : Local { s.connections c with phase := p }) : Sound (s.setPhase c p) := by
  refine sound_same s c _ hs ?_ hk
  unfold Waits
  rw [hp]
  exact Iff.rfl

theorem sound_version (s : State) (c : Nat) (postfix' : String) (version algoVersion : UInt32)
    (hs : Sound s) (hidle : (s.connections c).phase = .idle)
    (ha : FlagSafe s (.version c postfix' version algoVersion)) :
    Sound (handleVersionRequest c postfix' version algoVersion s) := by
  unfold handleVersionRequest
  by_cases halgo : postfix' = ".algo"
  · rw [if_pos halgo]
    rcases ha halgo with ⟨hdiff, hsame⟩
    -- An idle connection is sound whatever it has last asked for.
    have hlocal : ∀ b, Local { s.connections c with lastVersion := b, served := false } := by
      intro b
      have h := local_idle { s.connections c with lastVersion := b, served := false }
      simp only at h
      rw [← hidle] at h
      exact h
    by_cases hne : version ≠ algoVersion
    · -- Nobody else waits, so the variable is set for this connection alone.
      rw [if_pos hne, decide_eq_true hne]
      have hwaits : Waits { s.connections c with lastVersion := some true, served := false } :=
        ⟨⟨rfl, rfl⟩, by simp only [hidle]; rfl⟩
      have honly : ∀ d, Waits (Function.update s.connections c
          { s.connections c with lastVersion := some true, served := false } d) → d = c := by
        intro d hd
        rcases (waits_update _ c d _).mp hd with ⟨heq, _⟩ | ⟨hdc, hw⟩
        · exact heq
        · exact absurd hw (hdiff hne d hdc)
      refine ⟨iff_of_true rfl ⟨c, (waits_update _ c c _).mpr (Or.inl ⟨rfl, hwaits⟩)⟩,
        fun d e hd he => (honly d hd).trans (honly e he).symm,
        local_update _ c _ hs.transfers (hlocal _), hs.right⟩
    · -- It did not wait, and does not now.
      rw [if_neg hne, decide_eq_false hne]
      have hnot := hsame (not_not.mp hne)
      refine sound_same s c _ hs (iff_of_false (fun hw => ?_) hnot) (hlocal _)
      have hlast := hw.1.1
      simp only [Option.some.injEq, Bool.false_eq_true] at hlast
  · -- Another file leaves the variable alone.
    rw [if_neg halgo]
    exact hs

theorem sound_test (s : State) (c : Nat) (hs : Sound s)
    (hopened : (s.connections c).phase = .opened) (ha : FlagSafe s (.test c)) :
    Sound (testNeeded c s) := by
  unfold testNeeded
  have hcarries : (s.connections c).phase.carries = false := by rw [hopened]; rfl
  cases hflag : s.isAlgorithmNeeded with
  | true =>
      -- Somebody waits, and nobody else does.
      rcases hs.flag.mp hflag with ⟨d, hd⟩
      have hc : Waits (s.connections c) := by
        by_cases hdc : d = c
        · rw [← hdc]
          exact hd
        · exact absurd hd (ha d hdc)
      rw [if_pos rfl]
      refine sound_phase s c .tested hs hcarries.symm
        ⟨fun _ => ⟨hc.1, rfl⟩, fun h => ?_, fun h => ?_⟩
      · exact absurd h Bool.false_ne_true
      · exact absurd h Bool.false_ne_true
  | false =>
      -- Nobody waits, this connection included, so it may go without.
      rw [if_neg Bool.false_ne_true]
      refine sound_phase s c (.building false) hs hcarries.symm ⟨fun h => ?_, fun h => ?_, ?_⟩
      · simp only [reduceCtorEq] at h
      · exact absurd h Bool.false_ne_true
      · intro _ hun
        have hset := hs.flag.mpr ⟨c, hun, hcarries⟩
        exact absurd (hflag.symm.trans hset) Bool.false_ne_true

/-- A transfer that ends without the section. -/
theorem sound_idle (s : State) (c : Nat) (hs : Sound s)
    (hcarries : (s.connections c).phase.carries = false) : Sound (s.setPhase c .idle) :=
  sound_phase s c .idle hs hcarries.symm (local_idle _)

theorem sound_clear (s : State) (c : Nat) (object : Bool) (hs : Sound s)
    (htested : (s.connections c).phase = .tested) : Sound (clearNeeded c object s) := by
  unfold clearNeeded
  cases object with
  | false => exact sound_idle s c hs (by rw [htested]; rfl)
  | true =>
      rw [if_pos rfl]
      -- This connection was the one that waited, and it has the section now.
      have hc := (hs.transfers c).tested htested
      have hnot : ∀ d, ¬ Waits (Function.update s.connections c
          { s.connections c with phase := .building true } d) := by
        intro d hd
        rcases (waits_update _ c d _).mp hd with ⟨_, _, hw⟩ | ⟨hne, hw⟩
        · exact absurd hw.symm Bool.false_ne_true
        · exact hne (hs.one d c hw hc)
      refine ⟨iff_of_false Bool.false_ne_true ?_, fun d e hd _ => absurd hd (hnot d),
        local_update _ c _ hs.transfers ⟨fun h => ?_, fun _ => hc.1, fun h => ?_⟩, hs.right⟩
      · rintro ⟨d, hd⟩
        exact hnot d hd
      · simp only [reduceCtorEq] at h
      · exact absurd h Bool.false_ne_true

theorem sound_deliver (s : State) (c : Nat) (algorithm : Bool) (hs : Sound s)
    (hsending : (s.connections c).phase = .sending algorithm 0) :
    Sound (sendBlock c algorithm 0 true s) := by
  have hl := hs.transfers c
  have hnow : Waits { s.connections c with phase := .idle, served := true } ↔
      Waits (s.connections c) := by
    refine iff_of_false (fun hw => absurd hw.1.2.symm Bool.false_ne_true) (fun hw => ?_)
    -- A connection whose transfer is being sent does not wait.
    cases algorithm with
    | true =>
        have hcarries := hw.2
        rw [hsending] at hcarries
        exact absurd hcarries.symm Bool.false_ne_true
    | false => exact hl.plain (by rw [hsending]; rfl) hw.1
  have hbase := sound_same s c { s.connections c with phase := .idle, served := true } hs hnow
    (local_idle { s.connections c with served := true })
  refine ⟨hbase.flag, hbase.one, hbase.transfers, fun d hd => ?_⟩
  rcases List.mem_append.mp hd with hold | hnew
  · exact hs.right d hold
  · rw [List.mem_singleton.mp hnew]
    cases algorithm with
    | true =>
        have hun := hl.carried (by rw [hsending]; rfl)
        exact ⟨fun _ _ => rfl, fun hlast => absurd hun.1 hlast⟩
    | false =>
        have hnot := hl.plain (by rw [hsending]; rfl)
        exact ⟨fun hlast hserved => absurd ⟨hlast, hserved⟩ hnot, fun _ => rfl⟩

/-- Every guarded step keeps the invariant. -/
theorem sound_step (s t : State) (a : Act) (hs : Sound s) (ha : FlagSafe s a)
    (h : step s a = some t) : Sound t := by
  have hlocal := hs.transfers
  -- Only a request, the test and a failed transfer touch the variable; the rest keeps it.
  cases turn_of_step s t a h with
  | version c postfix' version algoVersion hidle =>
      exact sound_version s c postfix' version algoVersion hs hidle ha
  | openFile c parsed hidle =>
      unfold openLibraryFile
      cases parsed with
      | true =>
          rw [if_pos rfl]
          refine sound_phase s c .opened hs (by rw [hidle]; rfl)
            (local_phase _ _ (hlocal c) (fun h => Phase.noConfusion h) (fun h => ?_) (fun h => ?_))
          · exact absurd h Bool.false_ne_true
          · exact absurd h Bool.false_ne_true
      | false =>
          rw [if_neg Bool.false_ne_true]
          exact hs
  | test c hopened => exact sound_test s c hs hopened ha
  | clear c object htested => exact sound_clear s c object hs htested
  | dump c rest algorithm hbuilding =>
      cases rest with
      | none => exact sound_idle s c hs ha
      | some n =>
          refine sound_phase s c (.sending algorithm n) hs (by rw [hbuilding]; rfl)
            (local_phase _ _ (hlocal c) (fun h => Phase.noConfusion h) (fun h => ?_) (fun h => ?_))
          · rw [hbuilding]
            exact h
          · rw [hbuilding]
            exact h
  -- The last block delivers the file, an earlier one goes on, and a failure needs the guard.
  | send c acknowledged algorithm rest hsending =>
      cases acknowledged with
      | false => exact sound_idle s c hs ha
      | true =>
          cases rest with
          | zero => exact sound_deliver s c algorithm hs hsending
          | succ n =>
              refine sound_phase s c (.sending algorithm n) hs (by rw [hsending]; rfl)
                (local_phase _ _ (hlocal c) (fun h => Phase.noConfusion h) (fun h => ?_)
                  (fun h => ?_))
              · rw [hsending]
                exact h
              · rw [hsending]
                exact h

theorem initial_sound : Sound initial := by
  have hnot : ∀ c, ¬ Waits (initial.connections c) := by
    intro c hw
    have hlast := hw.1.1
    simp only [initial, Connection.opened, reduceCtorEq] at hlast
  refine ⟨iff_of_false Bool.false_ne_true ?_, fun c d hc _ => absurd hc (hnot c),
    fun c => local_idle Connection.opened, fun d hd => absurd hd List.not_mem_nil⟩
  rintro ⟨c, hc⟩
  exact hnot c hc

theorem reachesBy_sound (s : State) (h : machine.ReachesBy FlagSafe initial s) : Sound s :=
  Machine.invariant h initial_sound (fun t a u ht ha hstep => sound_step t u a ht ha hstep)

/-! ### Unguarded steps -/

/-- A wrong delivery can still happen. -/
def GoesWrong (s : State) : Prop := ∃ t, machine.Reaches s t ∧ ∃ d ∈ t.delivered, ¬ d.Right

theorem reaches_of_step (s t : State) (a : Act) (h : step s a = some t) : machine.Reaches s t :=
  Machine.reachesBy_of_step trivial h

theorem goesWrong_of_reaches (s t : State) (h : machine.Reaches s t) (ht : GoesWrong t) :
    GoesWrong s := by
  rcases ht with ⟨u, hu, hwrong⟩
  exact ⟨u, Machine.reaches_trans h hu, hwrong⟩

theorem goesWrong_of_step (s t : State) (a : Act) (h : step s a = some t) (ht : GoesWrong t) :
    GoesWrong s :=
  goesWrong_of_reaches s t (reaches_of_step s t a h) ht

/-- An answer that is put together wrongly can be delivered in one block. -/
theorem wrong_of_building (s : State) (c : Nat) (algorithm : Bool)
    (hbuilding : (s.connections c).phase = .building algorithm)
    (hwrong : ¬ Delivery.Right
      { connection := c, algorithm := algorithm, lastVersion := (s.connections c).lastVersion,
        served := (s.connections c).served }) : GoesWrong s := by
  have hdump : step s (.dump c (some 0)) = some (s.setPhase c (.sending algorithm 0)) := by
    simp only [step, hbuilding, dumpAnswer]
  refine goesWrong_of_step s _ _ hdump ?_
  have hsend : step (s.setPhase c (.sending algorithm 0)) (.send c true) =
      some (sendBlock c algorithm 0 true (s.setPhase c (.sending algorithm 0))) := by
    simp only [step, connections_setPhase_self]
  refine goesWrong_of_step _ _ _ hsend ⟨_, Machine.reaches_refl _, _, ?_, hwrong⟩
  refine List.mem_append_right _ (List.mem_singleton.mpr ?_)
  rw [connections_setPhase_self]

/-- Waiting with the variable cleared leads to a file without the section. -/
theorem wrong_of_starved (s : State) (c : Nat) (hun : Unserved (s.connections c))
    (hphase : (s.connections c).phase = .idle ∨ (s.connections c).phase = .opened)
    (hflag : s.isAlgorithmNeeded = false) : GoesWrong s := by
  -- It is enough to look at the moment before the test.
  have hopened : ∀ t : State, (t.connections c).phase = .opened → Unserved (t.connections c) →
      t.isAlgorithmNeeded = false → GoesWrong t := by
    intro t hphase hun hflag
    have htest : step t (.test c) = some (t.setPhase c (.building false)) := by
      simp only [step, hphase, testNeeded, hflag, Bool.false_eq_true, if_false]
    refine goesWrong_of_step t _ _ htest (wrong_of_building _ c false ?_ ?_)
    · rw [connections_setPhase_self]
    · rw [connections_setPhase_self]
      exact fun hright => absurd (hright.1 hun.1 hun.2) Bool.false_ne_true
  rcases hphase with hidle | hopen
  · have hstep : step s (.openFile c true) = some (s.setPhase c .opened) := by
      simp only [step, hidle, openLibraryFile, if_true]
    refine goesWrong_of_step s _ _ hstep (hopened _ ?_ ?_ hflag)
    · rw [connections_setPhase_self]
    · rw [connections_setPhase_self]
      exact hun
  · exact hopened s hopen hun hflag

/-- A connection that has not tested the variable yet, or has just found it
    set. -/
def Phase.before (p : Phase) : Prop := p = .idle ∨ p = .opened ∨ p = .tested

/-- The connection can take the section, with nothing done by the others. -/
def Takes (c : Nat) (s : State) : Prop :=
  ∃ t, machine.Reaches s t ∧ t.isAlgorithmNeeded = false ∧
    t.connections c = { s.connections c with phase := .building true } ∧
    ∀ d, d ≠ c → t.connections d = s.connections d

/-- It can if it can after a step that only gives it another phase. -/
theorem takes_of_step (s : State) (c : Nat) (p : Phase) (a : Act)
    (h : step s a = some (s.setPhase c p)) (ht : Takes c (s.setPhase c p)) : Takes c s := by
  rcases ht with ⟨t, ht, hclear, hc, hothers⟩
  refine ⟨t, Machine.reaches_trans (reaches_of_step _ _ _ h) ht, hclear, ?_, fun d hne => ?_⟩
  · rw [hc, connections_setPhase_self]
  · rw [hothers d hne, connections_setPhase_ne s c d p hne]

/-- While the variable is set, such a connection can take the section. -/
theorem take_section (s : State) (c : Nat) (hphase : (s.connections c).phase.before)
    (hflag : s.isAlgorithmNeeded = true) : Takes c s := by
  -- From the last phase to the first.
  have htested : ∀ t : State, (t.connections c).phase = .tested → Takes c t := by
    intro t ht
    have hstep : step t (.clear c true) =
        some { t.setPhase c (.building true) with isAlgorithmNeeded := false } := by
      simp only [step, ht, clearNeeded, if_true]
    exact ⟨_, reaches_of_step t _ _ hstep, rfl, connections_setPhase_self t c _,
      fun d hne => connections_setPhase_ne t c d _ hne⟩
  have hopened : ∀ t : State, (t.connections c).phase = .opened → t.isAlgorithmNeeded = true →
      Takes c t := by
    intro t ht hset
    have hstep : step t (.test c) = some (t.setPhase c .tested) := by
      simp only [step, ht, testNeeded, hset, if_true]
    exact takes_of_step t c .tested _ hstep (htested _ (by rw [connections_setPhase_self]))
  rcases hphase with hidle | hopen | htest
  · have hstep : step s (.openFile c true) = some (s.setPhase c .opened) := by
      simp only [step, hidle, openLibraryFile, if_true]
    exact takes_of_step s c .opened _ hstep (hopened _ (by rw [connections_setPhase_self]) hflag)
  · exact hopened s hopen hflag
  · exact htested s htest

/-- Two connections need the section and one of them takes it. -/
theorem wrong_of_both (s : State) (c d : Nat) (hne : c ≠ d) (hun : Unserved (s.connections c))
    (hphase : (s.connections c).phase = .idle ∨ (s.connections c).phase = .opened)
    (hd : (s.connections d).phase.before) : GoesWrong s := by
  cases hflag : s.isAlgorithmNeeded with
  | false => exact wrong_of_starved s c hun hphase hflag
  | true =>
      -- Whoever takes the section clears the variable for the other one.
      rcases take_section s d hd hflag with ⟨t, ht, hclear, _, hsame⟩
      refine goesWrong_of_reaches s t ht (wrong_of_starved t c ?_ ?_ hclear)
      · rw [hsame c hne]
        exact hun
      · rw [hsame c hne]
        exact hphase

/-- A waiting connection has not begun to put its answer together. -/
theorem before_of_waits (k : Connection) (hl : Local k) (hw : Waits k) : k.phase.before := by
  -- An answer under way has the section or goes without it, and both are excluded.
  have hplain : k.phase.plain = false := by
    cases hp : k.phase.plain with
    | true => exact absurd hw.1 (hl.plain hp)
    | false => rfl
  have hcarries := hw.2
  unfold Phase.before
  cases hphase : k.phase with
  | idle => exact Or.inl rfl
  | opened => exact Or.inr (Or.inl rfl)
  | tested => exact Or.inr (Or.inr rfl)
  | building algorithm =>
      rw [hphase] at hplain hcarries
      cases algorithm with
      | true => exact absurd hcarries.symm Bool.false_ne_true
      | false => exact absurd hplain.symm Bool.false_ne_true
  | sending algorithm n =>
      rw [hphase] at hplain hcarries
      cases algorithm with
      | true => exact absurd hcarries.symm Bool.false_ne_true
      | false => exact absurd hplain.symm Bool.false_ne_true

/-- A second connection begins to wait. -/
theorem wrong_of_second (s : State) (c d : Nat) (version algoVersion : UInt32) (hs : Sound s)
    (hidle : (s.connections c).phase = .idle) (hdiff : version ≠ algoVersion) (hne : d ≠ c)
    (hd : Waits (s.connections d)) :
    GoesWrong (handleVersionRequest c ".algo" version algoVersion s) := by
  unfold handleVersionRequest
  rw [if_pos rfl, if_pos hdiff, decide_eq_true hdiff]
  refine wrong_of_both _ c d (Ne.symm hne) ?_ (Or.inl ?_) ?_
  · simp only [State.setConnection, Function.update_self]
    exact ⟨rfl, rfl⟩
  · simp only [State.setConnection, Function.update_self]
    exact hidle
  · simp only [State.setConnection, Function.update_of_ne hne]
    exact before_of_waits _ (hs.transfers d) hd

/-- The waiting connection asks again and finds no difference. -/
theorem wrong_of_vain (s : State) (c : Nat) (version : UInt32) (hs : Sound s)
    (hidle : (s.connections c).phase = .idle) (hc : Waits (s.connections c)) :
    GoesWrong (handleVersionRequest c ".algo" version version s) := by
  -- The variable stays set, and the connection takes what it no longer needs.
  have hflag : s.isAlgorithmNeeded = true := hs.flag.mpr ⟨c, hc⟩
  unfold handleVersionRequest
  have hsame : ¬ version ≠ version := not_not.mpr rfl
  rw [if_pos rfl, if_neg hsame, decide_eq_false hsame]
  rcases take_section (({ s with isAlgorithmNeeded := s.isAlgorithmNeeded }).setConnection c
      { s.connections c with lastVersion := some false, served := false }) c
      (Or.inl (by simp only [State.setConnection, Function.update_self]; exact hidle)) hflag with
    ⟨t, ht, _, htc, _⟩
  simp only [State.setConnection, Function.update_self] at htc
  refine goesWrong_of_reaches _ t ht (wrong_of_building t c true (by rw [htc]) ?_)
  rw [htc]
  intro hright
  have hplain : true = false :=
    hright.2 (by simp only [ne_eq, Option.some.injEq, Bool.false_eq_true, not_false_eq_true])
  exact absurd hplain.symm Bool.false_ne_true

/-- Another connection is about to take the section. -/
theorem wrong_of_taken (s : State) (c d : Nat) (hs : Sound s) (hne : d ≠ c)
    (hd : Waits (s.connections d)) : GoesWrong (testNeeded c s) := by
  have hflag : s.isAlgorithmNeeded = true := hs.flag.mpr ⟨d, hd⟩
  have htest : testNeeded c s = s.setPhase c .tested := by
    -- This connection sees the variable set and sends the file, so it clears the other's request.
    simp only [testNeeded, hflag, if_true]
  rw [htest]
  have htested : ((s.setPhase c .tested).connections c).phase = .tested := by
    rw [connections_setPhase_self]
  rcases take_section (s.setPhase c .tested) c (Or.inr (Or.inr htested)) hflag with
    ⟨t, ht, hclear, _, hothers⟩
  have hsame : t.connections d = s.connections d := by
    rw [hothers d hne, connections_setPhase_ne s c d .tested hne]
  have hun : Unserved (t.connections d) := by
    rw [hsame]
    exact hd.1
  refine goesWrong_of_reaches _ t ht ?_
  -- Where the other one stands decides how it is starved.
  rcases before_of_waits _ (hs.transfers d) hd with hidle | hopen | hdtested
  · exact wrong_of_starved t d hun (Or.inl (by rw [hsame]; exact hidle)) hclear
  · exact wrong_of_starved t d hun (Or.inr (by rw [hsame]; exact hopen)) hclear
  · -- Both have seen the variable set, and the file of the one that waits is bad.
    have hstep : step t (.clear d false) = some (t.setPhase d .idle) := by
      simp only [step, hsame, hdtested, clearNeeded, Bool.false_eq_true, if_false]
    refine goesWrong_of_step t _ _ hstep (wrong_of_starved _ d ?_ (Or.inl ?_) hclear)
    · rw [connections_setPhase_self]
      exact hun
    · rw [connections_setPhase_self]

/-- A transfer with the section fails. -/
theorem wrong_of_failed (s : State) (c : Nat) (hs : Sound s)
    (hcarries : (s.connections c).phase.carries = true) : GoesWrong (s.setPhase c .idle) := by
  have hself := connections_setPhase_self s c .idle
  have hun : Unserved ((s.setPhase c .idle).connections c) := by
    rw [hself]
    exact (hs.transfers c).carried hcarries
  have hidle : ((s.setPhase c .idle).connections c).phase = .idle := by rw [hself]
  cases hflag : s.isAlgorithmNeeded with
  | false => exact wrong_of_starved _ c hun (Or.inl hidle) hflag
  | true =>
      -- The variable is set for some other connection, which may come first.
      rcases hs.flag.mp hflag with ⟨d, hd⟩
      have hne : d ≠ c := by
        intro heq
        rw [heq] at hd
        exact absurd (hd.2.symm.trans hcarries) Bool.false_ne_true
      refine wrong_of_both _ c d (Ne.symm hne) hun (Or.inl hidle) ?_
      rw [connections_setPhase_ne s c d .idle hne]
      exact before_of_waits _ (hs.transfers d) hd

/-- A step outside the guard can be continued to a wrong delivery. -/
theorem wrong_of_unsafe (s t : State) (a : Act) (hs : Sound s) (h : step s a = some t)
    (ha : ¬ FlagSafe s a) : GoesWrong t := by
  -- Each guard that can fail has its own wrong continuation.
  cases turn_of_step s t a h with
  | version c postfix' version algoVersion hidle =>
      simp only [FlagSafe, Classical.not_imp, not_and_or, not_forall, not_not] at ha
      rcases ha with ⟨hpost, ⟨hdiff, d, hne, hd⟩ | ⟨hsame, hc⟩⟩
      · rw [hpost]
        exact wrong_of_second s c d version algoVersion hs hidle hdiff hne hd
      · rw [hpost, hsame]
        exact wrong_of_vain s c algoVersion hs hidle hc
  | openFile c parsed => exact absurd trivial ha
  | test c =>
      simp only [FlagSafe, not_forall, not_not] at ha
      rcases ha with ⟨d, hne, hd⟩
      exact wrong_of_taken s c d hs hne hd
  | clear c object => exact absurd trivial ha
  | dump c rest =>
      cases rest with
      | none => exact wrong_of_failed s c hs (Bool.eq_true_of_not_eq_false ha)
      | some n => exact absurd trivial ha
  | send c acknowledged =>
      cases acknowledged with
      | false => exact wrong_of_failed s c hs (Bool.eq_true_of_not_eq_false ha)
      | true => exact absurd trivial ha

/-- As long as one connection waits at a time, keeps waiting until it is served
    and has no transfer fail, every device gets the section it needs and no
    other does. A step that breaks this can be continued to a wrong
    delivery. -/
theorem algorithm_delivered_iff (s : State) (hs : machine.ReachesBy FlagSafe initial s) :
    (∀ d ∈ s.delivered, d.Right) ∧
      ∀ a t, step s a = some t → ¬ FlagSafe s a →
        ∃ u, machine.Reaches t u ∧ ∃ d ∈ u.delivered, ¬ d.Right := by
  have hsound := reachesBy_sound s hs
  exact ⟨hsound.right, fun a t h ha => wrong_of_unsafe s t a hsound h ha⟩

/-- Connection 0 finds a difference, then connection 1 does as well. -/
theorem algorithm_delivered_iff_one :
    (∀ d ∈ (handleVersionRequest 0 ".algo" 2 1 initial).delivered, d.Right) ∧
      ∃ u, machine.Reaches
        (handleVersionRequest 1 ".algo" 2 1 (handleVersionRequest 0 ".algo" 2 1 initial)) u ∧
        ∃ d ∈ u.delivered, ¬ d.Right := by
  have hnot : ∀ d, ¬ Waits (initial.connections d) :=
    fun d hw => initial_sound.flag.not.mp Bool.false_ne_true ⟨d, hw⟩
  have hrun : machine.ReachesBy FlagSafe initial (handleVersionRequest 0 ".algo" 2 1 initial) :=
    Machine.reachesBy_of_step (a := Act.version 0 ".algo" 2 1)
      (fun _ => ⟨fun _ d _ => hnot d, fun _ => hnot 0⟩) rfl
  have h := algorithm_delivered_iff _ hrun
  refine ⟨h.1, h.2 (.version 1 ".algo" 2 1) _ rfl (fun hsafe => ?_)⟩
  exact (hsafe rfl).1 (by decide) 0 (by decide) ⟨⟨rfl, rfl⟩, rfl⟩

/-- Connection 0 finds a difference and connection 1 does not. Connection 1
    fetches the file first and gets the section; connection 0 goes without. -/
theorem algorithm_given_away :
    ∃ s, machine.Reaches initial s ∧
      { connection := 1, algorithm := true, lastVersion := some false, served := false } ∈
        s.delivered ∧
      { connection := 0, algorithm := false, lastVersion := some true, served := false } ∈
        s.delivered := by
  -- The second client has the newest version, and gets the file that the first one waits for.
  have hrun := Machine.reaches_of_check (M := machine) (s := initial)
    [.version 0 ".algo" 2 1, .version 1 ".algo" 2 2,
      .openFile 1 true, .test 1, .clear 1 true, .dump 1 (some 0), .send 1 true,
      .openFile 0 true, .test 0, .dump 0 (some 0), .send 0 true]
    (fun s => s.delivered ==
      [{ connection := 1, algorithm := true, lastVersion := some false, served := false },
        { connection := 0, algorithm := false, lastVersion := some true, served := false }])
    (by decide)
  rcases hrun with ⟨s, hs, hcheck⟩
  have hdelivered := eq_of_beq hcheck
  refine ⟨s, hs, ?_, ?_⟩
  · rw [hdelivered]
    exact List.mem_cons_self
  · rw [hdelivered]
    exact List.mem_cons_of_mem _ List.mem_cons_self

end Algo

end EpollServer
