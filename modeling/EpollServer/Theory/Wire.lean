import EpollServer.Core.Wire
import EpollServer.Lib.Slip

/-!
# Frames without Cuts

When the bytes handed to the kernel are whole frames.

A call of `IPUtilSendData` that does not send its whole buffer leaves a cut
frame on the wire. A heartbeat that was cut is the last thing sent, since the
handler sees it and closes the connection. The other three senders drop the
result. After a cut frame of theirs the connection goes on, and the next
operation sends its own frame right behind the cut: `linkSendData` even sends
the same message again when no acknowledge comes. The receiver takes the two
for one frame.

So what matters is where `send` stops. If it stops in the middle of heartbeats
only (`StopsClean`), every frame that was sent before is whole (`Clean`), and
the bytes are frames with at most one cut heartbeat at the end. The first stop
in the middle of another frame can be followed by a whole frame right behind
the cut (`cut_continues`).

## Main definitions

* `Segment.Cut`: A frame that was taken in part.
* `State.handed`: The frames handed over, the current one included.
* `Uncut`: No byte follows a cut frame.
* `Encoding.Framed`: Whole frames, and a cut one at the end.
* `StopsClean`: The guard of the runs without a cut in the middle.
* `Clean`: The invariant of these runs.

## Theorems

* `handed_of_step`: What a step adds to the frames handed over.
* `clean_of_step`: A guarded step keeps the frames before the current one whole.
* `framed_of_uncut`: Without a cut in the middle the bytes are whole frames.
* `reaches_idle`, `step_idle`, `reaches_taken`: Behind a cut frame the
  connection goes on, and the frame can be sent once more.
* `cut_continues`: A step outside the guard can be followed by a frame.
* `frames_whole`: The runs whose bytes are whole frames.
* `not_framed`: How bytes that are not whole frames are told.
* `frame_cut_and_repeated`: A message that is cut and sent again.
-/

namespace EpollServer

namespace Wire

variable {enc : Encoding}

/-- The kernel took a part of the frame. -/
def Segment.Cut (g : Segment) : Prop := 0 < g.taken ∧ g.taken < g.frame.length

instance (g : Segment) : Decidable g.Cut := inferInstanceAs (Decidable (_ ∧ _))

/-- The bytes of the frame that the kernel took. -/
def Segment.bytes (g : Segment) : List UInt8 := g.frame.take g.taken

/-- The frame in `IPUtilSendData`. -/
def Phase.current (enc : Encoding) : Phase → List Segment
  | .sending op totalSent => [{ frame := enc.frame op, taken := totalSent }]
  | _ => []

/-- The frames handed over so far, in order. -/
def State.handed (enc : Encoding) (s : State) : List Segment :=
  s.segments ++ s.phase.current enc

/-- The bytes handed to the kernel. -/
def State.bytes (enc : Encoding) (s : State) : List UInt8 := (s.handed enc).flatMap Segment.bytes

/-- After a cut frame the kernel took nothing. -/
def Uncut (l : List Segment) : Prop := l.Pairwise fun g k => g.Cut → k.taken = 0

instance (l : List Segment) : Decidable (Uncut l) := inferInstanceAs (Decidable (l.Pairwise _))

/-- The bytes are whole frames, one after the other, but for a frame at the end
    of which the rest is missing. -/
def Encoding.Framed (enc : Encoding) (bytes : List UInt8) : Prop :=
  ∃ (ops : List Operation) (cut : List UInt8), bytes = ops.flatMap enc.frame ++ cut ∧
    (cut = [] ∨ ∃ op, cut <+: enc.frame op)

/-- A `send` that stops. -/
def Act.stops : Act → Bool
  | .send .again => true
  | .send .error => true
  | _ => false

/-- A part of a data, ACK or NACK frame has been taken. -/
def Phase.partway : Phase → Bool
  | .sending op totalSent => decide (0 < totalSent ∧ op ≠ .heartbeat)
  | _ => false

/-- A `send` that stops does so before the first byte of its frame was taken, or
    in a heartbeat. -/
def StopsClean (s : State) (a : Act) : Prop := a.stops = true → s.phase.partway = false

instance (s : State) (a : Act) : Decidable (StopsClean s a) :=
  inferInstanceAs (Decidable (_ → _))

/-- There is a first call of `linkSendData` for the message. -/
def Operation.Tried (enc : Encoding) : Operation → Prop
  | .message bytes _ => 1 ≤ enc.retryMax ∧ bytes.length ≠ 0
  | .ack => True
  | .nack => True
  | .heartbeat => True

/-- The current frame has not been taken whole. Those before it have been, or
    nothing of them was; only if no more is sent, the last of them may be cut. -/
structure Clean (enc : Encoding) (s : State) : Prop where
  current : ∀ op totalSent, s.phase = .sending op totalSent →
    totalSent < (enc.frame op).length ∧ op.Tried enc
  before : (∀ g ∈ s.segments, ¬g.Cut) ∨
    (s.phase = .leaving ∨ s.phase = .closed) ∧ Uncut s.segments

/-! ### What a step hands over -/

theorem current_afterSending (op : Operation) (result : SendResult) :
    (afterSending enc op result).current enc = [] := by
  cases op with
  | message message retry => rfl
  | ack => rfl
  | nack => rfl
  | heartbeat =>
      simp only [afterSending]
      split <;> rfl

theorem handed_returnSent (op : Operation) (totalSent : Nat) (result : SendResult) (s : State) :
    (returnSent enc op totalSent result s).handed enc =
      s.segments ++ [{ frame := enc.frame op, taken := totalSent }] := by
  simp only [State.handed, returnSent, current_afterSending, List.append_nil]

theorem handed_loopSending (op : Operation) (totalSent : Nat) (s : State) :
    (loopSending enc op totalSent s).handed enc =
      s.segments ++ [{ frame := enc.frame op, taken := totalSent }] := by
  unfold loopSending
  split
  · rfl
  · exact handed_returnSent op totalSent _ s

/-- What a step does to the frames handed over: it begins a frame, the current
    one goes on, or nothing happens to them. -/
inductive Hands (enc : Encoding) (s : State) : Act → List Segment → Prop where
  | keep (a : Act) : Hands enc s a (s.handed enc)
  | start (a : Act) (op : Operation) :
      Hands enc s a (s.handed enc ++ [{ frame := enc.frame op, taken := 0 }])
  | took (op : Operation) (totalSent n : Nat) :
      s.phase = .sending op totalSent → totalSent + n ≤ (enc.frame op).length →
      Hands enc s (.send (.took n))
        (s.segments ++ [{ frame := enc.frame op, taken := totalSent + n }])

theorem hands_start (s : State) (a : Act) (op : Operation)
    (hp : s.phase.current enc = []) : Hands enc s a ((startSending enc op s).handed enc) := by
  have hmove : Hands enc s a _ := Hands.start a op
  unfold startSending
  rw [handed_loopSending]
  rw [State.handed, hp, List.append_nil] at hmove
  exact hmove

theorem hands_retry (s : State) (a : Act) (message : List UInt8) (retry : Nat)
    (hp : s.phase.current enc = []) :
    Hands enc s a ((retrySending enc message retry s).handed enc) := by
  unfold retrySending
  split
  · exact hands_start s a _ hp
  · have hkeep : Hands enc s a _ := Hands.keep a
    rw [State.handed, hp, List.append_nil] at hkeep
    simp only [State.handed, Phase.current, List.append_nil]
    exact hkeep

/-- A call of `send`. -/
theorem hands_send (s t : State) (outcome : SendOutcome) (h : send enc outcome s = some t) :
    Hands enc s (.send outcome) (t.handed enc) := by
  -- Only a positive outcome hands bytes on; the two others return what was counted.
  unfold send at h
  split at h
  · rename_i op totalSent hp
    split at h
    · rename_i n
      split at h
      · rename_i hle
        rw [Option.some.injEq] at h
        rw [← h, handed_loopSending]
        exact Hands.took op totalSent n hp hle
      · simp only [reduceCtorEq] at h
    · have hkeep : Hands enc s (.send .again) _ := Hands.keep _
      rw [Option.some.injEq] at h
      rw [← h, handed_returnSent]
      simp only [State.handed, hp, Phase.current] at hkeep
      exact hkeep
    · have hkeep : Hands enc s (.send .error) _ := Hands.keep _
      rw [Option.some.injEq] at h
      rw [← h, handed_returnSent]
      simp only [State.handed, hp, Phase.current] at hkeep
      exact hkeep
  · simp only [reduceCtorEq] at h

/-- What a step adds to the frames handed over. -/
theorem handed_of_step (s t : State) (a : Act) (h : step enc s a = some t) :
    Hands enc s a (t.handed enc) := by
  -- A step to a phase outside `IPUtilSendData`.
  have hmoved : ∀ p : Phase, s.phase.current enc = [] → p.current enc = [] →
      Hands enc s a ({ s with phase := p }.handed enc) := by
    intro p hs hp
    have hkeep : Hands enc s a _ := Hands.keep a
    rw [State.handed, hs, List.append_nil] at hkeep
    rw [State.handed, hp, List.append_nil]
    exact hkeep
  cases a with
  | send outcome => exact hands_send s t outcome h
  | sendMessage message =>
      simp only [step] at h
      split at h
      · rename_i hp
        rw [Option.some.injEq] at h
        rw [← h]
        exact hands_retry s _ message 1 (by rw [hp]; rfl)
      · simp only [reduceCtorEq] at h
  | sendAck | sendNack | heartbeat =>
      simp only [step] at h
      split at h
      · rename_i hp
        rw [Option.some.injEq] at h
        rw [← h]
        exact hands_start s _ _ (by rw [hp]; rfl)
      · simp only [reduceCtorEq] at h
  | readAck acknowledged =>
      simp only [step] at h
      split at h
      · rename_i message retry hp
        split at h
        · rw [Option.some.injEq] at h
          rw [← h]
          exact hmoved .idle (by rw [hp]; rfl) rfl
        · rw [Option.some.injEq] at h
          rw [← h]
          exact hands_retry s _ message (retry + 1) (by rw [hp]; rfl)
      · simp only [reduceCtorEq] at h
  | close =>
      simp only [step] at h
      split at h
      · rename_i hp
        rw [Option.some.injEq] at h
        rw [← h]
        exact hmoved .closed (by rw [hp]; rfl) rfl
      · rename_i hp
        rw [Option.some.injEq] at h
        rw [← h]
        exact hmoved .closed (by rw [hp]; rfl) rfl
      · simp only [reduceCtorEq] at h

/-! ### Clean runs -/

theorem not_cut_of_none (frame : List UInt8) : ¬({ frame := frame, taken := 0 } : Segment).Cut :=
  fun h => absurd h.1 (lt_irrefl 0)

/-- At most the last frame is cut. -/
theorem uncut_append (l k : List Segment) (hl : ∀ g ∈ l, ¬g.Cut) (hk : Uncut k) :
    Uncut (l ++ k) := by
  induction l with
  | nil => exact hk
  | cons g l ih =>
      refine List.pairwise_cons.mpr ⟨fun _ _ hcut => ?_, ?_⟩
      · exact absurd hcut (hl g List.mem_cons_self)
      · exact ih fun j hj => hl j (List.mem_cons_of_mem g hj)

/-- `IPUtilSendData` goes on, or has sent the whole buffer. -/
theorem clean_loopSending (s : State) (op : Operation) (totalSent : Nat)
    (hs : ∀ g ∈ s.segments, ¬g.Cut) (hop : op.Tried enc) :
    Clean enc (loopSending enc op totalSent s) := by
  -- The loop condition decides whether the frame is still on its way.
  unfold loopSending
  by_cases hless : totalSent < (enc.frame op).length
  · rw [if_pos hless]
    refine ⟨fun op' totalSent' hp => ?_, Or.inl hs⟩
    rcases Phase.sending.inj hp with ⟨rfl, rfl⟩
    exact ⟨hless, hop⟩
  · rw [if_neg hless]
    -- The frame is out, so its segment is whole.
    refine ⟨fun op' totalSent' hp => ?_, Or.inl fun g hg => ?_⟩
    · have hnone : (afterSending enc op (.totalSent totalSent)).current enc = [] :=
        current_afterSending op _
      rw [show afterSending enc op (.totalSent totalSent) = .sending op' totalSent' from hp]
        at hnone
      exact absurd hnone (List.cons_ne_nil _ _)
    · rcases List.mem_append.mp hg with hold | hnew
      · exact hs g hold
      · rw [List.mem_singleton.mp hnew]
        exact fun hcut => hless hcut.2

theorem clean_retrySending (s : State) (message : List UInt8) (retry : Nat)
    (hs : ∀ g ∈ s.segments, ¬g.Cut) (hretry : 1 ≤ retry) :
    Clean enc (retrySending enc message retry s) := by
  unfold retrySending
  by_cases hmore : retry ≤ enc.retryMax ∧ message.length ≠ 0
  · rw [if_pos hmore]
    exact clean_loopSending s _ 0 hs ⟨hretry.trans hmore.1, hmore.2⟩
  · rw [if_neg hmore]
    exact ⟨fun _ _ hp => Phase.noConfusion hp, Or.inl hs⟩

/-- `IPUtilSendData` returns at a stop, with a frame of which nothing was taken or
    with a heartbeat. -/
theorem clean_returnSent (s : State) (op : Operation) (totalSent : Nat) (result : SendResult)
    (hs : ∀ g ∈ s.segments, ¬g.Cut) (hless : totalSent < (enc.frame op).length)
    (hresult : result = .totalSent totalSent ∨ result = .failed)
    (hclean : (Phase.sending op totalSent).partway = false) :
    Clean enc (returnSent enc op totalSent result s) := by
  have hcurrent : ∀ op' totalSent', afterSending enc op result ≠ .sending op' totalSent' := by
    intro op' totalSent' hp
    have hnone : (afterSending enc op result).current enc = [] := current_afterSending op result
    rw [hp] at hnone
    exact absurd hnone (List.cons_ne_nil _ _)
  refine ⟨fun op' totalSent' hp => absurd hp (hcurrent op' totalSent'), ?_⟩
  -- Nothing of the frame was taken, or it was a heartbeat, whose length is compared.
  simp only [Phase.partway, decide_eq_false_iff_not, not_and, not_not] at hclean
  by_cases hnone : totalSent = 0
  · refine Or.inl fun g hg => ?_
    rcases List.mem_append.mp hg with hold | hnew
    · exact hs g hold
    · rw [List.mem_singleton.mp hnew, hnone]
      exact not_cut_of_none _
  · -- The handler compares the result of a heartbeat with its length, and leaves.
    have hop := hclean (Nat.pos_of_ne_zero hnone)
    rw [hop] at hless ⊢
    refine Or.inr ⟨Or.inl ?_, ?_⟩
    · have hshort : result ≠ .totalSent (enc.headerBuffer .heartbeat).length := by
        rintro rfl
        rcases hresult with hcount | hfailed
        · have hlen := SendResult.totalSent.inj hcount
          exact absurd hless (by rw [← hlen]; exact lt_irrefl _)
        · exact SendResult.noConfusion hfailed
      exact if_neg hshort
    · exact uncut_append s.segments _ hs (List.pairwise_singleton _ _)

/-- A guarded step keeps the frames before the current one whole. -/
theorem clean_of_step (s t : State) (a : Act) (hs : Clean enc s) (ha : StopsClean s a)
    (h : step enc s a = some t) : Clean enc t := by
  -- Where something can be sent, no frame is cut.
  have hwhole : s.phase ≠ .leaving → s.phase ≠ .closed → ∀ g ∈ s.segments, ¬g.Cut := by
    intro hleaving hclosed
    rcases hs.before with hnone | ⟨hover, _⟩
    · exact hnone
    · exact (hover.elim hleaving hclosed).elim
  cases a with
  | send outcome =>
      simp only [step, send] at h
      split at h
      · rename_i op totalSent hp
        have hbefore := hwhole (hp ▸ Phase.noConfusion) (hp ▸ Phase.noConfusion)
        rcases hs.current op totalSent hp with ⟨hless, hop⟩
        split at h
        · split at h
          · rw [Option.some.injEq] at h
            rw [← h]
            exact clean_loopSending s op _ hbefore hop
          · simp only [reduceCtorEq] at h
        · rw [Option.some.injEq] at h
          rw [← h]
          exact clean_returnSent s op totalSent _ hbefore hless (Or.inl rfl) (hp ▸ ha rfl)
        · rw [Option.some.injEq] at h
          rw [← h]
          exact clean_returnSent s op totalSent _ hbefore hless (Or.inr rfl) (hp ▸ ha rfl)
      · simp only [reduceCtorEq] at h
  | sendMessage message =>
      simp only [step] at h
      split at h
      · rename_i hp
        rw [Option.some.injEq] at h
        rw [← h]
        exact clean_retrySending s message 1
          (hwhole (hp ▸ Phase.noConfusion) (hp ▸ Phase.noConfusion)) le_rfl
      · simp only [reduceCtorEq] at h
  | sendAck | sendNack | heartbeat =>
      simp only [step] at h
      split at h
      · rename_i hp
        rw [Option.some.injEq] at h
        rw [← h]
        exact clean_loopSending s _ 0
          (hwhole (hp ▸ Phase.noConfusion) (hp ▸ Phase.noConfusion)) trivial
      · simp only [reduceCtorEq] at h
  | readAck acknowledged =>
      simp only [step] at h
      split at h
      · rename_i message retry hp
        have hbefore := hwhole (hp ▸ Phase.noConfusion) (hp ▸ Phase.noConfusion)
        split at h
        · rw [Option.some.injEq] at h
          rw [← h]
          exact ⟨fun _ _ hidle => Phase.noConfusion hidle, Or.inl hbefore⟩
        · rw [Option.some.injEq] at h
          rw [← h]
          exact clean_retrySending s message _ hbefore (Nat.le_add_left 1 retry)
      · simp only [reduceCtorEq] at h
  | close =>
      have hclose : Clean enc { s with phase := .closed } := by
        refine ⟨fun _ _ hclosed => Phase.noConfusion hclosed, ?_⟩
        rcases hs.before with hnone | ⟨_, huncut⟩
        · exact Or.inl hnone
        · exact Or.inr ⟨Or.inr rfl, huncut⟩
      simp only [step] at h
      split at h
      · rw [Option.some.injEq] at h
        rw [← h]
        exact hclose
      · rw [Option.some.injEq] at h
        rw [← h]
        exact hclose
      · simp only [reduceCtorEq] at h

theorem clean_of_reachesBy (s : State) (h : (machine enc).ReachesBy StopsClean initial s) :
    Clean enc s := by
  have hinitial : Clean enc initial :=
    ⟨fun _ _ hp => Phase.noConfusion hp, Or.inl fun g hg => absurd hg List.not_mem_nil⟩
  exact Machine.invariant (I := Clean enc) h hinitial
    (fun w b x hw hb hx => clean_of_step w x b hw hb hx)

/-- Of a clean connection no byte stands behind a cut. -/
theorem uncut_of_clean (s : State) (hs : Clean enc s) : Uncut (s.handed enc) := by
  rcases hs.before with hnone | ⟨hover, huncut⟩
  · refine uncut_append s.segments _ hnone ?_
    cases s.phase with
    | sending op totalSent => exact List.pairwise_singleton _ _
    | idle | awaitingAck | leaving | closed => exact List.Pairwise.nil
  · have hcurrent : s.phase.current enc = [] := by
      rcases hover with hp | hp
      · rw [hp]
        rfl
      · rw [hp]
        rfl
    rw [State.handed, hcurrent, List.append_nil]
    exact huncut

/-! ### Bytes -/

/-- Every frame handed over is one of an operation, and taken at most once. -/
def Proper (enc : Encoding) (l : List Segment) : Prop :=
  ∀ g ∈ l, g.taken ≤ g.frame.length ∧ ∃ op, g.frame = enc.frame op

theorem proper_append (l : List Segment) (op : Operation) (n : Nat) (hl : Proper enc l)
    (hn : n ≤ (enc.frame op).length) :
    Proper enc (l ++ [{ frame := enc.frame op, taken := n }]) := by
  intro g hg
  rcases List.mem_append.mp hg with hold | hnew
  · exact hl g hold
  · rw [List.mem_singleton.mp hnew]
    exact ⟨hn, op, rfl⟩

theorem reaches_proper (s : State) (h : (machine enc).Reaches initial s) :
    Proper enc (s.handed enc) := by
  refine Machine.invariant (I := fun w => Proper enc (w.handed enc)) h
    (fun g hg => absurd hg List.not_mem_nil) (fun w b x hw _ hx => ?_)
  have hhands := handed_of_step w x b hx
  generalize x.handed enc = l at hhands ⊢
  cases hhands with
  | keep => exact hw
  | start _ op => exact proper_append _ op 0 hw (Nat.zero_le _)
  | took op totalSent n hp hle =>
      refine proper_append _ op _ (fun g hg => hw g ?_) hle
      exact List.mem_append_left _ hg

/-- Of a frame that is not cut, all of it was taken or nothing. -/
theorem bytes_of_not_cut (g : Segment) (hle : g.taken ≤ g.frame.length) (hg : ¬g.Cut) :
    g.bytes = [] ∨ g.bytes = g.frame := by
  by_cases hzero : g.taken = 0
  · left
    rw [Segment.bytes, hzero, List.take_zero]
  · right
    unfold Segment.Cut at hg
    have hall : g.taken = g.frame.length := by omega
    rw [Segment.bytes, hall, List.take_length]

/-- Without a cut in the middle the bytes are whole frames, with what was taken
    of a last one. -/
theorem framed_of_uncut (l : List Segment) (hp : Proper enc l) (hu : Uncut l) :
    enc.Framed (l.flatMap Segment.bytes) := by
  induction l with
  -- Induction on the segments: whole frames, up to the first one that was cut.
  | nil => exact ⟨[], [], rfl, Or.inl rfl⟩
  | cons g l ih =>
      rcases List.pairwise_cons.mp hu with ⟨hg, hrest⟩
      rcases hp g List.mem_cons_self with ⟨hle, op, hop⟩
      by_cases hcut : g.Cut
      · -- Nothing was taken of the frames behind it.
        have hnone : l.flatMap Segment.bytes = [] := by
          refine List.flatMap_eq_nil_iff.mpr (fun k hk => ?_)
          rw [Segment.bytes, hg k hk hcut, List.take_zero]
        refine ⟨[], g.bytes, ?_, Or.inr ⟨op, ?_⟩⟩
        · rw [List.flatMap_cons, hnone, List.append_nil, List.flatMap_nil, List.nil_append]
        · rw [← hop]
          exact List.take_prefix _ _
      · rcases ih (fun k hk => hp k (List.mem_cons_of_mem g hk)) hrest with
          ⟨ops, cut, hbytes, hcut'⟩
        rw [List.flatMap_cons, hbytes]
        rcases bytes_of_not_cut g hle hcut with hnone | hall
        · exact ⟨ops, cut, by rw [hnone, List.nil_append], hcut'⟩
        · refine ⟨op :: ops, cut, ?_, hcut'⟩
          rw [hall, hop, List.flatMap_cons, List.append_assoc]

/-- Frames of which none is cut. -/
theorem whole_of_no_cut (l : List Segment) (hp : Proper enc l) (hl : ∀ g ∈ l, ¬g.Cut) :
    ∃ ops : List Operation, l.flatMap Segment.bytes = ops.flatMap enc.frame := by
  induction l with
  | nil => exact ⟨[], rfl⟩
  | cons g l ih =>
      rcases hp g List.mem_cons_self with ⟨hle, op, hop⟩
      rcases ih (fun k hk => hp k (List.mem_cons_of_mem g hk))
        (fun k hk => hl k (List.mem_cons_of_mem g hk)) with ⟨ops, hbytes⟩
      rw [List.flatMap_cons, hbytes]
      rcases bytes_of_not_cut g hle (hl g List.mem_cons_self) with hnone | hall
      · exact ⟨ops, by rw [hnone, List.nil_append]⟩
      · exact ⟨op :: ops, by rw [hall, hop, List.flatMap_cons]⟩

/-! ### Behind a cut -/

/-- Where an operation has been begun, its frame can be taken whole. -/
theorem reaches_taken (s : State) (op : Operation) (hop : 0 < (enc.frame op).length) :
    ∃ u, (machine enc).Reaches (startSending enc op s) u ∧
      u.handed enc = s.segments ++ [{ frame := enc.frame op, taken := (enc.frame op).length }] := by
  refine ⟨loopSending enc op (enc.frame op).length s, ?_, handed_loopSending op _ s⟩
  refine Machine.reaches_step (Machine.reaches_refl _)
    (a := .send (.took (enc.frame op).length)) ?_
  rw [startSending, loopSending, if_pos hop]
  simp only [machine, step, send, Nat.zero_add, le_refl, if_true]
  unfold loopSending
  rw [if_neg (lt_irrefl _), if_neg (lt_irrefl _)]
  rfl

/-- Behind a data, ACK or NACK frame, whatever was taken of it, the connection
    goes on. -/
theorem reaches_idle (s : State) (op : Operation) (totalSent : Nat) (result : SendResult)
    (hop : op ≠ .heartbeat) :
    ∃ p, (machine enc).Reaches (returnSent enc op totalSent result s) p ∧ p.phase = .idle ∧
      p.segments = s.segments ++ [{ frame := enc.frame op, taken := totalSent }] := by
  cases op with
  | message message retry =>
      -- The receiver may have read enough of it to acknowledge.
      exact ⟨{ returnSent enc (.message message retry) totalSent result s with phase := .idle },
        Machine.reaches_step (Machine.reaches_refl _) (a := .readAck true) rfl, rfl, rfl⟩
  | ack => exact ⟨_, Machine.reaches_refl _, rfl, rfl⟩
  | nack => exact ⟨_, Machine.reaches_refl _, rfl, rfl⟩
  | heartbeat => exact absurd rfl hop

/-- A frame that was begun once can be begun again. -/
theorem step_idle (s : State) (op : Operation) (hs : s.phase = .idle) (hop : op.Tried enc) :
    ∃ (a : Act) (op' : Operation), enc.frame op' = enc.frame op ∧
      step enc s a = some (startSending enc op' s) := by
  cases op with
  | message message retry =>
      refine ⟨.sendMessage message, .message message 1, rfl, ?_⟩
      have hbegun : 1 ≤ enc.retryMax ∧ message.length ≠ 0 := hop
      simp only [step, hs]
      rw [retrySending, if_pos hbegun]
  | ack => exact ⟨.sendAck, .ack, rfl, by simp only [step, hs]⟩
  | nack => exact ⟨.sendNack, .nack, rfl, by simp only [step, hs]⟩
  | heartbeat => exact ⟨.heartbeat, .heartbeat, rfl, by simp only [step, hs]⟩

/-- A `send` that stops in the middle of a data, ACK or NACK frame can be
    followed by the same frame, taken whole. -/
theorem cut_continues (s t : State) (a : Act) (hs : Clean enc s)
    (hproper : Proper enc (s.handed enc)) (ha : ¬StopsClean s a) (h : step enc s a = some t) :
    ∃ (ops : List Operation) (op : Operation) (k : Nat) (u : State),
      0 < k ∧ k < (enc.frame op).length ∧ (machine enc).Reaches t u ∧
        u.bytes enc = ops.flatMap enc.frame ++ (enc.frame op).take k ++ enc.frame op := by
  rcases Classical.not_imp.mp ha with ⟨hstops, hpartway⟩
  rcases s with ⟨segments, phase⟩
  cases phase with
  | idle | awaitingAck | leaving | closed => exact absurd rfl hpartway
  | sending op totalSent =>
      simp only [Phase.partway, decide_eq_false_iff_not, not_not] at hpartway
      rcases hs.current op totalSent rfl with ⟨hless, hop⟩
      have hnone : ∀ g ∈ segments, ¬g.Cut := by
        rcases hs.before with hnone | ⟨hleaving | hclosed, _⟩
        · exact hnone
        · exact Phase.noConfusion hleaving
        · exact Phase.noConfusion hclosed
      -- Whichever way it stops, the frames and the bytes are the same.
      have hreturn : ∃ result, t = returnSent enc op totalSent result
          { segments := segments, phase := .sending op totalSent } := by
        cases a with
        | send outcome =>
            cases outcome with
            | took n => exact absurd hstops Bool.noConfusion
            | again => exact ⟨_, (Option.some.inj h).symm⟩
            | error => exact ⟨_, (Option.some.inj h).symm⟩
        | sendMessage | sendAck | sendNack | heartbeat | readAck | close =>
            exact absurd hstops Bool.noConfusion
      rcases hreturn with ⟨result, rfl⟩
      rcases reaches_idle _ op totalSent result hpartway.2 with ⟨p, hp, hidle, hsegments⟩
      rcases step_idle p op hidle hop with ⟨b, op', hframe, hstep⟩
      have hlen : 0 < (enc.frame op').length := by
        rw [hframe]
        exact Nat.zero_lt_of_lt hless
      rcases reaches_taken p op' hlen with ⟨u, hu, hhanded⟩
      rcases whole_of_no_cut segments (fun g hg => hproper g (List.mem_append_left _ hg)) hnone
        with ⟨ops, hbytes⟩
      refine ⟨ops, op, totalSent, u, hpartway.1, hless,
        Machine.reaches_trans (Machine.reaches_step hp hstep) hu, ?_⟩
      rw [State.bytes, hhanded, hsegments, hframe, List.flatMap_append, List.flatMap_append,
        hbytes, List.flatMap_singleton, List.flatMap_singleton]
      simp only [Segment.bytes, List.take_length]

/-- In a run in which no `send` stops in the middle of a data, ACK or NACK
    frame, the bytes handed over are whole frames, with at most one cut frame at
    the end. After a `send` that does, the frame can come once more behind the
    part that was taken. -/
theorem frames_whole (enc : Encoding) (s : State)
    (h : (machine enc).ReachesBy StopsClean initial s) :
    enc.Framed (s.bytes enc) ∧
      ∀ (a : Act) (t : State), step enc s a = some t → ¬StopsClean s a →
        ∃ (ops : List Operation) (op : Operation) (k : Nat) (u : State),
          0 < k ∧ k < (enc.frame op).length ∧ (machine enc).Reaches t u ∧
            u.bytes enc = ops.flatMap enc.frame ++ (enc.frame op).take k ++ enc.frame op := by
  have hclean := clean_of_reachesBy s h
  have hproper := reaches_proper s (Machine.reaches_of_reachesBy h)
  refine ⟨framed_of_uncut _ hproper (uncut_of_clean s hclean), fun a t hstep ha => ?_⟩
  exact cut_continues s t a hclean hproper ha hstep

/-! ### One encoding -/

/-- One bit of a CRC with the polynomial 0x1021. -/
def crcShift (crc : UInt16) : UInt16 :=
  if crc &&& 0x8000 = 0 then crc <<< 1 else (crc <<< 1) ^^^ 0x1021

/-- A CRC of 16 bits. -/
def crc16 (bytes : List UInt8) (seed : UInt16) : UInt16 :=
  bytes.foldl (fun crc b => Nat.iterate crcShift 8 (crc ^^^ (b.toUInt16 <<< (8 : UInt16)))) seed

/-- The commands as numbers. -/
def cmdByte : Link.Cmd → UInt8
  | .data => 1
  | .ack => 2
  | .nack => 3
  | .heartbeat => 4
  | .other code => UInt8.ofNat code

/-- Headers of three bytes, and SLIP. -/
def slipEncoding : Encoding :=
  { retryMax := 3, seed := 0xFFFF, calcCrc16 := crc16, losePacketInterval := 0,
    headerBytes := fun h => [h.crc16.toUInt8, (h.crc16 >>> 8).toUInt8, cmdByte h.cmd],
    rawToSlip := Slip.encode }

/-- A message whose frame goes out in two parts, and a heartbeat that is cut. -/
def messageThenHeartbeat : List Act :=
  [.sendMessage [1, 2, 3], .send (.took 4), .send (.took 3), .readAck true, .heartbeat,
    .send (.took 2), .send .error, .close]

/-- A message that has been taken in part. -/
def messageBegun : List Act := [.sendAck, .send (.took 4), .sendMessage [1, 2, 3], .send (.took 4)]

/-- The heartbeat at the end is the one frame that is not whole; and where the
    socket is full in the middle of a message, the message can come behind its
    own beginning. -/
theorem frames_whole_two :
    (∃ s, (machine slipEncoding).Reaches initial s ∧ s.phase = .closed ∧
      s.bytes slipEncoding = slipEncoding.dataBuffer [1, 2, 3] ++
        (slipEncoding.headerBuffer .heartbeat).take 2 ∧
      slipEncoding.Framed (s.bytes slipEncoding)) ∧
    ∃ s t, (machine slipEncoding).Reaches initial s ∧ ¬StopsClean s (.send .again) ∧
      step slipEncoding s (.send .again) = some t ∧
      ∃ (ops : List Operation) (op : Operation) (k : Nat) (u : State),
        0 < k ∧ k < (slipEncoding.frame op).length ∧ (machine slipEncoding).Reaches t u ∧
          u.bytes slipEncoding = ops.flatMap slipEncoding.frame ++
            (slipEncoding.frame op).take k ++ slipEncoding.frame op := by
  have hguard : ∀ (s : State) (a : Act), decide (StopsClean s a) = true → StopsClean s a :=
    fun s a => of_decide_eq_true
  -- Each run is evaluated once, under the guard of the steps before.
  constructor
  · have hrun : ((machine slipEncoding).executeBy (fun s a => decide (StopsClean s a)) initial
        messageThenHeartbeat).map (fun s => decide (s.phase = .closed ∧
          s.bytes slipEncoding = slipEncoding.dataBuffer [1, 2, 3] ++
            (slipEncoding.headerBuffer .heartbeat).take 2)) = some true := by decide +kernel
    rcases Machine.reachesBy_of_check _ hguard messageThenHeartbeat _ hrun with ⟨s, hs, hcheck⟩
    rcases of_decide_eq_true hcheck with ⟨hclosed, hbytes⟩
    exact ⟨s, Machine.reaches_of_reachesBy hs, hclosed, hbytes, (frames_whole slipEncoding s hs).1⟩
  · have hrun : ((machine slipEncoding).executeBy (fun s a => decide (StopsClean s a)) initial
        messageBegun).map (fun s => decide (¬StopsClean s (.send .again) ∧
          (step slipEncoding s (.send .again)).isSome)) = some true := by decide +kernel
    rcases Machine.reachesBy_of_check _ hguard messageBegun _ hrun with ⟨s, hs, hcheck⟩
    rcases of_decide_eq_true hcheck with ⟨hcut, hsome⟩
    rcases Option.isSome_iff_exists.mp hsome with ⟨t, ht⟩
    exact ⟨s, t, Machine.reaches_of_reachesBy hs, hcut, ht,
      (frames_whole slipEncoding s hs).2 _ t ht hcut⟩

/-- The third byte of a frame is a command. -/
theorem frame_command (op : Operation) : ∃ raw : List UInt8,
    slipEncoding.frame op = Slip.encode raw ∧
      ∃ cmd ∈ ([1, 2, 3, 4] : List UInt8), raw[2]? = some cmd := by
  cases op with
  | message message retry => exact ⟨_, rfl, 1, by decide, rfl⟩
  | ack => exact ⟨_, rfl, 2, by decide, rfl⟩
  | nack => exact ⟨_, rfl, 3, by decide, rfl⟩
  | heartbeat => exact ⟨_, rfl, 4, by decide, rfl⟩

/-- Bytes that begin with what is no frame are not whole frames. -/
theorem not_framed (raw rest : List UInt8)
    (hraw : ∀ cmd ∈ ([1, 2, 3, 4] : List UInt8), raw[2]? ≠ some cmd) :
    ¬slipEncoding.Framed (Slip.encode raw ++ rest) := by
  -- The bytes tell their first frame, so it would be one of an operation.
  have hfirst : ∀ (op : Operation) (x y : List UInt8),
      Slip.encode raw ++ x ≠ slipEncoding.frame op ++ y := by
    intro op x y h
    rcases frame_command op with ⟨raw', hframe, cmd, hcmd, hthird⟩
    rw [hframe] at h
    rw [← (Slip.encode_append_inj raw raw' x y h).1] at hthird
    exact hraw cmd hcmd hthird
  rintro ⟨ops, cut, hbytes, hcut⟩
  cases ops with
  | nil =>
      rw [List.flatMap_nil, List.nil_append] at hbytes
      rcases hcut with hnone | ⟨op, x, hop⟩
      · rw [hnone] at hbytes
        have hempty := (List.append_eq_nil_iff.mp (List.append_eq_nil_iff.mp hbytes).1).2
        exact absurd hempty (List.cons_ne_nil _ _)
      · rw [← hbytes] at hop
        exact hfirst op (rest ++ x) [] (by rw [← List.append_assoc, hop, List.append_nil])
  | cons op ops =>
      rw [List.flatMap_cons, List.append_assoc] at hbytes
      exact hfirst op rest _ hbytes

/-- A message of which the kernel takes two bytes, and which is sent again. -/
def messageCut : List Act :=
  [.sendMessage [1, 2, 3], .send (.took 2), .send .again, .readAck false, .send (.took 7)]

/-- The message is sent again behind the cut, and the bytes are not whole
    frames. -/
theorem frame_cut_and_repeated : ∃ s, (machine slipEncoding).Reaches initial s ∧
    s.bytes slipEncoding =
      (slipEncoding.dataBuffer [1, 2, 3]).take 2 ++ slipEncoding.dataBuffer [1, 2, 3] ∧
    ¬ slipEncoding.Framed (s.bytes slipEncoding) := by
  have hrun : ((machine slipEncoding).execute initial messageCut).map (fun s =>
      decide (s.bytes slipEncoding = (slipEncoding.dataBuffer [1, 2, 3]).take 2 ++
          slipEncoding.dataBuffer [1, 2, 3])) = some true := by decide +kernel
  rcases Machine.reaches_of_check messageCut _ hrun with ⟨s, hs, hcheck⟩
  have hbytes := of_decide_eq_true hcheck
  have hencode : (slipEncoding.dataBuffer [1, 2, 3]).take 2 ++ slipEncoding.dataBuffer [1, 2, 3] =
      Slip.encode (((slipEncoding.dataBuffer [1, 2, 3]).take 2 ++
        slipEncoding.dataBuffer [1, 2, 3]).dropLast) ++ [] := by decide +kernel
  refine ⟨s, hs, hbytes, ?_⟩
  rw [hbytes, hencode]
  exact not_framed _ _ (by decide +kernel)

end Wire

end EpollServer
