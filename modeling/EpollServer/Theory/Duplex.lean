import EpollServer.Core.Duplex
import EpollServer.Theory.Channel

/-!
# Two Ends that Both Send

What holds of a connection when both ends send and read, in whatever order they
make their calls.

What an end does with a frame is first put in numbers (`Moved`): the copies it
sends, the messages it receives, the ACKs it takes and those it sends. A step
is then one of three turns, and the invariant is two accounts for each end.
What is under way to an end is part of both, so that a frame that is taken
moves from one side of an account to the other, and a frame that is lost only
makes it smaller.

The other result is about what does not work. An end in `linkSendRetry` reads
nothing but ACKs, and an ACK is only sent by an end in `amilinkReadMessage`.
So when both ends send, and no ACK is under way, one of the two calls must fail
before the other one can succeed (`crossed_fails`). A single lost ACK leads
there, if the message it was for is a request that the server answers.

## Main definitions

* `Party.successes`, `Party.intact`, `Party.left`: What an end counts.
* `Party.Sound`: What holds of what an end has sent.
* `Moved`: What an end does with a frame, in numbers.
* `Fades`, `Turn`: What a step can be.
* `Inv`: The accounts.
* `Crossed`: Two messages that wait for each other.

## Theorems

* `moved_take`: What an end makes of a frame.
* `turn_of_step`: The inversion of a step.
* `inv_of_reaches`: The accounts hold throughout.
* `received_accounted`: What is received and reported.
* `crossed_fails`: Two messages that cross do not both get through.
* `crossed_fails_lost_ack`: A lost ACK makes them cross.
-/

namespace EpollServer

namespace Duplex

open Link
open Channel (readable isAck)

variable {cfg : Config} {s t : State} {d : Side}

@[simp] theorem other_other (d : Side) : d.other.other = d := by
  cases d <;> rfl

theorem other_ne (d : Side) : d.other ≠ d := by
  cases d <;> exact Side.noConfusion

theorem eq_or_eq_other (d e : Side) : e = d ∨ e = d.other := by
  cases d <;> cases e <;> first | exact .inl rfl | exact .inr rfl

@[simp] theorem inbox_setInbox (s : State) (d : Side) (l : List PhysicalFrame) :
    (s.setInbox d l).inbox d = l := by
  simp only [State.setInbox, Function.update_self]

@[simp] theorem inbox_setInbox_other (s : State) (d : Side) (l : List PhysicalFrame) :
    (s.setInbox d l).inbox d.other = s.inbox d.other := by
  simp only [State.setInbox, Function.update_of_ne (other_ne d)]

@[simp] theorem party_setInbox (s : State) (d : Side) (l : List PhysicalFrame) :
    (s.setInbox d l).party = s.party := rfl

@[simp] theorem party_commit (s : State) (d : Side) (r : Party × List PhysicalFrame) :
    (s.commit d r).party d = r.1 := by
  simp only [State.commit, Function.update_self]

@[simp] theorem party_commit_other (s : State) (d : Side) (r : Party × List PhysicalFrame) :
    (s.commit d r).party d.other = s.party d.other := by
  simp only [State.commit, Function.update_of_ne (other_ne d)]

@[simp] theorem inbox_commit (s : State) (d : Side) (r : Party × List PhysicalFrame) :
    (s.commit d r).inbox d = s.inbox d := by
  simp only [State.commit, Function.update_of_ne (other_ne d).symm]

@[simp] theorem inbox_commit_other (s : State) (d : Side) (r : Party × List PhysicalFrame) :
    (s.commit d r).inbox d.other = s.inbox d.other ++ r.2 := by
  simp only [State.commit, Function.update_self]

/-! ### Frames -/

theorem dataFrame_inj {m m' : List UInt8} : dataFrame cfg m = dataFrame cfg m' ↔ m = m' := by
  constructor
  · intro h
    rw [dataFrame, dataFrame, PhysicalFrame.whole.injEq] at h
    exact h.2
  · rintro rfl
    rfl

/-- A frame that is answered with an ACK is that of its payload. -/
theorem eq_dataFrame_of_readable {f : PhysicalFrame} (h : readable cfg f = true) :
    ∃ m, f = dataFrame cfg m := by
  rw [readable, decide_eq_true_eq] at h
  -- Of the frames only a data frame with a right CRC is answered with an ACK.
  cases f with
  | short rawLength => simp only [handleFrame, reduceCtorEq] at h
  | whole header data =>
      rw [handleFrame] at h
      by_cases hcmd : header.cmd = .data
      · rw [if_pos hcmd] at h
        by_cases hcrc : header.crc16 = cfg.calcCrc16 data cfg.seed
        · refine ⟨data, ?_⟩
          rw [dataFrame, ← hcrc, ← hcmd]
        · simp only [if_neg hcrc, Option.some.injEq, reduceCtorEq] at h
      · simp only [if_neg hcmd, reduceCtorEq] at h

theorem isAck_dataFrame (m : List UInt8) : isAck cfg (dataFrame cfg m) = false := by
  rw [isAck, dataFrame]
  cases m with
  | nil => simp only [ackOf, reduceCtorEq, and_false, if_false, decide_false]
  | cons b m => rfl

theorem reply_ne_dataFrame (cmd : Cmd) (hcmd : cmd ≠ .data) (m : List UInt8) :
    .whole (replyHeader cfg cmd) [] ≠ dataFrame cfg m := by
  intro h
  rw [dataFrame, PhysicalFrame.whole.injEq, replyHeader, Header.mk.injEq] at h
  exact hcmd h.1.2

theorem short_ne_dataFrame (n : Nat) (m : List UInt8) :
    .short n ≠ dataFrame cfg m := PhysicalFrame.noConfusion

/-- A frame that is not answered with an ACK is answered with a NACK or not at
    all. -/
theorem reply_of_unreadable {f : PhysicalFrame} (h : readable cfg f = false)
    (message : List UInt8) :
    (handleFrame cfg message f).2.2 = none ∨ (handleFrame cfg message f).2.2 = some .nack := by
  rw [readable, decide_eq_false_iff_not, Channel.handleFrame_reply cfg [] message] at h
  -- A data frame with a wrong CRC gets a NACK, any other frame nothing.
  cases f with
  | short rawLength => exact .inl rfl
  | whole header data =>
      rw [handleFrame] at h ⊢
      by_cases hcmd : header.cmd = .data
      · rw [if_pos hcmd] at h ⊢
        by_cases hcrc : header.crc16 = cfg.calcCrc16 data cfg.seed
        · rw [if_pos hcrc] at h
          exact absurd rfl h
        · rw [if_neg hcrc]
          exact .inr rfl
      · rw [if_neg hcmd]
        exact .inl rfl

/-! ### One end -/

/-- How many calls were reported as successful. -/
def Party.successes (p : Party) : Nat := p.dataSent.countP fun n => decide (0 < n)

/-- How many messages were received intact. -/
def Party.intact (p : Party) : Nat := p.received.countP Received.acknowledged

/-- The attempts that the running call has left for a message. -/
def Party.left (cfg : Config) (p : Party) (m : List UInt8) : Nat :=
  match p.phase with
  | .sending message retry => if message = m then cfg.retryMax - retry else 0
  | _ => 0

/-- No message is empty, and each call sends its message a limited number of
    times. -/
structure Party.Sound (cfg : Config) (p : Party) : Prop where
  nonempty : ∀ m ∈ p.transmitted, m ≠ []
  limit : ∀ m, p.transmitted.count m + p.left cfg m ≤ cfg.retryMax * p.calls.count m

/-- What an end does with a frame, in numbers: it sends the copies it counts,
    receives at most the frame, takes at most the frame for an ACK, and sends
    at most an ACK for what it has received. -/
structure Moved (cfg : Config) (p : Party) (f : PhysicalFrame) (r : Party × List PhysicalFrame) :
    Prop where
  copies : ∀ m, r.1.transmitted.count m = p.transmitted.count m + r.2.count (dataFrame cfg m)
  received : ∀ m, r.1.received.count ⟨m, true⟩ ≤
    p.received.count ⟨m, true⟩ + [f].count (dataFrame cfg m)
  successes : r.1.successes ≤ p.successes + [f].countP (isAck cfg)
  replies : r.2.countP (isAck cfg) + p.intact ≤ r.1.intact
  dataSent : p.dataSent <+: r.1.dataSent
  sound : p.Sound cfg → r.1.Sound cfg

theorem moved_linkSendRetry {p : Party} {calls : List (List UInt8)} {message : List UInt8}
    {retry dataSent : Nat} {f : PhysicalFrame} (hf : 0 < dataSent → isAck cfg f = true)
    (hsent : dataSent = 0 ∨ dataSent = message.length)
    (hsound : p.Sound cfg → ∀ m, p.transmitted.count m +
      (if message = m then cfg.retryMax - retry else 0) ≤ cfg.retryMax * calls.count m) :
    Moved cfg p f (linkSendRetry cfg { p with calls := calls } message retry dataSent) := by
  unfold linkSendRetry
  -- One attempt more, which is one copy more and one attempt less to come, or the end
  -- of the call.
  by_cases hmore : retry < cfg.retryMax ∧ message.length ≠ dataSent
  · rw [if_pos hmore]
    have hcount : ∀ m, (p.transmitted ++ [message]).count m =
        p.transmitted.count m + if message = m then 1 else 0 := by
      intro m
      rw [List.count_append, List.count_singleton]
      simp only [beq_iff_eq]
    refine ⟨?_, fun m => Nat.le_add_right _ _, Nat.le_add_right _ _, ?_, List.prefix_refl _, ?_⟩
    · intro m
      rw [hcount, List.count_singleton]
      simp only [beq_iff_eq, dataFrame_inj]
    · rw [List.countP_singleton, if_neg (Bool.eq_false_iff.mp (isAck_dataFrame message))]
      exact Nat.le_of_eq (Nat.zero_add _)
    · intro hp
      refine ⟨?_, ?_⟩
      · intro m hm
        rcases List.mem_append.mp hm with hm | hm
        · exact hp.nonempty m hm
        · -- It is sent because its length is not 0.
          rw [List.mem_singleton.mp hm]
          rintro rfl
          rcases hsent with h | h
          · exact hmore.2 h.symm
          · exact hmore.2 h.symm
      · intro m
        have hlimit := hsound hp m
        simp only [Party.left]
        rw [hcount]
        by_cases hm : message = m
        · rw [if_pos hm] at hlimit ⊢
          rw [if_pos hm]
          omega
        · rw [if_neg hm] at hlimit ⊢
          rw [if_neg hm]
          omega
  · rw [if_neg hmore]
    refine ⟨fun m => rfl, fun m => Nat.le_add_right _ _, ?_, Nat.le_of_eq (Nat.zero_add _),
      List.prefix_append _ _, ?_⟩
    · rw [Party.successes, List.countP_append, List.countP_singleton, List.countP_singleton]
      simp only [decide_eq_true_eq]
      by_cases hpos : 0 < dataSent
      · rw [if_pos hpos, if_pos (hf hpos)]
        rfl
      · rw [if_neg hpos]
        exact Nat.le_add_right _ _
    · intro hp
      refine ⟨hp.nonempty, fun m => ?_⟩
      have hlimit := hsound hp m
      simp only [Party.left]
      omega

theorem moved_amilinkSendMessage {p : Party} (message : List UInt8) (f : PhysicalFrame) :
    Moved cfg p f (amilinkSendMessage cfg p message) := by
  refine moved_linkSendRetry (fun h => absurd h (Nat.lt_irrefl 0)) (.inl rfl) ?_
  intro hsound m
  have hlimit := hsound.limit m
  -- The new call brings the attempts it may make.
  rw [List.count_append, List.count_singleton, Nat.mul_add]
  by_cases hm : message = m
  · simp only [hm, beq_self_eq_true, if_true, Nat.sub_zero, Nat.mul_one]
    omega
  · simp only [hm, beq_iff_eq, if_false, Nat.mul_zero]
    omega

theorem moved_readAck {p : Party} {message : List UInt8} {retry : Nat}
    (hp : p.phase = .sending message retry) (f : PhysicalFrame) :
    Moved cfg p f (readAck cfg p message retry f) := by
  change Moved cfg p f (linkSendRetry cfg { p with calls := p.calls } message retry _)
  refine moved_linkSendRetry ?_ ?_ ?_
  · -- Something was sent only if the reply was an ACK.
    intro hpos
    by_cases hack : isAck cfg f = true
    · exact hack
    · rw [if_neg hack] at hpos
      exact absurd hpos (Nat.lt_irrefl 0)
  · by_cases hack : isAck cfg f = true
    · exact .inr (if_pos hack)
    · exact .inl (if_neg hack)
  · intro hsound m
    -- An end that waits has at least the copies left that it had.
    have hlimit := hsound.limit m
    rw [Party.left, hp] at hlimit
    exact hlimit

/-- A frame that is no empty message is read as a message, or as nothing that
    would be acknowledged. -/
theorem moved_readMessage {p : Party} {retry : Nat} (hp : p.phase = .reading retry)
    {f : PhysicalFrame} (hne : f ≠ dataFrame cfg []) :
    Moved cfg p f (readMessage cfg p retry f) := by
  have hsound : p.Sound cfg → (readMessage cfg p retry f).1.Sound cfg := by
    intro h
    refine ⟨h.nonempty, fun m => ?_⟩
    have hlimit := h.limit m
    simp only [Party.left, hp] at hlimit
    simp only [Party.left, readMessage]
    split
    · rename_i hphase
      split at hphase <;> simp only [reduceCtorEq] at hphase
    · exact hlimit
  cases hread : readable cfg f with
  | true =>
      -- It is received, and answered with an ACK.
      rcases eq_dataFrame_of_readable hread with ⟨data, rfl⟩
      have hlen : data.length ≠ 0 := by
        intro h0
        exact hne (by rw [List.length_eq_zero_iff.mp h0])
      refine ⟨fun m => ?_, fun m => ?_, Nat.le_add_right _ _, ?_, List.prefix_refl _, hsound⟩
      · simp only [readMessage, Channel.handleFrame_dataFrame, Option.toList_some, List.map_cons,
          List.map_nil, List.count_singleton, beq_iff_eq]
        rw [if_neg (reply_ne_dataFrame .ack (by decide) m)]
        rfl
      · simp only [readMessage, Channel.handleFrame_dataFrame, hlen, if_false, List.take_left,
          List.count_append, List.count_singleton, beq_iff_eq, decide_true, Received.mk.injEq,
          and_true, dataFrame_inj]
        exact Nat.le_refl _
      · simp only [readMessage, Channel.handleFrame_dataFrame, hlen, if_false, Option.toList_some,
          List.map_cons, List.map_nil, Party.intact, List.countP_append, List.countP_singleton,
          Channel.isAck_reply, decide_true, if_true]
        omega
  | false =>
      -- The answer is neither an ACK nor data, so no count goes up.
      have hreply := reply_of_unreadable hread p.message
      rcases hframe : handleFrame cfg p.message f with ⟨messageLength, message', reply⟩
      rw [hframe] at hreply
      simp only at hreply
      have hnack : decide (reply = some .ack) = false := by
        rw [decide_eq_false_iff_not]
        rintro rfl
        rcases hreply with h | h <;> simp only [reduceCtorEq, Option.some.injEq] at h
      have hframes : ∀ m, (reply.toList.map fun cmd =>
          PhysicalFrame.whole (replyHeader cfg cmd) []).count (dataFrame cfg m) = 0 := by
        intro m
        rcases hreply with rfl | rfl
        · rfl
        · simp only [Option.toList_some, List.map_cons, List.map_nil, List.count_singleton,
            beq_iff_eq]
          exact if_neg (reply_ne_dataFrame .nack (by decide) m)
      have hacks : (reply.toList.map fun cmd =>
          PhysicalFrame.whole (replyHeader cfg cmd) []).countP (isAck cfg) = 0 := by
        rcases hreply with rfl | rfl
        · rfl
        · simp only [Option.toList_some, List.map_cons, List.map_nil, List.countP_singleton,
            Channel.isAck_reply, reduceCtorEq, decide_false, Bool.false_eq_true, if_false]
      refine ⟨fun m => ?_, fun m => ?_, Nat.le_add_right _ _, ?_, List.prefix_refl _, hsound⟩
      · simp only [readMessage, hframe, hframes, Nat.add_zero]
      · simp only [readMessage, hframe, hnack]
        split
        · exact Nat.le_add_right _ _
        · rw [List.count_append, List.count_singleton]
          simp only [beq_iff_eq, Received.mk.injEq, Bool.false_eq_true, and_false, if_false]
          exact Nat.le_add_right _ _
      · simp only [readMessage, hframe, hnack, hacks, Party.intact, Nat.zero_add]
        split
        · exact Nat.le_refl _
        · rw [List.countP_append]
          exact Nat.le_add_right _ _

/-- What an end makes of a frame. -/
theorem moved_take {p : Party} {f : PhysicalFrame} {r : Party × List PhysicalFrame}
    (hne : f ≠ dataFrame cfg []) (h : p.take cfg f = some r) : Moved cfg p f r := by
  unfold Party.take at h
  split at h
  · simp only [reduceCtorEq] at h
  · rename_i message retry hp
    rw [Option.some.injEq] at h
    rw [← h]
    exact moved_readAck hp f
  · rename_i retry hp
    rw [Option.some.injEq] at h
    rw [← h]
    exact moved_readMessage hp hne

/-- A call of `amilinkReadMessage`, or a heartbeat, changes no count. -/
theorem moved_quiet {p p' : Party} {out : List PhysicalFrame} (f : PhysicalFrame)
    (hcalls : p'.calls = p.calls) (htransmitted : p'.transmitted = p.transmitted)
    (hsent : p'.dataSent = p.dataSent) (hreceived : p'.received = p.received)
    (hleft : ∀ m, p'.left cfg m ≤ p.left cfg m) (hdata : ∀ m, out.count (dataFrame cfg m) = 0)
    (hack : out.countP (isAck cfg) = 0) : Moved cfg p f (p', out) := by
  refine ⟨fun m => ?_, fun m => ?_, ?_, ?_, ?_, fun h => ⟨?_, fun m => ?_⟩⟩
  · rw [hdata, htransmitted, Nat.add_zero]
  · rw [hreceived]
    exact Nat.le_add_right _ _
  · rw [Party.successes, hsent]
    exact Nat.le_add_right _ _
  · rw [hack, Party.intact, Party.intact, hreceived, Nat.zero_add]
  · rw [hsent]
  · rw [htransmitted]
    exact h.nonempty
  · have hlimit := h.limit m
    have hm : Party.left cfg (p', out).1 m ≤ p.left cfg m := hleft m
    rw [htransmitted, hcalls]
    omega

theorem moved_amilinkReadMessage {p : Party} (f : PhysicalFrame) :
    Moved cfg p f (amilinkReadMessage cfg p, []) := by
  unfold amilinkReadMessage
  by_cases hloop : 0 < cfg.retryMax
  · rw [if_pos hloop]
    exact moved_quiet f rfl rfl rfl rfl (fun _ => Nat.zero_le _) (fun _ => rfl) rfl
  · rw [if_neg hloop]
    exact moved_quiet f rfl rfl rfl rfl (fun _ => Nat.le_refl _) (fun _ => rfl) rfl

/-! ### What a step does -/

/-- The good frames of a stream only become fewer. -/
structure Fades (cfg : Config) (l l' : List PhysicalFrame) : Prop where
  data : ∀ m, l'.count (dataFrame cfg m) ≤ l.count (dataFrame cfg m)
  acks : l'.countP (isAck cfg) ≤ l.countP (isAck cfg)

/-- What a step can be: an end begins something or times out, it takes a frame,
    or a stream fades. -/
inductive Turn (cfg : Config) (s : State) : State → Prop where
  | own (d : Side) (r : Party × List PhysicalFrame) (h : Moved cfg (s.party d) (.short 0) r) :
      Turn cfg s (s.commit d r)
  | took (d : Side) (f : PhysicalFrame) (rest : List PhysicalFrame)
      (r : Party × List PhysicalFrame) (hin : s.inbox d = f :: rest)
      (h : Moved cfg (s.party d) f r) : Turn cfg s ((s.setInbox d rest).commit d r)
  | faded (d : Side) (l : List PhysicalFrame) (h : Fades cfg (s.inbox d) l) :
      Turn cfg s (s.setInbox d l)

theorem fades_of_sublist {l l' : List PhysicalFrame} (h : l'.Sublist l) : Fades cfg l l' :=
  ⟨fun _ => h.count_le _, h.countP_le⟩

theorem fades_set {f : PhysicalFrame} (hf : spoiled cfg f = true) (l : List PhysicalFrame)
    (i : Nat) : Fades cfg l (l.set i f) := by
  rw [spoiled, Bool.and_eq_true, Bool.not_eq_true', Bool.not_eq_true'] at hf
  have hcount : ∀ p : PhysicalFrame → Bool, p f = false → (l.set i f).countP p ≤ l.countP p := by
    intro p hp
    by_cases hi : i < l.length
    · rw [List.countP_set hi, if_neg (Bool.eq_false_iff.mp hp)]
      exact Nat.sub_le _ _
    · rw [List.set_eq_of_length_le (Nat.le_of_not_lt hi)]
  refine ⟨fun m => hcount _ ?_, hcount _ hf.2⟩
  rw [beq_eq_false_iff_ne]
  rintro rfl
  rw [Channel.readable_dataFrame] at hf
  exact absurd hf.1 (Bool.false_ne_true ∘ Eq.symm)

theorem turn_of_step {a : Act} (hin : ∀ d, dataFrame cfg [] ∉ s.inbox d)
    (h : step cfg s a = some t) : Turn cfg s t := by
  cases a with
  | amilinkSendMessage d message =>
      simp only [step] at h
      split at h
      · rw [Option.some.injEq] at h
        rw [← h]
        exact .own d _ (moved_amilinkSendMessage message _)
      · simp only [reduceCtorEq] at h
  | amilinkReadMessage d =>
      simp only [step] at h
      split at h
      · rw [Option.some.injEq] at h
        rw [← h]
        exact .own d _ (moved_amilinkReadMessage _)
      · simp only [reduceCtorEq] at h
  -- A heartbeat is no data frame and no ACK.
  | amilinkHeartbeat d =>
      simp only [step] at h
      split at h
      · rw [Option.some.injEq] at h
        rw [← h]
        refine .own d _ (moved_quiet (.short 0) rfl rfl rfl rfl (fun _ => Nat.le_refl _) ?_ ?_)
        · intro m
          rw [List.count_singleton, if_neg]
          rw [beq_iff_eq]
          exact reply_ne_dataFrame .heartbeat (by decide) m
        · rw [List.countP_singleton, Channel.isAck_reply]
          rfl
      · simp only [reduceCtorEq] at h
  | readFrame d =>
      simp only [step] at h
      split at h
      · simp only [reduceCtorEq] at h
      · simp only [reduceCtorEq] at h
      · rename_i f rest hinbox _
        split at h
        · -- The heartbeat is skipped, and the stream is one frame shorter.
          rw [Option.some.injEq] at h
          rw [← h]
          refine .faded d rest (fades_of_sublist ?_)
          rw [hinbox]
          exact List.sublist_cons_self f rest
        · rw [Option.map_eq_some_iff] at h
          rcases h with ⟨r, hr, rfl⟩
          refine .took d f rest r hinbox (moved_take ?_ hr)
          -- The frame is none without a message, which nobody sends.
          rintro rfl
          exact hin d (by rw [hinbox]; exact List.mem_cons_self)
  -- A timeout is a frame without bytes, and not one of the stream.
  | timeout d =>
      simp only [step, Option.map_eq_some_iff] at h
      rcases h with ⟨r, hr, rfl⟩
      exact .own d r (moved_take (short_ne_dataFrame 0 []) hr)
  | lose d i =>
      simp only [step] at h
      split at h
      · rw [Option.some.injEq] at h
        rw [← h]
        exact .faded d _ (fades_of_sublist (List.eraseIdx_sublist _ _))
      · simp only [reduceCtorEq] at h
  | corrupt d i f =>
      simp only [step] at h
      -- A corrupted frame counts for neither.
      split at h
      · rename_i hf
        rw [Option.some.injEq] at h
        rw [← h]
        exact .faded d _ (fades_set hf _ i)
      · simp only [reduceCtorEq] at h

/-! ### The accounts -/

/-- The invariant. What an end has received and what is on its way to it was
    transmitted by the other end; what an end was told to be acknowledged, and
    what of this is on its way to it, was received by the other end. -/
structure Inv (cfg : Config) (s : State) : Prop where
  data : ∀ d m, (s.party d).received.count ⟨m, true⟩ + (s.inbox d).count (dataFrame cfg m) ≤
    (s.party d.other).transmitted.count m
  acks : ∀ d, (s.party d).successes + (s.inbox d).countP (isAck cfg) ≤ (s.party d.other).intact
  sound : ∀ d, (s.party d).Sound cfg

theorem inv_initial (messages : Side → List UInt8) : Inv cfg (State.initial messages) := by
  refine ⟨fun _ _ => Nat.le_refl 0, fun _ => Nat.le_refl 0, fun d => ⟨?_, fun m => ?_⟩⟩
  · intro m hm
    exact absurd hm List.not_mem_nil
  · exact Nat.le_refl _

/-- An empty message is never under way. -/
theorem Inv.no_empty (h : Inv cfg s) (d : Side) : dataFrame cfg [] ∉ s.inbox d := by
  intro hmem
  have hpos : 0 < (s.inbox d).count (dataFrame cfg []) := List.count_pos_iff.mpr hmem
  have hsent : 0 < (s.party d.other).transmitted.count [] := by
    have hdata := h.data d []
    omega
  exact (h.sound d.other).nonempty [] (List.count_pos_iff.mp hsent) rfl

theorem inv_fades {l : List PhysicalFrame} (h : Inv cfg s) (hl : Fades cfg (s.inbox d) l) :
    Inv cfg (s.setInbox d l) := by
  refine ⟨fun e m => ?_, fun e => ?_, h.sound⟩
  · have hdata := h.data e m
    -- The stream changes at one end only.
    rcases eq_or_eq_other d e with rfl | rfl
    · have hfade := hl.data m
      rw [party_setInbox, inbox_setInbox]
      omega
    · rw [party_setInbox, inbox_setInbox_other]
      exact hdata
  · have hacks := h.acks e
    rcases eq_or_eq_other d e with rfl | rfl
    · have hfade := hl.acks
      rw [party_setInbox, inbox_setInbox]
      omega
    · rw [party_setInbox, inbox_setInbox_other]
      exact hacks

/-- An end goes on with a frame that was taken out of its stream. -/
theorem inv_commit {f : PhysicalFrame} {r : Party × List PhysicalFrame}
    (hsound : ∀ e, (s.party e).Sound cfg)
    (hdata : ∀ e m, (s.party e).received.count ⟨m, true⟩ + (s.inbox e).count (dataFrame cfg m) +
      (if e = d then [f].count (dataFrame cfg m) else 0) ≤ (s.party e.other).transmitted.count m)
    (hacks : ∀ e, (s.party e).successes + (s.inbox e).countP (isAck cfg) +
      (if e = d then [f].countP (isAck cfg) else 0) ≤ (s.party e.other).intact)
    (hm : Moved cfg (s.party d) f r) : Inv cfg (s.commit d r) := by
  refine ⟨fun e m => ?_, fun e => ?_, fun e => ?_⟩
  · -- What the end has read and sent moves between the two sums.
    have h := hdata e m
    have hcopies := hm.copies m
    have hreceived := hm.received m
    rcases eq_or_eq_other d e with rfl | rfl
    · rw [if_pos rfl] at h
      rw [party_commit, inbox_commit, party_commit_other]
      omega
    · rw [other_other] at h
      rw [other_other, party_commit, inbox_commit_other, party_commit_other, List.count_append]
      omega
  · have h := hacks e
    have hsuccesses := hm.successes
    have hreplies := hm.replies
    -- Its own stream is one frame shorter, that of the other one longer.
    rcases eq_or_eq_other d e with rfl | rfl
    · rw [if_pos rfl] at h
      rw [party_commit, inbox_commit, party_commit_other]
      omega
    · rw [other_other] at h
      rw [other_other, party_commit, inbox_commit_other, party_commit_other, List.countP_append]
      omega
  · rcases eq_or_eq_other d e with rfl | rfl
    · rw [party_commit]
      exact hm.sound (hsound e)
    · rw [party_commit_other]
      exact hsound d.other

theorem inv_turn (h : Inv cfg s) (ht : Turn cfg s t) : Inv cfg t := by
  cases ht with
  | own d r hm =>
      refine inv_commit h.sound (fun e m => ?_) (fun e => ?_) hm
      · have hdata := h.data e m
        -- A timeout counts for neither.
        have hnone : [PhysicalFrame.short 0].count (dataFrame cfg m) = 0 := rfl
        simp only [hnone, ite_self]
        exact hdata
      · have hacks := h.acks e
        have hnone : [PhysicalFrame.short 0].countP (isAck cfg) = 0 := rfl
        simp only [hnone, ite_self]
        exact hacks
  | took d f rest r hin hm =>
      refine inv_commit h.sound (fun e m => ?_) (fun e => ?_) hm
      · have hdata := h.data e m
        -- The frame that is read leaves the stream of the end.
        rcases eq_or_eq_other d e with rfl | rfl
        · rw [hin, ← List.singleton_append, List.count_append] at hdata
          rw [party_setInbox, inbox_setInbox, if_pos rfl]
          omega
        · rw [party_setInbox, inbox_setInbox_other, if_neg (other_ne d)]
          exact hdata
      · have hacks := h.acks e
        rcases eq_or_eq_other d e with rfl | rfl
        · rw [hin, ← List.singleton_append, List.countP_append] at hacks
          rw [party_setInbox, inbox_setInbox, if_pos rfl]
          omega
        · rw [party_setInbox, inbox_setInbox_other, if_neg (other_ne d)]
          exact hacks
  | faded d l hl => exact inv_fades h hl

theorem inv_of_reaches {messages : Side → List UInt8}
    (h : (machine cfg).Reaches (State.initial messages) s) : Inv cfg s :=
  Machine.invariant h (inv_initial messages) fun _ _ _ hi _ hs =>
    inv_turn hi (turn_of_step hi.no_empty hs)

/-- What an end has received intact is a message that the other end has called
    for, and it has no more of them than the calls allow; and no more calls are
    reported as successful than messages were received. -/
theorem accounted_of_reaches {messages : Side → List UInt8}
    (h : (machine cfg).Reaches (State.initial messages) s) (d : Side) :
    (∀ m, Received.mk m true ∈ (s.party d).received → m ∈ (s.party d.other).calls ∧ m ≠ []) ∧
      (∀ m, (s.party d).received.count ⟨m, true⟩ ≤
        cfg.retryMax * (s.party d.other).calls.count m) ∧
      (s.party d).successes ≤ (s.party d.other).intact := by
  have hinv := inv_of_reaches h
  -- Every message read with an ACK is a copy that was transmitted.
  have hcopies : ∀ m, (s.party d).received.count ⟨m, true⟩ ≤
      (s.party d.other).transmitted.count m := fun m =>
    Nat.le_trans (Nat.le_add_right _ _) (hinv.data d m)
  -- And there are no more copies than attempts.
  have hlimit : ∀ m, (s.party d).received.count ⟨m, true⟩ ≤
      cfg.retryMax * (s.party d.other).calls.count m := fun m =>
    Nat.le_trans (hcopies m)
      (Nat.le_trans (Nat.le_add_right _ _) ((hinv.sound d.other).limit m))
  refine ⟨fun m hm => ?_, hlimit, Nat.le_trans (Nat.le_add_right _ _) (hinv.acks d)⟩
  -- What was read at least once has been called for at least once.
  have hpos : 0 < (s.party d).received.count ⟨m, true⟩ := List.count_pos_iff.mpr hm
  refine ⟨?_, ?_⟩
  · have hcalls : 0 < cfg.retryMax * (s.party d.other).calls.count m :=
      Nat.lt_of_lt_of_le hpos (hlimit m)
    exact List.count_pos_iff.mp (Nat.pos_of_mul_pos_left hcalls)
  · exact (hinv.sound d.other).nonempty m
      (List.count_pos_iff.mp (Nat.lt_of_lt_of_le hpos (hcopies m)))

/-- In every run, with any order of the calls and reads of both ends, of
    timeouts and of faults, the accounts of both ends agree: what an end has
    received intact the other one has called for, a message at most `retryMax`
    times for each call with it, and the calls reported as successful at one
    end are no more than the messages received at the other. -/
theorem received_accounted {messages : Side → List UInt8}
    (h : (machine cfg).Reaches (State.initial messages) s) :
    (∀ d m, Received.mk m true ∈ (s.party d).received → m ∈ (s.party d.other).calls ∧ m ≠ []) ∧
      (∀ d m, (s.party d).received.count ⟨m, true⟩ ≤
        cfg.retryMax * (s.party d.other).calls.count m) ∧
      ∀ d, (s.party d).successes ≤ (s.party d.other).intact :=
  ⟨fun d => (accounted_of_reaches h d).1, fun d => (accounted_of_reaches h d).2.1,
    fun d => (accounted_of_reaches h d).2.2⟩

/-- A message is sent twice, and received twice; one call is reported. -/
theorem received_accounted_twice : ∃ s,
    (machine sumConfig).Reaches (State.initial fun _ => []) s ∧
      (s.party .server).received = [⟨[7], true⟩, ⟨[7], true⟩] ∧
      (s.party .server).received.count ⟨[7], true⟩ ≤ 3 * (s.party .device).calls.count [7] ∧
      (s.party .device).successes ≤ (s.party .server).intact := by
  rcases Machine.reaches_of_check (M := machine sumConfig) (s := State.initial fun _ => [])
    [.amilinkSendMessage .device [7], .timeout .device, .amilinkReadMessage .server,
      .readFrame .server, .amilinkHeartbeat .server, .amilinkReadMessage .server,
      .readFrame .server, .readFrame .device]
    (fun s => decide ((s.party .server).received = [⟨[7], true⟩, ⟨[7], true⟩]))
    (by decide +kernel) with ⟨s, hs, hcheck⟩
  have haccounts := received_accounted hs
  exact ⟨s, hs, of_decide_eq_true hcheck, haccounts.2.1 .server [7], haccounts.2.2 .device⟩

/-! ### Crossed messages -/

/-- Both ends wait for an ACK, and none is under way. -/
def Crossed (cfg : Config) (s : State) : Prop :=
  ∀ d, (∃ message retry, (s.party d).phase = .sending message retry) ∧
    ∀ f ∈ s.inbox d, isAck cfg f = false

/-- What an end makes of a frame that is no ACK while it waits for one: it sends
    a data frame, or it gives up. -/
theorem take_refused {p : Party} {message : List UInt8} {retry : Nat} {f : PhysicalFrame}
    {r : Party × List PhysicalFrame} (hp : p.phase = .sending message retry)
    (hf : isAck cfg f = false) (h : p.take cfg f = some r) :
    (r.1.phase = .sending message (retry + 1) ∧ r.1.dataSent = p.dataSent ∧
        r.2 = [dataFrame cfg message]) ∨
      r.1.dataSent = p.dataSent ++ [0] := by
  rw [Party.take, hp] at h
  simp only [Option.some.injEq, readAck, hf, Bool.false_eq_true, if_false, linkSendRetry] at h
  by_cases hmore : retry < cfg.retryMax ∧ message.length ≠ 0
  · rw [if_pos hmore] at h
    rw [← h]
    exact .inl ⟨rfl, rfl, rfl⟩
  · rw [if_neg hmore] at h
    rw [← h]
    exact .inr rfl

theorem crossed_setInbox {l : List PhysicalFrame} (hs : Crossed cfg s)
    (hl : ∀ f ∈ l, isAck cfg f = false) : Crossed cfg (s.setInbox d l) := by
  intro e
  refine ⟨(hs e).1, ?_⟩
  rcases eq_or_eq_other d e with rfl | rfl
  · rw [inbox_setInbox]
    exact hl
  · rw [inbox_setInbox_other]
    exact (hs d.other).2

theorem crossed_commit {f : PhysicalFrame} {r : Party × List PhysicalFrame} (hs : Crossed cfg s)
    (hf : isAck cfg f = false) (h : (s.party d).take cfg f = some r) :
    (Crossed cfg (s.commit d r) ∧ ∀ e, ((s.commit d r).party e).dataSent = (s.party e).dataSent) ∨
      ∃ e, ((s.commit d r).party e).dataSent = (s.party e).dataSent ++ [0] := by
  rcases (hs d).1 with ⟨message, retry, hp⟩
  -- The end goes on waiting, or gives up with 0.
  rcases take_refused hp hf h with ⟨hphase, hsent, hout⟩ | hgone
  · refine .inl ⟨fun e => ⟨?_, ?_⟩, fun e => ?_⟩
    · rcases eq_or_eq_other d e with rfl | rfl
      · rw [party_commit]
        exact ⟨message, retry + 1, hphase⟩
      · rw [party_commit_other]
        exact (hs d.other).1
    · rcases eq_or_eq_other d e with rfl | rfl
      · rw [inbox_commit]
        exact (hs e).2
      · -- What is sent to the other end is the message once more.
        rw [inbox_commit_other, hout]
        intro g hg
        rcases List.mem_append.mp hg with hg | hg
        · exact (hs d.other).2 g hg
        · rw [List.mem_singleton.mp hg]
          exact isAck_dataFrame message
    · rcases eq_or_eq_other d e with rfl | rfl
      · rw [party_commit]
        exact hsent
      · rw [party_commit_other]
  · refine .inr ⟨d, ?_⟩
    rw [party_commit]
    exact hgone

/-- A step of two ends whose messages have crossed leaves them so, or one of
    them gives up. -/
theorem crossed_step {a : Act} (hs : Crossed cfg s) (h : step cfg s a = some t) :
    (Crossed cfg t ∧ ∀ d, (t.party d).dataSent = (s.party d).dataSent) ∨
      ∃ d, (t.party d).dataSent = (s.party d).dataSent ++ [0] := by
  cases a with
  -- Both ends wait for an ACK, so no call begins.
  | amilinkSendMessage d message =>
      rcases (hs d).1 with ⟨message, retry, hp⟩
      simp only [step, hp, reduceCtorEq] at h
  | amilinkReadMessage d =>
      rcases (hs d).1 with ⟨message, retry, hp⟩
      simp only [step, hp, reduceCtorEq] at h
  | amilinkHeartbeat d =>
      rcases (hs d).1 with ⟨message, retry, hp⟩
      simp only [step, hp, reduceCtorEq] at h
  | readFrame d =>
      rcases (hs d).1 with ⟨message, retry, hp⟩
      have hacks := (hs d).2
      cases hin : s.inbox d with
      | nil => simp only [step, hp, hin, reduceCtorEq] at h
      | cons f rest =>
          -- What is on its way to it is no ACK.
          rw [hin] at hacks
          have hrest : Crossed cfg (s.setInbox d rest) :=
            crossed_setInbox hs fun g hg => hacks g (List.mem_cons_of_mem f hg)
          simp only [step, hp, hin] at h
          split at h
          · rw [Option.some.injEq] at h
            rw [← h]
            exact .inl ⟨hrest, fun _ => rfl⟩
          · rw [Option.map_eq_some_iff] at h
            rcases h with ⟨r, hr, rfl⟩
            exact crossed_commit hrest (hacks f List.mem_cons_self) hr
  | timeout d =>
      simp only [step, Option.map_eq_some_iff] at h
      rcases h with ⟨r, hr, rfl⟩
      exact crossed_commit hs rfl hr
  | lose d i =>
      -- What is lost or corrupted does not become an ACK.
      simp only [step] at h
      split at h
      · rw [Option.some.injEq] at h
        rw [← h]
        refine .inl ⟨crossed_setInbox hs fun g hg => ?_, fun _ => rfl⟩
        exact (hs d).2 g (List.mem_of_mem_eraseIdx hg)
      · simp only [reduceCtorEq] at h
  | corrupt d i f =>
      simp only [step] at h
      split at h
      · rename_i hf
        rw [spoiled, Bool.and_eq_true, Bool.not_eq_true', Bool.not_eq_true'] at hf
        rw [Option.some.injEq] at h
        rw [← h]
        refine .inl ⟨crossed_setInbox hs fun g hg => ?_, fun _ => rfl⟩
        rcases List.mem_or_eq_of_mem_set hg with hg | rfl
        · exact (hs d).2 g hg
        · exact hf.2
      · simp only [reduceCtorEq] at h

/-- What an end has been told stays told. -/
theorem dataSent_extends {a : Act} (hi : Inv cfg s) (h : step cfg s a = some t) (d : Side) :
    (s.party d).dataSent <+: (t.party d).dataSent := by
  have hmoved : ∀ (u : State) (e : Side) (f : PhysicalFrame) (r : Party × List PhysicalFrame),
      u.party = s.party → Moved cfg (s.party e) f r →
        (s.party d).dataSent <+: ((u.commit e r).party d).dataSent := by
    intro u e f r hu hm
    rcases eq_or_eq_other e d with rfl | rfl
    · rw [party_commit]
      exact hm.dataSent
    · rw [party_commit_other, hu]
  cases turn_of_step hi.no_empty h with
  | own e r hm => exact hmoved s e _ r rfl hm
  | took e f rest r hin hm => exact hmoved (s.setInbox e rest) e f r rfl hm
  | faded e l hl => exact List.prefix_refl _

/-- Two messages that cross do not both get through: as long as no call has
    failed, both ends wait on, whatever they read and however often they
    send. The ACK that one of them needs can only come from the other one's
    `readMessage`, and it reads nothing but ACKs. -/
theorem crossed_fails {messages : Side → List UInt8}
    (hr : (machine cfg).Reaches (State.initial messages) s) (hs : Crossed cfg s)
    (h : (machine cfg).Reaches s t) :
    (Crossed cfg t ∧ ∀ d, (t.party d).dataSent = (s.party d).dataSent) ∨
      ∃ d, (s.party d).dataSent ++ [0] <+: (t.party d).dataSent := by
  refine Machine.invariant_of (K := Inv cfg) (I := fun t =>
    (Crossed cfg t ∧ ∀ d, (t.party d).dataSent = (s.party d).dataSent) ∨
      ∃ d, (s.party d).dataSent ++ [0] <+: (t.party d).dataSent) h
    (fun u hu => inv_of_reaches (Machine.reaches_trans hr hu)) (.inl ⟨hs, fun _ => rfl⟩) ?_
  rintro u a v hinv (⟨hu, hsent⟩ | ⟨d, hgone⟩) _ hstep
  · rcases crossed_step hu hstep with ⟨hv, hsame⟩ | ⟨d, hgone⟩
    · exact .inl ⟨hv, fun d => (hsame d).trans (hsent d)⟩
    · refine .inr ⟨d, ?_⟩
      rw [hgone, hsent]
  · exact .inr ⟨d, hgone.trans (dataSent_extends hinv hstep d)⟩

/-- One lost ACK is enough: the server has received the request, and answers
    while the device still sends it. -/
theorem crossed_fails_lost_ack : ∃ s,
    (machine sumConfig).Reaches (State.initial fun _ => []) s ∧
      (s.party .server).received = [⟨[7], true⟩] ∧ (s.party .server).calls = [[8]] ∧
      ∀ t, (machine sumConfig).Reaches s t →
        (∀ d, (t.party d).phase ≠ .idle) ∨ ∃ d, [0] <+: (t.party d).dataSent := by
  rcases Machine.reaches_of_check (M := machine sumConfig) (s := State.initial fun _ => [])
    [.amilinkSendMessage .device [7], .amilinkReadMessage .server, .readFrame .server,
      .lose .device 0, .amilinkSendMessage .server [8]]
    (fun s => decide ((s.party .server).received = [⟨[7], true⟩] ∧
      (s.party .server).calls = [[8]] ∧
      (∀ d ∈ [Side.device, .server], (s.party d).dataSent = [] ∧
        ∀ f ∈ s.inbox d, isAck sumConfig f = false) ∧
      (s.party .device).phase = .sending [7] 1 ∧ (s.party .server).phase = .sending [8] 1))
    (by decide +kernel) with ⟨s, hs, hcheck⟩
  rcases of_decide_eq_true hcheck with ⟨hreceived, hcalls, hboth, hdevice, hserver⟩
  -- There are two ends.
  have hside : ∀ d : Side, d ∈ [Side.device, .server] := by
    intro d
    cases d <;> decide
  have hcrossed : Crossed sumConfig s := by
    intro d
    refine ⟨?_, (hboth d (hside d)).2⟩
    cases d with
    | device => exact ⟨_, _, hdevice⟩
    | server => exact ⟨_, _, hserver⟩
  refine ⟨s, hs, hreceived, hcalls, fun t ht => ?_⟩
  -- Either both go on waiting, or one has given up.
  rcases crossed_fails hs hcrossed ht with ⟨hwait, _⟩ | ⟨d, hgone⟩
  · refine .inl fun d => ?_
    rcases (hwait d).1 with ⟨message, retry, hp⟩
    rw [hp]
    exact Phase.noConfusion
  · refine .inr ⟨d, ?_⟩
    rwa [(hboth d (hside d)).1] at hgone

end Duplex

end EpollServer
