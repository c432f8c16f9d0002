import EpollServer.Theory.Duplex
import EpollServer.Theory.Exchange
import EpollServer.Theory.Waiting

/-!
# The Calls of an End

An end of `Core.Duplex` makes its calls step by step, with the other end and
the faults of the connection in between. Here it is shown that these are the
calls of the code.

While an end is in a call, nothing but the frames it reads decides what it
does (`reads_of_within`), and on these frames `amilinkSendMessage` and
`amilinkReadMessage` return what the end returns. A timeout is a frame without
bytes on either side. So what was proved of all runs of a connection says
something of `amilinkGetResponse`: a response that it acknowledges is a message
that the other end has sent (`getResponse_called`).

## Main definitions

* `Act.begins`, `Within`: Steps that begin no call at an end.
* `framesOf`, `framesRead`: The frames it reads in them.
* `replyFrames`: The replies among what happened.
* `Party.sent`, `Party.got`: An end after a call.
* `EndsWith`: The reply to a message, behind other ones.

## Theorems

* `reads_append`: More frames are read after the first ones.
* `reads_of_within`: An end reads the frames of its call.
* `send_of_reads`: A call of `amilinkSendMessage` on its frames.
* `receive_of_reads`: A call of `amilinkReadMessage` on its frames.
* `getResponse_called`: A request and its response, in a run.
-/

namespace EpollServer

namespace Duplex

open Link
open Channel (isAck)

variable {cfg : Config} {s t : State} {d : Side}

/-! ### The frames of a call -/

theorem reads_nil (p : Party) : p.reads cfg [] = some (p, []) := rfl

theorem reads_heartbeat {p : Party} {f : PhysicalFrame} (hp : p.phase ≠ .idle)
    (hf : gotHeartbeat f = true) (rest : List PhysicalFrame) :
    p.reads cfg (f :: rest) = p.reads cfg rest := by
  rw [Party.reads, if_neg hp, if_pos hf]

theorem reads_take {p q : Party} {f : PhysicalFrame} {out : List PhysicalFrame}
    (hf : gotHeartbeat f = false) (hq : p.take cfg f = some (q, out))
    (rest : List PhysicalFrame) :
    p.reads cfg (f :: rest) = (q.reads cfg rest).map fun r => (r.1, out ++ r.2) := by
  have hp : p.phase ≠ .idle := by
    intro hidle
    simp only [Party.take, hidle, reduceCtorEq] at hq
  rw [Party.reads, if_neg hp, if_neg (Bool.eq_false_iff.mp hf), hq]

/-- More frames are read after the first ones. -/
theorem reads_append (frames' : List PhysicalFrame) : ∀ (frames : List PhysicalFrame) (p : Party),
    p.reads cfg (frames ++ frames') = (p.reads cfg frames).bind fun r =>
      (r.1.reads cfg frames').map fun r' => (r'.1, r.2 ++ r'.2) := by
  intro frames
  -- Induction on the frames that are read first.
  induction frames with
  | nil =>
      intro p
      simp only [List.nil_append, Party.reads, Option.bind_some, Prod.mk.eta, Option.map_id']
  | cons f frames ih =>
      intro p
      rw [List.cons_append]
      by_cases hp : p.phase = .idle
      · simp only [Party.reads, hp, if_true, Option.bind_none]
      -- A heartbeat is passed over; any other frame is taken by the party's phase.
      cases hf : gotHeartbeat f with
      | true => rw [reads_heartbeat hp hf, reads_heartbeat hp hf, ih]
      | false =>
          cases hq : p.take cfg f with
          | none => simp only [Party.reads, hp, hf, hq, if_false, Bool.false_eq_true,
              Option.bind_none]
          | some r =>
              rcases r with ⟨q, out⟩
              rw [reads_take hf hq, reads_take hf hq, ih]
              cases q.reads cfg frames with
              | none => rfl
              | some r =>
                  simp only [Option.bind_some, Option.map_some]
                  cases r.1.reads cfg frames' with
                  | none => rfl
                  | some r' => simp only [Option.map_some, List.append_assoc]

/-- An end that has returned has read all its frames. -/
theorem reads_idle {p : Party} {frames : List PhysicalFrame} {r : Party × List PhysicalFrame}
    (hp : p.phase = .idle) (h : p.reads cfg frames = some r) : frames = [] ∧ r = (p, []) := by
  cases frames with
  | nil => exact ⟨rfl, (Option.some.inj h).symm⟩
  | cons f frames =>
      rw [Party.reads, if_pos hp] at h
      exact absurd h.symm (Option.some_ne_none _)

/-- The step begins a call at an end. -/
def Act.begins (d : Side) : Act → Bool
  | .amilinkSendMessage e _ => decide (e = d)
  | .amilinkReadMessage e => decide (e = d)
  | _ => false

/-- The connection takes these steps, with any steps of the other end and any
    faults among them, and the end begins no call. -/
structure Within (cfg : Config) (d : Side) (s : State) (acts : List Act) (t : State) :
    Prop where
  run : (machine cfg).execute s acts = some t
  begins : ∀ a ∈ acts, a.begins d = false

/-- The frames that an end reads in a step. A timeout is one without bytes. -/
def framesOf (d : Side) (s : State) : Act → List PhysicalFrame
  | .readFrame e => if e = d then (s.inbox d).take 1 else []
  | .timeout e => if e = d then [.short 0] else []
  | _ => []

/-- The frames that an end reads in a run. -/
def framesRead (cfg : Config) (d : Side) (s : State) : List Act → List PhysicalFrame
  | [] => []
  | a :: rest => framesOf d s a ++ match step cfg s a with
    | none => []
    | some t => framesRead cfg d t rest

/-- A frame that ends or continues the call. -/
theorem reads_singleton {p : Party} {f : PhysicalFrame} {r : Party × List PhysicalFrame}
    (hf : gotHeartbeat f = false) (h : p.take cfg f = some r) :
    p.reads cfg [f] = some (r.1, r.2) := by
  rw [reads_take hf h, reads_nil, Option.map_some, List.append_nil]

/-- In a step an end that begins no call does nothing, or reads a frame. -/
theorem reads_step {a : Act} (ha : a.begins d = false) (h : step cfg s a = some t) :
    ∃ out, (s.party d).reads cfg (framesOf d s a) = some (t.party d, out) := by
  have hsame : framesOf d s a = [] → t.party d = s.party d →
      ∃ out, (s.party d).reads cfg (framesOf d s a) = some (t.party d, out) := by
    intro hnone heq
    rw [hnone, heq]
    exact ⟨[], rfl⟩
  cases a with
  | amilinkSendMessage e message =>
      simp only [step] at h
      split at h
      · rcases eq_or_eq_other e d with rfl | rfl
        · simp only [Act.begins, decide_true, Bool.true_eq_false] at ha
        · rw [← Option.some.inj h, party_commit_other] at hsame ⊢
          exact hsame rfl rfl
      · simp only [reduceCtorEq] at h
  | amilinkReadMessage e =>
      simp only [step] at h
      split at h
      · rcases eq_or_eq_other e d with rfl | rfl
        · simp only [Act.begins, decide_true, Bool.true_eq_false] at ha
        · rw [← Option.some.inj h, party_commit_other] at hsame ⊢
          exact hsame rfl rfl
      · simp only [reduceCtorEq] at h
  | amilinkHeartbeat e =>
      simp only [step] at h
      split at h
      · refine hsame rfl ?_
        rw [← Option.some.inj h]
        rcases eq_or_eq_other e d with rfl | rfl
        · exact party_commit s d _
        · exact party_commit_other s e _
      · simp only [reduceCtorEq] at h
  | readFrame e =>
      simp only [step] at h
      split at h
      · simp only [reduceCtorEq] at h
      · simp only [reduceCtorEq] at h
      · rename_i f rest hin hp
        have hother : d = e.other → framesOf d s (.readFrame e) = [] := fun he =>
          if_neg (he ▸ (other_ne e).symm)
        cases hf : gotHeartbeat f with
        | true =>
            rw [hf, if_pos rfl] at h
            rw [← Option.some.inj h, party_setInbox] at hsame ⊢
            rcases eq_or_eq_other e d with rfl | rfl
            · refine ⟨[], ?_⟩
              rw [framesOf, if_pos rfl, hin]
              exact (reads_heartbeat hp hf []).trans (reads_nil _)
            · exact hsame (hother rfl) rfl
        | false =>
            rw [hf, if_neg Bool.false_ne_true, Option.map_eq_some_iff] at h
            rcases h with ⟨r, hr, rfl⟩
            rcases eq_or_eq_other e d with rfl | rfl
            · refine ⟨r.2, ?_⟩
              rw [framesOf, if_pos rfl, hin, party_commit]
              exact reads_singleton hf hr
            · exact hsame (hother rfl) (party_commit_other _ e r)
  | timeout e =>
      simp only [step, Option.map_eq_some_iff] at h
      rcases h with ⟨r, hr, rfl⟩
      -- A timeout is read like a frame that is too short.
      rcases eq_or_eq_other e d with rfl | rfl
      · refine ⟨r.2, ?_⟩
        rw [framesOf, if_pos rfl, party_commit]
        exact reads_singleton rfl hr
      · exact hsame (if_neg (other_ne e).symm) (party_commit_other _ e r)
  | lose e i =>
      simp only [step] at h
      split at h
      · refine hsame rfl ?_
        rw [← Option.some.inj h]
        rfl
      · simp only [reduceCtorEq] at h
  | corrupt e i f =>
      simp only [step] at h
      split at h
      · refine hsame rfl ?_
        rw [← Option.some.inj h]
        rfl
      · simp only [reduceCtorEq] at h

/-- What an end does in a call that is under way depends on the frames it reads
    only, whatever happens around it. -/
theorem reads_of_within {acts : List Act} (h : Within cfg d s acts t) :
    ∃ out, (s.party d).reads cfg (framesRead cfg d s acts) = some (t.party d, out) := by
  -- Induction on the acts: the frames read in the first, then those of the rest.
  induction acts generalizing s with
  | nil =>
      rw [← Option.some.inj h.run]
      exact ⟨[], rfl⟩
  | cons a rest ih =>
      rcases h with ⟨hrun, hbegins⟩
      rw [List.forall_mem_cons] at hbegins
      simp only [Machine.execute, machine] at hrun
      cases hstep : step cfg s a with
      | none => simp only [hstep, reduceCtorEq] at hrun
      | some u =>
          simp only [hstep] at hrun
          rcases reads_step hbegins.1 hstep with ⟨out, hfirst⟩
          rcases ih ⟨hrun, hbegins.2⟩ with ⟨out', hrest⟩
          refine ⟨out ++ out', ?_⟩
          rw [framesRead, hstep, reads_append, hfirst, Option.bind_some, hrest, Option.map_some]

/-! ### The code on these frames -/

/-- The frames of the replies among what happened. -/
def replyFrames (log : List Event) : List PhysicalFrame :=
  log.filterMap fun
    | .sendHeader h => some (.whole h [])
    | .modifyEpollEvent _ => none

theorem replyFrames_append (log log' : List Event) :
    replyFrames (log ++ log') = replyFrames log ++ replyFrames log' := List.filterMap_append

theorem replyFrames_replyEvents (reply : Option Cmd) :
    replyFrames (replyEvents cfg reply) =
      reply.toList.map fun cmd => .whole (replyHeader cfg cmd) [] := by
  cases reply <;> rfl

theorem readFrame_heartbeat {f : PhysicalFrame} {rest : List PhysicalFrame} {link : Link.State}
    (hf : gotHeartbeat f = true) (hin : link.input = f :: rest) :
    Link.readFrame cfg link = Link.readFrame cfg { link with input := rest } := by
  simp only [Link.readFrame, hin, skipHeartbeats, hf, if_true]

theorem readFrame_cons (hloss : cfg.losePacketInterval ≤ 0) {f : PhysicalFrame}
    {rest : List PhysicalFrame} {link : Link.State} (hf : gotHeartbeat f = false)
    (hin : link.input = f :: rest) :
    Link.readFrame cfg link = some (f, { link with input := rest }) := by
  simp only [Link.readFrame, hin, skipHeartbeats, hf, Bool.false_eq_true, if_false,
    if_neg (Int.not_lt.mpr hloss)]

theorem replyFrames_awaiting (x : Transfer.Sender) :
    replyFrames x.awaiting.log = replyFrames x.link.log := by
  rw [Transfer.Sender.awaiting, replyFrames_append, replyFrames_append]
  exact (List.append_nil _).trans (List.append_nil _)

/-- An end that has sent so many copies of a message, and has returned. -/
def Party.sent (p : Party) (message : List UInt8) (k n : Nat) : Party :=
  { p with
    phase := .idle
    transmitted := p.transmitted ++ List.replicate k message
    dataSent := p.dataSent ++ [n] }

/-- The rest of `linkSendRetry`, from the sending of a frame on, on the frames
    that the end reads. The induction is on the frames. -/
theorem sendRetry_of_reads {L : Transfer.Layout} (hloss : L.losePacketInterval ≤ 0)
    {m message : List UInt8} {length : UInt16} (hmessage : m.take length.toNat = message)
    (hlen : message.length = length.toNat) {q : Party} (hq : q.phase = .idle) :
    ∀ (frames : List PhysicalFrame) (retry attempts : Nat) (p : Party)
      (out rest : List PhysicalFrame) (x : Transfer.Sender),
      retry + attempts = L.retryMax → p.phase = .sending message retry →
      p.reads L.toConfig frames = some (q, out) → x.link.input = frames ++ rest →
      ∃ (k : Nat) (n : UInt16) (y : Transfer.Sender),
        (Link.linkSendData (Transfer.port L) m length x).bind (fun r =>
          Link.sendRetry (Transfer.port L) m length attempts r.1 r.2) = some (n, y) ∧
        y.link.input = rest ∧ q = p.sent message k n.toNat ∧
        out = List.replicate k (dataFrame L.toConfig message) ∧
        y.sent = x.sent ++ List.replicate (k + 1) (L.dataBuffer message) ∧
        replyFrames y.link.log = replyFrames x.link.log := by
  intro frames
  induction frames with
  | nil =>
      intro retry attempts p out rest x _ hp h _
      rw [reads_nil, Option.some.injEq, Prod.mk.injEq] at h
      rw [← h.1, hp] at hq
      exact absurd hq Phase.noConfusion
  | cons f frames ih =>
      intro retry attempts p out rest x hretry hp h hin
      have hbusy : p.phase ≠ .idle := by
        rw [hp]
        exact Phase.noConfusion
      have hwait : x.awaiting.input = f :: (frames ++ rest) := hin
      cases hf : gotHeartbeat f with
      | true =>
          -- The loop of `readFrame` takes it, in the same attempt.
          rw [reads_heartbeat hbusy hf] at h
          have hnext := ih retry attempts p out rest
            { x with link := { x.link with input := frames ++ rest } } hretry hp h rfl
          have hskip : Link.readFrame L.toConfig x.awaiting = _ := readFrame_heartbeat hf hwait
          rw [Transfer.linkSendData_eq] at hnext ⊢
          rw [hskip]
          exact hnext
      | false =>
          rw [Transfer.linkSendData_eq, readFrame_cons hloss hf hwait, Option.map_some,
            Option.bind_some]
          have htake : p.take L.toConfig f = some (linkSendRetry L.toConfig p message retry
              (if isAck L.toConfig f then length else 0).toNat) := by
            rw [Party.take, hp]
            simp only [readAck, hlen]
            cases isAck L.toConfig f with
            | true => rfl
            | false => rfl
          change ∃ (k : Nat) (n : UInt16) (y : Transfer.Sender),
            Link.sendRetry (Transfer.port L) m length attempts
              (if isAck L.toConfig f then length else 0) ⟨{ x.awaiting with
                input := frames ++ rest }, _⟩ = some (n, y) ∧ _
          generalize (if isAck L.toConfig f = true then length else 0) = n₁ at htake ⊢
          by_cases hmore : retry < L.retryMax ∧ message.length ≠ n₁.toNat
          · -- The loop sends the message once more.
            rw [linkSendRetry, if_pos hmore] at htake
            rw [reads_take hf htake, Option.map_eq_some_iff] at h
            rcases h with ⟨⟨q', out'⟩, hreads, hpair⟩
            rw [Prod.mk.injEq] at hpair
            rcases hpair with ⟨rfl, rfl⟩
            rcases Nat.exists_eq_succ_of_ne_zero (n := attempts) (by omega) with ⟨attempts, rfl⟩
            have hne : length ≠ n₁ := by
              intro h0
              rw [h0] at hlen
              exact hmore.2 hlen
            rcases ih (retry + 1) attempts _ out' rest ⟨{ x.awaiting with
              input := frames ++ rest }, x.sent ++ [L.dataBuffer (m.take length.toNat)]⟩
              (by omega) rfl hreads rfl with ⟨k, n, y, hcode, hrest, hq', hout, hsent, hlog⟩
            refine ⟨k + 1, n, y, ?_, hrest, ?_, ?_, ?_, ?_⟩
            · rw [Link.sendRetry, if_neg hne]
              exact hcode
            · rw [hq', Party.sent, Party.sent, List.append_assoc, List.replicate_succ,
                List.singleton_append]
            · rw [hout, List.singleton_append, List.replicate_succ]
            · rw [hsent, hmessage, List.append_assoc, List.singleton_append, ← List.replicate_succ]
            · rw [hlog, replyFrames_awaiting]
          · -- It was acknowledged, or no attempt is left.
            rw [linkSendRetry, if_neg hmore] at htake
            rw [reads_take hf htake, Option.map_eq_some_iff] at h
            rcases h with ⟨⟨q', out'⟩, hreads, hpair⟩
            rw [Prod.mk.injEq] at hpair
            rcases reads_idle rfl hreads with ⟨rfl, hend⟩
            rw [Prod.mk.injEq] at hend
            rw [hend.1, hend.2, List.nil_append] at hpair
            refine ⟨0, n₁, ⟨{ x.awaiting with input := [] ++ rest },
              x.sent ++ [L.dataBuffer (m.take length.toNat)]⟩, ?_, rfl, ?_, hpair.2.symm, ?_, ?_⟩
            · cases attempts with
              | zero => rfl
              | succ attempts =>
                  have heq : length = n₁ := by
                    by_contra hne
                    refine hmore ⟨by omega, fun h0 => hne ?_⟩
                    exact UInt16.toNat_inj.mp (hlen.symm.trans h0)
                  rw [Link.sendRetry, if_pos heq]
                  rfl
            · rw [← hpair.1, Party.sent, List.replicate_zero, List.append_nil]
            · rw [hmessage]
              rfl
            · exact replyFrames_awaiting x

/-- A call of `amilinkSendMessage`, from its beginning on. -/
theorem send_of_reads {L : Transfer.Layout} (hloss : L.losePacketInterval ≤ 0)
    {request message : List UInt8}
    (hmessage : request.take (L.messageLength request).toUInt16.toNat = message)
    (hlen : message.length = (L.messageLength request).toUInt16.toNat) {p q : Party}
    {frames out rest : List PhysicalFrame} {x : Transfer.Sender}
    (h : (amilinkSendMessage L.toConfig p message).1.reads L.toConfig frames = some (q, out))
    (hq : q.phase = .idle) (hin : x.link.input = frames ++ rest) :
    ∃ (k : Nat) (n : UInt16) (y : Transfer.Sender), Transfer.send L request x = some (n, y) ∧
      y.link.input = rest ∧
      q = ({ p with calls := p.calls ++ [message] } : Party).sent message k n.toNat ∧
      y.sent = x.sent ++ List.replicate k (L.dataBuffer message) ∧
      replyFrames y.link.log = replyFrames x.link.log := by
  change ∃ (k : Nat) (n : UInt16) (y : Transfer.Sender), Link.sendRetry (Transfer.port L) request
    (L.messageLength request).toUInt16 L.retryMax 0 x = some (n, y) ∧ _
  -- Without a retry or a message `sendRetry` returns at once, on both sides.
  by_cases hmore : 0 < L.retryMax ∧ message.length ≠ 0
  · rw [amilinkSendMessage, linkSendRetry, if_pos hmore] at h
    rcases Nat.exists_eq_succ_of_ne_zero (n := L.retryMax) (by omega) with ⟨attempts, hattempts⟩
    rcases sendRetry_of_reads hloss hmessage hlen hq frames 1 attempts _ out rest x (by omega)
      rfl h hin with ⟨k, n, y, hcode, hrest, hq', _, hsent, hlog⟩
    refine ⟨k + 1, n, y, ?_, hrest, ?_, hsent, hlog⟩
    · have hne : (L.messageLength request).toUInt16 ≠ 0 := by
        intro h0
        rw [h0] at hlen
        exact hmore.2 hlen
      rw [hattempts, Transfer.sendRetry_succ request hne]
      exact hcode
    · rw [hq', Party.sent, Party.sent, List.append_assoc, List.replicate_succ,
        List.singleton_append]
  · -- Nothing is sent.
    rw [amilinkSendMessage, linkSendRetry, if_neg hmore] at h
    rcases reads_idle rfl h with ⟨rfl, hend⟩
    refine ⟨0, 0, x, ?_, hin, ?_, (List.append_nil _).symm, rfl⟩
    · cases hattempts : L.retryMax with
      | zero => rfl
      | succ attempts =>
          have hzero : (L.messageLength request).toUInt16 = 0 := by
            by_contra hne
            refine hmore ⟨by omega, fun h0 => hne ?_⟩
            exact UInt16.toNat_inj.mp (hlen.symm.trans h0)
          rw [Link.sendRetry, if_pos hzero]
          rfl
    · rw [(Prod.mk.inj hend).1, Party.sent, List.replicate_zero, List.append_nil]
      rfl

/-- An end that has read so many bytes of a message, and has returned. -/
def Party.got (p : Party) (message : List UInt8) (messageLength : Nat) (acknowledged : Bool) :
    Party :=
  { p with
    phase := .idle
    message := message
    received := p.received ++
      if messageLength = 0 then [] else [⟨message.take messageLength, acknowledged⟩] }

theorem readMessage_got (p : Party) (retry : Nat) (f : PhysicalFrame) :
    (readMessage cfg p retry f).1 =
      { p.got (handleFrame cfg p.message f).2.1 (handleFrame cfg p.message f).1
          (decide ((handleFrame cfg p.message f).2.2 = some .ack)) with
        phase := if retry + 1 < cfg.retryMax ∧ (handleFrame cfg p.message f).1 = 0
          then .reading (retry + 1) else .idle } := by
  by_cases hzero : (handleFrame cfg p.message f).1 = 0
  · simp only [readMessage, Party.got, hzero, if_true, List.append_nil]
  · simp only [readMessage, Party.got, hzero, if_false]

/-- The frames end with the reply to a message. -/
def EndsWith (cfg : Config) (frames : List PhysicalFrame) (acknowledged : Bool) : Prop :=
  ∃ front, frames =
    front ++ [.whole (replyHeader cfg (if acknowledged then .ack else .nack)) []]

theorem endsWith_append {frames : List PhysicalFrame} {acknowledged : Bool}
    (front : List PhysicalFrame) (h : EndsWith cfg frames acknowledged) :
    EndsWith cfg (front ++ frames) acknowledged := by
  rcases h with ⟨front', rfl⟩
  exact ⟨front ++ front', (List.append_assoc _ _ _).symm⟩

/-- A frame with a message is replied to. -/
theorem endsWith_readMessage {p : Party} (retry : Nat) {f : PhysicalFrame}
    (h : (handleFrame cfg p.message f).1 ≠ 0) :
    EndsWith cfg (readMessage cfg p retry f).2
      (decide ((handleFrame cfg p.message f).2.2 = some .ack)) := by
  cases f with
  | short rawLength => exact absurd rfl h
  | whole header data =>
      refine ⟨[], ?_⟩
      rw [handleFrame] at h
      -- Only a frame with a message has a length, and the reply says whether it was whole.
      by_cases hcmd : header.cmd = .data
      · by_cases hcrc : header.crc16 = cfg.calcCrc16 data cfg.seed
        · simp only [readMessage, handleFrame, if_pos hcmd, if_pos hcrc, decide_true, if_true,
            Option.toList_some, List.map_cons, List.map_nil, List.nil_append]
        · simp only [readMessage, handleFrame, if_pos hcmd, if_neg hcrc, Option.some.injEq,
            reduceCtorEq, decide_false, Bool.false_eq_true, if_false, Option.toList_some,
            List.map_cons, List.map_nil, List.nil_append]
      · rw [if_neg hcmd] at h
        exact absurd rfl h

/-- The rest of `amilinkReadMessage`, on the frames that the end reads. The
    induction is on the frames. -/
theorem readRetry_of_reads (hloss : cfg.losePacketInterval ≤ 0) {q : Party}
    (hq : q.phase = .idle) : ∀ (frames : List PhysicalFrame) (retry attempts : Nat) (p : Party)
      (out rest : List PhysicalFrame) (link : Link.State),
      retry + (attempts + 1) = cfg.retryMax → p.phase = .reading retry →
      p.reads cfg frames = some (q, out) → link.input = frames ++ rest →
      ∃ (n : Nat) (message' : List UInt8) (acknowledged : Bool) (link' : Link.State),
        readRetry cfg (attempts + 1) p.message link = some (n, message', link') ∧
        link'.input = rest ∧ q = p.got message' n acknowledged ∧
        replyFrames link'.log = replyFrames link.log ++ out ∧
        (n ≠ 0 → EndsWith cfg out acknowledged) := by
  -- Induction on the frames; the attempts go down with each frame that has no message.
  intro frames
  induction frames with
  | nil =>
      intro retry attempts p out rest link _ hp h _
      rw [reads_nil, Option.some.injEq, Prod.mk.injEq] at h
      rw [← h.1, hp] at hq
      exact absurd hq Phase.noConfusion
  | cons f frames ih =>
      intro retry attempts p out rest link hretry hp h hin
      have hbusy : p.phase ≠ .idle := by
        rw [hp]
        exact Phase.noConfusion
      cases hf : gotHeartbeat f with
      | true =>
          rw [reads_heartbeat hbusy hf] at h
          have hnext := ih retry attempts p out rest { link with input := frames ++ rest }
            hretry hp h rfl
          rw [readRetry, Link.readMessage] at hnext ⊢
          rw [readFrame_heartbeat hf hin]
          exact hnext
      | false =>
          have htake : p.take cfg f =
              some ((readMessage cfg p retry f).1, (readMessage cfg p retry f).2) := by
            rw [Party.take, hp]
          have hread := readMessage_some p.message (readFrame_cons hloss hf hin)
          rw [reads_take hf htake, Option.map_eq_some_iff] at h
          rcases h with ⟨⟨q', out'⟩, hreads, hpair⟩
          rw [Prod.mk.injEq] at hpair
          rcases hpair with ⟨rfl, rfl⟩
          let link₁ : Link.State := { link with
            input := frames ++ rest
            log := link.log ++ replyEvents cfg (handleFrame cfg p.message f).2.2 }
          have hlog : replyFrames link₁.log =
              replyFrames link.log ++ (readMessage cfg p retry f).2 := by
            rw [replyFrames_append, replyFrames_replyEvents]
            rfl
          by_cases hmore : retry + 1 < cfg.retryMax ∧ (handleFrame cfg p.message f).1 = 0
          · -- Nothing was read, and the loop goes on.
            have hphase : (readMessage cfg p retry f).1.phase = .reading (retry + 1) :=
              if_pos hmore
            rcases Nat.exists_eq_succ_of_ne_zero (n := attempts) (by omega) with ⟨attempts, rfl⟩
            rcases ih (retry + 1) attempts _ out' rest link₁ (by omega) hphase hreads rfl with
              ⟨n, message', acknowledged, link', hcode, hrest, hq', hlog', hreply⟩
            refine ⟨n, message', acknowledged, link', ?_, hrest, ?_, ?_, fun hn =>
              endsWith_append _ (hreply hn)⟩
            · rw [readRetry, hread]
              simp only [hmore.2, if_true]
              exact hcode
            · rw [hq', readMessage_got]
              simp only [Party.got, hmore.2, if_true, List.append_nil]
            · rw [hlog', hlog, List.append_assoc]
          · have hphase : (readMessage cfg p retry f).1.phase = .idle := if_neg hmore
            rcases reads_idle hphase hreads with ⟨rfl, hend⟩
            rcases Prod.mk.inj hend with ⟨rfl, rfl⟩
            rw [List.append_nil]
            refine ⟨(handleFrame cfg p.message f).1, (handleFrame cfg p.message f).2.1,
              decide ((handleFrame cfg p.message f).2.2 = some .ack), link₁, ?_, rfl, ?_, ?_,
              fun hn => ?_⟩
            · rw [readRetry, hread]
              by_cases hzero : (handleFrame cfg p.message f).1 = 0
              · -- It was the last attempt.
                rcases Nat.eq_zero_of_not_pos (n := attempts) (fun hpos =>
                  hmore ⟨by omega, hzero⟩) with rfl
                simp only [hzero, if_true, readRetry]
                rfl
              · simp only [hzero, if_false]
                rfl
            · rw [readMessage_got, if_neg hmore]
              rfl
            · exact hlog
            · exact endsWith_readMessage retry hn

/-- A call of `amilinkReadMessage`, from its beginning on. -/
theorem receive_of_reads {L : Transfer.Layout} (hloss : L.losePacketInterval ≤ 0)
    (hmax : 0 < L.retryMax) {p q : Party} {frames out rest : List PhysicalFrame}
    {link : Link.State}
    (h : (amilinkReadMessage L.toConfig p).reads L.toConfig frames = some (q, out))
    (hq : q.phase = .idle) (hin : link.input = frames ++ rest) :
    ∃ (n : Nat) (acknowledged : Bool) (link' : Link.State),
      Transfer.receive L p.message link = some (n, q.message, link') ∧ link'.input = rest ∧
      q.received = p.received ++ (if n = 0 then [] else [⟨q.message.take n, acknowledged⟩]) ∧
      replyFrames link'.log = replyFrames link.log ++ out ∧
      (n ≠ 0 → EndsWith L.toConfig out acknowledged) := by
  rw [amilinkReadMessage, if_pos hmax] at h
  rcases Nat.exists_eq_succ_of_ne_zero (Nat.ne_of_gt hmax) with ⟨attempts, hattempts⟩
  rcases readRetry_of_reads hloss hq frames 0 attempts _ out rest link
    (by rw [hattempts, Nat.zero_add]) rfl h hin with
    ⟨n, message', acknowledged, link', hcode, hrest, rfl, hlog, hreply⟩
  refine ⟨n, acknowledged, link', ?_, hrest, rfl, hlog, hreply⟩
  rw [Transfer.receive, Link.amilinkReadMessage, hattempts]
  exact hcode

/-! ### A request and its response -/

/-- A message that is reported as sent was sent in an attempt. -/
theorem retryMax_pos_of_send {L : Transfer.Layout} {request : List UInt8}
    {x y : Transfer.Sender} {n : UInt16} (h : Transfer.send L request x = some (n, y))
    (hn : 0 < n) : 0 < L.retryMax := by
  refine Nat.pos_of_ne_zero fun h0 => ?_
  change Link.sendRetry (Transfer.port L) request _ L.retryMax 0 x = _ at h
  rw [h0, Link.sendRetry] at h
  rw [← (Prod.mk.inj (Option.some.inj h)).1] at hn
  exact absurd hn (by decide)

/-- An end that can begin a call is in none. -/
theorem sendMessage_some {message : List UInt8}
    (h : step cfg s (.amilinkSendMessage d message) = some t) :
    t.party d = (amilinkSendMessage cfg (s.party d) message).1 := by
  simp only [step] at h
  split at h
  · rw [← Option.some.inj h, party_commit]
  · exact absurd h.symm (Option.some_ne_none _)

theorem readMessage_idle (h : step cfg s (.amilinkReadMessage d) = some t) :
    (s.party d).phase = .idle ∧ t.party d = amilinkReadMessage cfg (s.party d) := by
  simp only [step] at h
  split at h
  · rename_i hp
    rw [← Option.some.inj h, party_commit]
    exact ⟨hp, rfl⟩
  · exact absurd h.symm (Option.some_ne_none _)

theorem reaches_of_within {acts : List Act} (h : Within cfg d s acts t) :
    (machine cfg).Reaches s t :=
  Machine.reaches_of_execute acts s t h.run

/-- An end sends a request, which is reported as sent, and reads a response,
    while anything happens around it. Then on the frames it has read in the run
    `amilinkGetResponse` returns what the end has, and leaves what follows them;
    and if the last reply to them is an ACK, what it returns is a message that
    the other end has called `amilinkSendMessage` with. -/
theorem getResponse_called {L : Transfer.Layout} (hloss : L.losePacketInterval ≤ 0)
    {messages : Side → List UInt8} {s s₁ t₁ s₂ t : State} {acts₁ acts₂ : List Act}
    {request message : List UInt8} {n : Nat}
    (hr : (machine L.toConfig).Reaches (State.initial messages) s)
    (hsend : step L.toConfig s (.amilinkSendMessage d message) = some s₁)
    (h₁ : Within L.toConfig d s₁ acts₁ t₁)
    (hsent : (t₁.party d).dataSent = (s.party d).dataSent ++ [n]) (hn : 0 < n)
    (hread : step L.toConfig t₁ (.amilinkReadMessage d) = some s₂)
    (h₂ : Within L.toConfig d s₂ acts₂ t) (hidle : (t.party d).phase = .idle)
    (hmessage : request.take (L.messageLength request).toUInt16.toNat = message)
    (hlen : message.length = (L.messageLength request).toUInt16.toNat) :
    ∀ (x : Transfer.Sender) (rest : List PhysicalFrame),
      x.link.input = framesRead L.toConfig d s₁ acts₁ ++
        (framesRead L.toConfig d s₂ acts₂ ++ rest) →
      ∃ (messageLength : Nat) (acknowledged : Bool) (y : Transfer.Sender)
        (out : List PhysicalFrame),
        Transfer.amilinkGetResponse L request (s.party d).message x =
          some ((messageLength, (t.party d).message), y) ∧
        y.link.input = rest ∧ replyFrames y.link.log = replyFrames x.link.log ++ out ∧
        (messageLength ≠ 0 → EndsWith L.toConfig out acknowledged ∧
          Received.mk ((t.party d).message.take messageLength) acknowledged ∈
            (t.party d).received ∧
          (acknowledged = true →
            (t.party d).message.take messageLength ∈ (t.party d.other).calls)) := by
  intro x rest hin
  rcases reads_of_within h₁ with ⟨out₁, hframes₁⟩
  rcases reads_of_within h₂ with ⟨out₂, hframes₂⟩
  rcases readMessage_idle hread with ⟨hidle₁, hbegun⟩
  rw [sendMessage_some hsend] at hframes₁
  rw [hbegun] at hframes₂
  have hreach₁ : (machine L.toConfig).Reaches (State.initial messages) t₁ :=
    Machine.reaches_trans (Machine.reaches_step (a := .amilinkSendMessage d message) hr hsend)
      (reaches_of_within h₁)
  have hreach : (machine L.toConfig).Reaches (State.initial messages) t :=
    Machine.reaches_trans (Machine.reaches_step (a := .amilinkReadMessage d) hreach₁ hread)
      (reaches_of_within h₂)
  rcases send_of_reads hloss hmessage hlen hframes₁ hidle₁ hin with
    ⟨k, n₁, z, hcode₁, hrest₁, hq₁, _, hlog₁⟩
  have hn₁ : 0 < n₁ := by
    rw [hq₁, Party.sent, List.append_cancel_left_eq, List.singleton_inj] at hsent
    exact UInt16.lt_iff_toNat_lt.mpr (hsent ▸ hn)
  rcases receive_of_reads hloss (retryMax_pos_of_send hcode₁ hn₁) hframes₂ hidle hrest₁ with
    ⟨messageLength, acknowledged, link', hcode₂, hrest₂, hreceived, hlog₂, hreply⟩
  have hbuffer : (t₁.party d).message = (s.party d).message := by
    rw [hq₁]
    rfl
  refine ⟨messageLength, acknowledged, { z with link := link' }, out₂, ?_, hrest₂, ?_,
    fun hne => ?_⟩
  · rw [← hbuffer]
    exact Transfer.amilinkGetResponse_some hcode₁ hn₁ hcode₂
  · rw [hlog₂, hlog₁]
  · have hmem : Received.mk ((t.party d).message.take messageLength) acknowledged ∈
        (t.party d).received := by
      rw [hreceived, if_neg hne]
      exact List.mem_append_right _ (List.mem_singleton_self _)
    refine ⟨hreply hne, hmem, ?_⟩
    rintro rfl
    exact ((accounted_of_reaches hreach d).1 _ hmem).1

/-- The server reads a request and acknowledges it, and sends a heartbeat and a
    response. -/
def serverAnswers : List Act :=
  [.amilinkReadMessage .server, .readFrame .server, .readFrame .device,
    .amilinkHeartbeat .server, .amilinkSendMessage .server [9]]

/-- The device has sent a request, and reads the ACK, the heartbeat and the
    response. -/
theorem getResponse_called_once :
    ∃ (t : State) (frames : List PhysicalFrame), frames.length = 3 ∧
      (t.party .device).message = [9] ∧
      ∀ (x : Transfer.Sender) (rest : List PhysicalFrame), x.link.input = frames ++ rest →
        ∃ (messageLength : Nat) (y : Transfer.Sender),
          Transfer.amilinkGetResponse Transfer.slipLayout [5] [] x =
            some ((messageLength, [9]), y) ∧ y.link.input = rest := by
  let cfg := Transfer.slipLayout.toConfig
  let M := machine cfg
  let s : State := State.initial fun _ => []
  let s₁ := s.commit .device (amilinkSendMessage cfg (s.party .device) [5])
  let acts₂ : List Act := [.readFrame .device, .readFrame .device]
  -- The run is checked in two parts, one for each call.
  have hrun : ((M.execute s₁ serverAnswers).bind fun t₁ =>
      (M.step t₁ (.amilinkReadMessage .device)).bind fun s₂ => (M.execute s₂ acts₂).map fun t =>
        decide ((t₁.party .device).dataSent = [1] ∧ (t.party .device).phase = .idle ∧
          (t.party .device).message = [9] ∧
          (framesRead cfg .device s₁ serverAnswers ++
            framesRead cfg .device s₂ acts₂).length = 3)) = some true := by decide +kernel
  rcases Option.bind_eq_some_iff.mp hrun with ⟨t₁, h₁, hrest⟩
  rcases Option.bind_eq_some_iff.mp hrest with ⟨s₂, hread, hrest⟩
  rcases Option.map_eq_some_iff.mp hrest with ⟨t, h₂, hcheck⟩
  rcases of_decide_eq_true hcheck with ⟨hsent, hidle, hmessage, hframes⟩
  refine ⟨t, _, hframes, hmessage, fun x rest hin => ?_⟩
  rw [List.append_assoc] at hin
  have hlength : ([5] : List UInt8).length =
      (Transfer.slipLayout.messageLength [5]).toUInt16.toNat := by decide
  rcases getResponse_called (L := Transfer.slipLayout) (s := s) (n := 1) (by decide)
    (Machine.reaches_refl s) rfl ⟨h₁, by decide⟩ hsent Nat.one_pos hread ⟨h₂, by decide⟩ hidle rfl
    hlength x rest hin with ⟨messageLength, _, y, _, hcode, hrest, _⟩
  rw [hmessage] at hcode
  exact ⟨messageLength, y, hcode, hrest⟩

end Duplex

end EpollServer
