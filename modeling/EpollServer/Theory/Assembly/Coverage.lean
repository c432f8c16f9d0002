import EpollServer.Theory.Assembly.Header

/-!
# What a Stored Transfer Consists of

Which bytes of a stored transfer its blocks have brought.

A transfer is complete as soon as a block ends at its total length. No block
is asked whether those before it have arrived, and nothing in the program
keeps the ranges that have. So `Transfer` keeps them next to the session: the
pieces copied since the last block at offset 0, newest first, and what the
buffer held when that block got it.

The buffer is always the result of these writes (`Recorded`). Every byte is
that of the newest piece over it, and a byte that no piece covers is whatever
`realloc` left there. None is left if no block starts behind the furthest end
of the earlier ones, which is how a client sends that waits for its
acknowledges.

## Main definitions

* `Transfer`: A session with the pieces of its transfer.
* `Transfer.push`: The pieces after a block.
* `transfers`: A connection with its transfer as a machine.
* `Recorded`: The buffer is the result of the recorded writes.

## Theorems

* `session_of_transfers`: The record has no effect on the session.
* `recorded_receive`: A copied block is recorded.
* `committed_complete`: What a stored transfer consists of.
* `committed_with_gap`: A stored transfer with bytes that were never sent.
-/

namespace EpollServer

namespace Push

open Splice

variable {ν : Type}

/-- A session with the pieces of its transfer. -/
structure Transfer (ν : Type) where
  session : Session ν
  /-- What the buffer held when the block at offset 0 had got it. -/
  base : List UInt8
  /-- The pieces copied since, that block included, newest first. -/
  pieces : List (Piece UInt8)
  deriving DecidableEq

/-- A new connection. -/
def Transfer.opened (ν : Type) : Transfer ν :=
  { session := Session.opened ν, base := [], pieces := [] }

/-- The record after a block, which starts a new one at offset 0. -/
def Transfer.push (L : Layout ν) (env : Environment) (a : Transfer ν)
    (block : MqsCldFile L.payloadMax) : List UInt8 × List (Piece UInt8) :=
  match checkAssemblyBuffer L env block a.session with
  | .ok true t =>
      if block.offset = 0 then (t.rawDataSetAssemblyBuffer.getD [], [block.piece])
      else (a.base, block.piece :: a.pieces)
  | .ok false _ => (a.base, a.pieces)
  | .error _ _ => (a.base, a.pieces)

/-- A request, and the pieces after it. -/
def transferStep (L : Layout ν) (env : Environment) (a : Transfer ν) (r : Request L) :
    Option (Transfer ν) :=
  match sessionStep L env a.session r with
  | none => none
  | some t => match r with
    | .rawDataPush block =>
        some { session := t, base := (a.push L env block).1, pieces := (a.push L env block).2 }
    | _ => some { a with session := t }

/-- A connection with its transfer as a machine. -/
def transfers (L : Layout ν) (env : Environment) : Machine (Transfer ν) (Request L) :=
  { step := transferStep L env }

/-- A buffer is the result of writing the pieces, which fit, over the base, and
    the first of them starts at offset 0. -/
structure Written (buffer base : List UInt8) (pieces : List (Piece UInt8)) : Prop where
  length : base.length = buffer.length
  fits : ∀ p ∈ pieces, p.stop ≤ base.length
  writes : buffer = writes base pieces
  first : ∃ p, pieces.getLast? = some p ∧ p.offset = 0

/-- The buffer, if there is one, is the result of the recorded writes. -/
def Recorded (a : Transfer ν) : Prop :=
  ∀ buffer, a.session.rawDataSetAssemblyBuffer = some buffer → Written buffer a.base a.pieces

/-- The record has no effect on the session. -/
theorem session_step (L : Layout ν) (env : Environment) (a b : Transfer ν) (r : Request L)
    (h : (transfers L env).step a r = some b) :
    (sessions L env).step a.session r = some b.session := by
  simp only [transfers, transferStep] at h
  cases hs : sessionStep L env a.session r with
  | none => simp only [hs, reduceCtorEq] at h
  | some t =>
      rw [hs] at h
      have hb : b.session = t := by
        cases r with
        | rawDataPush block =>
            simp only [Option.some.injEq] at h
            rw [← h]
        | dataLogPush | deviceRegister | goodbye | rawDataRequired | other =>
            simp only [Option.some.injEq] at h
            rw [← h]
      rw [hb]
      exact hs

theorem session_of_transfers (L : Layout ν) (env : Environment) (a b : Transfer ν)
    (h : (transfers L env).Reaches a b) : (sessions L env).Reaches a.session b.session := by
  induction h with
  | refl => exact Machine.reaches_refl a.session
  | step v w r _ _ hstep ih => exact Machine.reaches_step ih (session_step L env v w r hstep)

/-- A piece that fits is recorded by one more write. -/
theorem written_cons (buffer base : List UInt8) (pieces : List (Piece UInt8)) (p : Piece UInt8)
    (h : Written buffer base pieces) (hp : p.stop ≤ buffer.length) :
    Written (splice buffer p.data p.offset) base (p :: pieces) := by
  rcases h with ⟨hlen, hfits, hwrites, q, hq, hzero⟩
  refine ⟨?_, fun r hr => ?_, ?_, q, ?_, hzero⟩
  · rw [length_splice _ _ _ hp, hlen]
  · rcases List.mem_cons.mp hr with rfl | hold
    · rw [hlen]
      exact hp
    · exact hfits r hold
  · rw [Splice.writes, hwrites]
  · rw [List.getLast?_cons_of_ne_nil, hq]
    rintro rfl
    simp only [List.getLast?_nil, reduceCtorEq] at hq

/-- A copied block is recorded. -/
theorem recorded_receive (L : Layout ν) (env : Environment) (a : Transfer ν) (u : Session ν)
    (block : MqsCldFile L.payloadMax) (complete : Bool) (ha : Recorded a)
    (h : receiveBlock L env block a.session = .ok complete u) (buffer : List UInt8)
    (hbuffer : u.rawDataSetAssemblyBuffer = some buffer) :
    Written buffer (a.push L env block).1 (a.push L env block).2 := by
  rcases receiveBlock_ok L env block a.session u complete h with
    ⟨_, rfl, hreject⟩ | ⟨t, hcheck, hcopy, _⟩
  · simp only [Transfer.push, hreject]
    exact ha buffer hbuffer
  · rcases (copyBlock_ok L block t u).mp hcopy with ⟨old, hold, hin, hpayload, rfl⟩
    simp only [Option.some.injEq] at hbuffer
    have hstop : block.piece.stop ≤ old.length := by
      rw [stop_piece block hpayload]
      exact hin
    simp only [Transfer.push, hcheck]
    rcases checkAssemblyBuffer_accepts L env block a.session t hcheck with
      ⟨hzero, _, _, _, _⟩ | ⟨hne, _, _, rfl⟩
    · -- The block at offset 0 starts a new record.
      rw [if_pos hzero, hold, Option.getD_some, ← hbuffer]
      have hoff : block.offset.toNat = 0 := by rw [hzero]; rfl
      refine ⟨(length_splice _ _ _ hstop).symm, fun p hp => ?_, rfl, block.piece, rfl, hoff⟩
      rw [List.mem_singleton.mp hp]
      exact hstop
    · rw [if_neg hne, ← hbuffer]
      exact written_cons old _ _ block.piece (ha old hold) hstop

theorem recorded_step (L : Layout ν) (env : Environment) (a b : Transfer ν) (r : Request L)
    (ha : Recorded a) (h : (transfers L env).step a r = some b) : Recorded b := by
  have hstep : sessionStep L env a.session r = some b.session := session_step L env a b r h
  simp only [transfers, transferStep, hstep] at h
  by_cases hraw : ∃ block, r = .rawDataPush block
  · rcases hraw with ⟨block, rfl⟩
    simp only [Option.some.injEq] at h
    intro buffer hbuffer
    rcases rawDataPush_step L env a.session b.session block hstep with hreceive | ⟨t, _, hstore⟩
    · have hrec := recorded_receive L env a b.session block false ha hreceive buffer hbuffer
      rw [← h]
      exact hrec
    · -- A stored transfer leaves no buffer behind.
      rcases storeTransfer_runs L env t with ⟨E, F, c, _, hrun, _⟩
      rw [hrun, EStateM.Result.ok.injEq] at hstore
      rw [← hstore.2] at hbuffer
      simp only [reduceCtorEq] at hbuffer
  · have hother : ∀ block, r ≠ .rawDataPush block := fun block hr => hraw ⟨block, hr⟩
    rcases (bystander_step L env a.session b.session r hother hstep).1 with ⟨hsame, _, _⟩
    have hrecord : b.base = a.base ∧ b.pieces = a.pieces := by
      cases r with
      | rawDataPush block => exact absurd rfl (hother block)
      | dataLogPush | deviceRegister | goodbye | rawDataRequired | other =>
          simp only [Option.some.injEq] at h
          rw [← h]
          exact ⟨rfl, rfl⟩
    intro buffer hbuffer
    rw [hrecord.1, hrecord.2]
    exact ha buffer (hsame ▸ hbuffer)

theorem recorded_of_reaches (L : Layout ν) (env : Environment) (a : Transfer ν)
    (h : (transfers L env).Reaches (Transfer.opened ν) a) : Recorded a := by
  refine Machine.invariant h ?_ (fun t r u ht _ hstep => recorded_step L env t u r ht hstep)
  intro buffer hbuffer
  simp only [Transfer.opened, Session.opened, reduceCtorEq] at hbuffer

/-- The block that completes a transfer ends where the buffer does. -/
theorem stop_of_complete (L : Layout ν) (env : Environment) (s u : Session ν)
    (block : MqsCldFile L.payloadMax) (hs : Sized s)
    (h : receiveBlock L env block s = .ok true u) :
    ∃ buffer, u.rawDataSetAssemblyBuffer = some buffer ∧
      buffer.length = block.totalLength.toNat ∧ block.piece.stop = block.totalLength.toNat := by
  rcases receiveBlock_ok L env block s u true h with ⟨hf, _⟩ | ⟨t, hcheck, hcopy, hend⟩
  · exact absurd hf.symm Bool.false_ne_true
  · rcases (copyBlock_ok L block t u).mp hcopy with ⟨old, hold, hin, hpayload, rfl⟩
    rcases length_of_accepted L env s t block old hs hcheck hold with ⟨hold_len, hmax⟩
    have hlen : (splice old block.payload block.offset.toNat).length = old.length :=
      length_splice _ _ _ (by rw [length_payload block hpayload]; exact hin)
    refine ⟨_, rfl, by rw [hlen, hold_len, hmax], ?_⟩
    -- The copy stays within the buffer, so the sum did not wrap.
    have hwrap : block.offset.toNat + block.length.toNat < 2 ^ 32 := by
      have hlt := t.maxAssemblyLength.toNat_lt
      omega
    have hsum := congrArg UInt32.toNat (of_decide_eq_true hend.symm)
    rw [UInt32.toNat_add, Nat.mod_eq_of_lt hwrap] at hsum
    rw [stop_piece block hpayload]
    exact hsum

/-- What a stored transfer consists of. It was started by a block at offset 0.
    Every byte is that of the newest piece over it, or what the buffer held
    before. And if no piece starts behind the furthest end of the earlier
    ones, every byte below the total length is covered by a piece. -/
theorem committed_complete (L : Layout ν) (env : Environment) (a : Transfer ν)
    (h : (transfers L env).Reaches (Transfer.opened ν) a) (block : MqsCldFile L.payloadMax)
    (u : Session ν) (hcommit : receiveBlock L env block a.session = .ok true u) :
    (Gapless (a.push L env block).2 →
      ∀ i < block.totalLength.toNat, ∃ p ∈ (a.push L env block).2, p.Covers i) ∧
    (∀ i, (u.rawDataSetAssemblyBuffer.getD [])[i]? =
      (newest i (a.push L env block).2).or (a.push L env block).1[i]?) ∧
    (∃ first, (a.push L env block).2.getLast? = some first ∧ first.offset = 0) ∧
    (u.rawDataSetAssemblyBuffer.getD []).length = block.totalLength.toNat := by
  have hs := sized_of_reaches L env a.session (session_of_transfers L env _ a h)
  rcases stop_of_complete L env a.session u block hs hcommit with ⟨buffer, hbuffer, hlen, hstop⟩
  have hwritten := recorded_receive L env a u block true (recorded_of_reaches L env a h) hcommit
    buffer hbuffer
  rw [hbuffer, Option.getD_some]
  refine ⟨fun hgapless i hi => ?_, fun i => ?_, hwritten.first, hlen⟩
  · -- The newest piece is this block, which ends at the total length.
    refine covered_of_gapless _ hgapless i ?_
    have hnewest : ∃ rest, (a.push L env block).2 = block.piece :: rest := by
      rcases receiveBlock_ok L env block a.session u true hcommit with
        ⟨hf, _⟩ | ⟨t, hcheck, _, _⟩
      · exact absurd hf.symm Bool.false_ne_true
      · simp only [Transfer.push, hcheck]
        by_cases hzero : block.offset = 0
        · rw [if_pos hzero]
          exact ⟨[], rfl⟩
        · rw [if_neg hzero]
          exact ⟨a.pieces, rfl⟩
    rcases hnewest with ⟨rest, hrest⟩
    rw [hrest, extent, hstop]
    omega
  · have hget := getElem?_writes (a.push L env block).1 (a.push L env block).2 hwritten.fits i
    rw [← hwritten.writes] at hget
    exact hget

/-- A block over the end of the header and a part of the point. -/
def middleBlock : MqsCldFile packedLayout.payloadMax := ⟨24, 8, 36, Vector.replicate 64 5⟩

/-- A last block over a part of it. -/
def lastBlock : MqsCldFile packedLayout.payloadMax := ⟨28, 8, 36, Vector.replicate 64 6⟩

/-- A transfer of three blocks that overlap: every byte is covered, and where two
    blocks meet, the byte is that of the newer one. -/
theorem committed_complete_overlapping : ∃ a u,
    (transfers packedLayout allSucceed).execute (Transfer.opened UInt32)
      [.rawDataPush onePointHeader, .rawDataPush middleBlock] = some a ∧
    receiveBlock packedLayout allSucceed lastBlock a.session = .ok true u ∧
    (∀ i < 36, ∃ p ∈ (a.push packedLayout allSucceed lastBlock).2, p.Covers i) ∧
    (u.rawDataSetAssemblyBuffer.getD [])[25]? = some 5 ∧
    (u.rawDataSetAssemblyBuffer.getD [])[30]? = some 6 := by
  refine ⟨_, _, rfl, rfl, ?_⟩
  have h := committed_complete packedLayout allSucceed _
    (Machine.reaches_of_execute [.rawDataPush onePointHeader, .rawDataPush middleBlock]
      (Transfer.opened UInt32) _ rfl) lastBlock _ rfl
  exact ⟨h.1 (by decide +kernel), (h.2.1 25).trans (by decide +kernel),
    (h.2.1 30).trans (by decide +kernel)⟩

/-- The header of a raw data set with one point, and then an empty block at
    its end: the set is stored, and the bytes of the point never came. -/
theorem committed_with_gap : ∃ a u,
    (transfers packedLayout allSucceed).execute (Transfer.opened UInt32)
      [.rawDataPush onePointHeader] = some a ∧
    receiveBlock packedLayout allSucceed (emptyLast packedLayout 36) a.session = .ok true u ∧
    ∀ p ∈ (a.push packedLayout allSucceed (emptyLast packedLayout 36)).2, ¬ p.Covers 30 :=
  ⟨_, _, rfl, rfl, by decide +kernel⟩

end Push

end EpollServer
