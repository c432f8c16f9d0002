import EpollServer.Theory.Firmware
import EpollServer.Theory.AlgoFile

/-!
# Which File Requests are Answered

`handleFileRequest` with both of its senders.

An answer ends with the zero response or with a block that reaches the total
length. Three kinds of requests have none. A name that is too short or ends in
something else is printed only, and so is one of an empty firmware file: its
loop is left at once with `ok`. A loop may also have no end. The counter of a
firmware file wraps when the file has grown, and then goes by the end without
meeting 0. Last, an entry of an algorithm file may be an object without a field
that is read. The entry is constant, so that this is no exception, and the
handler behind the loop is not reached.

`Served` says so in terms of the name, the file, the results of `lseek` and
`read` and the messages that are acknowledged. The loop of a firmware file is
left after the first pass in which nothing is read, or nothing acknowledged, or
the sum of the results of `read` is the total length modulo `2 ^ 32`. The one
direction is an induction on that pass, the other on the bound of the run.

The loop over the meat types is followed entry by entry. It passes one, is left
with five, throws, or meets an object without a field (`MeetsLack`).

## Main definitions

* `Library.Passes`, `Library.Lacks`, `Library.MeetsLack`: Entries of a file.
* `LastBlock`, `Terminated`, `Answered`: An answer.
* `StopsAt`: A pass after which the loop of a firmware file is left.
* `FirmwareServed`, `AlgoServed`, `Served`: Files that are answered.

## Theorems

* `Library.filterMeatTypes_lacks`, `Library.filterMeatTypes_passes`,
  `Library.filterMeatTypes_throws`: One pass over the meat types.
* `Library.filterMeatTypes_undefined_iff`: When the loop over them has no
  meaning.
* `firmwareLoop_goes`, `firmwareLoop_stops`: A pass over a firmware file.
* `firmwareLoop_terminated`, `stops_of_firmwareLoop`: The loop.
* `sendChunks_terminated`: The loop of an algorithm file.
* `opened_answered_iff`: A firmware file that was opened.
* `firmware_answered_iff`, `algo_answered_iff`: The two senders.
* `answered_iff`: A file request is answered if and only if its file is.
-/

namespace EpollServer

namespace Library

variable {ν : Type} (L : JsonLibrary ν) (requestedIds : List Int)

/-- Whether a meat type is taken, if it has its fields. -/
def wanted (meatType : Json ν) : Bool :=
  match L.getInt (meatType.field "id") with
  | .ok id => decide (id ∈ requestedIds)
  | .error _ => false

/-- The loop passes such a meat type. -/
structure Passes (meatType : Json ν) : Prop where
  contains_id : meatType.contains "id" = true
  id : ∃ id, L.getInt (meatType.field "id") = .ok id
  fields : wanted L requestedIds meatType = true →
    ∀ key ∈ sixKeys, meatType.contains key = true

/-- An object without a field the loop reads. -/
structure Lacks (meatType : Json ν) : Prop where
  object : ∃ members, meatType = .object members
  field : meatType.contains "id" = false ∨ wanted L requestedIds meatType = true ∧
    ∃ key ∈ sixKeys, meatType.contains key = false

/-- The loop gets to an object without a field it reads, with this room for
    meat types. -/
def MeetsLack (room : Nat) (entries : List (Json ν)) : Prop :=
  ∃ before meatType after, entries = before ++ meatType :: after ∧
    (∀ entry ∈ before, Passes L requestedIds entry) ∧
    (before.filter (wanted L requestedIds)).length < room ∧
    Lacks L requestedIds meatType

variable {L requestedIds}

/-! ### One meat type -/

/-- A step that has a result under a condition. -/
theorem ite_ok_bind {α β : Type} (c : Prop) [Decidable c] (a : α) (e : Interruption)
    (f : α → Except Interruption β) :
    ((if c then .ok a else .error e) >>= f) = if c then f a else .error e := by
  by_cases hc : c
  · rw [if_pos hc, if_pos hc]
    rfl
  · rw [if_neg hc, if_neg hc]
    rfl

/-- The six fields are there, or one is asked for without a meaning. -/
theorem newMeatType_object (hL : L.Documented) {meatType : Json ν}
    (h : ∃ members, meatType = .object members) :
    newMeatType L meatType = if ∀ key ∈ sixKeys, meatType.contains key = true
      then .ok (sixFields meatType) else .error .undefined := by
  unfold newMeatType
  simp only [indexConst_object hL h, ite_ok_bind, ← ite_and, sixKeys, List.forall_mem_cons]
  refine if_congr ?_ rfl rfl
  constructor
  · rintro ⟨hid, hcubic, hquadratic, hlinear, hadj, hmax⟩
    exact ⟨hadj, hcubic, hid, hlinear, hmax, hquadratic, fun _ h => absurd h List.not_mem_nil⟩
  · rintro ⟨hadj, hcubic, hid, hlinear, hmax, hquadratic, _⟩
    exact ⟨hid, hcubic, hquadratic, hlinear, hadj, hmax⟩

/-- The loop is left at an object without a field it reads. -/
theorem filterMeatTypes_lacks (hL : L.Documented) {meatType : Json ν}
    (h : Lacks L requestedIds meatType) (rest found : List (Json ν)) :
    filterMeatTypes L requestedIds (meatType :: rest) found = .error .undefined := by
  rw [filterMeatTypes, indexConst_object hL h.object]
  -- Either the id is missing, or the copy of a requested meat type fails.
  rcases h.field with hid | ⟨hwanted, key, hkey, hlacks⟩
  · rw [if_neg (by rw [hid]; decide)]
    rfl
  by_cases hid : meatType.contains "id" = true
  · rw [if_pos hid]
    change (L.getInt (meatType.field "id") >>= _) = _
    unfold wanted at hwanted
    split at hwanted
    case h_1 id hget =>
      rw [hget]
      change (if id ∈ requestedIds then _ else _) = _
      rw [if_pos (of_decide_eq_true hwanted), newMeatType_object hL h.object, if_neg]
      · rfl
      · intro hall
        rw [hall key hkey] at hlacks
        exact Bool.false_ne_true hlacks.symm
    case h_2 => exact absurd hwanted Bool.false_ne_true
  · rw [if_neg hid]
    rfl

/-- The loop goes on behind a meat type it passes, unless it has five. -/
theorem filterMeatTypes_passes (hL : L.Documented) {meatType : Json ν}
    (h : Passes L requestedIds meatType) (rest found : List (Json ν)) :
    filterMeatTypes L requestedIds (meatType :: rest) found =
      if wanted L requestedIds meatType = true then
        if 5 ≤ found.length + 1 then .ok (found ++ [sixFields meatType])
        else filterMeatTypes L requestedIds rest (found ++ [sixFields meatType])
      else filterMeatTypes L requestedIds rest found := by
  rcases h.id with ⟨id, hid⟩
  have hwanted : wanted L requestedIds meatType = decide (id ∈ requestedIds) := by
    simp only [wanted, hid]
  rw [filterMeatTypes, hL.indexConst _ _ h.contains_id]
  change (L.getInt (meatType.field "id") >>= _) = _
  rw [hid]
  change (if id ∈ requestedIds then _ else _) = _
  -- A meat type that was not asked for is only looked at for its id.
  by_cases hmem : id ∈ requestedIds
  · rw [decide_eq_true hmem] at hwanted
    rw [if_pos hmem, if_pos hwanted, newMeatType_object hL (object_of_contains h.contains_id),
      if_pos (h.fields hwanted)]
    rfl
  · rw [decide_eq_false hmem] at hwanted
    rw [if_neg hmem, if_neg (by rw [hwanted]; decide)]

/-- Anything else is an exception. -/
theorem filterMeatTypes_throws (hL : L.Documented) {meatType : Json ν}
    (hlacks : ¬ Lacks L requestedIds meatType) (hpasses : ¬ Passes L requestedIds meatType)
    (rest found : List (Json ν)) :
    filterMeatTypes L requestedIds (meatType :: rest) found = .error .exception := by
  rw [filterMeatTypes]
  -- An exception in this entry ends the loop, whatever is behind it.
  by_cases hobject : ∃ members, meatType = .object members
  · -- An object that lacks nothing has an id, and it is not passed: the id is no number.
    have hid : meatType.contains "id" = true := by
      by_contra hid
      exact hlacks ⟨hobject, .inl (Bool.eq_false_iff.mpr hid)⟩
    rw [hL.indexConst _ _ hid]
    change (L.getInt (meatType.field "id") >>= _) = _
    cases hget : L.getInt (meatType.field "id") with
    | error e =>
        rw [hL.getInt_throws _ e hget]
        rfl
    | ok id =>
        refine absurd ⟨hid, ⟨id, hget⟩, fun hwanted key hkey => ?_⟩ hpasses
        by_contra hlack
        exact hlacks ⟨hobject, .inr ⟨hwanted, key, hkey, Bool.eq_false_iff.mpr hlack⟩⟩
  · rw [hL.indexConst_throws _ _ hobject]
    rfl

/-! ### The whole loop -/

theorem ok_ne_error {β : Type} (b : β) (e : Interruption) :
    (Except.ok b : Except Interruption β) ≠ .error e := by
  intro h
  cases h

theorem exception_ne_undefined {β : Type} :
    (Except.error .exception : Except Interruption β) ≠ .error .undefined := by
  intro h
  cases h

theorem meetsLack_of_lacks {room : Nat} {meatType : Json ν} (hroom : 0 < room)
    (h : Lacks L requestedIds meatType) (rest : List (Json ν)) :
    MeetsLack L requestedIds room (meatType :: rest) :=
  ⟨[], meatType, rest, rfl, fun _ hmem => absurd hmem List.not_mem_nil, hroom, h⟩

/-- The loop meets an object without a field behind a meat type it passes. -/
theorem meetsLack_cons_iff {room : Nat} {meatType : Json ν}
    (h : ¬ Lacks L requestedIds meatType) (rest : List (Json ν)) :
    MeetsLack L requestedIds room (meatType :: rest) ↔
      Passes L requestedIds meatType ∧ MeetsLack L requestedIds
        (if wanted L requestedIds meatType = true then room - 1 else room) rest := by
  -- A meat type that is taken leaves less room.
  have hcount : ∀ before : List (Json ν),
      ((meatType :: before).filter (wanted L requestedIds)).length < room ↔
        (before.filter (wanted L requestedIds)).length <
          if wanted L requestedIds meatType = true then room - 1 else room := by
    intro before
    by_cases hwanted : wanted L requestedIds meatType = true
    · rw [List.filter_cons_of_pos hwanted, if_pos hwanted, List.length_cons]
      omega
    · rw [List.filter_cons_of_neg hwanted, if_neg hwanted]
  constructor
  · rintro ⟨before, entry, after, heq, hbefore, hroom, hlacks⟩
    cases before with
    | nil =>
        rw [List.nil_append, List.cons.injEq] at heq
        exact absurd (heq.1 ▸ hlacks) h
    | cons first before =>
        rw [List.cons_append, List.cons.injEq] at heq
        rcases heq with ⟨rfl, heq⟩
        exact ⟨hbefore _ List.mem_cons_self, before, entry, after, heq,
          fun x hx => hbefore x (List.mem_cons_of_mem _ hx), (hcount before).mp hroom, hlacks⟩
  · rintro ⟨hpasses, before, entry, after, heq, hbefore, hroom, hlacks⟩
    refine ⟨meatType :: before, entry, after, by rw [heq]; rfl,
      List.forall_mem_cons.mpr ⟨hpasses, hbefore⟩, (hcount before).mpr hroom, hlacks⟩

theorem not_meetsLack_nil (room : Nat) : ¬ MeetsLack L requestedIds room [] :=
  fun ⟨_, _, _, heq, _⟩ =>
    absurd (List.append_eq_nil_iff.mp heq.symm).2 (List.cons_ne_nil _ _)

/-- Without room nothing is met. -/
theorem not_meetsLack_zero (entries : List (Json ν)) :
    ¬ MeetsLack L requestedIds 0 entries :=
  fun ⟨_, _, _, _, _, hroom, _⟩ => absurd hroom (Nat.not_lt_zero _)

/-- The loop has no meaning if and only if it meets an object without a field it
    reads, and otherwise it has a result or throws. -/
theorem filterMeatTypes_undefined_iff (hL : L.Documented) (requestedIds : List Int) :
    ∀ entries found : List (Json ν), found.length < 5 →
    filterMeatTypes L requestedIds entries found ≠ .error .unfinished ∧
    (filterMeatTypes L requestedIds entries found = .error .undefined ↔
      MeetsLack L requestedIds (5 - found.length) entries) := by
  intro entries
  -- Induction on the entries; `found` tells how much room is left.
  induction entries with
  | nil =>
      intro found _
      have hrun : filterMeatTypes L requestedIds [] found = .ok found := rfl
      rw [hrun]
      exact ⟨nofun, nofun, fun h => absurd h (not_meetsLack_nil _)⟩
  | cons meatType rest ih =>
      intro found hlt
      by_cases hlacks : Lacks L requestedIds meatType
      · -- It is met here.
        rw [filterMeatTypes_lacks hL hlacks]
        exact ⟨nofun, fun _ => meetsLack_of_lacks (by omega) hlacks rest, fun _ => rfl⟩
      rw [meetsLack_cons_iff hlacks]
      by_cases hpasses : Passes L requestedIds meatType
      · rw [filterMeatTypes_passes hL hpasses]
        by_cases hwanted : wanted L requestedIds meatType = true
        · rw [if_pos hwanted, if_pos hwanted]
          by_cases hfull : 5 ≤ found.length + 1
          · -- The fifth meat type leaves no room.
            rw [if_pos hfull, show 5 - found.length - 1 = 0 by omega]
            exact ⟨nofun, nofun, fun h => absurd h.2 (not_meetsLack_zero rest)⟩
          · rw [if_neg hfull]
            have hih := ih (found ++ [sixFields meatType])
              (by rw [List.length_append, List.length_singleton]; omega)
            rw [List.length_append, List.length_singleton, Nat.sub_add_eq] at hih
            exact ⟨hih.1, hih.2.trans ⟨fun h => ⟨hpasses, h⟩, And.right⟩⟩
        · rw [if_neg hwanted, if_neg hwanted]
          exact ⟨(ih found hlt).1, (ih found hlt).2.trans ⟨fun h => ⟨hpasses, h⟩, And.right⟩⟩
      · -- An exception ends the loop before it can be met.
        rw [filterMeatTypes_throws hL hlacks hpasses]
        exact ⟨nofun, nofun, fun h => absurd h.1 hpasses⟩

end Library

namespace Requests

open Effect (bind_ok bind_error bind_congr_run)
open Library (Json Interruption)
open Push (MqsCldFile)

variable {ν : Type}

/-! ### Answers -/

/-- The last block of an answer: the zero response, or a block that reaches the
    total length. -/
def LastBlock {P : Nat} (block : MqsCldFile P) : Prop :=
  block = zeroBlock P ∨ block.length ≠ 0 ∧ block.offset + block.length = block.totalLength

/-- The messages since `w` are blocks, with one that is the last. -/
def Terminated {P : Nat} (w t : World ν P) : Prop :=
  ∃ (front : List (MqsCldFile P × UInt16)) (last : MqsCldFile P) (n : UInt16),
    t.view.messages = w.view.messages ++ (front ++ [(last, n)]).map (fun p => (.file p.1, p.2)) ∧
      LastBlock last

/-- A request that is answered. -/
def Answered (X : Context ν) (filename : List UInt8) (w : World ν X.layout.payloadMax) : Prop :=
  ∃ fuel t, handleFileRequest X fuel filename w = .ok () t ∧ Terminated w t

variable (X : Context ν)

/-- The sum of the results of `k` reads, from one on. -/
def sizeSum : Nat → Nat → UInt32
  | _, 0 => 0
  | reads, k + 1 => readSize (X.reads reads) + sizeSum (reads + 1) k

/-- Nothing is read, or the message is not acknowledged, or nothing remains,
    after `k` more reads and messages. -/
def StopsAt (reads sends : Nat) (remain : UInt32) (k : Nat) : Prop :=
  readSize (X.reads (reads + k)) = 0 ∨ acknowledged X (sends + k) = false ∨
    sizeSum X reads (k + 1) = remain

/-- A firmware file that is answered: it cannot be opened, or its length cannot
    be found, or it is not empty and its loop stops. -/
def FirmwareServed (filename : List UInt8) (w : World ν X.layout.payloadMax) : Prop :=
  X.openable (Library.path filename) = false ∨ (X.seeks w.seeks).bmod (2 ^ 32) < 0 ∨
    (X.seeks (w.seeks + 1)).bmod (2 ^ 32) < 0 ∨
    (X.seeks w.seeks).bmod (2 ^ 32) ≠ 0 ∧
      ∃ k, StopsAt X w.reads w.sends (UInt32.ofInt ((X.seeks w.seeks).bmod (2 ^ 32))) k

/-- An algorithm file that is answered: no field that is read is missing. -/
def AlgoServed (filename : List UInt8) (w : World ν X.layout.payloadMax) : Prop :=
  ∀ originalJson, X.file (Library.path filename) = .json originalJson →
    ¬ Library.MeetsLack X.json (idsRequested X w) 5
      (originalJson.field "meat_types").elements

/-- A file that is answered. Its name has more than five bytes, and ends in
    `.algo` or `.dfu`. -/
def Served (filename : List UInt8) (w : World ν X.layout.payloadMax) : Prop :=
  5 < filename.length ∧
    (filename.drop (filename.length - 5) = algoPostfix ∧ AlgoServed X filename w ∨
      filename.drop (filename.length - 4) = dfuPostfix ∧ FirmwareServed X filename w)

variable {X}

/-- A block in front of an answer. -/
theorem terminated_cons {P : Nat} {w t u : World ν P} {block : MqsCldFile P} {n : UInt16}
    (hview : t.view.messages = w.view.messages ++ [(.file block, n)]) (h : Terminated t u) :
    Terminated w u := by
  rcases h with ⟨front, last, m, hmessages, hlast⟩
  refine ⟨(block, n) :: front, last, m, ?_, hlast⟩
  rw [hmessages, hview, List.append_assoc]
  rfl

/-- Something was sent. -/
theorem messages_ne_of_terminated {P : Nat} {w t : World ν P} (h : Terminated w t) :
    t.view.messages ≠ w.view.messages := by
  rcases h with ⟨front, last, n, hmessages, _⟩
  intro heq
  have hlength := congrArg List.length (hmessages.symm.trans heq)
  rw [List.length_append, List.length_map, List.length_append, List.length_singleton] at hlength
  omega

/-- The zero response ends an answer. -/
theorem fileErrorResponse_terminated {w u : World ν X.layout.payloadMax}
    (h : u.view.messages = w.view.messages) :
    ∃ t, fileErrorResponse X u = .ok () t ∧ Terminated w t := by
  rcases fileErrorResponse_view u with ⟨t, ht, hview⟩
  refine ⟨t, ht, [], zeroBlock _, dataSent X u.sends (.file (zeroBlock _)), ?_, .inl rfl⟩
  rw [hview, ← h]
  rfl

/-! ### Firmware -/

theorem stopsAt_succ (reads sends : Nat) (remain : UInt32) (k : Nat) :
    StopsAt X reads sends remain (k + 1) ↔
      StopsAt X (reads + 1) (sends + 1) (remain - readSize (X.reads reads)) k := by
  unfold StopsAt
  rw [show reads + (k + 1) = reads + 1 + k by omega, show sends + (k + 1) = sends + 1 + k by omega,
    show sizeSum X reads (k + 1 + 1) = readSize (X.reads reads) + sizeSum X (reads + 1) (k + 1)
      from rfl]
  refine or_congr_right (or_congr_right ?_)
  rw [eq_sub_iff_add_eq, add_comm]

theorem stopsAt_zero (reads sends : Nat) (remain : UInt32) :
    StopsAt X reads sends remain 0 ↔ readSize (X.reads reads) = 0 ∨ acknowledged X sends = false ∨
      readSize (X.reads reads) = remain := by
  unfold StopsAt
  rw [Nat.add_zero, Nat.add_zero, show sizeSum X reads (0 + 1) = readSize (X.reads reads) from
    add_zero _]

/-- The block of a read is sent if it is acknowledged. -/
theorem blockRead_sent (hX : X.Lawful) (n : Nat) (total offset : UInt32)
    (r : ReadResult X.layout.payloadMax) (data : Vector UInt8 X.layout.payloadMax) :
    dataSent X n (.file (blockRead total offset r data)) ≠ 0 ↔ acknowledged X n = true := by
  refine dataSent_ne_zero hX n _ ?_
  cases r with
  | none => exact .inr rfl
  | some bytes => exact .inl ((toNat_readSize hX bytes).symm ▸ bytes.property)

/-- The loop goes on if it does not stop. -/
theorem firmwareLoop_goes (hX : X.Lawful) (total remain offset : UInt32)
    (data : Vector UInt8 X.layout.payloadMax) (w : World ν X.layout.payloadMax)
    (hremain : 0 < remain) (hgoes : ¬ StopsAt X w.reads w.sends remain 0) :
    ∃ block n u, (∀ fuel, firmwareLoop X total (fuel + 1) remain offset true data w =
        firmwareLoop X total fuel (remain - readSize (X.reads w.reads))
          (offset + readSize (X.reads w.reads)) true block.data u) ∧
      u.view = { w.view.sent (.file block) n with reads := w.reads + 1 } ∧
      0 < remain - readSize (X.reads w.reads) := by
  rw [stopsAt_zero] at hgoes
  -- The pass does not stop: something was read, it was acknowledged, and more is left.
  have hempty := fun h => hgoes (.inl h)
  have hack : acknowledged X w.sends = true :=
    Bool.not_eq_false _ ▸ fun h => hgoes (.inr (.inl h))
  have hlast := fun h => hgoes (.inr (.inr h))
  rcases firmwareLoop_block total remain offset data w hremain hempty with ⟨u, hpass, hview⟩
  refine ⟨_, _, u, fun fuel => ?_, hview,
    UInt32.pos_iff_ne_zero.mpr (sub_ne_zero.mpr (Ne.symm hlast))⟩
  rw [hpass fuel, decide_eq_true (UInt16.pos_iff_ne_zero.mpr
    ((blockRead_sent hX w.sends total offset (X.reads w.reads) data).mpr hack))]
  rfl

/-- A loop that stops at once is an answer, with what follows it. -/
theorem firmwareLoop_stops (hX : X.Lawful) (total remain offset : UInt32)
    (data : Vector UInt8 X.layout.payloadMax) (w : World ν X.layout.payloadMax)
    (hremain : 0 < remain) (hsum : offset + remain = total)
    (hstops : StopsAt X w.reads w.sends remain 0) :
    ∃ fuel t, (firmwareLoop X total fuel remain offset true data >>= afterLoop) w = .ok () t ∧
      Terminated w t := by
  -- One pass, and one of the three ends: an empty read, a refused block, the last block.
  rw [stopsAt_zero] at hstops
  by_cases hempty : readSize (X.reads w.reads) = 0
  · -- Nothing is read, and the zero response is sent.
    rcases fileErrorResponse_terminated (w := w) (u := { w with reads := w.reads + 1 }) rfl with
      ⟨t, ht, hterminated⟩
    refine ⟨2, t, ?_, hterminated⟩
    rw [bind_ok _ (firmwareLoop_empty total remain offset 0 data w hremain hempty)]
    exact ht
  rcases firmwareLoop_block total remain offset data w hremain hempty with ⟨u, hpass, hview⟩
  have hsent := blockRead_sent hX w.sends total offset (X.reads w.reads) data
  by_cases hack : acknowledged X w.sends = false
  · -- The block is not acknowledged, and the zero response follows it.
    rcases fileErrorResponse_terminated (w := u) (u := u) rfl with ⟨t, ht, hterminated⟩
    refine ⟨2, t, ?_, terminated_cons (congrArg View.messages hview) hterminated⟩
    rw [hack] at hsent
    have hzero := not_not.mp (mt hsent.mp Bool.false_ne_true)
    have hrun := hpass 1
    rw [hzero] at hrun
    rw [bind_ok _ (hrun.trans (firmwareLoop_done _ _ _ false 0 _ u fun h =>
      Bool.false_ne_true h.2))]
    exact ht
  · -- The block is the last one.
    have hlast := (hstops.resolve_left hempty).resolve_left hack
    refine ⟨2, u, ?_, [], _, _, congrArg View.messages hview, .inr ⟨hempty, ?_⟩⟩
    · have hrun := hpass 1
      rw [hlast, sub_self, decide_eq_true (UInt16.pos_iff_ne_zero.mpr
        (hsent.mpr (Bool.not_eq_false _ ▸ hack)))] at hrun
      rw [bind_ok _ (hrun.trans (firmwareLoop_done _ _ _ true 0 _ u fun h =>
        absurd h.1 (by decide)))]
      rfl
    · change offset + readSize (X.reads w.reads) = total
      rw [hlast, hsum]

/-- A loop that stops is an answer, with what follows it. -/
theorem firmwareLoop_terminated (hX : X.Lawful) (total : UInt32) :
    ∀ (k : Nat) (remain offset : UInt32) (data : Vector UInt8 X.layout.payloadMax)
      (w : World ν X.layout.payloadMax), 0 < remain → offset + remain = total →
      StopsAt X w.reads w.sends remain k →
    ∃ fuel t, (firmwareLoop X total fuel remain offset true data >>= afterLoop) w = .ok () t ∧
      Terminated w t := by
  intro k
  -- Induction on the number of the pass at which the loop stops.
  induction k with
  | zero => exact fun remain offset data w => firmwareLoop_stops hX total remain offset data w
  | succ k ih =>
      intro remain offset data w hremain hsum hstops
      by_cases hnow : StopsAt X w.reads w.sends remain 0
      · -- It stops earlier.
        exact firmwareLoop_stops hX total remain offset data w hremain hsum hnow
      rcases firmwareLoop_goes hX total remain offset data w hremain hnow with
        ⟨block, n, u, hpass, hview, hleft⟩
      have hreads : u.reads = w.reads + 1 := congrArg View.reads hview
      have hsends : u.sends = w.sends + 1 := congrArg View.sends hview
      rw [stopsAt_succ, ← hreads, ← hsends] at hstops
      rcases ih _ (offset + readSize (X.reads w.reads)) block.data u hleft
        (by rw [add_assoc, add_sub_cancel, hsum]) hstops with ⟨fuel, t, hrun, hterminated⟩
      refine ⟨fuel + 1, t, ?_, terminated_cons (congrArg View.messages hview) hterminated⟩
      rw [bind_congr_run afterLoop (hpass fuel)]
      exact hrun

/-- A loop that returns has stopped. -/
theorem stops_of_firmwareLoop (hX : X.Lawful) (total : UInt32) :
    ∀ (fuel : Nat) (remain offset : UInt32) (data : Vector UInt8 X.layout.payloadMax)
      (w t : World ν X.layout.payloadMax) (ok : Bool), 0 < remain →
      firmwareLoop X total fuel remain offset true data w = .ok ok t →
    ∃ k, StopsAt X w.reads w.sends remain k := by
  intro fuel
  -- Induction on the fuel: each pass that goes on is one pass less before the stop.
  induction fuel with
  | zero =>
      intro remain offset data w t ok _ hrun
      cases hrun
  | succ fuel ih =>
      intro remain offset data w t ok hremain hrun
      by_cases hnow : StopsAt X w.reads w.sends remain 0
      · exact ⟨0, hnow⟩
      rcases firmwareLoop_goes hX total remain offset data w hremain hnow with
        ⟨block, n, u, hpass, hview, hleft⟩
      have hreads : u.reads = w.reads + 1 := congrArg View.reads hview
      have hsends : u.sends = w.sends + 1 := congrArg View.sends hview
      rw [hpass fuel] at hrun
      rcases ih _ _ _ u t ok hleft hrun with ⟨k, hk⟩
      rw [hreads, hsends] at hk
      exact ⟨k + 1, (stopsAt_succ _ _ _ _).mpr hk⟩

/-- A file that cannot be opened, or of which the length cannot be found. -/
theorem sendFirmware_failed {filename : List UInt8} {w : World ν X.layout.payloadMax}
    (h : X.openable (Library.path filename) = false ∨ (X.seeks w.seeks).bmod (2 ^ 32) < 0 ∨
      (X.seeks (w.seeks + 1)).bmod (2 ^ 32) < 0) (fuel : Nat) :
    ∃ u, sendFirmware X fuel filename w = .ok false u ∧ u.view.messages = w.view.messages := by
  have hlength : lseek X w =
    .ok ((X.seeks w.seeks).bmod (2 ^ 32)) { w with seeks := w.seeks + 1 } := rfl
  have hstatus : lseek X { w with seeks := w.seeks + 1 } =
    .ok ((X.seeks (w.seeks + 1)).bmod (2 ^ 32)) { w with seeks := w.seeks + 2 } := rfl
  rw [sendFirmware]
  -- The first of the three calls that fails ends it, before anything is sent.
  by_cases hopen : X.openable (Library.path filename) = true
  · rw [if_pos hopen, bind_ok _ hlength]
    by_cases hneg : (X.seeks w.seeks).bmod (2 ^ 32) < 0
    · rw [if_pos hneg]
      exact ⟨_, rfl, rfl⟩
    · have hstatusNeg := (h.resolve_left (by rw [hopen]; decide)).resolve_left hneg
      rw [if_neg hneg, bind_ok _ hstatus, if_pos hstatusNeg]
      exact ⟨_, rfl, rfl⟩
  · rw [if_neg hopen]
    exact ⟨w, rfl, rfl⟩

/-- Of a file that can be opened and is of this length. -/
theorem firmwareServed_opened {filename : List UInt8} {total : Nat}
    {w : World ν X.layout.payloadMax} (h : Opened X filename total w) :
    FirmwareServed X filename w ↔
      total ≠ 0 ∧ ∃ k, StopsAt X w.reads w.sends (UInt32.ofNat total) k := by
  have hseekable := h.seekable
  unfold FirmwareServed
  rw [h.length, h.openable, ofInt_natCast]
  -- The file is open and measured, so only the loop can answer.
  constructor
  · rintro (hopen | hlength | hstatus | ⟨hne, hk⟩)
    · exact absurd hopen.symm Bool.false_ne_true
    · omega
    · omega
    · exact ⟨by omega, hk⟩
  · rintro ⟨hne, hk⟩
    exact .inr (.inr (.inr ⟨by omega, hk⟩))

/-- The loop of an empty file is left at once, with nothing sent. -/
theorem empty_not_terminated {filename : List UInt8} {w t : World ν X.layout.payloadMax}
    (h : Opened X filename 0 w) {fuel : Nat}
    (hrun : handleFirmwareRequest X fuel filename w = .ok () t) : ¬ Terminated w t := by
  intro hterminated
  rw [handleFirmwareRequest_run h] at hrun
  cases fuel with
  | zero => cases hrun
  | succ fuel =>
      rw [bind_ok _ (firmwareLoop_done _ _ _ true fuel _ _ fun hgoes =>
        absurd hgoes.1 (by decide))] at hrun
      cases hrun
      exact absurd rfl (messages_ne_of_terminated hterminated)

/-- Which files that can be opened are answered. -/
theorem opened_answered_iff (hX : X.Lawful) {filename : List UInt8} {total : Nat}
    {w : World ν X.layout.payloadMax} (h : Opened X filename total w) :
    (∃ fuel t, handleFirmwareRequest X fuel filename w = .ok () t ∧ Terminated w t) ↔
      total ≠ 0 ∧ ∃ k, StopsAt X w.reads w.sends (UInt32.ofNat total) k := by
  -- An empty file has nothing to read, so no block and no zero response is sent.
  by_cases hempty : total = 0
  · rw [hempty] at h
    refine ⟨?_, fun hstops => absurd hempty hstops.1⟩
    rintro ⟨fuel, t, hrun, hterminated⟩
    exact absurd hterminated (empty_not_terminated h hrun)
  have hlt := h.lt
  have hremain : (0 : UInt32) < UInt32.ofNat total :=
    ofNat_pos (Nat.pos_of_ne_zero hempty) (by omega)
  constructor
  · -- A run that ends has met one of the ways to stop.
    rintro ⟨fuel, t, hrun, _⟩
    rw [handleFirmwareRequest_run h] at hrun
    cases hloop : firmwareLoop X (UInt32.ofNat total) fuel (UInt32.ofNat total)
        (UInt32.ofNat 0) true (Vector.replicate _ 0) { w with seeks := w.seeks + 2 } with
    | error e u =>
        rw [bind_error _ hloop] at hrun
        cases hrun
    | ok ok u =>
        exact ⟨hempty, stops_of_firmwareLoop hX _ fuel _ _ _ { w with seeks := w.seeks + 2 } u ok
          hremain hloop⟩
  · rintro ⟨_, k, hk⟩
    rcases firmwareLoop_terminated hX (UInt32.ofNat total) k (UInt32.ofNat total) (UInt32.ofNat 0)
      (Vector.replicate _ 0) { w with seeks := w.seeks + 2 } hremain (zero_add _) hk with
      ⟨fuel, t, hrun, hterminated⟩
    exact ⟨fuel, t, (handleFirmwareRequest_run h fuel).trans hrun, hterminated⟩

/-- Which firmware files are answered. -/
theorem firmware_answered_iff (hX : X.Lawful) (filename : List UInt8)
    (w : World ν X.layout.payloadMax) :
    (∃ fuel t, handleFirmwareRequest X fuel filename w = .ok () t ∧ Terminated w t) ↔
      FirmwareServed X filename w := by
  by_cases hfailed : X.openable (Library.path filename) = false ∨
      (X.seeks w.seeks).bmod (2 ^ 32) < 0 ∨ (X.seeks (w.seeks + 1)).bmod (2 ^ 32) < 0
  · -- A file that cannot be opened or measured is answered by the zero response at once.
    have hserved : FirmwareServed X filename w := by
      rcases hfailed with h | h | h
      · exact .inl h
      · exact .inr (.inl h)
      · exact .inr (.inr (.inl h))
    refine ⟨fun _ => hserved, fun _ => ?_⟩
    rcases sendFirmware_failed hfailed 0 with ⟨u, hrun, hmessages⟩
    rcases fileErrorResponse_terminated hmessages with ⟨t, ht, hterminated⟩
    refine ⟨0, t, ?_, hterminated⟩
    rw [handleFirmwareRequest, bind_ok _ hrun]
    exact ht
  · rw [not_or, not_or] at hfailed
    rcases hfailed with ⟨hopen, hlength, hstatus⟩
    rcases Int.eq_ofNat_of_zero_le (not_lt.mp hlength) with ⟨total, htotal⟩
    have hopened : Opened X filename total w :=
      ⟨Bool.not_eq_false _ ▸ hopen, htotal, not_lt.mp hstatus⟩
    rw [firmwareServed_opened hopened]
    exact opened_answered_iff hX hopened

/-! ### Algorithms -/

/-- The slices of a string are an answer, however long it is. -/
theorem sendChunks_terminated (hX : X.Lawful) (S : List UInt8) :
    ∀ (remain offset : Nat) (data : Vector UInt8 X.layout.payloadMax)
      (w : World ν X.layout.payloadMax), 0 < remain → offset + remain = S.length →
    ∃ fuel t, sendChunks X S fuel remain offset data w = .ok () t ∧ Terminated w t := by
  intro remain
  -- Strong induction, since a pass takes more than one byte off what remains.
  induction remain using Nat.strong_induction_on with
  | _ remain ih =>
      intro offset data w hremain hsum
      have hframe := hX.frame_lt
      have hblock := hX.block_le
      have hmax := hX.payloadMax_pos
      rcases sendChunks_pass S remain offset data w hremain with ⟨u, hview, hrun⟩
      by_cases hsent : dataSent X w.sends
          (.file (sliceAt S offset (min remain X.layout.payloadMax) data)) = 0
      · -- The zero response follows.
        rcases fileErrorResponse_terminated (w := u) (u := u) rfl with ⟨t, ht, hterminated⟩
        refine ⟨1, t, ?_, terminated_cons (congrArg View.messages hview) hterminated⟩
        rw [hrun 0, if_pos hsent]
        exact ht
      by_cases hlast : remain ≤ X.layout.payloadMax
      · -- The last slice.
        refine ⟨2, u, ?_, [], _, _, congrArg View.messages hview, .inr ⟨?_, ?_⟩⟩
        · rw [hrun 1, if_neg hsent, Nat.min_eq_left hlast, Nat.sub_self]
          exact sendChunks_done S _ 0 _ u
        · rw [Nat.min_eq_left hlast]
          change UInt32.ofNat remain ≠ 0
          exact UInt32.pos_iff_ne_zero.mp (ofNat_pos hremain (by omega))
        · rw [Nat.min_eq_left hlast]
          change UInt32.ofNat offset + UInt32.ofNat remain = UInt32.ofNat S.length
          rw [← UInt32.ofNat_add, hsum]
      · -- There are more slices, with the payload's size taken off.
        rcases ih (remain - min remain X.layout.payloadMax) (by omega)
          (offset + min remain X.layout.payloadMax) _ u (by omega) (by omega) with
          ⟨fuel, t, hrest, hterminated⟩
        refine ⟨fuel + 1, t, ?_, terminated_cons (congrArg View.messages hview) hterminated⟩
        rw [hrun fuel, if_neg hsent]
        exact hrest

/-- A file that is no object is an exception. -/
theorem sendAlgoJson_throws (hjson : X.json.Documented) {originalJson : Json ν}
    (h : ¬ (originalJson = .null ∨ ∃ members, originalJson = .object members)) (fuel : Nat)
    (requestedIds : List Int) (w : World ν X.layout.payloadMax) :
    sendAlgoJson X fuel requestedIds originalJson w = .error .exception w := by
  have hindex := fun key => hjson.index_throws key originalJson h
  have hget : (get : X.M _) w = .ok w w := rfl
  rw [sendAlgoJson, hindex]
  -- With the variable set the key is looked up before the loop, without it only in it.
  by_cases hneeded : w.isAlgorithmNeeded = true
  · have htake : takeAlgorithm X originalJson w = .error .exception w := by
      rw [takeAlgorithm, bind_ok _ hget, if_pos hneeded, hindex]
      rfl
    exact bind_error _ htake
  · have htake : takeAlgorithm X originalJson w = .ok none w := by
      rw [takeAlgorithm, bind_ok _ hget, if_neg hneeded]
      rfl
    rw [bind_ok _ htake]
    rfl

/-- Such a file has no meat types. -/
theorem field_eq_null {originalJson : Json ν}
    (h : ¬ (originalJson = .null ∨ ∃ members, originalJson = .object members)) (key : String) :
    originalJson.field key = .null := by
  cases originalJson with
  | null => exact absurd (.inl rfl) h
  | object members => exact absurd (.inr ⟨members, rfl⟩) h
  | _ => rfl

/-- Where the first loop throws. -/
theorem sendAlgoJson_error (hjson : X.json.Documented) {originalJson : Json ν}
    (hobject : originalJson = .null ∨ ∃ members, originalJson = .object members)
    {requestedIds : List Int} {e : Interruption}
    (herror : Library.filterMeatTypes X.json requestedIds
      (originalJson.field "meat_types").elements [] = .error e)
    (fuel : Nat) (w : World ν X.layout.payloadMax) :
    sendAlgoJson X fuel requestedIds originalJson w =
      .error e { w with isAlgorithmNeeded := false } := by
  rw [sendAlgoJson, bind_ok _ (takeAlgorithm_eq hjson hobject w), hjson.index _ _ hobject]
  change (lift X (Library.filterMeatTypes X.json requestedIds (X.json.elements _) []) >>= _) _ = _
  rw [hjson.elements, herror]
  rfl

/-- The zero response follows an exception. -/
theorem catchException_terminated {body : X.M Unit} {w v u : World ν X.layout.payloadMax}
    (hbody : body v = .error .exception u) (h : u.view.messages = w.view.messages) :
    ∃ t, catchException X body (fileErrorResponse X) v = .ok () t ∧ Terminated w t := by
  rw [catchException, hbody]
  exact fileErrorResponse_terminated h

/-- A file that is JSON is answered if no field that is read is missing. -/
theorem algoServed_json {filename : List UInt8} {w : World ν X.layout.payloadMax}
    {originalJson : Json ν} (hfile : X.file (Library.path filename) = .json originalJson) :
    AlgoServed X filename w ↔ ¬ Library.MeetsLack X.json (idsRequested X w) 5
      (originalJson.field "meat_types").elements := by
  refine ⟨fun h => h originalJson hfile, fun h json hjson => ?_⟩
  rw [hfile, Library.LibraryFile.json.injEq] at hjson
  exact hjson ▸ h

/-- The meat types found are sent. -/
theorem sendAlgoJson_terminated (hX : X.Lawful) (hjson : X.json.Documented) {originalJson : Json ν}
    (hobject : originalJson = .null ∨ ∃ members, originalJson = .object members)
    {requestedIds : List Int} {found : List (Json ν)}
    (hfound : Library.filterMeatTypes X.json requestedIds
      (originalJson.field "meat_types").elements [] = .ok found)
    (w : World ν X.layout.payloadMax) :
    ∃ fuel t, sendAlgoJson X fuel requestedIds originalJson w = .ok () t ∧ Terminated w t := by
  let S := X.json.dump (Library.answer (if w.isAlgorithmNeeded then
    some (originalJson.field "algorithm") else none) found)
  rcases sendChunks_terminated hX S S.length 0 (Vector.replicate _ 0)
    { w with isAlgorithmNeeded := false } (List.length_pos_of_ne_nil (hX.dump_ne_nil _))
    (Nat.zero_add _) with ⟨fuel, t, hrun, hterminated⟩
  exact ⟨fuel, t, (sendAlgoJson_ok hjson hobject hfound fuel w).trans hrun, hterminated⟩

/-- Which algorithm files are answered. -/
theorem algo_answered_iff (hX : X.Lawful) (hlibrary : X.json.Documented) (filename : List UInt8)
    (w : World ν X.layout.payloadMax) :
    (∃ fuel t, handleAlgoRequest X fuel filename w = .ok () t ∧ Terminated w t) ↔
      AlgoServed X filename w := by
  have hmessages := congrArg View.messages (queried_view w)
  -- An exception is answered.
  have hthrown : ∀ u, sendAlgoFile X 0 (idsRequested X w) filename (queried w) =
      .error .exception u → u.view.messages = w.view.messages →
      ∃ fuel t, handleAlgoRequest X fuel filename w = .ok () t ∧ Terminated w t :=
    fun u hbody hu => ⟨0, catchException_terminated hbody hu⟩
  cases hfile : X.file (Library.path filename) with
  | closed =>
      refine ⟨fun _ json hjson => ?_, fun _ => hthrown (queried w) ?_ hmessages⟩
      · rw [hfile] at hjson
        cases hjson
      · rw [sendAlgoFile, hfile]
        rfl
  | malformed =>
      refine ⟨fun _ json hjson => ?_, fun _ => hthrown (queried w) ?_ hmessages⟩
      · rw [hfile] at hjson
        cases hjson
      · rw [sendAlgoFile, hfile]
        rfl
  | json originalJson =>
      have hbody : ∀ fuel, sendAlgoFile X fuel (idsRequested X w) filename =
          sendAlgoJson X fuel (idsRequested X w) originalJson := fun fuel => by
        rw [sendAlgoFile, hfile]
      rw [algoServed_json hfile]
      by_cases hobject : originalJson = .null ∨ ∃ members, originalJson = .object members
      swap
      · -- `operator[]` throws.
        refine ⟨fun _ => ?_, fun _ => hthrown (queried w) ?_ hmessages⟩
        · rw [field_eq_null hobject]
          exact Library.not_meetsLack_nil _
        · rw [hbody]
          exact sendAlgoJson_throws hlibrary hobject 0 _ _
      have hloop := Library.filterMeatTypes_undefined_iff hlibrary (idsRequested X w)
        (originalJson.field "meat_types").elements [] (Nat.succ_pos 4)
      cases hfound : Library.filterMeatTypes X.json (idsRequested X w)
          (originalJson.field "meat_types").elements [] with
      | ok found =>
          rw [hfound] at hloop
          refine ⟨fun _ h => Library.ok_ne_error found .undefined (hloop.2.mpr h), fun _ => ?_⟩
          rcases sendAlgoJson_terminated hX hlibrary hobject hfound (queried w) with
            ⟨fuel, t, hrun, front, last, n, hsent, hlast⟩
          refine ⟨fuel, t, ?_, front, last, n, by rw [hsent, hmessages], hlast⟩
          rw [handleAlgoRequest_run, catchException, hbody, hrun]
      | error e =>
          rw [hfound] at hloop
          have herror := fun fuel => sendAlgoJson_error hlibrary hobject hfound fuel (queried w)
          cases e with
          | unfinished => exact absurd rfl hloop.1
          | exception =>
              refine ⟨fun _ h => Library.exception_ne_undefined (hloop.2.mpr h), fun _ =>
                hthrown { queried w with isAlgorithmNeeded := false } ?_ hmessages⟩
              rw [hbody]
              exact herror 0
          | undefined =>
              -- The exception handler is not reached.
              refine ⟨?_, fun h => absurd (hloop.2.mp rfl) h⟩
              rintro ⟨fuel, t, hrun, _⟩
              rw [handleAlgoRequest_run, catchException, hbody, herror fuel] at hrun
              cases hrun

/-! ### The request -/

/-- A name that ends in `.algo` does not end in `.dfu`. -/
theorem dfu_ne_algo {filename : List UInt8} (hlength : 5 < filename.length)
    (halgo : filename.drop (filename.length - 5) = algoPostfix) :
    filename.drop (filename.length - 4) ≠ dfuPostfix := by
  have htail : filename.drop (filename.length - 4) = algoPostfix.drop 1 := by
    rw [← halgo, List.drop_drop, show filename.length - 5 + 1 = filename.length - 4 by omega]
  rw [htail]
  decide

/-- What is done with a name of more than five bytes. -/
theorem handleFileRequest_run {filename : List UInt8} (hlength : 5 < filename.length) (fuel : Nat)
    (w : World ν X.layout.payloadMax) :
    (filename.drop (filename.length - 5) = algoPostfix →
      handleFileRequest X fuel filename w = handleAlgoRequest X fuel filename w) ∧
    (filename.drop (filename.length - 4) = dfuPostfix →
      handleFileRequest X fuel filename w = handleFirmwareRequest X fuel filename w) := by
  rw [handleFileRequest, if_pos hlength]
  refine ⟨fun halgo => by rw [if_pos halgo], fun hdfu => ?_⟩
  rw [if_neg fun halgo => dfu_ne_algo hlength halgo hdfu, if_pos hdfu]

/-- A request that is answered is for a file that is. -/
theorem served_of_answered (hX : X.Lawful) (hlibrary : X.json.Documented) {filename : List UInt8}
    {w : World ν X.layout.payloadMax} (h : Answered X filename w) : Served X filename w := by
  rcases h with ⟨fuel, t, hrun, hterminated⟩
  -- A request with which nothing is done is not answered.
  have hnothing : handleFileRequest X fuel filename w ≠ .ok () w := by
    intro hw
    rw [hw] at hrun
    cases hrun
    exact messages_ne_of_terminated hterminated rfl
  by_cases hlength : 5 < filename.length
  swap
  · -- The name is too short.
    refine absurd ?_ hnothing
    rw [handleFileRequest, if_neg hlength]
    rfl
  rcases handleFileRequest_run hlength fuel w with ⟨halgo, hdfu⟩
  by_cases hends : filename.drop (filename.length - 5) = algoPostfix
  · rw [halgo hends] at hrun
    exact ⟨hlength, .inl ⟨hends, (algo_answered_iff hX hlibrary filename w).mp
      ⟨fuel, t, hrun, hterminated⟩⟩⟩
  by_cases hends' : filename.drop (filename.length - 4) = dfuPostfix
  · rw [hdfu hends'] at hrun
    exact ⟨hlength, .inr ⟨hends', (firmware_answered_iff hX filename w).mp
      ⟨fuel, t, hrun, hterminated⟩⟩⟩
  · -- The name ends in something else.
    refine absurd ?_ hnothing
    rw [handleFileRequest, if_pos hlength, if_neg hends, if_neg hends']
    rfl

/-- A request for a file that is answered. -/
theorem answered_of_served (hX : X.Lawful) (hlibrary : X.json.Documented) {filename : List UInt8}
    {w : World ν X.layout.payloadMax} (h : Served X filename w) : Answered X filename w := by
  rcases h with ⟨hlength, ⟨hends, hserved⟩ | ⟨hends, hserved⟩⟩
  · rcases (algo_answered_iff hX hlibrary filename w).mpr hserved with ⟨fuel, t, hrun, hterminated⟩
    exact ⟨fuel, t, ((handleFileRequest_run hlength fuel w).1 hends).trans hrun, hterminated⟩
  · rcases (firmware_answered_iff hX filename w).mpr hserved with ⟨fuel, t, hrun, hterminated⟩
    exact ⟨fuel, t, ((handleFileRequest_run hlength fuel w).2 hends).trans hrun, hterminated⟩

/-- Which file requests are answered. -/
theorem answered_iff (hX : X.Lawful) (hlibrary : X.json.Documented) (filename : List UInt8)
    (w : World ν X.layout.payloadMax) :
    Answered X filename w ↔ Served X filename w :=
  ⟨served_of_answered hX hlibrary, answered_of_served hX hlibrary⟩

/-- A file that is read at once. -/
theorem answered_three :
    Answered (fileServer (some ⟨[1, 2, 3], by decide⟩)) (bytesOf "mqs.dfu") (openedWorld _) := by
  refine (answered_iff (fileServer_lawful _) (Library.nlohmann_documented _ _) _ _).mpr
    ⟨by decide, .inr ⟨by decide, ?_⟩⟩
  exact .inr (.inr (.inr ⟨show (3 : Int).bmod (2 ^ 32) ≠ 0 by decide, 0, .inr (.inr rfl)⟩))

/-- A server with an empty file. -/
def emptyFileServer : Context UInt32 :=
  { quietServer with openable := fun _ => true, seeks := fun _ => 0 }

theorem emptyFileServer_lawful : emptyFileServer.Lawful :=
  ⟨quietServer_lawful.1, quietServer_lawful.2, quietServer_lawful.3, quietServer_lawful.4,
    quietServer_lawful.5⟩

/-- An empty firmware file is not answered. -/
theorem empty_file_not_answered :
    ¬ Answered emptyFileServer (bytesOf "mqs.dfu") (openedWorld _) := by
  intro hanswered
  rcases served_of_answered emptyFileServer_lawful (Library.nlohmann_documented _ _) hanswered with
    ⟨_, ⟨halgo, _⟩ | ⟨_, hserved⟩⟩
  · exact absurd halgo (by decide)
  rcases hserved with h | h | h | ⟨h, _⟩
  · exact absurd h (by decide)
  · exact absurd h (show ¬ (0 : Int).bmod (2 ^ 32) < 0 by decide)
  · exact absurd h (show ¬ (0 : Int).bmod (2 ^ 32) < 0 by decide)
  · exact absurd rfl h

end Requests

end EpollServer
