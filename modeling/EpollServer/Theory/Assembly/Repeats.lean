import EpollServer.Theory.Assembly.Division
import EpollServer.Theory.Atomic

/-!
# Blocks that Come Again

What a raw data set becomes if its blocks are delivered more than once, as they
are when an acknowledge is lost and `linkSendRetry` sends a block again.

A block that is copied again extends the prefix that it has extended before:
the buffer holds all of it already. This goes for the first block too, for which
the buffer is allocated again and keeps what it holds. With the last block the
transfer is over and no length is recorded any more, so that a last block which
comes again is rejected, as it does not begin at 0. A block that begins a
transfer and completes it is never rejected: it is stored as often as it comes.

So repetitions change nothing if and only if they are not repetitions of a set
in one block (`repeats_harmless_iff`).

## Main definitions

* `Stores`: Requests that are handled, and the sets they store.
* `deliveries`: Blocks, each delivered some times in a row.
* `Harmless`: The repetitions change nothing.

## Theorems

* `stores_append`, `stores_unique`, `serve_of_stores`: Sequences of requests.
* `holds_mono`: A prefix of the prefix.
* `stores_part`: A block that is not the last one, and comes some times.
* `stores_whole`: A set in one block.
* `stores_end`: A last block.
* `stores_blocks`: All blocks.
* `repeats_harmless_iff`: When repetitions change nothing.
-/

namespace EpollServer

namespace Push

variable {ν : Type}

/-- The requests are handled, the connection stays open, and these sets are
    stored, by the statements of each request. -/
inductive Stores (L : Layout ν) (env : Environment) :
    Session ν → List (Request L) → List (List UInt8) → Session ν → Prop where
  | nil (s : Session ν) : Stores L env s [] [] s
  | cons (s t u : Session ν) (r : Request L) (rs : List (Request L)) (set : Option (List UInt8))
      (sets : List (List UInt8)) :
      handleRequest L env r s = .ok true t →
      Commits L env { before := s, request := r, after := t } set → Stores L env t rs sets u →
      Stores L env s (r :: rs) (set.toList ++ sets) u

/-- Blocks, each delivered once and then so many times again. -/
def deliveries {L : Layout ν} (ds : List (MqsCldFile L.payloadMax × Nat)) : List (Request L) :=
  ds.flatMap fun d => List.replicate (d.2 + 1) (.rawDataPush d.1)

/-- Every block is delivered once. -/
def once {L : Layout ν} (ds : List (MqsCldFile L.payloadMax × Nat)) :
    List (MqsCldFile L.payloadMax × Nat) := ds.map fun d => (d.1, 0)

/-- The set is stored once, with and without the repetitions, and the assembly
    is the same behind them. -/
def Harmless (L : Layout ν) (env : Environment) (D : List UInt8) (s : Session ν)
    (ds : List (MqsCldFile L.payloadMax × Nat)) : Prop :=
  ∃ t u, Stores L env s (deliveries ds) [D] t ∧ Stores L env s (deliveries (once ds)) [D] u ∧
    t.rawDataSetAssemblyBuffer = u.rawDataSetAssemblyBuffer ∧
    t.maxAssemblyLength = u.maxAssemblyLength

/-- The assembly is over. -/
def Over (s : Session ν) : Prop := s.rawDataSetAssemblyBuffer = none ∧ s.maxAssemblyLength = 0

variable {L : Layout ν} {env : Environment} {D : List UInt8} {s t u : Session ν}

/-! ### Sequences of requests -/

theorem stores_one {r : Request L} (set : Option (List UInt8))
    (h : handleRequest L env r s = .ok true t)
    (hset : Commits L env { before := s, request := r, after := t } set) :
    Stores L env s [r] set.toList t := by
  have hone := Stores.cons s t t r [] set [] h hset (.nil t)
  rw [List.append_nil] at hone
  exact hone

theorem stores_append {rs rs' : List (Request L)} {sets sets' : List (List UInt8)}
    (h : Stores L env s rs sets t) (h' : Stores L env t rs' sets' u) :
    Stores L env s (rs ++ rs') (sets ++ sets') u := by
  induction h with
  | nil s => exact h'
  | cons s v t r rs set sets hr hset _ ih =>
      rw [List.cons_append, List.append_assoc]
      exact .cons s v u r _ set _ hr hset (ih h')

/-- The first statement of `mysqlInsertRawDataSet` is tried, whatever comes of
    it. -/
theorem storing_ne_nil {idDevice : UInt64} {rawDataSet : RawDataSet ν} {b : Bool}
    {E : List (Event ν)}
    (h : mysqlInsertRawDataSet env idDevice rawDataSet s = .ok b (s.after E)) : E ≠ [] := by
  rcases sweep_ends env rawDataSet rawDataSet.base 0 s with ⟨baseId, F, hF, _⟩
  rcases sweep_ends env rawDataSet rawDataSet.afterExposure rawDataSet.base.dataCount (s.after F)
    with ⟨afterExposureId, G, hG, _⟩
  rw [mysqlInsertRawDataSet_log hF hG, EStateM.Result.ok.injEq] at h
  rw [← after_cancel s _ _ h.2]
  exact List.append_ne_nil_of_right_ne_nil _ (List.cons_ne_nil _ _)

/-- The statements of a request say whether it stores a set, and its block says
    which. -/
theorem commits_unique {x : Exchange L} {set set' : Option (List UInt8)}
    (h : Commits L env x set) (h' : Commits L env x set') : set' = set := by
  cases set with
  | none =>
      cases set' with
      | none => rfl
      | some D' =>
          rcases h' with ⟨_, u, b, E, _, _, _, hinsert, hstoring⟩
          exact absurd (hstoring.symm.trans h) (storing_ne_nil hinsert)
  | some D =>
      rcases h with ⟨block, u, b, E, hrequest, hreceive, hbuffer, hinsert, hstoring⟩
      cases set' with
      | none => exact absurd (hstoring.symm.trans h') (storing_ne_nil hinsert)
      | some D' =>
          rcases h' with ⟨block', u', _, _, hrequest', hreceive', hbuffer', _, _⟩
          rw [hrequest, Request.rawDataPush.injEq] at hrequest'
          rw [← hrequest', hreceive, EStateM.Result.ok.injEq] at hreceive'
          rw [← hbuffer, ← hbuffer', hreceive'.2]

theorem stores_unique {rs : List (Request L)} {sets : List (List UInt8)}
    (h : Stores L env s rs sets t) :
    ∀ {sets' : List (List UInt8)} {u : Session ν}, Stores L env s rs sets' u →
      sets' = sets ∧ u = t := by
  induction h with
  | nil s =>
      intro sets' u h'
      cases h'
      exact ⟨rfl, rfl⟩
  | cons s v t r rs set sets hr hset _ ih =>
      intro sets' u h'
      cases h' with
      | cons _ w _ _ _ set' more hr' hset' hrest =>
          rw [hr, EStateM.Result.ok.injEq] at hr'
          have heq := hr'.2
          subst heq
          rcases ih hrest with ⟨rfl, rfl⟩
          rw [commits_unique hset hset']
          exact ⟨rfl, rfl⟩

/-- What `serve` makes of them. -/
theorem serve_of_stores {rs : List (Request L)} {sets : List (List UInt8)}
    (h : Stores L env s rs sets t) :
    ∃ stored, List.Forall₂ (Commits L env) (serve L env s rs) stored ∧
      stored.flatMap Option.toList = sets ∧ (serve L env s rs).length = rs.length := by
  induction h with
  | nil s => exact ⟨[], .nil, rfl, rfl⟩
  | cons s v t r rs set sets hr hset _ ih =>
      rcases ih with ⟨stored, hstored, hsets, hlen⟩
      simp only [serve, hr]
      refine ⟨set :: stored, .cons hset hstored, ?_, ?_⟩
      · rw [List.flatMap_cons, hsets]
      · rw [List.length_cons, List.length_cons, hlen]

/-! ### Blocks -/

/-- What agrees with a prefix agrees with a shorter one. -/
theorem holds_mono {j k : Nat} (h : Holds D k s) (hle : j ≤ k) : Holds D j s := by
  rcases h with ⟨buffer, hbuffer, hlen, hprefix, hmax⟩
  refine ⟨buffer, hbuffer, hlen, ?_, hmax⟩
  have hcut := congrArg (List.take j) hprefix
  rw [List.take_take, List.take_take, Nat.min_eq_left hle] at hcut
  exact hcut

/-- A last block that comes again behind its transfer is rejected. -/
theorem stores_late (k : Nat) (block : MqsCldFile L.payloadMax) (hk : k ≠ 0)
    (hdiv : Divides L D k [block]) (hover : Over s) :
    ∀ n, Stores L env s (List.replicate n (.rawDataPush block)) [] s := by
  have hpos : 0 < D.length := by
    have hle := hdiv.2.2.2.1
    have hlength := hdiv.2.1
    omega
  have hreject : checkAssemblyBuffer L env block s = .ok false s := by
    refine checkAssemblyBuffer_rejects L env block s fun t ht => ?_
    rcases checkAssemblyBuffer_accepts L env block s t ht with ⟨hzero, _⟩ | ⟨_, _, hmax, _⟩
    · have hoffset := hdiv.1
      rw [hzero] at hoffset
      exact hk hoffset.symm
    · have htotal := hdiv.2.2.2.2.1
      rw [hmax, hover.2] at htotal
      exact absurd htotal (Nat.ne_of_lt hpos)
  have hreceive : receiveBlock L env block s = .ok false s := by
    simp only [receiveBlock, bind, EStateM.bind, hreject]
    rfl
  have hrun : handleRequest L env (.rawDataPush block) s = .ok true s := by
    rw [handleRequest_rawDataPush, hreceive]
  intro n
  induction n with
  | zero => exact .nil s
  | succ n ih =>
      have hone : Stores L env s [.rawDataPush block] [] s :=
        stores_one none hrun (commits_none_of_same rfl)
      exact stores_append hone ih

section Parts

variable (hL : L.Lawful) (hrealloc : ∀ n, (env.reallocs n).isSome = true) (hD : WellFormed L D)

include hL hrealloc hD

/-- A block that is not the last one stores nothing, as often as it comes. -/
theorem stores_part (k : Nat) (block : MqsCldFile L.payloadMax)
    (blocks : List (MqsCldFile L.payloadMax)) (hne : blocks ≠ [])
    (hdiv : Divides L D k (block :: blocks))
    (hfirst : k = 0 → L.sizeofRawDataSet ≤ block.length.toNat) :
    ∀ (n : Nat) (s : Session ν), (k ≠ 0 → Holds D k s) →
      ∃ t, Stores L env s (List.replicate (n + 1) (.rawDataPush block)) [] t ∧
        Holds D (k + block.length.toNat) t := by
  have hpart : ∀ s : Session ν, (k ≠ 0 → Holds D k s) →
      ∃ t, Stores L env s [.rawDataPush block] [] t ∧ Holds D (k + block.length.toNat) t := by
    intro s hheld
    rcases receive_part L hL env hrealloc D hD k block blocks hdiv s hfirst hheld
      with ⟨t, hreceive, ht, hevents⟩
    rw [List.isEmpty_eq_false_iff.mpr hne] at hreceive
    have hrun : handleRequest L env (.rawDataPush block) s = .ok true t := by
      rw [handleRequest_rawDataPush, hreceive]
    exact ⟨t, stores_one none hrun (commits_none_of_same hevents), ht⟩
  intro n
  induction n with
  | zero => exact hpart
  | succ n ih =>
      intro s hheld
      rcases hpart s hheld with ⟨t, hstores, ht⟩
      -- The buffer agrees with more than the block needs to be copied again.
      rcases ih t (fun _ => holds_mono ht (Nat.le_add_right _ _)) with ⟨u, hmore, hu⟩
      exact ⟨u, stores_append hstores hmore, hu⟩

/-- The last block stores the set. -/
theorem stores_last (k : Nat) (block : MqsCldFile L.payloadMax) (hdiv : Divides L D k [block])
    (hfirst : k = 0 → L.sizeofRawDataSet ≤ block.length.toNat) (hheld : k ≠ 0 → Holds D k s) :
    ∃ t, Stores L env s [.rawDataPush block] [D] t ∧ Over t := by
  rcases receive_part L hL env hrealloc D hD k block [] hdiv s hfirst hheld
    with ⟨u, hreceive, hu, _⟩
  have hend : k + block.length.toNat = D.length := hdiv.2.2.2.2.2.2
  rw [List.isEmpty_nil] at hreceive
  rw [hend] at hu
  rcases last_stores L env D block s u hreceive hu with ⟨t, hrun, hnone, hmax, _, hset⟩
  exact ⟨t, stores_one (some D) hrun hset, hnone, hmax⟩

/-- A set in one block is stored as often as it comes. -/
theorem stores_whole (block : MqsCldFile L.payloadMax) (hdiv : Divides L D 0 [block])
    (hfirst : L.sizeofRawDataSet ≤ block.length.toNat) : ∀ (n : Nat) (s : Session ν),
    ∃ t, Stores L env s (List.replicate (n + 1) (.rawDataPush block)) (List.replicate (n + 1) D) t ∧
      Over t := by
  intro n
  induction n with
  | zero =>
      exact fun s => stores_last hL hrealloc hD 0 block hdiv (fun _ => hfirst)
        (fun hzero => absurd rfl hzero)
  | succ n ih =>
      intro s
      rcases stores_last (s := s) hL hrealloc hD 0 block hdiv (fun _ => hfirst)
        (fun hzero => absurd rfl hzero) with ⟨t, hstores, _⟩
      rcases ih t with ⟨u, hmore, hu⟩
      exact ⟨u, stores_append hstores hmore, hu⟩

/-- The last of several blocks stores the set the first time it comes. -/
theorem stores_end (k : Nat) (block : MqsCldFile L.payloadMax) (hk : k ≠ 0)
    (hdiv : Divides L D k [block]) (hheld : Holds D k s) (n : Nat) :
    ∃ t, Stores L env s (List.replicate (n + 1) (.rawDataPush block)) [D] t ∧ Over t := by
  rcases stores_last hL hrealloc hD k block hdiv (fun hzero => absurd hzero hk)
    (fun _ => hheld) with ⟨t, hstores, hover⟩
  exact ⟨t, stores_append hstores (stores_late k block hk hdiv hover n), hover⟩

/-- From a point within the transfer on, the blocks store the set once. -/
theorem stores_rest : ∀ (ds : List (MqsCldFile L.payloadMax × Nat)) (k : Nat) (s : Session ν),
    k ≠ 0 → ds ≠ [] → Divides L D k (ds.map Prod.fst) → Holds D k s →
    ∃ t, Stores L env s (deliveries ds) [D] t ∧ Over t := by
  intro ds
  induction ds with
  | nil => exact fun _ _ _ hne => absurd rfl hne
  | cons d ds ih =>
      intro k s hk _ hdiv hheld
      -- The last block ends the assembly, every other one extends the prefix.
      cases ds with
      | nil =>
          rw [deliveries, List.flatMap_singleton]
          exact stores_end hL hrealloc hD k d.1 hk hdiv hheld d.2
      | cons next rest =>
          rcases stores_part hL hrealloc hD k d.1 _ (List.cons_ne_nil _ _) hdiv
            (fun hzero => absurd hzero hk) d.2 s (fun _ => hheld) with ⟨t, hstores, ht⟩
          have hpos := hdiv.2.1
          rcases ih (k + d.1.length.toNat) t (by omega) (List.cons_ne_nil _ _)
            hdiv.2.2.2.2.2.2 ht with ⟨u, hmore, hu⟩
          rw [deliveries, List.flatMap_cons]
          exact ⟨u, stores_append hstores hmore, hu⟩

/-- Several blocks store the set once, from any state. -/
theorem stores_several (d next : MqsCldFile L.payloadMax × Nat)
    (rest : List (MqsCldFile L.payloadMax × Nat))
    (hdiv : Divides L D 0 ((d :: next :: rest).map Prod.fst))
    (hfirst : L.sizeofRawDataSet ≤ d.1.length.toNat) (s : Session ν) :
    ∃ t, Stores L env s (deliveries (d :: next :: rest)) [D] t ∧ Over t := by
  rcases stores_part hL hrealloc hD 0 d.1 _ (List.cons_ne_nil _ _) hdiv (fun _ => hfirst) d.2 s
    (fun hzero => absurd rfl hzero) with ⟨t, hstores, ht⟩
  have hpos := hdiv.2.1
  rcases stores_rest hL hrealloc hD (next :: rest) (0 + d.1.length.toNat) t (by omega)
    (List.cons_ne_nil _ _) hdiv.2.2.2.2.2.2 ht with ⟨u, hmore, hu⟩
  rw [deliveries, List.flatMap_cons]
  exact ⟨u, stores_append hstores hmore, hu⟩

end Parts

/-! ### All deliveries -/

/-- For every well-formed raw data set, every division of it into blocks and
    every number of repetitions: they change nothing if and only if the set does
    not come in one block that is delivered more than once. -/
theorem repeats_harmless_iff (L : Layout ν) (hL : L.Lawful) (env : Environment)
    (hrealloc : ∀ n, (env.reallocs n).isSome = true) (D : List UInt8) (hD : WellFormed L D)
    (ds : List (MqsCldFile L.payloadMax × Nat)) (hdiv : Divides L D 0 (ds.map Prod.fst))
    (hfirst : ∀ d ∈ ds.head?, L.sizeofRawDataSet ≤ d.1.length.toNat) (s : Session ν) :
    Harmless L env D s ds ↔ ∀ block n, ds = [(block, n)] → n = 0 := by
  cases ds with
  | nil =>
      -- The empty division is one of the empty set, which is not well-formed.
      have hlength : 0 = D.length := hdiv
      have hrequired := hD.1
      have hpos := hL.sizeofRawDataSet_pos
      rw [requiredLength] at hrequired
      omega
  | cons d ds =>
      have hlong := hfirst d rfl
      cases ds with
      | nil =>
          rcases d with ⟨block, n⟩
          have hwhole : ∀ n, ∃ t, Stores L env s (deliveries [(block, n)])
              (List.replicate (n + 1) D) t ∧ Over t := by
            intro n
            rw [deliveries, List.flatMap_singleton]
            exact stores_whole hL hrealloc hD block hdiv hlong n s
          constructor
          · rintro ⟨t, u, hstores, _⟩ block' n' heq
            cases heq
            -- As many sets are stored as blocks are delivered.
            rcases hwhole n with ⟨v, hv, _⟩
            have hlength := congrArg List.length (stores_unique hstores hv).1
            rw [List.length_replicate, List.length_singleton] at hlength
            omega
          · intro hn
            have hzero := hn block n rfl
            subst hzero
            rcases hwhole 0 with ⟨t, ht, _⟩
            exact ⟨t, t, ht, ht, rfl, rfl⟩
      | cons next rest =>
          refine iff_of_true ?_ (fun block n heq => ?_)
          · -- Once each is a delivery too.
            have hsame : (once (d :: next :: rest)).map Prod.fst =
                (d :: next :: rest).map Prod.fst := by
              rw [once, List.map_map]
              rfl
            rcases stores_several hL hrealloc hD d next rest hdiv hlong s with ⟨t, ht, htover⟩
            rcases stores_several hL hrealloc hD (d.1, 0) (next.1, 0) (once rest)
              (hsame ▸ hdiv) hlong s with ⟨u, hu, huover⟩
            exact ⟨t, u, ht, hu, htover.1.trans huover.1.symm, htover.2.trans huover.2.symm⟩
          · simp only [List.cons.injEq, reduceCtorEq, and_false] at heq

/-- A raw data set with one point, with both of its blocks repeated. -/
theorem repeats_harmless_two_blocks :
    Harmless packedLayout allSucceed onePointSet (Session.opened UInt32)
      [(onePointHeader, 2), (onePointRest, 1)] := by
  refine (repeats_harmless_iff packedLayout packedLayout_lawful allSucceed (fun _ => rfl)
    onePointSet ⟨by decide +kernel, by decide +kernel⟩ _ ?_ ?_ _).mpr (fun block n heq => ?_)
  · exact ⟨rfl, by decide, by decide, by decide +kernel, by decide +kernel, by decide +kernel,
      rfl, by decide, by decide, by decide +kernel, by decide +kernel, by decide +kernel, rfl⟩
  · intro d hd
    rw [List.head?_cons, Option.mem_some_iff] at hd
    rw [← hd]
    decide
  · simp only [List.cons.injEq, reduceCtorEq, and_false] at heq

/-- A raw data set without points. -/
def emptySet : List UInt8 := List.replicate 28 0

/-- In one block that is delivered twice, it is stored twice. -/
theorem one_block_stored_twice :
    Divides packedLayout emptySet 0 [zeroTransfer] ∧
      (∃ t, Stores packedLayout allSucceed (Session.opened UInt32) (deliveries [(zeroTransfer, 1)])
        [emptySet, emptySet] t) ∧
      ¬ Harmless packedLayout allSucceed emptySet (Session.opened UInt32) [(zeroTransfer, 1)] := by
  have hD : WellFormed packedLayout emptySet := ⟨by decide +kernel, by decide +kernel⟩
  have hdiv : Divides packedLayout emptySet 0 [zeroTransfer] :=
    ⟨rfl, by decide, by decide, by decide +kernel, by decide +kernel, by decide +kernel, rfl⟩
  have hrealloc : ∀ n, (allSucceed.reallocs n).isSome = true := fun _ => rfl
  rcases stores_whole packedLayout_lawful hrealloc hD zeroTransfer hdiv (by decide) 1
    (Session.opened UInt32) with ⟨t, ht, _⟩
  refine ⟨hdiv, ⟨t, ht⟩, ?_⟩
  rintro ⟨u, _, hu, _⟩
  have hlength := congrArg List.length (stores_unique ht hu).1
  rw [List.length_replicate, List.length_singleton] at hlength
  omega

end Push

end EpollServer
