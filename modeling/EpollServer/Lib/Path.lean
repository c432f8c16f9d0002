import Mathlib

/-!
# Resolving a Path

Paths as lists of segments, from a place below a directory that has no name.

A name enters a directory, and `..` leaves it. Where a path leads is a stack of
names, and the number of directories it has gone up from where it began. The
height of a place, its names less the directories gone up, changes with every
segment by the same number (`height_resolve`): by 1 for a name and by -1 for
`..`. So what a path has in front of each of its segments, the names less the
`..`, says how deep it is there (`rise`).

A path that begins in a directory ends below it if it never leaves it. It may
also leave it by one step, as long as it comes back by the name of the
directory (`inside_resolve_iff`). If it leaves by two steps it has lost its
way.

## Main definitions

* `Segment`: A segment of a path.
* `Place`: Where a path has led.
* `resolve`: Where a path leads.
* `rise`: The names of a path less its `..`.
* `Inside`: A place below a directory.
* `Kept`: The path does not leave, or comes back by the name.

## Theorems

* `height_resolve`: The height of the end of a path.
* `ups_le_resolve`: A path that has gone up does not come back.
* `resolve_stack`: A path that stays above a place.
* `resolve_stays`, `resolve_leaves`: A path that stays, or ends one step outside.
* `exists_last_descent`: The last time a path is below where it began.
* `inside_resolve_iff`: When a path ends below the directory it began in.
* `rise_pos_of_kept`: A path whose last segment is another name.
-/

namespace EpollServer

namespace Paths

variable {α : Type*}

/-- A segment of a path. -/
inductive Segment (α : Type*) where
  /-- A segment that stays: `.`, or an empty one. -/
  | current
  /-- `..` -/
  | parent
  | name (a : α)
  deriving DecidableEq

/-- Where a path has led: so many directories up, and down along these names,
    the last one first. -/
structure Place (α : Type*) where
  ups : Nat
  names : List α
  deriving DecidableEq

/-- One segment further. -/
def Place.enter : Place α → Segment α → Place α
  | p, .current => p
  | ⟨ups, []⟩, .parent => ⟨ups + 1, []⟩
  | ⟨ups, _ :: names⟩, .parent => ⟨ups, names⟩
  | ⟨ups, names⟩, .name a => ⟨ups, a :: names⟩

/-- Where a path leads. -/
def resolve (p : Place α) (segments : List (Segment α)) : Place α := segments.foldl Place.enter p

/-- What a segment adds to the height. -/
def Segment.rise : Segment α → Int
  | .current => 0
  | .parent => -1
  | .name _ => 1

/-- The names of a path less its `..`. -/
def rise (segments : List (Segment α)) : Int := (segments.map Segment.rise).sum

/-- How far below the start a place is. Above it the number is negative. -/
def Place.height (p : Place α) : Int := p.names.length - p.ups

/-- The place is below the directory `root` where the path began. -/
def Inside (root : α) (p : Place α) : Prop := p.ups = 0 ∧ ∃ names ≠ [], p.names = names ++ [root]

/-- No front of the path has more `..` than names; or one has one more and none
    has two more, and behind the longest of those with one more stands the name
    of the directory. -/
def Kept (root : α) (segments : List (Segment α)) : Prop :=
  (∀ front, front <+: segments → 0 ≤ rise front) ∨
    ∃ front back, segments = front ++ .name root :: back ∧ rise front = -1 ∧
      (∀ more, more <+: front → -1 ≤ rise more) ∧ ∀ more, more <+: back → 0 ≤ rise more

/-! ### Heights -/

@[simp] theorem rise_nil : rise ([] : List (Segment α)) = 0 := rfl

@[simp] theorem rise_cons (s : Segment α) (segments : List (Segment α)) :
    rise (s :: segments) = s.rise + rise segments := by
  rw [rise, List.map_cons, List.sum_cons, rise]

@[simp] theorem rise_append (front back : List (Segment α)) :
    rise (front ++ back) = rise front + rise back := by
  rw [rise, List.map_append, List.sum_append, rise, rise]

@[simp] theorem resolve_nil (p : Place α) : resolve p [] = p := rfl

@[simp] theorem resolve_cons (p : Place α) (s : Segment α) (segments : List (Segment α)) :
    resolve p (s :: segments) = resolve (p.enter s) segments := rfl

theorem resolve_append (p : Place α) (front back : List (Segment α)) :
    resolve p (front ++ back) = resolve (resolve p front) back :=
  List.foldl_append

theorem height_enter (p : Place α) (s : Segment α) : (p.enter s).height = p.height + s.rise := by
  rcases p with ⟨ups, names⟩
  -- A parent takes a name off, or one more is above when there is none.
  cases s with
  | current => simp only [Place.enter, Segment.rise, Int.add_zero]
  | name a =>
      simp only [Place.enter, Place.height, Segment.rise, List.length_cons, Int.natCast_add]
      omega
  | parent =>
      cases names with
      | nil =>
          simp only [Place.enter, Place.height, Segment.rise, List.length_nil, Int.natCast_add]
          omega
      | cons a names =>
          simp only [Place.enter, Place.height, Segment.rise, List.length_cons, Int.natCast_add]
          omega

/-- The height of the end of a path. -/
theorem height_resolve (segments : List (Segment α)) : ∀ p : Place α,
    (resolve p segments).height = p.height + rise segments := by
  induction segments with
  | nil => exact fun p => (Int.add_zero _).symm
  | cons s segments ih =>
      intro p
      rw [resolve_cons, ih, height_enter, rise_cons, Int.add_assoc]

theorem ups_le_enter (p : Place α) (s : Segment α) : p.ups ≤ (p.enter s).ups := by
  rcases p with ⟨ups, names⟩
  cases s with
  | current => exact Nat.le_refl _
  | name a => exact Nat.le_refl _
  | parent =>
      cases names with
      | nil => exact Nat.le_succ _
      | cons a names => exact Nat.le_refl _

/-- A path that has gone up does not come back. -/
theorem ups_le_resolve (segments : List (Segment α)) : ∀ p : Place α,
    p.ups ≤ (resolve p segments).ups := by
  induction segments with
  | nil => exact fun p => Nat.le_refl _
  | cons s segments ih => exact fun p => Nat.le_trans (ups_le_enter p s) (ih _)

/-- A path no front of which has lost more than the names `inner` leaves what
    is below them. -/
theorem resolve_stack (below : List α) (ups : Nat) (segments : List (Segment α)) :
    ∀ inner : List α, (∀ front, front <+: segments → 0 ≤ (inner.length : Int) + rise front) →
      ∃ inner' : List α, resolve ⟨ups, inner ++ below⟩ segments = ⟨ups, inner' ++ below⟩ ∧
        (inner'.length : Int) = inner.length + rise segments := by
  induction segments with
  | nil => exact fun inner _ => ⟨inner, rfl, (Int.add_zero _).symm⟩
  | cons s segments ih =>
      intro inner h
      have hfirst := h [s] (List.prefix_append [s] segments)
      -- The place behind the first segment has the same names below.
      have hnext : ∃ next : List α, (⟨ups, inner ++ below⟩ : Place α).enter s =
          ⟨ups, next ++ below⟩ ∧ (next.length : Int) = inner.length + s.rise := by
        cases s with
        | current => exact ⟨inner, rfl, (Int.add_zero _).symm⟩
        | name a => exact ⟨a :: inner, rfl, by rw [List.length_cons, Segment.rise]; omega⟩
        | parent =>
            cases inner with
            | nil => simp [Segment.rise] at hfirst
            | cons a inner =>
                exact ⟨inner, rfl, by rw [List.length_cons, Segment.rise]; omega⟩
      rcases hnext with ⟨next, henter, hlength⟩
      rcases ih next (fun front hfront => by
        have hle := h (s :: front) (List.cons_prefix_cons.mpr ⟨rfl, hfront⟩)
        rw [rise_cons] at hle
        omega) with ⟨inner', hresolve, hlength'⟩
      refine ⟨inner', ?_, ?_⟩
      · rw [resolve_cons, henter, hresolve]
      · rw [hlength', hlength, rise_cons]
        omega

/-! ### The way back -/

/-- If some front has lost one name and none has lost two, there is a longest
    one that has. -/
theorem exists_last_descent (segments : List (Segment α))
    (hle : ∀ front, front <+: segments → -1 ≤ rise front)
    (hlt : ∃ front, front <+: segments ∧ rise front < 0) :
    ∃ front back, segments = front ++ back ∧ rise front = -1 ∧
      ∀ more, more <+: back → more ≠ [] → 0 ≤ rise front + rise more := by
  -- Induction from the end: the longest front below the start is the whole path, or an earlier one.
  induction segments using List.reverseRecOn with
  | nil =>
      rcases hlt with ⟨front, hfront, hneg⟩
      rw [List.prefix_nil.mp hfront, rise_nil] at hneg
      omega
  | append_singleton segments s ih =>
      by_cases hneg : rise (segments ++ [s]) < 0
      · -- The whole path is such a front.
        refine ⟨segments ++ [s], [], (List.append_nil _).symm, ?_, fun more hmore hne => ?_⟩
        · have := hle _ List.prefix_rfl
          omega
        · exact absurd (List.prefix_nil.mp hmore) hne
      · have hshorter : ∃ front, front <+: segments ∧ rise front < 0 := by
          rcases hlt with ⟨front, hfront, hfrontneg⟩
          rcases List.prefix_concat_iff.mp hfront with heq | hfront
          · exact absurd (heq ▸ hfrontneg) hneg
          · exact ⟨front, hfront, hfrontneg⟩
        rcases ih (fun front hfront => hle front (hfront.trans (List.prefix_append _ _)))
          hshorter with ⟨front, back, rfl, hrise, hmore⟩
        refine ⟨front, back ++ [s], List.append_assoc _ _ _, hrise, fun more hfront hne => ?_⟩
        rcases List.prefix_concat_iff.mp hfront with rfl | hfront
        · rw [List.append_assoc, rise_append] at hneg
          omega
        · exact hmore more hfront hne

/-- A path that stays in a directory. -/
theorem resolve_stays (a : α) (segments : List (Segment α))
    (h : ∀ front, front <+: segments → 0 ≤ rise front) :
    ∃ names, resolve ⟨0, [a]⟩ segments = ⟨0, names ++ [a]⟩ ∧
      (names.length : Int) = rise segments := by
  rcases resolve_stack [a] 0 segments [] (fun front hfront => by
    have := h front hfront
    rw [List.length_nil]
    omega) with ⟨names, hresolve, hlength⟩
  refine ⟨names, hresolve, ?_⟩
  rw [hlength, List.length_nil]
  omega

/-- A path that ends one step outside, and was never further out. -/
theorem resolve_leaves (a : α) (segments : List (Segment α)) (hrise : rise segments = -1)
    (h : ∀ front, front <+: segments → -1 ≤ rise front) :
    resolve ⟨0, [a]⟩ segments = ⟨0, []⟩ := by
  rcases resolve_stack [] 0 segments [a] (fun front hfront => by
    have := h front hfront
    rw [List.length_singleton]
    omega) with ⟨outside, hresolve, hlength⟩
  have hnil : outside = [] := by
    rw [List.length_singleton, hrise] at hlength
    exact List.eq_nil_of_length_eq_zero (by omega)
  rw [hnil] at hresolve
  exact hresolve

/-- A path that stays below the directory or comes back to it by its name ends
    in the directory. -/
theorem resolve_of_kept {root : α} {segments : List (Segment α)} (h : Kept root segments) :
    ∃ names, resolve ⟨0, [root]⟩ segments = ⟨0, names ++ [root]⟩ ∧
      (names.length : Int) = rise segments := by
  rcases h with h | ⟨front, back, rfl, hrise, hfront, hback⟩
  · exact resolve_stays root segments h
  · -- Outside there are no names, then the name of the directory, then the rest.
    rcases resolve_stays root back hback with ⟨names, hresolve, hlength⟩
    refine ⟨names, ?_, ?_⟩
    · rw [resolve_append, resolve_leaves root front hrise hfront]
      exact hresolve
    · rw [hlength, rise_append, rise_cons, hrise, Segment.rise]
      omega

/-- A path that ends below the directory it began in was never two steps out. -/
theorem rise_of_inside {root : α} {segments : List (Segment α)}
    (h : (resolve ⟨0, [root]⟩ segments).ups = 0) {front : List (Segment α)}
    (hfront : front <+: segments) : -1 ≤ rise front := by
  rcases hfront with ⟨back, rfl⟩
  have hheight := height_resolve front (⟨0, [root]⟩ : Place α)
  have hmono := ups_le_resolve back (resolve (⟨0, [root]⟩ : Place α) front)
  rw [← resolve_append, h] at hmono
  simp only [Place.height, List.length_singleton] at hheight
  omega

/-- What stands behind the longest front that is outside is the name by which
    the path comes back. -/
theorem kept_of_inside {root : α} {segments : List (Segment α)}
    (h : Inside root (resolve ⟨0, [root]⟩ segments)) : Kept root segments := by
  rcases h with ⟨hups, names, _, hnames⟩
  have hle : ∀ front, front <+: segments → -1 ≤ rise front := fun front => rise_of_inside hups
  by_cases hstays : ∀ front, front <+: segments → 0 ≤ rise front
  · exact .inl hstays
  · have hlt : ∃ front, front <+: segments ∧ rise front < 0 := by
      by_contra hall
      refine hstays fun front hfront => ?_
      by_contra hneg
      exact hall ⟨front, hfront, by omega⟩
    rcases exists_last_descent segments hle hlt with ⟨front, back, rfl, hrise, hmore⟩
    -- Behind the last descent the path does not come below it again.
    have hfront : ∀ more, more <+: front → -1 ≤ rise more :=
      fun more hfront => hle more (hfront.trans (List.prefix_append _ _))
    rw [resolve_append, resolve_leaves root front hrise hfront] at hnames
    cases back with
    | nil =>
        have hlength := congrArg List.length hnames
        rw [resolve_nil, List.length_append] at hlength
        simp only [List.length_nil, List.length_singleton] at hlength
        omega
    | cons s back =>
        have hs := hmore [s] (List.prefix_append [s] back) (List.cons_ne_nil _ _)
        rw [hrise, rise_cons, rise_nil] at hs
        -- So the segment behind the descent is a name, and it stays in front.
        cases s with
        | current => simp [Segment.rise] at hs
        | parent => simp [Segment.rise] at hs
        | name a =>
            have hback : ∀ more, more <+: back → 0 ≤ rise more := by
              intro more hfront
              have := hmore (.name a :: more) (List.cons_prefix_cons.mpr ⟨rfl, hfront⟩)
                (List.cons_ne_nil _ _)
              rw [hrise, rise_cons, Segment.rise] at this
              omega
            rcases resolve_stays a back hback with ⟨inner, hinner, _⟩
            have henter : (⟨0, []⟩ : Place α).enter (.name a) = ⟨0, [a]⟩ := rfl
            rw [resolve_cons, henter, hinner] at hnames
            have hlast := congrArg List.getLast? hnames
            rw [List.getLast?_concat, List.getLast?_concat, Option.some.injEq] at hlast
            subst hlast
            exact .inr ⟨front, back, rfl, hrise, hfront, hback⟩

/-- A path ends below the directory it began in if and only if it never leaves
    it or comes back by its name, and has more names than `..`. -/
theorem inside_resolve_iff (root : α) (segments : List (Segment α)) :
    Inside root (resolve ⟨0, [root]⟩ segments) ↔ Kept root segments ∧ 0 < rise segments := by
  constructor
  · intro h
    refine ⟨kept_of_inside h, ?_⟩
    rcases h with ⟨hups, names, hne, hnames⟩
    -- The height says how many names there are in the end.
    have hheight := height_resolve segments (⟨0, [root]⟩ : Place α)
    have hpos : 0 < names.length := List.length_pos_iff.mpr hne
    rw [Place.height, hups, hnames, List.length_append] at hheight
    simp only [Place.height, List.length_singleton] at hheight
    omega
  · rintro ⟨hkept, hpos⟩
    rcases resolve_of_kept hkept with ⟨names, hresolve, hlength⟩
    refine ⟨by rw [hresolve], names, ?_, by rw [hresolve]⟩
    rintro rfl
    rw [List.length_nil] at hlength
    omega

/-- If the last segment is another name, a path that is kept has more names than
    `..`. -/
theorem rise_pos_of_kept {root a : α} {segments : List (Segment α)} (hne : a ≠ root)
    (h : Kept root (segments ++ [.name a])) : 0 < rise (segments ++ [.name a]) := by
  have hrise : 0 ≤ rise segments := by
    -- The segment before the name lies at the height of the root or above.
    rcases h with h | ⟨front, back, heq, hrise, _, hback⟩
    · exact h segments (List.prefix_append _ _)
    · rcases List.eq_nil_or_concat back with rfl | ⟨more, s, rfl⟩
      · have hlast := (List.append_inj' heq rfl).2
        simp only [List.cons.injEq, Segment.name.injEq] at hlast
        exact absurd hlast.1 hne
      · rw [List.concat_eq_append, ← List.cons_append, ← List.append_assoc] at heq
        have hmore := hback more (by rw [List.concat_eq_append]; exact List.prefix_append _ _)
        rw [(List.append_inj' heq rfl).1, rise_append, rise_cons, hrise, Segment.rise]
        omega
  rw [rise_append, rise_cons, rise_nil, Segment.rise]
  omega

end Paths

end EpollServer
