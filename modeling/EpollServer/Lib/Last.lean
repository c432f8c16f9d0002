import Mathlib

/-!
# What Is Written Last

A loop that keeps one result and overwrites it with each element that gives a
new one. What it leaves is the last of the new results, or the result it began
with if there is none (`overwrite_eq`).

Such a loop depends on the order of its elements as soon as two of them give
different results: each can be moved to the end. So all orders agree if and
only if all the new results do (`overwrite_perm_iff`).

A map that is written key by key is such a loop at every key.

## Main definitions

* `overwrite`: Overwrite a result with every element that gives one.
* `writeAll`: Write a list of keys and values to a map.
* `lastValue`: The last value of a key.

## Theorems

* `overwrite_eq`: The last of the new results is left.
* `overwrite_perm_iff`: When the order does not matter.
* `lastValue_map`: Values that are mapped.
* `writeAll_eq`: The last value of every key is left.
-/

namespace EpollServer

namespace Last

variable {α β κ : Type*}

/-- Overwrite a result with every element that gives one. -/
def overwrite (f : α → Option β) (b : β) (l : List α) : β :=
  l.foldl (fun b a => (f a).getD b) b

@[simp] theorem overwrite_nil (f : α → Option β) (b : β) : overwrite f b [] = b := rfl

theorem overwrite_cons (f : α → Option β) (b : β) (a : α) (l : List α) :
    overwrite f b (a :: l) = overwrite f ((f a).getD b) l := rfl

theorem overwrite_append (f : α → Option β) (b : β) (l l' : List α) :
    overwrite f b (l ++ l') = overwrite f (overwrite f b l) l' := List.foldl_append

/-- The last of the new results is left. -/
theorem overwrite_eq (f : α → Option β) (l : List α) :
    ∀ b, overwrite f b l = (l.filterMap f).getLast?.getD b := by
  induction l with
  | nil => exact fun b => rfl
  | cons a l ih =>
      intro b
      rw [overwrite_cons, ih, List.filterMap_cons]
      cases f a with
      | none => rfl
      | some new =>
          rw [List.getLast?_cons]
          cases (l.filterMap f).getLast? with
          | none => rfl
          | some last => rfl

/-- The element that gives a new result can be the last one. -/
theorem overwrite_moved (f : α → Option β) (b : β) {l : List α} {x : β}
    (h : x ∈ l.filterMap f) : ∃ other, l.Perm other ∧ overwrite f b other = x := by
  rcases List.mem_filterMap.mp h with ⟨a, ha, hx⟩
  rcases List.append_of_mem ha with ⟨before, behind, rfl⟩
  refine ⟨before ++ behind ++ [a], ?_, ?_⟩
  · rw [List.append_assoc]
    exact List.Perm.append_left before (@List.perm_append_comm _ [a] behind)
  · rw [overwrite_append, overwrite_cons, overwrite_nil, hx, Option.getD_some]

/-- All orders of a list leave the same result if and only if all new results
    are the same. -/
theorem overwrite_perm_iff (f : α → Option β) (b : β) (l : List α) :
    (∀ other, l.Perm other → overwrite f b other = overwrite f b l) ↔
      ∀ x ∈ l.filterMap f, ∀ y ∈ l.filterMap f, x = y := by
  constructor
  · intro h x hx y hy
    -- Each of the two is what is left by some order.
    rcases overwrite_moved f b hx with ⟨l₁, hl₁, rfl⟩
    rcases overwrite_moved f b hy with ⟨l₂, hl₂, rfl⟩
    rw [h l₁ hl₁, h l₂ hl₂]
  · intro h other hperm
    rw [overwrite_eq, overwrite_eq]
    have hnew := hperm.filterMap f
    cases hlast : (other.filterMap f).getLast? with
    | none =>
        rw [List.getLast?_eq_none_iff] at hlast
        rw [hlast, List.perm_nil] at hnew
        rw [hnew]
        rfl
    | some x =>
        have hx := hnew.mem_iff.mpr (List.mem_of_getLast? hlast)
        cases hown : (l.filterMap f).getLast? with
        | none =>
            rw [List.getLast?_eq_none_iff] at hown
            rw [hown] at hx
            exact absurd hx List.not_mem_nil
        | some y => exact h x hx y (List.mem_of_getLast? hown)

/-! ### Maps -/

variable [DecidableEq κ]

/-- Write a list of keys and values to a map. -/
def writeAll (m : κ → Option β) (l : List (κ × β)) : κ → Option β :=
  l.foldl (fun m p => Function.update m p.1 (some p.2)) m

/-- The last value of a key. -/
def lastValue (l : List (κ × β)) (k : κ) : Option β :=
  (l.filterMap fun p => if p.1 = k then some p.2 else none).getLast?

theorem lastValue_map (g : β → α) (l : List (κ × β)) (k : κ) :
    lastValue (l.map fun p => (p.1, g p.2)) k = (lastValue l k).map g := by
  rw [lastValue, lastValue, List.filterMap_map, ← List.getLast?_map, List.map_filterMap]
  refine congrArg List.getLast? (List.filterMap_congr fun p _ => ?_)
  simp only [Function.comp_apply]
  split <;> rfl

/-- At one key, writing to a map is overwriting a result. -/
theorem writeAll_apply (l : List (κ × β)) (k : κ) : ∀ m : κ → Option β,
    writeAll m l k = overwrite (fun p => if p.1 = k then some (some p.2) else none) (m k) l := by
  induction l with
  | nil => exact fun m => rfl
  | cons p l ih =>
      intro m
      rw [overwrite_cons, writeAll, List.foldl_cons]
      refine (ih _).trans ?_
      by_cases hk : p.1 = k
      · rw [if_pos hk, ← hk, Function.update_self, Option.getD_some]
      · rw [if_neg hk, Function.update_of_ne (Ne.symm hk), Option.getD_none]

/-- The last value of every key is left. -/
theorem writeAll_eq (l : List (κ × β)) (k : κ) :
    writeAll (fun _ => none) l k = lastValue l k := by
  have hmap : (l.filterMap fun p => if p.1 = k then some (some p.2) else none) =
      (l.filterMap fun p => if p.1 = k then some p.2 else none).map some := by
    rw [List.map_filterMap]
    refine List.filterMap_congr fun p _ => ?_
    split <;> rfl
  rw [writeAll_apply, overwrite_eq, hmap, List.getLast?_map, lastValue]
  cases (l.filterMap fun p => if p.1 = k then some p.2 else none).getLast? with
  | none => rfl
  | some v => rfl

end Last

end EpollServer
