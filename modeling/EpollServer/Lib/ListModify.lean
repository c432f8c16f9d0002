import Mathlib

/-!
# Changing One Element of a List

A system of several parties keeps their states in a list, and a step of one
party is `List.modify` at its index. What a step does to a statement about
all parties (all satisfy `p`, so many satisfy `p`, these are the values they
hold) depends on that one element only.

`modify_split` cuts the list at the element; the other lemmas are read off
it. They are stated without subtraction: what the old element contributed is
added on one side and what the new one contributes on the other.

## Theorems

* `modify_split`: A list and its modification differ in one element.
* `mem_of_mem_modify`: An element of the modified list is the new one or an
  old one.
* `mem_modify_self`: The new element is in the modified list.
* `mem_modify_of_ne`: The other elements stay.
* `countP_modify`: Counting after a modification.
* `sum_modify`: Summing after a modification.
* `exists_of_exists_modify`: What the new element lacks was there before.
* `mem_set_of_ne`: Setting one element keeps the others.
* `filterMap_modify_perm`: Collecting after a modification.
* `filter_modify_sublist`: A modification adds nothing that the new element is
  not.
* `index_unique`: What nobody else holds is held at one index.
* `length_filterMap_le_sum`, `length_filterMap_eq_sum`: The number of things
  held, and a sum of weights.
* `length_le_sum`, `sum_le_length`: The number of indices whose elements have
  a weight.
* `countP_le_length`, `length_le_countP`: Counting elements by their indices.
* `map_modify`: A part of the elements after a modification.
* `modify_self`: A modification that changes nothing.
* `modify_concat`: A modification of the last element.
-/

namespace EpollServer

namespace ListModify

variable {β γ : Type*}

/-- Cut a list at index `i`: modifying there replaces the element between two
    unchanged parts. -/
theorem modify_split {l : List β} {i : Nat} {a : β} (h : l[i]? = some a) :
    ∃ xs ys, l = xs ++ a :: ys ∧ ∀ f : β → β, l.modify i f = xs ++ f a :: ys := by
  rcases List.getElem?_eq_some_iff.mp h with ⟨hlt, hget⟩
  refine ⟨l.take i, l.drop (i + 1), ?_, ?_⟩
  · rw [← hget, List.getElem_cons_drop, List.take_append_drop]
  · intro f
    rw [List.modify_eq_take_cons_drop hlt, hget]

theorem mem_of_mem_modify {l : List β} {i : Nat} {a b : β} {f : β → β} (h : l[i]? = some a)
    (hb : b ∈ l.modify i f) : b = f a ∨ b ∈ l := by
  rcases modify_split h with ⟨xs, ys, hl, hm⟩
  rw [hm, List.mem_append, List.mem_cons] at hb
  rw [hl, List.mem_append, List.mem_cons]
  rcases hb with hx | he | hy
  · exact Or.inr (Or.inl hx)
  · exact Or.inl he
  · exact Or.inr (Or.inr (Or.inr hy))

theorem mem_modify_self {l : List β} {i : Nat} {a : β} (f : β → β) (h : l[i]? = some a) :
    f a ∈ l.modify i f := by
  rcases modify_split h with ⟨xs, ys, _, hm⟩
  rw [hm]
  exact List.mem_append_right xs List.mem_cons_self

theorem mem_modify_of_ne {l : List β} {i : Nat} {a b : β} {f : β → β} (h : l[i]? = some a)
    (hb : b ∈ l) (hne : b ≠ a) : b ∈ l.modify i f := by
  rcases modify_split h with ⟨xs, ys, hl, hm⟩
  rw [hl, List.mem_append, List.mem_cons] at hb
  rw [hm, List.mem_append, List.mem_cons]
  rcases hb with hx | he | hy
  · exact Or.inl hx
  · exact absurd he hne
  · exact Or.inr (Or.inr hy)

/-- A count changes by what the one element contributes. -/
theorem countP_modify {l : List β} {i : Nat} {a : β} (p : β → Bool) (f : β → β)
    (h : l[i]? = some a) :
    (l.modify i f).countP p + (if p a then 1 else 0) =
      l.countP p + (if p (f a) then 1 else 0) := by
  rcases modify_split h with ⟨xs, ys, hl, hm⟩
  rw [hm, hl, List.countP_append, List.countP_append, List.countP_cons, List.countP_cons]
  omega

/-- A sum over the elements changes by what the one element contributes. -/
theorem sum_modify {l : List β} {i : Nat} {a : β} (g : β → Nat) (f : β → β)
    (h : l[i]? = some a) :
    ((l.modify i f).map g).sum + g a = (l.map g).sum + g (f a) := by
  rcases modify_split h with ⟨xs, ys, hl, hm⟩
  rw [hm, hl, List.map_append, List.map_append, List.sum_append, List.sum_append, List.map_cons,
    List.map_cons, List.sum_cons, List.sum_cons]
  omega

/-- An element with a property that the new one lacks was there before. -/
theorem exists_of_exists_modify {l : List β} {i : Nat} {a : β} {f : β → β} {p : β → Prop}
    (h : l[i]? = some a) (hp : ¬ p (f a)) (he : ∃ b ∈ l.modify i f, p b) : ∃ b ∈ l, p b := by
  rcases he with ⟨b, hb, hpb⟩
  rcases mem_of_mem_modify h hb with rfl | hold
  · exact absurd hpb hp
  · exact ⟨b, hold, hpb⟩

/-- Setting one element keeps every other one. -/
theorem mem_set_of_ne {l : List β} {i : Nat} {a b c : β} (h : l[i]? = some a) (hb : b ∈ l)
    (hne : b ≠ a) : b ∈ l.set i c := by
  rcases List.getElem?_of_mem hb with ⟨j, hj⟩
  have hij : i ≠ j := by
    rintro rfl
    exact hne (Option.some.inj (hj.symm.trans h))
  exact List.mem_of_getElem? ((List.getElem?_set_ne hij).trans hj)

/-- What the elements hold, collected into one list, changes by what the one
    element holds. -/
theorem filterMap_modify_perm {l : List β} {i : Nat} {a : β} (g : β → Option γ) (f : β → β)
    (h : l[i]? = some a) :
    ((g a).toList ++ (l.modify i f).filterMap g).Perm
      ((g (f a)).toList ++ l.filterMap g) := by
  rcases modify_split h with ⟨xs, ys, hl, hm⟩
  have hcons : ∀ b : β, (b :: ys).filterMap g = (g b).toList ++ ys.filterMap g := by
    intro b
    cases hg : g b with
    | none => rw [List.filterMap_cons_none hg]; rfl
    | some c => rw [List.filterMap_cons_some hg]; rfl
  rw [hm, hl, List.filterMap_append, List.filterMap_append, hcons, hcons]
  -- Both sides hold the same four pieces.
  calc ((g a).toList ++ (xs.filterMap g ++ ((g (f a)).toList ++ ys.filterMap g))).Perm
        ((g a).toList ++ ((g (f a)).toList ++ (xs.filterMap g ++ ys.filterMap g))) :=
        List.Perm.append_left _ (List.perm_append_comm_assoc _ _ _)
    _ |>.Perm ((g (f a)).toList ++ ((g a).toList ++ (xs.filterMap g ++ ys.filterMap g))) :=
        List.perm_append_comm_assoc _ _ _
    _ |>.Perm ((g (f a)).toList ++ (xs.filterMap g ++ ((g a).toList ++ ys.filterMap g))) :=
        List.Perm.append_left _ (List.perm_append_comm_assoc _ _ _)

/-- If the new element is filtered out, a modification only removes. -/
theorem filter_modify_sublist (p : β → Bool) (f : β → β) (hp : ∀ a, p (f a) = false)
    (l : List β) (i : Nat) : ((l.modify i f).filter p).Sublist (l.filter p) := by
  cases h : l[i]? with
  | none =>
      rw [List.modify_eq_self (List.getElem?_eq_none_iff.mp h)]
  | some a =>
      rcases modify_split h with ⟨xs, ys, hl, hm⟩
      rw [hm, hl, List.filter_append, List.filter_append,
        List.filter_cons_of_neg (by rw [hp]; exact Bool.false_ne_true)]
      exact List.Sublist.append_left ((List.sublist_cons_self a ys).filter p) _

/-- If nothing is held twice, what is held at two indices is held at one. -/
theorem index_unique (g : β → Option γ) (c : γ) : ∀ (l : List β) (i j : Nat) (a b : β),
    (l.filterMap g).Nodup → l[i]? = some a → l[j]? = some b → g a = some c → g b = some c →
    i = j := by
  intro l
  induction l with
  | nil =>
      intro i j a b _ ha
      simp only [List.getElem?_nil, reduceCtorEq] at ha
  | cons x xs ih =>
      intro i j a b hnodup ha hb hga hgb
      have hrest : (xs.filterMap g).Nodup := by
        refine List.Nodup.sublist ?_ hnodup
        exact List.Sublist.filterMap g (List.sublist_cons_self x xs)
      -- Whatever the head holds, the tail does not.
      have hhead : ∀ (n : Nat) (y : β), xs[n]? = some y → g y = some c → g x = some c → False := by
        intro n y hy hgy hgx
        rw [List.filterMap_cons_some hgx, List.nodup_cons] at hnodup
        exact hnodup.1 (List.mem_filterMap.mpr ⟨y, List.mem_of_getElem? hy, hgy⟩)
      cases i with
      | zero =>
          rw [List.getElem?_cons_zero, Option.some.injEq] at ha
          cases j with
          | zero => rfl
          | succ m =>
              rw [List.getElem?_cons_succ] at hb
              rw [← ha] at hga
              exact absurd (hhead m b hb hgb hga) not_false
      | succ n =>
          rw [List.getElem?_cons_succ] at ha
          cases j with
          | zero =>
              rw [List.getElem?_cons_zero, Option.some.injEq] at hb
              rw [← hb] at hgb
              exact absurd (hhead n a ha hga hgb) not_false
          | succ m =>
              rw [List.getElem?_cons_succ] at hb
              rw [ih n m a b hrest ha hb hga hgb]

theorem length_filterMap_cons (g : β → Option γ) (x : β) (xs : List β) :
    ((x :: xs).filterMap g).length = (g x).toList.length + (xs.filterMap g).length := by
  cases hg : g x with
  | none => rw [List.filterMap_cons_none hg, Option.toList_none, List.length_nil, Nat.zero_add]
  | some c =>
      rw [List.filterMap_cons_some hg, List.length_cons, Option.toList_some, List.length_singleton]
      omega

/-- Who holds something has at least weight one. -/
theorem length_filterMap_le_sum (g : β → Option γ) (w : β → Nat)
    (h : ∀ a, (g a).toList.length ≤ w a) (l : List β) :
    (l.filterMap g).length ≤ (l.map w).sum := by
  induction l with
  | nil => exact Nat.le_refl 0
  | cons x xs ih =>
      rw [length_filterMap_cons, List.map_cons, List.sum_cons]
      have hx := h x
      omega

/-- If the weights are the number of things held, so is their sum. -/
theorem length_filterMap_eq_sum (g : β → Option γ) (w : β → Nat) (l : List β)
    (h : ∀ a ∈ l, (g a).toList.length = w a) : (l.filterMap g).length = (l.map w).sum := by
  induction l with
  | nil => rfl
  | cons x xs ih =>
      rw [length_filterMap_cons, List.map_cons, List.sum_cons, h x List.mem_cons_self,
        ih (fun a ha => h a (List.mem_cons_of_mem x ha))]

/-- One part of each element. -/
theorem map_modify {l : List β} {i : Nat} {a : β} (g : β → γ) (b : β) (h : l[i]? = some a) :
    (l.modify i (fun _ => b)).map g = (l.map g).modify i (fun _ => g b) := by
  refine List.ext_getElem? (fun j => ?_)
  by_cases hj : i = j
  · rw [← hj, List.getElem?_map, List.getElem?_modify_eq, List.getElem?_modify_eq,
      List.getElem?_map, h]
    rfl
  · rw [List.getElem?_map, List.getElem?_modify_ne _ _ hj, List.getElem?_modify_ne _ _ hj,
      List.getElem?_map]

theorem modify_self {l : List β} {i : Nat} {a : β} (h : l[i]? = some a) :
    l.modify i (fun _ => a) = l := by
  rcases modify_split h with ⟨xs, ys, hl, hm⟩
  rw [hm, hl]

/-- Different indices, each of an element with a weight. -/
theorem length_le_sum (w : β → Nat) (l : List β) : ∀ is : List Nat, is.Nodup →
    (∀ i ∈ is, ∃ a, l[i]? = some a ∧ 1 ≤ w a) → is.length ≤ (l.map w).sum := by
  induction l using List.reverseRecOn with
  | nil =>
      intro is _ h
      cases is with
      | nil => exact Nat.le_refl 0
      | cons i rest =>
          rcases h i List.mem_cons_self with ⟨a, ha, _⟩
          simp only [List.getElem?_nil, reduceCtorEq] at ha
  | append_singleton xs x ih =>
      intro is hnodup h
      rw [List.map_append, List.sum_append, List.map_singleton, List.sum_singleton]
      -- All indices but the last one are indices of `xs`.
      have hrest := ih (is.erase xs.length) (hnodup.erase _) (fun i hi => by
        rcases (hnodup.mem_erase_iff).mp hi with ⟨hne, hmem⟩
        rcases h i hmem with ⟨a, ha, hw⟩
        have hlt := (List.getElem?_eq_some_iff.mp ha).1
        rw [List.length_append, List.length_singleton] at hlt
        rw [List.getElem?_append_left (by omega)] at ha
        exact ⟨a, ha, hw⟩)
      by_cases hlast : xs.length ∈ is
      · rcases h _ hlast with ⟨a, ha, hw⟩
        rw [List.getElem?_append_right (Nat.le_refl _), Nat.sub_self, List.getElem?_cons_zero,
          Option.some.injEq] at ha
        rw [List.length_erase_of_mem hlast] at hrest
        rw [ha]
        omega
      · rw [List.erase_of_not_mem hlast] at hrest
        omega

/-- Where no element weighs more than one, the indices of those that weigh
    something are no fewer than the sum. -/
theorem sum_le_length (w : β → Nat) (hw : ∀ a, w a ≤ 1) (l : List β) : ∀ is : List Nat,
    (∀ i a, l[i]? = some a → w a = 1 → i ∈ is) → (l.map w).sum ≤ is.length := by
  induction l using List.reverseRecOn with
  | nil => exact fun is _ => Nat.zero_le _
  | append_singleton xs x ih =>
      intro is h
      rw [List.map_append, List.sum_append, List.map_singleton, List.sum_singleton]
      have hrest := ih (is.erase xs.length) (fun i a hi ha => by
        have hlt := (List.getElem?_eq_some_iff.mp hi).1
        refine (List.mem_erase_of_ne (Nat.ne_of_lt hlt)).mpr (h i a ?_ ha)
        rw [List.getElem?_append_left hlt]
        exact hi)
      have hone := hw x
      by_cases hx : w x = 1
      · have hlast : xs.length ∈ is := by
          refine h xs.length x ?_ hx
          rw [List.getElem?_append_right (Nat.le_refl _), Nat.sub_self, List.getElem?_cons_zero]
        have hpos := List.length_pos_of_mem hlast
        rw [List.length_erase_of_mem hlast] at hrest
        omega
      · have hle : (is.erase xs.length).length ≤ is.length := List.erase_sublist.length_le
        omega

theorem sum_indicator (p : β → Bool) (l : List β) :
    (l.map fun a => if p a then 1 else 0).sum = l.countP p := by
  induction l with
  | nil => rfl
  | cons x xs ih => rw [List.map_cons, List.sum_cons, List.countP_cons, ih, Nat.add_comm]

/-- The elements that satisfy `p` are no more than indices that cover them. -/
theorem countP_le_length (p : β → Bool) (l : List β) (is : List Nat)
    (h : ∀ i a, l[i]? = some a → p a = true → i ∈ is) : l.countP p ≤ is.length := by
  rw [← sum_indicator]
  refine sum_le_length _ (fun a => ?_) l is (fun i a hi ha => h i a hi ?_)
  · cases p a <;> simp only [Bool.false_eq_true, if_false, if_true, Nat.zero_le, Nat.le_refl]
  · by_contra hp
    rw [if_neg hp] at ha
    exact Nat.zero_ne_one ha

/-- And no fewer than different indices of some of them. -/
theorem length_le_countP (p : β → Bool) (l : List β) (is : List Nat) (hnodup : is.Nodup)
    (h : ∀ i ∈ is, ∃ a, l[i]? = some a ∧ p a = true) : is.length ≤ l.countP p := by
  rw [← sum_indicator]
  refine length_le_sum _ l is hnodup (fun i hi => ?_)
  rcases h i hi with ⟨a, ha, hp⟩
  exact ⟨a, ha, by rw [if_pos hp]⟩

/-- The first element behind a list is modified. -/
theorem modify_append (l rest : List β) (a : β) (f : β → β) :
    (l ++ a :: rest).modify l.length f = l ++ f a :: rest := by
  induction l with
  | nil => rfl
  | cons x xs ih => rw [List.cons_append, List.length_cons, List.modify_succ_cons, ih]; rfl

/-- Behind a list there is one element to modify. -/
theorem modify_concat (l : List β) (a : β) (f : β → β) :
    (l ++ [a]).modify l.length f = l ++ [f a] := modify_append l [] a f

end ListModify

end EpollServer
