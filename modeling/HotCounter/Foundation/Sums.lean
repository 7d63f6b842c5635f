import Mathlib

/-!
# Sums under a change in one place

A step of a concurrent system changes one cell of an array or the local state of one
thread. The lemmas here say what that does to a sum over all cells or over all threads,
in the additive form `new + old cell = old + new cell`, which needs no subtraction.
-/

namespace HotCounter

namespace Foundation

/-- Replacing one entry of a list changes a sum over the list by the difference at it. -/
theorem sum_map_set_add {α : Type*} (f : α → ℕ) (a d : α) : ∀ (l : List α) (i : ℕ),
    i < l.length →
      ((l.set i a).map f).sum + f (l.getD i d) = (l.map f).sum + f a
  | [], _, h => absurd h (by simp)
  | x :: l, 0, _ => by
    simp only [List.set_cons_zero, List.map_cons, List.sum_cons, List.getD_cons_zero]
    omega
  | x :: l, i + 1, h => by
    have ih := sum_map_set_add f a d l i (by simpa using h)
    simp only [List.set_cons_succ, List.map_cons, List.sum_cons, List.getD_cons_succ]
    omega

/-- Replacing an entry by one with the same image leaves the images alone. -/
theorem map_set_of_eq {α β : Type*} (f : α → β) (a d : α) : ∀ (l : List α) (i : ℕ),
    f a = f (l.getD i d) → (l.set i a).map f = l.map f
  | [], _, _ => rfl
  | x :: l, 0, h => by simpa using h
  | x :: l, i + 1, h => by
    rw [List.set_cons_succ, List.map_cons, List.map_cons,
      map_set_of_eq f a d l i (by simpa using h)]

/-- Replacing the local state of one thread changes a sum over all threads by the
difference at that thread. -/
theorem sum_update_add {ι β : Type*} [Fintype ι] [DecidableEq ι] (f : β → ℕ) (g : ι → β)
    (i : ι) (b : β) :
    ∑ j, f (Function.update g i b j) + f (g i) = ∑ j, f (g j) + f b := by
  have hcomp : (fun j => f (Function.update g i b j)) =
      Function.update (fun j => f (g j)) i (f b) := by
    funext j
    by_cases h : j = i
    · subst h; simp
    · simp [Function.update_of_ne h]
  rw [hcomp, Finset.sum_update_of_mem (Finset.mem_univ i),
    ← Finset.add_sum_erase Finset.univ (fun j => f (g j)) (Finset.mem_univ i),
    Finset.sdiff_singleton_eq_erase]
  omega

/-- One term of a sum over all threads is at most the sum. -/
theorem le_sum {ι : Type*} [Fintype ι] (f : ι → ℕ) (i : ι) : f i ≤ ∑ j, f j :=
  Finset.single_le_sum_of_canonicallyOrdered (Finset.mem_univ i)

/-- Prefix sums of a list grow by the entry they pass. -/
theorem sum_map_take_succ {α : Type*} (f : α → ℕ) (d : α) (l : List α) (i : ℕ)
    (h : i < l.length) :
    ((l.take (i + 1)).map f).sum = ((l.take i).map f).sum + f (l.getD i d) := by
  rw [List.take_add_one, List.map_append, List.sum_append]
  simp [List.getElem?_eq_getElem h, List.getD_eq_getElem?_getD]

/-- A sum taken modulo `m` after every addition is the exact sum once that fits. -/
theorem foldl_mod_eq {α : Type*} (f : α → ℕ) (m : ℕ) : ∀ (l : List α) (a : ℕ),
    a + (l.map f).sum < m → l.foldl (fun t x => (t + f x) % m) a = a + (l.map f).sum
  | [], a, _ => by simp
  | x :: l, a, h => by
    simp only [List.map_cons, List.sum_cons] at h
    have hmod : (a + f x) % m = a + f x := Nat.mod_eq_of_lt (by omega)
    rw [List.foldl_cons, hmod, foldl_mod_eq f m l (a + f x) (by omega)]
    simp only [List.map_cons, List.sum_cons]
    omega

/-- A list with distinct keys that has an entry for each element of a finite set sums to at
least the sum over the set. -/
theorem sum_le_of_keys {α κ : Type*} [DecidableEq κ] (key : α → κ) (val : α → ℕ) (f : κ → ℕ) :
    ∀ (l : List α) (s : Finset κ), (l.map key).Nodup →
      (∀ i ∈ s, ∃ a ∈ l, key a = i ∧ val a = f i) → ∑ i ∈ s, f i ≤ (l.map val).sum
  | [], s, _, h => by
    have hempty : s = ∅ := Finset.eq_empty_of_forall_notMem fun i hi => by
      obtain ⟨a, ha, -⟩ := h i hi
      exact absurd ha List.not_mem_nil
    simp [hempty]
  | a :: l, s, hnodup, h => by
    obtain ⟨hnot, hnodup⟩ := List.nodup_cons.mp hnodup
    -- the entries of the other keys are in the tail
    have htail : ∀ i ∈ s.erase (key a), ∃ b ∈ l, key b = i ∧ val b = f i := by
      intro i hi
      obtain ⟨hne, hi⟩ := Finset.mem_erase.mp hi
      obtain ⟨b, hb, hkey, hval⟩ := h i hi
      rcases List.mem_cons.mp hb with rfl | hb
      · exact absurd hkey.symm hne
      · exact ⟨b, hb, hkey, hval⟩
    have ih := sum_le_of_keys key val f l (s.erase (key a)) hnodup htail
    simp only [List.map_cons, List.sum_cons]
    by_cases hmem : key a ∈ s
    · have hsum := Finset.add_sum_erase s f hmem
      obtain ⟨b, hb, hkey, hval⟩ := h _ hmem
      rcases List.mem_cons.mp hb with rfl | hb
      · omega
      · exact absurd (hkey ▸ List.mem_map_of_mem hb) hnot
    · rw [Finset.erase_eq_of_notMem hmem] at ih
      omega

end Foundation

end HotCounter
