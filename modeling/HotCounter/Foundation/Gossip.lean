import Mathlib

/-!
# Copies of a growing state and the updates merged into them

Replicas hold states whose views form a join-semilattice, update them upwards and merge copies
of one another. A copy is kept together with the set of updates that have been merged into it,
directly or through other copies. As long as every view is the join of what those updates left
behind (`Copy.Joins`), the set of updates determines the view and is monotone in it, whatever
route the updates took.
-/

namespace HotCounter

namespace Foundation

/-- A copy of a replica's state together with the updates merged into it. -/
structure Copy (υ σ : Type*) where
  state : σ
  merged : Finset υ

namespace Copy

variable {υ σ L : Type*} [SemilatticeSup L] [OrderBot L] {view : σ → L} {after after' : υ → L}

/-- The view of a copy is the **join of what its updates left behind**. -/
def Joins (view : σ → L) (after : υ → L) (c : Copy υ σ) : Prop :=
  view c.state = c.merged.sup after

theorem joins_empty {s : σ} (h : view s = ⊥) : Joins view after ⟨s, ∅⟩ := by
  rw [Joins, Finset.sup_empty, h]

/-- Only what the merged updates left behind matters. -/
theorem Joins.congr {c : Copy υ σ} (h : Joins view after c)
    (hsame : ∀ u ∈ c.merged, after u = after' u) : Joins view after' c :=
  Eq.trans h (Finset.sup_congr rfl hsame)

/-- Merging two copies joins their views and unites their updates. -/
theorem Joins.merge [DecidableEq υ] {c d : Copy υ σ} {s : σ} (hc : Joins view after c)
    (hd : Joins view after d) (hs : view s = view c.state ⊔ view d.state) :
    Joins view after ⟨s, c.merged ∪ d.merged⟩ := by
  rw [Joins, Finset.sup_union, ← hc, ← hd]
  exact hs

/-- An inflationary update adds itself to the updates of the copy. -/
theorem Joins.update [DecidableEq υ] {c : Copy υ σ} {s : σ} {u : υ} (hc : Joins view after c)
    (hle : view c.state ≤ view s) (hu : after u = view s) :
    Joins view after ⟨s, insert u c.merged⟩ := by
  rw [Joins, Finset.sup_insert, ← hc, hu]
  exact (sup_eq_left.mpr hle).symm

/-- More updates, larger view. -/
theorem Joins.mono {c d : Copy υ σ} (hc : Joins view after c) (hd : Joins view after d)
    (hsub : c.merged ⊆ d.merged) : view c.state ≤ view d.state :=
  calc view c.state = c.merged.sup after := hc
    _ ≤ d.merged.sup after := Finset.sup_mono hsub
    _ = view d.state := hd.symm

/-- **The same updates, the same view.** -/
theorem Joins.eq {c d : Copy υ σ} (hc : Joins view after c) (hd : Joins view after d)
    (hsame : c.merged = d.merged) : view c.state = view d.state :=
  le_antisymm (hc.mono hd hsame.subset) (hd.mono hc hsame.symm.subset)

end Copy

end Foundation

end HotCounter
