import Mathlib

/-!
# Hash maps as association lists

The operations of a hash map with unique keys on a list of entries, in some order of iteration.
`emplace` leaves an existing entry alone, `assign` writes through an entry that was found.
-/

namespace HotCounter

namespace Foundation

namespace Assoc

variable {κ β : Type*} [DecidableEq κ] {m : List (κ × β)} {k k' : κ} {v w : β}

/-- The value under a key. -/
def find (m : List (κ × β)) (k : κ) : Option β :=
  (m.find? fun entry => entry.1 = k).map Prod.snd

/-- Add an entry unless the key has one. -/
def emplace (m : List (κ × β)) (k : κ) (v : β) : List (κ × β) :=
  match find m k with
  | some _ => m
  | none => m ++ [(k, v)]

/-- Write the entry of a key. -/
def assign (m : List (κ × β)) (k : κ) (v : β) : List (κ × β) :=
  m.map fun entry => if entry.1 = k then (k, v) else entry

/-- Take out the entry of a key. -/
def erase (m : List (κ × β)) (k : κ) : List (κ × β) :=
  m.filter fun entry => entry.1 ≠ k

@[simp]
theorem find_nil : find ([] : List (κ × β)) k = none := rfl

theorem find_cons (entry : κ × β) (m : List (κ × β)) (k : κ) :
    find (entry :: m) k = if entry.1 = k then some entry.2 else find m k := by
  by_cases h : entry.1 = k
  · simp [find, h]
  · simp [find, h]

/-! ### Entries -/

/-- What is found is an entry. -/
theorem mem_of_find (h : find m k = some v) : (k, v) ∈ m := by
  obtain ⟨entry, hentry, rfl⟩ := Option.map_eq_some_iff.mp h
  have hkey : entry.1 = k := by simpa using List.find?_some hentry
  subst hkey
  exact List.mem_of_find?_eq_some hentry

/-- `emplace` brings in at most the new entry. -/
theorem mem_of_mem_emplace {entry : κ × β} (h : entry ∈ emplace m k v) :
    entry ∈ m ∨ entry = (k, v) := by
  unfold emplace at h
  split at h
  · exact .inl h
  · simpa using h

/-- The entries of the other keys stay. -/
theorem mem_assign_cases {entry : κ × β} (h : entry ∈ assign m k v) :
    (entry ∈ m ∧ entry.1 ≠ k) ∨ entry = (k, v) := by
  obtain ⟨old, hold, rfl⟩ := List.mem_map.mp h
  split
  · exact .inr rfl
  · rename_i hne
    exact .inl ⟨hold, hne⟩

theorem mem_of_mem_assign {entry : κ × β} (h : entry ∈ assign m k v) :
    entry ∈ m ∨ entry = (k, v) :=
  (mem_assign_cases h).imp_left And.left

theorem mem_erase_iff {entry : κ × β} : entry ∈ erase m k ↔ entry ∈ m ∧ entry.1 ≠ k := by
  rw [erase, List.mem_filter, decide_eq_true_eq]

/-- `erase` leaves the other entries in their order. -/
theorem erase_sublist (m : List (κ × β)) (k : κ) : (erase m k).Sublist m :=
  List.filter_sublist

/-! ### Lookups -/

/-- A new entry is found under its key, the others as before. -/
theorem find_append_new (h : find m k = none) :
    find (m ++ [(k, v)]) k' = if k' = k then some v else find m k' := by
  induction m with
  | nil =>
    simp only [List.nil_append, find_cons, find_nil]
    by_cases hk : k' = k
    · simp [hk]
    · simp [hk, Ne.symm hk]
  | cons entry m ih =>
    rw [find_cons] at h
    have hne : entry.1 ≠ k := fun heq => by simp [heq] at h
    rw [if_neg hne] at h
    rw [List.cons_append, find_cons, find_cons, ih h]
    by_cases hk : k' = k
    · simp [hk, hne]
    · simp [hk]

/-- `assign` leaves the other keys alone. -/
theorem find_assign_ne (hne : k' ≠ k) : find (assign m k v) k' = find m k' := by
  induction m with
  | nil => rfl
  | cons entry m ih =>
    have hcons : assign (entry :: m) k v =
        (if entry.1 = k then (k, v) else entry) :: assign m k v := rfl
    rw [hcons, find_cons, find_cons, ih]
    by_cases hentry : entry.1 = k
    · simp [hentry, hne.symm]
    · simp [hentry]

/-- An assigned value is found. -/
theorem find_assign_self (h : find m k = some w) : find (assign m k v) k = some v := by
  induction m with
  | nil => cases h
  | cons entry m ih =>
    have hcons : assign (entry :: m) k v =
        (if entry.1 = k then (k, v) else entry) :: assign m k v := rfl
    rw [find_cons] at h
    rw [hcons, find_cons]
    by_cases hentry : entry.1 = k
    · simp [hentry]
    · rw [if_neg hentry] at h
      simp [hentry, ih h]

/-! ### Unique keys -/

/-- One entry per key. -/
def Keyed (m : List (κ × β)) : Prop :=
  (m.map Prod.fst).Nodup

omit [DecidableEq κ] in
theorem Keyed.sublist {m' : List (κ × β)} (h : Keyed m) (hsub : m'.Sublist m) : Keyed m' :=
  List.Nodup.sublist (hsub.map Prod.fst) h

omit [DecidableEq κ] in
/-- The order of the entries does not matter. -/
theorem Keyed.perm {m' : List (κ × β)} (h : Keyed m) (hperm : m'.Perm m) : Keyed m' :=
  (hperm.map Prod.fst).nodup_iff.mpr h

theorem Keyed.append_new (h : Keyed m) (hnew : find m k = none) : Keyed (m ++ [(k, v)]) := by
  rw [Keyed, List.map_append]
  refine List.nodup_append.mpr ⟨h, List.nodup_singleton _, fun a ha b hb => ?_⟩
  obtain ⟨entry, hentry, rfl⟩ := List.mem_map.mp ha
  rw [List.map_singleton, List.mem_singleton] at hb
  rintro heq
  have hnone := List.find?_eq_none.mp (Option.map_eq_none_iff.mp hnew) entry hentry
  exact hnone (by simp [heq, hb])

/-- `emplace` never gives a key a second entry. -/
theorem Keyed.emplace (h : Keyed m) : Keyed (emplace m k v) := by
  unfold Assoc.emplace
  split
  · exact h
  · rename_i hnew
    exact h.append_new hnew

/-- `assign` keeps the keys. -/
theorem keys_assign (m : List (κ × β)) (k : κ) (v : β) :
    (assign m k v).map Prod.fst = m.map Prod.fst := by
  rw [assign, List.map_map]
  refine List.map_congr_left fun entry _ => ?_
  by_cases hentry : entry.1 = k
  · simp [hentry]
  · simp [hentry]

theorem Keyed.assign (h : Keyed m) : Keyed (assign m k v) := by
  rw [Keyed, keys_assign]
  exact h

/-- Nothing is found exactly under the keys without an entry. -/
theorem find_eq_none_iff : find m k = none ↔ k ∉ m.map Prod.fst := by
  rw [find, Option.map_eq_none_iff, List.find?_eq_none]
  constructor
  · intro h hmem
    obtain ⟨entry, hentry, rfl⟩ := List.mem_map.mp hmem
    exact h entry hentry (decide_eq_true rfl)
  · intro h entry hentry hkey
    exact h (of_decide_eq_true hkey ▸ List.mem_map_of_mem hentry)

/-- A new key is added at the end. -/
theorem emplace_of_new (h : k ∉ m.map Prod.fst) : emplace m k v = m ++ [(k, v)] := by
  rw [emplace, find_eq_none_iff.mpr h]

/-- Erasing a key takes it out of the keys. -/
theorem keys_erase_perm (h : Keyed m) (hmem : (k, v) ∈ m) :
    (m.map Prod.fst).Perm (k :: (erase m k).map Prod.fst) := by
  induction m with
  | nil => exact absurd hmem List.not_mem_nil
  | cons entry m ih =>
    obtain ⟨hnot, hnodup⟩ := List.nodup_cons.mp h
    have hcons : erase (entry :: m) k =
        if entry.1 ≠ k then entry :: erase m k else erase m k := by
      rw [erase, List.filter_cons]
      by_cases hentry : entry.1 = k
      · simp [hentry, erase]
      · simp [hentry, erase]
    by_cases hentry : entry.1 = k
    · -- no other entry has the key
      have hrest : erase m k = m := by
        refine List.filter_eq_self.mpr fun other hother => decide_eq_true ?_
        rintro rfl
        exact hnot (hentry ▸ List.mem_map_of_mem hother)
      rw [hcons, if_neg (not_not.mpr hentry), hrest, List.map_cons, hentry]
    · rcases List.mem_cons.mp hmem with rfl | hmem
      · exact absurd rfl hentry
      · rw [hcons, if_pos hentry, List.map_cons, List.map_cons]
        exact ((ih hnodup hmem).cons entry.1).trans (List.Perm.swap _ _ _)

/-- An erased key is gone, and no other. -/
theorem mem_keys_erase {m : List (κ × β)} {k k' : κ} :
    k' ∈ (erase m k).map Prod.fst ↔ k' ∈ m.map Prod.fst ∧ k' ≠ k := by
  simp only [List.mem_map, mem_erase_iff]
  constructor
  · rintro ⟨entry, ⟨hmem, hne⟩, rfl⟩
    exact ⟨⟨entry, hmem, rfl⟩, hne⟩
  · rintro ⟨⟨entry, hmem, rfl⟩, hne⟩
    exact ⟨entry, ⟨hmem, hne⟩, rfl⟩

/-! ### Keys that are gone -/

/-- The keys of a map that a later one does not have. -/
def lost (m m' : List (κ × β)) : List κ :=
  (m.map Prod.fst).filter fun k => k ∉ m'.map Prod.fst

theorem lost_eq_nil {m' : List (κ × β)} (h : m'.map Prod.fst = m.map Prod.fst) :
    lost m m' = [] := by
  rw [lost, h, List.filter_eq_nil_iff]
  exact fun k hk hnot => of_decide_eq_true hnot hk

/-- Erasing an entry loses its key. -/
theorem lost_erase (h : Keyed m) (hfind : find m k = some v) : lost m (erase m k) = [k] := by
  have hmem : k ∈ m.map Prod.fst := List.mem_map_of_mem (mem_of_find hfind)
  have hsame : lost m (erase m k) = (m.map Prod.fst).filter (· = k) := by
    refine List.filter_congr fun k' hk' => decide_eq_decide.mpr ?_
    rw [mem_keys_erase, not_and, not_not]
    exact ⟨fun himp => himp hk', fun heq _ => heq⟩
  rw [hsame, List.filter_eq, List.count_eq_one_of_mem h hmem, List.replicate_one]

/-- With unique keys an entry is what its key finds. -/
theorem Keyed.find_of_mem (h : Keyed m) (hmem : (k, v) ∈ m) : find m k = some v := by
  induction m with
  | nil => exact absurd hmem List.not_mem_nil
  | cons entry m ih =>
    obtain ⟨hnot, hnodup⟩ := List.nodup_cons.mp h
    rw [find_cons]
    rcases List.mem_cons.mp hmem with rfl | hmem
    · rw [if_pos rfl]
    · have hne : entry.1 ≠ k := fun heq => hnot (heq ▸ List.mem_map_of_mem (f := Prod.fst) hmem)
      rw [if_neg hne]
      exact ih hnodup hmem

end Assoc

end Foundation

end HotCounter
