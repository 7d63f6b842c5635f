import HotCounter.Counter.Reserved

/-!
# Announced shards

In peak mode the engine never sums its shards to learn that the limit is reached. Each shard
carries a flag that its exhaustion was announced, and the engine counts announcements. `Honest`
says that an announced shard is full; then, once every shard is announced, everything is spent
(`Bounded.used_eq_of_announced`). A seeding announces exactly the shards it fills.
-/

namespace HotCounter

open Foundation

/-- One for an announced shard. -/
def Shard.flag (s : Shard) : ℕ := if s.exhaustionAnnounced then 1 else 0

theorem Shard.flag_le (s : Shard) : s.flag ≤ 1 := by
  unfold flag
  split <;> omega

namespace ReservedCounter

/-- The number of announced shards. -/
def announced (c : ReservedCounter) : ℕ := (c.shards.map Shard.flag).sum

/-- Every announced shard is full. -/
def Honest (c : ReservedCounter) : Prop :=
  ∀ s ∈ c.shards, s.exhaustionAnnounced = true → s.used = s.reserve

variable {c : ReservedCounter}

theorem sum_flag_le : ∀ shards : List Shard, (shards.map Shard.flag).sum ≤ shards.length
  | [] => Nat.le_refl 0
  | s :: shards => by
    have ih := sum_flag_le shards
    have hflag := s.flag_le
    simp only [List.map_cons, List.sum_cons, List.length_cons]
    omega

theorem announced_le (c : ReservedCounter) : c.announced ≤ c.shards.length := sum_flag_le c.shards

/-- As many announcements as shards leave no shard out. -/
private theorem all_announced : ∀ {shards : List Shard},
    shards.length ≤ (shards.map Shard.flag).sum → ∀ s ∈ shards, s.exhaustionAnnounced = true
  | [], _, _, hs => absurd hs List.not_mem_nil
  | t :: shards, h, s, hs => by
    have hrest := sum_flag_le shards
    have hflag := t.flag_le
    simp only [List.map_cons, List.sum_cons, List.length_cons] at h
    rcases List.mem_cons.mp hs with rfl | hs
    · by_contra hnot
      have hzero : s.flag = 0 := if_neg hnot
      omega
    · exact all_announced (by omega) s hs

theorem announced_of_all (h : c.shards.length ≤ c.announced) {s : Shard} (hs : s ∈ c.shards) :
    s.exhaustionAnnounced = true := all_announced h s hs

/-- **Every shard announced means everything spent.** -/
theorem Bounded.used_eq_of_announced (hb : c.Bounded) (hh : c.Honest)
    (h : c.shards.length ≤ c.announced) : c.used = c.limit := by
  have hmap : c.shards.map Shard.used = c.shards.map Shard.reserve :=
    List.map_congr_left fun s hs => hh s hs (announced_of_all h hs)
  rw [used, hmap, hb.sum_reserve]

/-- No shard left out means as many announcements as shards. -/
theorem announced_eq_length (h : ∀ s ∈ c.shards, s.exhaustionAnnounced = true) :
    c.announced = c.shards.length := by
  have hmap : c.shards.map Shard.flag = c.shards.map fun _ => 1 :=
    List.map_congr_left fun s hs => if_pos (h s hs)
  rw [announced, hmap, List.map_const', List.sum_replicate, smul_eq_mul, Nat.mul_one]

/-- Everything spent leaves no shard short of its reserve. -/
theorem Bounded.full_of_used_eq (hb : c.Bounded) (h : c.used = c.limit) {s : Shard}
    (hs : s ∈ c.shards) : s.used = s.reserve := by
  by_contra hne
  have hlt : s.used < s.reserve := Nat.lt_of_le_of_ne (hb.le_reserve s hs) hne
  have hsum := List.sum_lt_sum Shard.used Shard.reserve hb.le_reserve ⟨s, hs, hlt⟩
  rw [hb.sum_reserve] at hsum
  exact absurd h hsum.ne

/-- The count and the shards it is about, under a change in one place. -/
theorem announced_set (c : ReservedCounter) {i : ℕ} (hi : i < c.shards.length) (s : Shard) :
    ({ c with shards := c.shards.set i s } : ReservedCounter).announced +
        (c.shards.getD i default).flag = c.announced + s.flag :=
  sum_map_set_add Shard.flag s default c.shards i hi

theorem Honest.set (h : c.Honest) (i : ℕ) {s : Shard}
    (hs : s.exhaustionAnnounced = true → s.used = s.reserve) :
    ({ c with shards := c.shards.set i s } : ReservedCounter).Honest := by
  intro t ht
  rcases List.mem_or_eq_of_mem_set ht with hmem | rfl
  · exact h t hmem
  · exact hs

/-- What a shard has spent says nothing about its announcement. -/
theorem Bounded.announced_setUsed (hb : c.Bounded) (id used : ℕ) :
    (c.setShard id { c.shardAt id with used := used }).announced = c.announced := by
  have hset := c.announced_set (hb.index_lt id) { c.shardAt id with used := used }
  have hflag : (Shard.mk used (c.shardAt id).reserve (c.shardAt id).exhaustionAnnounced).flag =
      (c.shardAt id).flag := rfl
  rw [hflag] at hset
  exact Nat.add_right_cancel hset

/-- Spending within the reserve of a shard keeps the announcements honest. -/
theorem Honest.spend (h : c.Honest) (hb : c.Bounded) {id delta : ℕ}
    (hfit : (c.shardAt id).used + delta ≤ (c.shardAt id).reserve) :
    (c.setShard id { c.shardAt id with used := (c.shardAt id).used + delta }).Honest ∧
      (c.setShard id { c.shardAt id with used := (c.shardAt id).used + delta }).announced =
        c.announced := by
  refine ⟨h.set _ fun hann => ?_, hb.announced_setUsed id _⟩
  have hfull := h _ (hb.shardAt_mem id) hann
  change (c.shardAt id).used + delta = (c.shardAt id).reserve
  omega

/-- A new announcement adds one. -/
theorem Bounded.announced_announce (hb : c.Bounded) {id : ℕ}
    (hnew : ¬ (c.shardAt id).exhaustionAnnounced = true) :
    (c.setShard id { c.shardAt id with exhaustionAnnounced := true }).announced =
      c.announced + 1 := by
  have hset := c.announced_set (hb.index_lt id) { c.shardAt id with exhaustionAnnounced := true }
  have hold : (c.shardAt id).flag = 0 := if_neg hnew
  have hone : ({ c.shardAt id with exhaustionAnnounced := true } : Shard).flag = 1 := rfl
  rw [hone, ← shardAt, hold, Nat.add_zero] at hset
  exact hset

/-- The two outcomes of an announcement: nothing happens, or a full shard is announced. -/
theorem Honest.mark (h : c.Honest) (hb : c.Bounded) (id : ℕ) :
    c.markExhaustionIfNew id = (false, c) ∨
      ((c.markExhaustionIfNew id).1 = true ∧ (c.markExhaustionIfNew id).2.Honest ∧
        (c.markExhaustionIfNew id).2.announced = c.announced + 1 ∧
        (c.markExhaustionIfNew id).2.shards.length = c.shards.length) := by
  unfold markExhaustionIfNew
  dsimp only
  split
  · exact .inl rfl
  · rename_i hfull
    split
    · exact .inl rfl
    · rename_i hnew
      exact .inr ⟨rfl, h.set _ fun _ => Decidable.not_not.mp hfull, hb.announced_announce hnew,
        List.length_set⟩

/-! ### Seeding -/

/-- A seeding announces the shards that it fills, and no others. -/
theorem distribute_announces : ∀ (shards : List Shard) (value : ℕ),
    ∀ s ∈ (distribute shards value).1, s.exhaustionAnnounced = (s.used == s.reserve)
  | [], _, _, hs => absurd hs List.not_mem_nil
  | t :: shards, value, s, hs => by
    rcases List.mem_cons.mp hs with rfl | hs
    · rfl
    · exact distribute_announces shards _ s hs

theorem sum_flag_eq_countP : ∀ {shards : List Shard},
    (∀ s ∈ shards, s.exhaustionAnnounced = (s.used == s.reserve)) →
      (shards.map Shard.flag).sum = shards.countP fun s => s.used == s.reserve
  | [], _ => rfl
  | s :: shards, h => by
    have hs : s.exhaustionAnnounced = (s.used == s.reserve) := h s List.mem_cons_self
    have ih := sum_flag_eq_countP fun t ht => h t (List.mem_cons_of_mem s ht)
    rw [List.map_cons, List.sum_cons, List.countP_cons, ih, Shard.flag, hs, Nat.add_comm]

/-- A seeded counter is honest, and its full shards are its announced ones. -/
theorem seed_announces {value : ℕ} (hv : value ≤ c.limit) :
    (c.seedTotalAfterQuiescence value).2.Honest ∧
      (c.seedTotalAfterQuiescence value).2.exhaustedShards =
        (c.seedTotalAfterQuiescence value).2.announced := by
  have hflags := distribute_announces c.shards value
  have hshards : (c.seedTotalAfterQuiescence value).2.shards = (distribute c.shards value).1 := by
    rw [seedTotalAfterQuiescence, if_neg (Nat.not_lt.mpr hv)]
  unfold Honest exhaustedShards announced
  rw [hshards]
  refine ⟨fun s hs hann => ?_, (sum_flag_eq_countP hflags).symm⟩
  rw [hflags s hs] at hann
  exact beq_iff_eq.mp hann

end ReservedCounter

end HotCounter
