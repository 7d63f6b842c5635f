import HotCounter.Counter.Strict
import HotCounter.Foundation.Sums

/-!
# The reserved counter

`ReservedCounter` splits a limit into per-shard reserves; a request spends from one shard
only. The sequential functions here follow the source function by function. The facts that
matter later are the exact split (`sum_reserve_new`), that no operation takes a shard beyond
its reserve (`Bounded`), and that under this bound the wrapping sum `total` is the exact sum
of the shards (`total_eq`).
-/

namespace HotCounter

open Foundation

/-- One escrow lane: what it may spend, what it has spent, and whether its exhaustion was
already announced. -/
structure Shard where
  used : ℕ
  reserve : ℕ
  exhaustionAnnounced : Bool
  deriving DecidableEq, Repr, Inhabited

/-- A limit split into shards. -/
structure ReservedCounter where
  limit : ℕ
  shards : List Shard
  deriving DecidableEq, Repr

namespace ReservedCounter

/-- The constructor: shard `i` gets one unit of the remainder while there is any. The code
throws on `count = 0`; that count is excluded by the configuration that calls this. -/
def new (limit count : ℕ) : ReservedCounter where
  limit := limit
  shards := (List.range count).map fun i =>
    ⟨0, limit / count + (if i < limit % count then 1 else 0), false⟩

/-- The shard an id selects. -/
def shardAt (c : ReservedCounter) (id : ℕ) : Shard := c.shards.getD (id % c.shards.length) default

/-- Replace the shard an id selects. -/
def setShard (c : ReservedCounter) (id : ℕ) (s : Shard) : ReservedCounter :=
  { c with shards := c.shards.set (id % c.shards.length) s }

/-- `ReservedCounter::apply`, run without interference. -/
def apply (c : ReservedCounter) (id delta : ℕ) : Result × ReservedCounter :=
  let selected := id % c.shards.length
  let shard := c.shardAt id
  if StrictCounter.refuses shard.reserve shard.used delta then
    (⟨.rejected, shard.used, selected⟩, c)
  else
    let next := (shard.used + delta) % 2 ^ 64
    (⟨.accepted, next, selected⟩, c.setShard id { shard with used := next })

/-- `ReservedCounter::total`. -/
def total (c : ReservedCounter) : ℕ :=
  c.shards.foldl (fun total shard => (total + shard.used) % 2 ^ 64) 0

/-- `ReservedCounter::mark_exhaustion_if_new`: was this the first announcement? -/
def markExhaustionIfNew (c : ReservedCounter) (id : ℕ) : Bool × ReservedCounter :=
  let shard := c.shardAt id
  if shard.used ≠ shard.reserve then (false, c)
  else if shard.exhaustionAnnounced then (false, c)
  else (true, c.setShard id { shard with exhaustionAnnounced := true })

/-- `ReservedCounter::exhausted_shards`. -/
def exhaustedShards (c : ReservedCounter) : ℕ :=
  c.shards.countP fun shard => shard.used == shard.reserve

/-- The distribution loop of `seed_total_after_quiescence`: the shards after it and what is
left over. -/
def distribute : List Shard → ℕ → List Shard × ℕ
  | [], remaining => ([], remaining)
  | shard :: shards, remaining =>
    let assigned := if remaining < shard.reserve then remaining else shard.reserve
    let rest := distribute shards (remaining - assigned)
    ({ shard with used := assigned, exhaustionAnnounced := assigned == shard.reserve } :: rest.1,
      rest.2)

/-- `ReservedCounter::seed_total_after_quiescence`: success and the counter afterwards. -/
def seedTotalAfterQuiescence (c : ReservedCounter) (value : ℕ) : Bool × ReservedCounter :=
  if value > c.limit then (false, c)
  else
    let seeded := distribute c.shards value
    (seeded.2 == 0, { c with shards := seeded.1 })

/-! ### The exact sum of the shards -/

/-- Exact sum of what the shards have spent. -/
def used (c : ReservedCounter) : ℕ := (c.shards.map Shard.used).sum

/-- No shard has spent more than its reserve, and the reserves are exactly the limit. -/
structure Bounded (c : ReservedCounter) : Prop where
  le_reserve : ∀ shard ∈ c.shards, shard.used ≤ shard.reserve
  sum_reserve : (c.shards.map Shard.reserve).sum = c.limit
  nonempty : 0 < c.shards.length

theorem sum_le_of_forall_le {shards : List Shard} (h : ∀ s ∈ shards, s.used ≤ s.reserve) :
    (shards.map Shard.used).sum ≤ (shards.map Shard.reserve).sum := by
  induction shards with
  | nil => simp
  | cons s shards ih =>
    have hs := h s (by simp)
    have ih := ih fun t ht => h t (by simp [ht])
    simp only [List.map_cons, List.sum_cons]
    omega

theorem Bounded.used_le {c : ReservedCounter} (h : c.Bounded) : c.used ≤ c.limit :=
  h.sum_reserve ▸ sum_le_of_forall_le h.le_reserve

/-- Below `2 ^ 64` the wrapping sum of the code is the exact sum. -/
theorem Bounded.total_eq {c : ReservedCounter} (h : c.Bounded) (hlim : c.limit < 2 ^ 64) :
    c.total = c.used := by
  have hle := h.used_le
  have hsum := foldl_mod_eq Shard.used (2 ^ 64) c.shards 0 (by simp only [used] at hle; omega)
  rw [total, hsum, used, Nat.zero_add]

/-- The remainder is spread one unit at a time over the first shards. -/
private theorem sum_split (base rem : ℕ) : ∀ n : ℕ,
    ((List.range n).map fun i => base + (if i < rem then 1 else 0)).sum = n * base + min n rem
  | 0 => by simp
  | n + 1 => by
    rw [List.range_succ, List.map_append, List.sum_append, sum_split base rem n]
    simp only [List.map_cons, List.map_nil, List.sum_cons, List.sum_nil, add_zero, Nat.add_mul,
      Nat.one_mul]
    split <;> omega

/-- The constructor splits the limit exactly. -/
theorem sum_reserve_new (limit count : ℕ) (h : 0 < count) :
    ((new limit count).shards.map Shard.reserve).sum = limit := by
  have hmap : (new limit count).shards.map Shard.reserve =
      (List.range count).map fun i => limit / count + (if i < limit % count then 1 else 0) := by
    simp [new]
  have hlt : limit % count < count := Nat.mod_lt _ h
  rw [hmap, sum_split, Nat.min_eq_right hlt.le, Nat.mul_comm]
  exact Nat.div_add_mod' limit count

theorem bounded_new (limit count : ℕ) (h : 0 < count) : (new limit count).Bounded where
  le_reserve := by
    intro s hs
    obtain ⟨i, -, rfl⟩ := List.mem_map.mp hs
    exact Nat.zero_le _
  sum_reserve := sum_reserve_new limit count h
  nonempty := by simpa [new] using h

@[simp]
theorem used_new (limit count : ℕ) : (new limit count).used = 0 := by
  simp [used, new, Function.comp_def]

/-! ### One shard at a time -/

theorem Bounded.index_lt {c : ReservedCounter} (h : c.Bounded) (id : ℕ) :
    id % c.shards.length < c.shards.length := Nat.mod_lt _ h.nonempty

theorem Bounded.shardAt_mem {c : ReservedCounter} (h : c.Bounded) (id : ℕ) :
    c.shardAt id ∈ c.shards := by
  rw [shardAt, List.getD_eq_getElem?_getD, List.getElem?_eq_getElem (h.index_lt id)]
  exact List.getElem_mem _

/-- Putting a shard with the same reserve, within it, in one place keeps the bound. -/
theorem Bounded.set {c : ReservedCounter} (h : c.Bounded) (i : ℕ) {s : Shard}
    (hres : s.reserve = (c.shards.getD i default).reserve) (hle : s.used ≤ s.reserve) :
    ({ c with shards := c.shards.set i s } : ReservedCounter).Bounded where
  le_reserve := by
    intro t ht
    rcases List.mem_or_eq_of_mem_set ht with hmem | rfl
    · exact h.le_reserve t hmem
    · exact hle
  sum_reserve := by rw [map_set_of_eq Shard.reserve s default _ i hres]; exact h.sum_reserve
  nonempty := by simpa using h.nonempty

theorem Bounded.setShard {c : ReservedCounter} (h : c.Bounded) (id : ℕ) {s : Shard}
    (hres : s.reserve = (c.shardAt id).reserve) (hle : s.used ≤ s.reserve) :
    (c.setShard id s).Bounded := h.set _ hres hle

theorem Bounded.used_setShard {c : ReservedCounter} (h : c.Bounded) (id : ℕ) (s : Shard) :
    (c.setShard id s).used + (c.shardAt id).used = c.used + s.used :=
  sum_map_set_add Shard.used s default c.shards _ (h.index_lt id)

/-- The two outcomes of `apply`: a refusal that changes nothing, or an exact addition to one
shard that stays within its reserve. -/
theorem Bounded.apply_cases {c : ReservedCounter} (h : c.Bounded) (hlim : c.limit < 2 ^ 64)
    (id delta : ℕ) :
    (∃ observed, c.apply id delta = (⟨.rejected, observed, id % c.shards.length⟩, c)) ∨
      ((c.shardAt id).used + delta ≤ (c.shardAt id).reserve ∧
        c.apply id delta =
          (⟨.accepted, (c.shardAt id).used + delta, id % c.shards.length⟩,
            c.setShard id { c.shardAt id with used := (c.shardAt id).used + delta })) := by
  have hreserve : (c.shardAt id).reserve ≤ c.limit :=
    h.sum_reserve ▸ List.single_le_sum (fun _ _ => Nat.zero_le _) _
      (List.mem_map_of_mem (h.shardAt_mem id))
  rcases hr : StrictCounter.refuses (c.shardAt id).reserve (c.shardAt id).used delta with _ | _
  · have hle := StrictCounter.refuses_eq_false.mp hr
    have hmod : ((c.shardAt id).used + delta) % 2 ^ 64 = (c.shardAt id).used + delta :=
      Nat.mod_eq_of_lt (by omega)
    exact .inr ⟨hle, by simp only [apply, hr, hmod, Bool.false_eq_true, if_false]⟩
  · exact .inl ⟨(c.shardAt id).used, by simp only [apply, hr, if_true]⟩

/-! ### Marking and seeding -/

/-- Announcing exhaustion touches neither what is spent nor what is reserved. -/
theorem Bounded.markExhaustionIfNew {c : ReservedCounter} (h : c.Bounded) (id : ℕ) :
    (c.markExhaustionIfNew id).2.Bounded ∧ (c.markExhaustionIfNew id).2.used = c.used ∧
      (c.markExhaustionIfNew id).2.limit = c.limit := by
  unfold ReservedCounter.markExhaustionIfNew
  dsimp only
  split
  · exact ⟨h, rfl, rfl⟩
  · split
    · exact ⟨h, rfl, rfl⟩
    · have hle : (c.shardAt id).used ≤ (c.shardAt id).reserve :=
        h.le_reserve _ (h.shardAt_mem id)
      refine ⟨h.setShard id rfl hle, ?_, rfl⟩
      have hsum := h.used_setShard id { c.shardAt id with exhaustionAnnounced := true }
      dsimp only at hsum ⊢
      omega

/-- The distribution loop keeps the reserves, stays within them and places what fits. -/
theorem distribute_spec : ∀ (shards : List Shard) (value : ℕ),
    (distribute shards value).1.map Shard.reserve = shards.map Shard.reserve ∧
      (∀ s ∈ (distribute shards value).1, s.used ≤ s.reserve) ∧
      ((distribute shards value).1.map Shard.used).sum + (distribute shards value).2 = value ∧
      (value ≤ (shards.map Shard.reserve).sum → (distribute shards value).2 = 0)
  | [], value => by simp [distribute]
  | s :: shards, value => by
    obtain ⟨hres, hle, hsum, hfit⟩ :=
      distribute_spec shards (value - if value < s.reserve then value else s.reserve)
    refine ⟨by simp [distribute, hres], ?_, ?_, ?_⟩
    · intro t ht
      rcases List.mem_cons.mp ht with rfl | ht
      · dsimp only; split <;> omega
      · exact hle t ht
    · simp only [distribute, List.map_cons, List.sum_cons]
      by_cases hlt : value < s.reserve
      · simp only [hlt, if_true] at hsum ⊢
        omega
      · simp only [hlt, if_false] at hsum ⊢
        omega
    · intro hval
      refine hfit ?_
      simp only [List.map_cons, List.sum_cons] at hval
      split <;> omega

/-- Seeding a value within the limit succeeds and installs exactly that value. -/
theorem Bounded.seed {c : ReservedCounter} (h : c.Bounded) {value : ℕ} (hv : value ≤ c.limit) :
    (c.seedTotalAfterQuiescence value).1 = true ∧
      (c.seedTotalAfterQuiescence value).2.Bounded ∧
      (c.seedTotalAfterQuiescence value).2.used = value ∧
      (c.seedTotalAfterQuiescence value).2.limit = c.limit := by
  obtain ⟨hres, hle, hsum, hfit⟩ := distribute_spec c.shards value
  have hzero := hfit (h.sum_reserve ▸ hv)
  have hlen : (distribute c.shards value).1.length = c.shards.length := by
    simpa using congrArg List.length hres
  have heq : c.seedTotalAfterQuiescence value =
      (true, { c with shards := (distribute c.shards value).1 }) := by
    simp [seedTotalAfterQuiescence, Nat.not_lt.mpr hv, hzero]
  rw [heq]
  refine ⟨rfl, ⟨hle, by rw [hres]; exact h.sum_reserve, by rw [hlen]; exact h.nonempty⟩, ?_, rfl⟩
  change ((distribute c.shards value).1.map Shard.used).sum = value
  omega

end ReservedCounter

end HotCounter
