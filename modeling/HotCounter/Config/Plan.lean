import HotCounter.Counter.Types

/-!
# The reservation plan

A cluster splits the limit statically: every component of a plan owns a capacity, the ids are
distinct, and the capacities together do not exceed the limit. `ReservationPlan.new` is the
constructor with its three ways to throw; `Accepts` is what an accepted plan guarantees, and
`plan_exact` says which plans are accepted.
-/

namespace HotCounter

/-- The exceptions of the configuration code, with their texts. -/
inductive ConfigError
  | invalidArgument (what : String)
  | overflowError (what : String)
  | runtimeError (what : String)
  deriving DecidableEq, Repr

/-- One entry of a plan. -/
structure ComponentReservation where
  componentId : ℕ
  capacity : ℕ
  deriving DecidableEq, Repr

/-- A validated, sorted plan. -/
structure ReservationPlan where
  globalLimit : ℕ
  allocatedTotal : ℕ
  components : List ComponentReservation
  deriving DecidableEq, Repr

namespace ReservationPlan

/-- The order of the constructor's `std::sort`. -/
def byId (left right : ComponentReservation) : Prop := left.componentId ≤ right.componentId

instance : DecidableRel byId := fun left right => Nat.decLe left.componentId right.componentId

instance : Std.Total byId := ⟨fun left right => Nat.le_total left.componentId right.componentId⟩

instance : IsTrans ComponentReservation byId := ⟨fun _ _ _ => Nat.le_trans⟩

/-- The validating loop over the sorted entries: the allocated total, or the exception. -/
def allocate : Option ℕ → ℕ → List ComponentReservation → Except ConfigError ℕ
  | _, allocated, [] => .ok allocated
  | previous, allocated, component :: components =>
    if previous = some component.componentId then
      .error (.invalidArgument "duplicate reservation component")
    else if component.capacity > amountMax - allocated then
      .error (.overflowError "reservation total overflow")
    else allocate (some component.componentId) (allocated + component.capacity) components

/-- The constructor on entries that `std::sort` has put in order. -/
def build (globalLimit : ℕ) (sorted : List ComponentReservation) :
    Except ConfigError ReservationPlan :=
  match allocate none 0 sorted with
  | .error error => .error error
  | .ok allocated =>
    if allocated > globalLimit then
      .error (.invalidArgument "reservation plan exceeds the global limit")
    else .ok ⟨globalLimit, allocated, sorted⟩

/-- The constructor. -/
def new (globalLimit : ℕ) (components : List ComponentReservation) :
    Except ConfigError ReservationPlan :=
  build globalLimit (components.insertionSort byId)

/-- `std::lower_bound` by component id. -/
def lowerBound (plan : ReservationPlan) (componentId : ℕ) : Option ComponentReservation :=
  plan.components.find? fun component => !decide (component.componentId < componentId)

/-- `ReservationPlan::capacity_for`. -/
def capacityFor (plan : ReservationPlan) (componentId : ℕ) : ℕ :=
  match plan.lowerBound componentId with
  | some found => if found.componentId = componentId then found.capacity else 0
  | none => 0

/-- `ReservationPlan::has_component`. -/
def hasComponent (plan : ReservationPlan) (componentId : ℕ) : Bool :=
  match plan.lowerBound componentId with
  | some found => found.componentId == componentId
  | none => false

/-! ### What an accepted plan guarantees -/

/-- Distinct ids, and capacities that fit the limit together. -/
structure Accepts (globalLimit : ℕ) (components : List ComponentReservation)
    (plan : ReservationPlan) : Prop where
  nodup : (components.map ComponentReservation.componentId).Nodup
  sum_le : (components.map ComponentReservation.capacity).sum ≤ globalLimit
  perm : plan.components.Perm components
  sorted : plan.components.Pairwise fun left right => left.componentId < right.componentId

/-- The loop adds up the capacities and lets no two neighbours share an id. -/
private theorem allocate_ok : ∀ {components : List ComponentReservation} {previous : Option ℕ}
    {allocated total : ℕ}, allocate previous allocated components = .ok total →
      components.Pairwise byId → (∀ id ∈ previous, ∀ c ∈ components, id ≤ c.componentId) →
      total = allocated + (components.map ComponentReservation.capacity).sum ∧
        (∀ id ∈ previous, ∀ c ∈ components, id < c.componentId) ∧
        components.Pairwise fun left right => left.componentId < right.componentId
  | [], previous, allocated, total, h, _, _ => by
    obtain rfl := Except.ok.inj h
    simp
  | component :: components, previous, allocated, total, h, hsorted, hprev => by
    simp only [allocate] at h
    split at h
    · exact absurd h nofun
    rename_i hne
    split at h
    · exact absurd h nofun
    obtain ⟨hhead, htail⟩ := List.pairwise_cons.mp hsorted
    obtain ⟨htotal, hlt, hpair⟩ := allocate_ok h htail (by
      rintro id ⟨⟩ c hc
      exact hhead c hc)
    have hrest : ∀ c ∈ components, component.componentId < c.componentId := hlt _ rfl
    refine ⟨by simp only [List.map_cons, List.sum_cons]; omega, ?_, ?_⟩
    · intro id hid c hc
      have hle := hprev id hid component (by simp)
      have hlt : id < component.componentId := by
        refine lt_of_le_of_ne hle fun heq => hne ?_
        rw [← heq]
        exact hid
      rcases List.mem_cons.mp hc with rfl | hc
      · exact hlt
      · exact hlt.trans (hrest c hc)
    · exact List.pairwise_cons.mpr ⟨hrest, hpair⟩

/-- **An accepted plan is a split of the limit.** -/
theorem accepts_of_new {globalLimit : ℕ} {components : List ComponentReservation}
    {plan : ReservationPlan} (h : new globalLimit components = .ok plan) :
    Accepts globalLimit components plan := by
  simp only [new, build] at h
  split at h
  · exact absurd h nofun
  rename_i allocated halloc
  split at h
  · exact absurd h nofun
  rename_i hle
  obtain rfl := Except.ok.inj h
  have hperm := List.perm_insertionSort byId components
  obtain ⟨htotal, -, hlt⟩ := allocate_ok halloc (List.pairwise_insertionSort byId components) nofun
  have hsum := (hperm.map ComponentReservation.capacity).sum_eq
  have hnodup : ((components.insertionSort byId).map ComponentReservation.componentId).Nodup :=
    List.pairwise_map.mpr (hlt.imp fun h => Nat.ne_of_lt h)
  exact ⟨(hperm.map _).nodup_iff.mp hnodup, by omega, hperm, hlt⟩

/-- On a sorted plan `lower_bound` finds the entry of a listed id. -/
theorem Accepts.lowerBound_eq {globalLimit : ℕ} {components : List ComponentReservation}
    {plan : ReservationPlan} (h : Accepts globalLimit components plan)
    {component : ComponentReservation} (hmem : component ∈ components) :
    plan.lowerBound component.componentId = some component := by
  have hmem' : component ∈ plan.components := h.perm.mem_iff.mpr hmem
  obtain ⟨before, after, hsplit⟩ := List.append_of_mem hmem'
  have hsorted := h.sorted
  rw [hsplit, List.pairwise_append] at hsorted
  have hbefore : before.find?
      (fun c => !decide (c.componentId < component.componentId)) = none := by
    rw [List.find?_eq_none]
    intro c hc
    simpa using hsorted.2.2 c hc component (by simp)
  rw [lowerBound, hsplit, List.find?_append, hbefore]
  simp

theorem Accepts.capacityFor_eq {globalLimit : ℕ} {components : List ComponentReservation}
    {plan : ReservationPlan} (h : Accepts globalLimit components plan)
    {component : ComponentReservation} (hmem : component ∈ components) :
    plan.capacityFor component.componentId = component.capacity := by
  simp [capacityFor, h.lowerBound_eq hmem]

theorem Accepts.hasComponent_mem {globalLimit : ℕ} {components : List ComponentReservation}
    {plan : ReservationPlan} (h : Accepts globalLimit components plan) {id : ℕ}
    (hid : plan.hasComponent id = true) : ∃ c ∈ components, c.componentId = id := by
  unfold hasComponent at hid
  split at hid
  · rename_i found hfind
    exact ⟨found, h.perm.mem_iff.mp (List.mem_of_find?_eq_some hfind), by simpa using hid⟩
  · exact absurd hid nofun

/-! ### Exactly the non-overlapping plans -/

/-- Strictly increasing ids and a sum within the range of an amount pass the loop. -/
private theorem allocate_of_sorted : ∀ {components : List ComponentReservation}
    {previous : Option ℕ} {allocated : ℕ},
      components.Pairwise (fun left right => left.componentId < right.componentId) →
      (∀ id ∈ previous, ∀ c ∈ components, id < c.componentId) →
      allocated + (components.map ComponentReservation.capacity).sum ≤ amountMax →
      allocate previous allocated components =
        .ok (allocated + (components.map ComponentReservation.capacity).sum)
  | [], _, _, _, _, _ => rfl
  | component :: components, previous, allocated, hsorted, hprev, hsum => by
    obtain ⟨hhead, htail⟩ := List.pairwise_cons.mp hsorted
    simp only [List.map_cons, List.sum_cons] at hsum ⊢
    have hdistinct : previous ≠ some component.componentId := by
      intro heq
      exact absurd (hprev _ heq component List.mem_cons_self) (Nat.lt_irrefl _)
    have hroom : ¬ component.capacity > amountMax - allocated := by omega
    have hnext : ∀ id ∈ some component.componentId, ∀ c ∈ components, id < c.componentId := by
      rintro id ⟨⟩ c hc
      exact hhead c hc
    rw [allocate, if_neg hdistinct, if_neg hroom, allocate_of_sorted htail hnext (by omega),
      Nat.add_assoc]

/-- A sorted list without repeated ids is strictly sorted. -/
private theorem strictly_sorted {sorted : List ComponentReservation}
    (hsorted : sorted.Pairwise byId)
    (hnodup : (sorted.map ComponentReservation.componentId).Nodup) :
    sorted.Pairwise fun left right => left.componentId < right.componentId := by
  have hne := List.pairwise_map.mp hnodup
  exact (hsorted.and hne).imp fun h => lt_of_le_of_ne h.1 h.2

/-- On sorted entries the constructor succeeds exactly if no id repeats and the capacities fit,
and then it keeps the entries and their sum. -/
private theorem build_eq_ok_iff {globalLimit : ℕ} (hlimit : globalLimit < 2 ^ 64)
    {sorted : List ComponentReservation} (hsorted : sorted.Pairwise byId)
    (plan : ReservationPlan) :
    build globalLimit sorted = .ok plan ↔
      (sorted.map ComponentReservation.componentId).Nodup ∧
        (sorted.map ComponentReservation.capacity).sum ≤ globalLimit ∧
        plan = ⟨globalLimit, (sorted.map ComponentReservation.capacity).sum, sorted⟩ := by
  constructor
  · intro h
    unfold build at h
    split at h
    · exact absurd h nofun
    rename_i allocated halloc
    split at h
    · exact absurd h nofun
    obtain ⟨htotal, -, hlt⟩ := allocate_ok halloc hsorted nofun
    rw [Nat.zero_add] at htotal
    subst htotal
    exact ⟨List.pairwise_map.mpr (hlt.imp fun h => Nat.ne_of_lt h), by omega,
      (Except.ok.inj h).symm⟩
  · rintro ⟨hnodup, hsum, rfl⟩
    have hfits : 0 + (sorted.map ComponentReservation.capacity).sum ≤ amountMax := by
      unfold amountMax
      omega
    have hfirst : ∀ id ∈ (none : Option ℕ), ∀ c ∈ sorted, id < c.componentId := nofun
    have halloc := allocate_of_sorted (strictly_sorted hsorted hnodup) hfirst hfits
    rw [build, halloc]
    dsimp only
    rw [Nat.zero_add, if_neg (by omega)]

/-- Two sorted arrangements of the same entries without repeated ids are the same list. -/
private theorem sorted_unique {left right : List ComponentReservation}
    (hperm : left.Perm right) (hleft : left.Pairwise byId) (hright : right.Pairwise byId)
    (hnodup : (left.map ComponentReservation.componentId).Nodup) : left = right := by
  have hnodup' : (right.map ComponentReservation.componentId).Nodup :=
    (hperm.map ComponentReservation.componentId).nodup_iff.mp hnodup
  refine hperm.eq_of_pairwise (fun a b _ _ hab hba => ?_) (strictly_sorted hleft hnodup)
    (strictly_sorted hright hnodup')
  exact absurd hab (Nat.lt_asymm hba)

theorem Accepts.hasComponent_iff {globalLimit : ℕ} {components : List ComponentReservation}
    {plan : ReservationPlan} (h : Accepts globalLimit components plan) (id : ℕ) :
    plan.hasComponent id = true ↔ id ∈ components.map ComponentReservation.componentId := by
  constructor
  · intro hid
    obtain ⟨c, hc, rfl⟩ := h.hasComponent_mem hid
    exact List.mem_map_of_mem hc
  · intro hid
    obtain ⟨c, hc, rfl⟩ := List.mem_map.mp hid
    rw [hasComponent, h.lowerBound_eq hc]
    exact beq_self_eq_true _

theorem Accepts.capacityFor_absent {globalLimit : ℕ} {components : List ComponentReservation}
    {plan : ReservationPlan} (h : Accepts globalLimit components plan) {id : ℕ}
    (hid : id ∉ components.map ComponentReservation.componentId) : plan.capacityFor id = 0 := by
  unfold capacityFor
  split
  · rename_i found hfind
    refine if_neg fun heq => hid ?_
    rw [← heq]
    exact List.mem_map_of_mem (h.perm.mem_iff.mp (List.mem_of_find?_eq_some hfind))
  · rfl

/-- **The constructor accepts exactly the non-overlapping plans.** It succeeds if and only if the
ids are distinct and the exact sum of the capacities is within the limit; then the allocated total
is that sum and the lookups are those of the list. The plan does not depend on the order of the
entries, nor on how the sort arranges equal ids. -/
theorem plan_exact {globalLimit : ℕ} (hlimit : globalLimit < 2 ^ 64)
    (components : List ComponentReservation) :
    ((∃ plan, new globalLimit components = .ok plan) ↔
      (components.map ComponentReservation.componentId).Nodup ∧
        (components.map ComponentReservation.capacity).sum ≤ globalLimit) ∧
    (∀ plan, new globalLimit components = .ok plan →
      plan.allocatedTotal = (components.map ComponentReservation.capacity).sum ∧
        (∀ id, plan.hasComponent id = true ↔
          id ∈ components.map ComponentReservation.componentId) ∧
        (∀ c ∈ components, plan.capacityFor c.componentId = c.capacity) ∧
        ∀ id, id ∉ components.map ComponentReservation.componentId → plan.capacityFor id = 0) ∧
    ∀ sorted : List ComponentReservation, sorted.Perm components → sorted.Pairwise byId →
      ∀ plan, build globalLimit sorted = .ok plan ↔ new globalLimit components = .ok plan := by
  have hperm := List.perm_insertionSort byId components
  have hsorted := List.pairwise_insertionSort byId components
  have hids := (hperm.map ComponentReservation.componentId).nodup_iff
  have hsum := (hperm.map ComponentReservation.capacity).sum_eq
  have hiff := build_eq_ok_iff hlimit hsorted
  refine ⟨?_, fun plan hplan => ?_, fun sorted hperm' hsorted' plan => ?_⟩
  · rw [← hids, ← hsum]
    constructor
    · rintro ⟨plan, hplan⟩
      obtain ⟨hnodup, hle, -⟩ := (hiff plan).mp hplan
      exact ⟨hnodup, hle⟩
    · rintro ⟨hnodup, hle⟩
      exact ⟨_, (hiff _).mpr ⟨hnodup, hle, rfl⟩⟩
  · have haccepts := accepts_of_new hplan
    obtain ⟨-, -, rfl⟩ := (hiff plan).mp hplan
    exact ⟨hsum, haccepts.hasComponent_iff, fun c hc => haccepts.capacityFor_eq hc,
      fun id hid => haccepts.capacityFor_absent hid⟩
  · rw [new, hiff, build_eq_ok_iff hlimit hsorted']
    have hboth := hperm'.trans hperm.symm
    have hids' := (hboth.map ComponentReservation.componentId).nodup_iff
    have hsum' := (hboth.map ComponentReservation.capacity).sum_eq
    rw [hids', hsum']
    refine and_congr_right fun hnodup => ?_
    rw [sorted_unique hboth hsorted' hsorted (hids'.mpr hnodup)]

/-- A plan of three components listed out of order. -/
theorem plan_exact_three :
    ∃ plan, new 100 [⟨7, 55⟩, ⟨0, 0⟩, ⟨3, 45⟩] = .ok plan ∧ plan.allocatedTotal = 100 ∧
      plan.capacityFor 3 = 45 ∧ plan.hasComponent 0 = true ∧ plan.capacityFor 4 = 0 := by
  obtain ⟨hsuccess, hlookups, -⟩ := plan_exact (show 100 < 2 ^ 64 by decide)
    [⟨7, 55⟩, ⟨0, 0⟩, ⟨3, 45⟩]
  obtain ⟨plan, hplan⟩ := hsuccess.mpr (by decide)
  obtain ⟨htotal, hhas, hcapacity, habsent⟩ := hlookups plan hplan
  exact ⟨plan, hplan, htotal, hcapacity ⟨3, 45⟩ (by simp), (hhas 0).mpr (by simp),
    habsent 4 (by simp)⟩

end ReservationPlan

end HotCounter
