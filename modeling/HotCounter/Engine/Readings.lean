import HotCounter.Engine.Epochs

/-!
# What the control loop reads

`control_loop` loads the value that it publishes cell by cell: the strict value in one load, the
peak total shard by shard, while request threads go on spending. A `Reading` records these loads
as the memory answers them, and beside them what the counter as a whole held at the first load
and at the last. No access reads the record. `ControlPoint.Reads` says that the value which the
loop carries from access to access is the value of its reading (`Reading.Gives`), loaded from the
counter that serves the mode it read; `Reads.step` keeps it along the loop and `Reads.congr` along
every other thread.
-/

namespace HotCounter

open Foundation

/-- The counter a value is read from. -/
inductive Source
  | reserved
  | strict
  deriving DecidableEq

/-- The counter that serves a mode. A process whose requests are served elsewhere has none. -/
def RoutingMode.source : RoutingMode → Option Source
  | .reservedPeak => some .reserved
  | .strict | .dangerStrict => some .strict
  | .remoteStrict => none

/-- What a counter holds as a whole. -/
def CounterEngine.holds (e : CounterEngine) : Source → ℕ
  | .reserved => e.reserved.used
  | .strict => e.strict.value

/-! ### Shards grow while they are read -/

/-- No shard has lost anything that it had given out. -/
structure CounterEngine.Grows (e e' : CounterEngine) : Prop where
  length : e'.reserved.shards.length = e.reserved.shards.length
  used : ∀ index, (ControlPoint.shard e index).used ≤ (ControlPoint.shard e' index).used

namespace CounterEngine.Grows

variable {e e' : CounterEngine}

theorem of_eq (h : e'.reserved = e.reserved) : Grows e e' where
  length := by rw [h]
  used := fun index => by rw [ControlPoint.shard, ControlPoint.shard, h]

/-- Any stretch of shards has given out at least as much as before. -/
theorem stretch (h : Grows e e') {first last : ℕ} (hle : first ≤ last) :
    e.usedBefore last + e'.usedBefore first ≤ e'.usedBefore last + e.usedBefore first := by
  induction last, hle using Nat.le_induction with
  | base => exact (Nat.add_comm _ _).le
  | succ last hle ih =>
    by_cases hlast : last < e.reserved.shards.length
    · have hone := h.used last
      rw [e.usedBefore_succ hlast, e'.usedBefore_succ (h.length.symm ▸ hlast)]
      omega
    · have hend := Nat.not_lt.mp hlast
      have hend' := h.length.trans_le hend
      rw [e.usedBefore_of_le (Nat.le_succ_of_le hend),
        e'.usedBefore_of_le (Nat.le_succ_of_le hend')]
      rwa [e.usedBefore_of_le hend, e'.usedBefore_of_le hend'] at ih

/-- The shards before an index. -/
theorem usedBefore_le (h : Grows e e') (index : ℕ) : e.usedBefore index ≤ e'.usedBefore index := by
  simpa using h.stretch (Nat.zero_le index)

/-- The shards from an index on. -/
theorem rest_le (h : Grows e e') (index : ℕ) :
    e.reserved.used + e'.usedBefore index ≤ e'.reserved.used + e.usedBefore index := by
  by_cases hindex : index ≤ e.reserved.shards.length
  · have hstretch := h.stretch hindex
    rwa [e.usedBefore_of_le le_rfl, e'.usedBefore_of_le h.length.le] at hstretch
  · have hend := (Nat.not_le.mp hindex).le
    rw [e.usedBefore_of_le hend, e'.usedBefore_of_le (h.length.trans_le hend)]
    exact (Nat.add_comm _ _).le

end CounterEngine.Grows

namespace ApplyPoint

variable {e : CounterEngine}

/-- A write to one shard that takes nothing back. -/
private theorem grows_write (hs : e.Sound) (id : ℕ) {s : Shard}
    (hused : (e.reserved.shardAt id).used ≤ s.used) :
    e.Grows { e with reserved := e.reserved.setShard id s } where
  length := List.length_set
  used := fun index => by
    rw [CounterEngine.shard_write hs]
    split
    · rename_i hindex
      rw [hindex]
      exact hused
    · exact le_rfl

/-- A request thread only ever spends. -/
theorem step_grows (hs : e.Sound) {p : ApplyPoint} (hf : p.Fits e) (spurious : Bool) :
    e.Grows (p.step e spurious).1 := by
  cases p with
  | shardSwap request current =>
    simp only [step]
    split
    · rename_i hswap
      simp only [Bool.and_eq_true, beq_iff_eq] at hswap
      refine grows_write hs _ ?_
      rw [hswap.2]
      exact (Nat.le_add_right _ _).trans_eq (hf.shardSwap_exact hs).2.symm
    · exact .of_eq rfl
  | announceSwap request result =>
    simp only [step]
    split
    · exact .of_eq rfl
    · exact grows_write hs _ le_rfl
  | _ =>
    simp only [step]
    repeat' split
    all_goals exact .of_eq rfl

end ApplyPoint

/-! ### The loads of one value -/

/-- The loads with which a thread reads a counter. -/
structure Reading where
  source : Source
  /-- what the memory answered, newest first -/
  loads : List ℕ
  /-- what the counter held as a whole at the first load, and at the last -/
  first : ℕ
  last : ℕ
  /-- the epoch of the first load -/
  epoch : ℕ
  deriving DecidableEq

namespace Reading

variable {e e' : CounterEngine} {r : Reading} {index total : ℕ}

/-- The first load. -/
def start (e : CounterEngine) (source : Source) (loaded : ℕ) : Reading :=
  ⟨source, [loaded], e.holds source, e.holds source, e.replicationEpoch⟩

/-- One more load. -/
def next (e : CounterEngine) (loaded : ℕ) (r : Reading) : Reading :=
  { r with loads := loaded :: r.loads, last := e.holds r.source }

/-- The value of a reading is the sum of its loads, and what the counter held as a whole when the
reading began and when it ended are its bounds. -/
structure Gives (r : Reading) (value : ℕ) : Prop where
  sum : r.loads.sum = value
  first_le : r.first ≤ value
  le_last : value ≤ r.last

/-- A reading of the first shards. -/
structure Covers (r : Reading) (e : CounterEngine) (index total : ℕ) : Prop where
  source : r.source = .reserved
  pos : 0 < index
  sum : r.loads.sum = total
  /-- the shards passed have only grown since -/
  passed : total ≤ e.usedBefore index
  /-- and so have those to come -/
  ahead : r.first + e.usedBefore index ≤ total + e.reserved.used
  complete : e.reserved.shards.length ≤ index → r.Gives total

/-- The strict value is read in one load. -/
theorem gives_start (e : CounterEngine) : (start e .strict e.strict.value).Gives e.strict.value :=
  ⟨List.sum_singleton, le_rfl, le_rfl⟩

/-- The first shard. -/
theorem covers_start (hs : e.Sound) : (start e .reserved (ControlPoint.shard e 0).used).Covers e 1
    ((0 + (ControlPoint.shard e 0).used) % 2 ^ 64) := by
  have hone : e.usedBefore 1 = (ControlPoint.shard e 0).used := by
    rw [e.usedBefore_succ hs.bounded.nonempty, e.usedBefore_zero, Nat.zero_add]
  rw [hs.add_shard hs.bounded.nonempty e.usedBefore_zero.symm]
  refine ⟨rfl, Nat.one_pos, List.sum_singleton.trans hone.symm, le_rfl, ?_, fun hend => ?_⟩
  · exact (Nat.add_comm _ _).le
  · exact ⟨List.sum_singleton.trans hone.symm, (e.usedBefore_of_le hend).ge,
      (e.usedBefore_of_le hend).le⟩

/-- One more shard. -/
theorem Covers.next (h : r.Covers e index total) (hs : e.Sound)
    (hindex : index < e.reserved.shards.length) :
    (r.next e (ControlPoint.shard e index).used).Covers e (index + 1)
      ((total + (ControlPoint.shard e index).used) % 2 ^ 64) := by
  have hsucc := e.usedBefore_succ hindex
  have hle := e.usedBefore_le (index + 1)
  have hused := hs.used_le
  have hlt : e.localPeak < 2 ^ 64 := e.config.localPeak_lt
  have hpassed := h.passed
  have hahead := h.ahead
  have hexact : (total + (ControlPoint.shard e index).used) % 2 ^ 64 =
      total + (ControlPoint.shard e index).used := Nat.mod_eq_of_lt (by omega)
  have hsum : (r.next e (ControlPoint.shard e index).used).loads.sum =
      total + (ControlPoint.shard e index).used := by
    rw [Reading.next, List.sum_cons, h.sum, Nat.add_comm]
  rw [hexact]
  refine ⟨h.source, Nat.succ_pos _, hsum, by omega, ?_, fun hend => ?_⟩
  · change r.first + _ ≤ _
    omega
  · have hall := e.usedBefore_of_le hend
    refine ⟨hsum, ?_, ?_⟩
    · change r.first ≤ _
      omega
    · rw [Reading.next, h.source]
      change _ ≤ e.reserved.used
      omega

/-- While it is under way the shards may grow. -/
theorem Covers.grows (h : r.Covers e index total) (hgrows : e.Grows e') :
    r.Covers e' index total where
  source := h.source
  pos := h.pos
  sum := h.sum
  passed := h.passed.trans (hgrows.usedBefore_le index)
  ahead := by
    have hahead := h.ahead
    have hrest := hgrows.rest_le index
    omega
  complete := fun hend => h.complete (hgrows.length ▸ hend)

end Reading

/-- A value that was read from the counter of a mode, and, if it may be published, in the present
epoch. -/
def Reading.Backs (read : Option Reading) (e : CounterEngine) (mode : RoutingMode)
    (publishable : Bool) (value : ℕ) : Prop :=
  ∃ r, read = some r ∧ mode.source = some r.source ∧ r.Gives value ∧
    (publishable = true → r.epoch = e.replicationEpoch)

theorem Reading.Backs.congr {read : Option Reading} {e e' : CounterEngine} {mode : RoutingMode}
    {publishable : Bool} {value : ℕ} (h : Backs read e mode publishable value)
    (hepoch : publishable = true → e'.replicationEpoch = e.replicationEpoch) :
    Backs read e' mode publishable value := by
  obtain ⟨r, hread, hsource, hgives, hcurrent⟩ := h
  exact ⟨r, hread, hsource, hgives, fun hp => (hcurrent hp).trans (hepoch hp).symm⟩

namespace ControlPoint

variable {e : CounterEngine} {p : ControlPoint}

/-! ### A sample of the control loop -/

/-- A sample starts with the mode that the control loop reads. -/
theorem sampled_step {mode : RoutingMode} (h : (p.step e).2.sampled = some mode) :
    p.sampled = some mode ∨ p = .loopMode ∧ mode = e.mode := by
  have hnone : ∀ {q : ControlPoint}, q.sampled = none → q.sampled = some mode →
      p.sampled = some mode ∨ p = .loopMode ∧ mode = e.mode := fun hq hs => by
    rw [hq] at hs
    cases hs
  cases p with
  | loopMode => exact .inr ⟨rfl, (Option.some.inj h).symm⟩
  | loopHas mode' =>
    simp only [ControlPoint.step, sampled] at h ⊢
    split at h
    · exact .inl h
    · cases h
  | loopCounter mode' has =>
    simp only [ControlPoint.step] at h
    split at h <;> exact .inl h
  | loopTotal has counter index total =>
    simp only [ControlPoint.step] at h
    repeat' split at h
    all_goals exact .inl h
  | loopRequest | loopValue => exact .inl h
  | loopEpoch mode' has counter value =>
    simp only [ControlPoint.step] at h
    split at h
    · rename_i hpublish
      simp only [sampled, hpublish.2.1, if_true] at h ⊢
      exact .inl h
    · exact hnone (quiet_loopNext mode').2.2.2 h
  | snapshotPublisher mode' =>
    simp only [ControlPoint.step] at h
    split at h
    · exact .inl h
    · exact hnone (quiet_loopNext mode').2.2.2 h
  | snapshotPublish mode' => exact hnone (quiet_loopNext mode').2.2.2 h
  | reservedLoad =>
    simp only [ControlPoint.step] at h
    split at h
    · cases h
    · exact hnone (quiet_seedNext _ _ _).2.2 h
  | reservedAnnounce => exact hnone (quiet_seedNext _ _ _).2.2 h
  | commitRelease => exact hnone (quiet_commitExhaustion _ _ _).2.2.2 h
  | _ =>
    simp only [ControlPoint.step] at h
    repeat' split at h
    all_goals cases h

/-- The record of what the control loop reads, after an access: the shards are loaded one by one,
the strict value at once. -/
def reading (p : ControlPoint) (e : CounterEngine) (read : Option Reading) : Option Reading :=
  match p with
  | .loopTotal _ _ index _ =>
    if index < e.reserved.shards.length then
      if index = 0 then some (.start e .reserved (shard e index).used)
      else read.map (.next e (shard e index).used)
    else read
  | .loopValue _ _ _ => some (.start e .strict e.strict.value)
  | _ => read

/-- The value that the control loop holds is the value of its reading. -/
def Reads (e : CounterEngine) (read : Option Reading) : ControlPoint → Prop
  | .loopTotal has _ index total =>
    index = 0 ∧ total = 0 ∨
      ∃ r, read = some r ∧ r.Covers e index total ∧ (has = true → r.epoch = e.replicationEpoch)
  | .loopRequest has _ value => Reading.Backs read e .reservedPeak has value
  | .loopValue mode _ _ => mode.source = some .strict
  | .loopEpoch mode has _ value => mode ≠ .remoteStrict → Reading.Backs read e mode has value
  | .snapshotPublisher mode _ value _ | .snapshotPublish mode _ value _ =>
    mode ≠ .remoteStrict ∧ Reading.Backs read e mode true value
  | _ => True

private theorem reads_of_quiet {e : CounterEngine} {read : Option Reading} :
    ∀ {q : ControlPoint}, (∃ e index remaining, q = seedNext e index remaining) ∨
      (∃ mode, q = loopNext mode) ∨
        (∃ e total strictOwner, q = commitExhaustion e total strictOwner) →
      q.Reads e read := by
  rintro q (⟨e, index, remaining, rfl⟩ | ⟨mode, rfl⟩ | ⟨e, total, strictOwner, rfl⟩)
  · unfold seedNext
    repeat' split
    all_goals trivial
  · cases mode <;> trivial
  · unfold commitExhaustion
    repeat' split
    all_goals trivial

/-- An access of another thread lets the shards grow, and it starts no epoch while the control loop
takes a sample that it may publish. -/
theorem Reads.congr {e' : CounterEngine} {read : Option Reading} (h : p.Reads e read)
    (hgrows : e.Grows e') (hepoch : ∀ mode, p.sampled = some mode → mode ≠ .remoteStrict →
      e'.replicationEpoch = e.replicationEpoch) : p.Reads e' read := by
  cases p with
  | loopTotal has counter index total =>
    rcases h with hstart | ⟨r, hread, hcovers, hcurrent⟩
    · exact .inl hstart
    · refine .inr ⟨r, hread, hcovers.grows hgrows, fun hhas => ?_⟩
      exact (hcurrent hhas).trans (hepoch .reservedPeak (if_pos hhas) nofun).symm
  | loopRequest has counter value =>
    exact Reading.Backs.congr h fun hhas => hepoch .reservedPeak (if_pos hhas) nofun
  | loopEpoch mode has counter value =>
    exact fun hne => (h hne).congr fun hhas => hepoch mode (if_pos hhas) hne
  | snapshotPublisher mode | snapshotPublish mode =>
    exact ⟨h.1, h.2.congr fun _ => hepoch mode rfl h.1⟩
  | loopValue => exact h
  | _ => trivial

/-- One load of `ReservedCounter::total`, or its end. -/
private theorem reads_loopTotal {read : Option Reading} {has : Bool} {counter index total : ℕ}
    (h : (loopTotal has counter index total).Reads e read) (hs : e.Sound) :
    ((loopTotal has counter index total).step e).2.Reads
      ((loopTotal has counter index total).step e).1
      ((loopTotal has counter index total).reading e read) := by
  simp only [ControlPoint.step, reading]
  split
  · rename_i hindex
    refine .inr ?_
    rcases h with ⟨rfl, rfl⟩ | ⟨r, rfl, hcovers, hcurrent⟩
    · exact ⟨_, if_pos rfl, Reading.covers_start hs, fun _ => rfl⟩
    · exact ⟨_, if_neg hcovers.pos.ne', hcovers.next hs hindex, hcurrent⟩
  · rename_i hend
    have hbacks : Reading.Backs read e .reservedPeak has total := by
      rcases h with ⟨rfl, -⟩ | ⟨r, hread, hcovers, hcurrent⟩
      · exact absurd hs.bounded.nonempty hend
      · exact ⟨r, hread, congrArg some hcovers.source.symm, hcovers.complete (Nat.not_lt.mp hend),
          hcurrent⟩
    split
    · exact hbacks
    · exact fun _ => hbacks

/-- **The value that the control loop holds is the value of its reading**, from load to load. -/
theorem Reads.step {read : Option Reading} (h : p.Reads e read) (hs : e.Sound) :
    (p.step e).2.Reads (p.step e).1 (p.reading e read) := by
  cases p with
  | loopCounter mode has =>
    cases mode with
    | reservedPeak => exact .inl ⟨rfl, rfl⟩
    | remoteStrict => exact fun hne => absurd rfl hne
    | strict | dangerStrict => exact rfl
  | loopTotal => exact reads_loopTotal h hs
  | loopRequest => exact fun _ => h
  | loopValue mode => exact fun _ => ⟨_, rfl, h, Reading.gives_start e, fun _ => rfl⟩
  | loopEpoch mode has =>
    simp only [ControlPoint.step, reading]
    split
    · rename_i hpublish
      obtain ⟨hne, rfl, -⟩ := hpublish
      exact ⟨hne, h hne⟩
    · exact reads_of_quiet (.inr (.inl ⟨_, rfl⟩))
  | snapshotPublisher mode =>
    simp only [ControlPoint.step, reading]
    split
    · exact h
    · exact reads_of_quiet (.inr (.inl ⟨_, rfl⟩))
  | snapshotPublish mode => exact reads_of_quiet (.inr (.inl ⟨_, rfl⟩))
  | reservedLoad =>
    simp only [ControlPoint.step]
    split
    · trivial
    · exact reads_of_quiet (.inl ⟨_, _, _, rfl⟩)
  | reservedAnnounce => exact reads_of_quiet (.inl ⟨_, _, _, rfl⟩)
  | commitRelease => exact reads_of_quiet (.inr (.inr ⟨_, _, _, rfl⟩))
  | _ =>
    simp only [ControlPoint.step]
    repeat' split
    all_goals trivial

/-- What the next access publishes: `publish_snapshot` reads the epoch itself. -/
def publishing (p : ControlPoint) (e : CounterEngine) : Option ReplicationUpdate :=
  match p with
  | .snapshotPublish _ counter value _ =>
    some ⟨counter, e.replicationEpoch, e.config.componentId, value⟩
  | _ => none

theorem snapshots_step (e : CounterEngine) (p : ControlPoint) :
    (p.step e).1.snapshots = (p.publishing e).toList ++ e.snapshots := by
  cases p <;> simp only [ControlPoint.step] <;> repeat' split
  all_goals rfl

/-- What is published was sampled, it carries the epoch of the moment, and its value was read in
that epoch from the counter of the mode sampled. -/
theorem sampled_of_publishing {update : ReplicationUpdate} (h : p.publishing e = some update) :
    update.epoch = e.replicationEpoch ∧ ∃ mode, p.sampled = some mode ∧
      ∀ read, p.Reads e read →
        mode ≠ .remoteStrict ∧ Reading.Backs read e mode true update.value := by
  cases p with
  | snapshotPublish mode =>
    obtain rfl := Option.some.inj h
    exact ⟨rfl, mode, rfl, fun _ => id⟩
  | _ => cases h

/-! ### The two control threads -/

/-- The handoff thread stays in its calls, and its commit relies on the claim of the handoff. -/
theorem ofHandoff_step (h : p.ofHandoff = true)
    (hactive : p.committing = true → e.distributedHandoffActive = true) :
    (p.step e).2.ofHandoff = true ∧
      ((p.step e).2.committing = true → (p.step e).1.distributedHandoffActive = true) := by
  have hno : ∀ {P : Prop}, false = true → P := fun h => absurd h Bool.false_ne_true
  cases p with
  | commitActive =>
    simp only [ControlPoint.step]
    split
    · exact ⟨rfl, fun _ => ‹_›⟩
    · exact ⟨rfl, hno⟩
  | commitMode | commitSeed | commitPublish | commitClearCount | commitEpoch | commitClear =>
    simp only [ControlPoint.step]
    repeat' split
    all_goals exact ⟨rfl, fun _ => hactive rfl⟩
  | commitRelease total strictOwner =>
    simp only [ControlPoint.step, commitExhaustion]
    repeat' split
    all_goals exact ⟨rfl, hno⟩
  | _ =>
    first
      | simp only [ControlPoint.step]
        repeat' split
        all_goals exact ⟨rfl, hno⟩
      | exact absurd h Bool.false_ne_true

/-- Outside its transitions the control loop enters none while a commit is switching modes. -/
theorem outside_step (h : p.ofLoop = true) (hout : p.inTransition = false)
    (hmode : e.mode ≠ .strict) (hactive : e.distributedHandoffActive = true) :
    (p.step e).2.inTransition = false := by
  have hloop : ∀ mode, (loopNext mode).inTransition = false := fun mode => by cases mode <;> rfl
  cases p with
  | reservedMode => simp [ControlPoint.step, hmode, inTransition, inReserved, inDanger]
  | dangerActive => simp [ControlPoint.step, hactive, inTransition, inReserved, inDanger]
  | loopEpoch | snapshotPublisher =>
    simp only [ControlPoint.step]
    split
    · rfl
    · exact hloop _
  | snapshotPublish => exact hloop _
  | loopCounter mode => cases mode <;> rfl
  | _ =>
    first
      | simp only [ControlPoint.step]
        repeat' split
        all_goals rfl
      | exact absurd hout.symm Bool.false_ne_true
      | exact absurd h Bool.false_ne_true

/-- The modes a commit switches to. -/
theorem switching_ofHandoff (h : p.ofHandoff = true) {mode : RoutingMode}
    (hs : p.switching = some mode) :
    p.committing = true ∧ (mode = .dangerStrict ∨ mode = .remoteStrict) := by
  have hmode : ∀ strictOwner, CounterEngine.handoffMode strictOwner = .dangerStrict ∨
      CounterEngine.handoffMode strictOwner = .remoteStrict := by decide
  cases p with
  | commitClearCount total strictOwner | commitEpoch total strictOwner =>
    obtain rfl := Option.some.inj hs
    exact ⟨rfl, hmode strictOwner⟩
  | reservedCount | reservedStoreCount | reservedEpoch | dangerClearCount | dangerEpoch =>
    exact absurd h Bool.false_ne_true
  | _ => cases hs

/-- A call that starts has published nothing and tested nothing. -/
theorem entry_quiet (op : ControlCall) (e : CounterEngine) (read : Option Reading) :
    (entry op).switching = none ∧ (entry op).fromStrict = false ∧ (entry op).fromPeak = false ∧
      (entry op).committing = false ∧ (entry op).sampled = none ∧ (entry op).Reads e read := by
  cases op <;> exact ⟨rfl, rfl, rfl, rfl, rfl, trivial⟩

theorem inTransition_ofHandoff (h : p.ofHandoff = true) : p.inTransition = false := by
  cases p <;> first | rfl | exact absurd h Bool.false_ne_true

theorem publishing_ofHandoff (h : p.ofHandoff = true) : p.publishing e = none := by
  cases p <;> first | rfl | exact absurd h Bool.false_ne_true

theorem fromStrict_ofHandoff (h : p.ofHandoff = true) : p.fromStrict = false := by
  cases p with
  | reservedClose | reservedDrain | reservedCheck | reservedLoad | reservedSeed | reservedAnnounce
  | reservedReopen | reservedPublish => exact absurd h Bool.false_ne_true
  | _ => rfl

theorem outside_quiet (h : p.ofLoop = true) (hout : p.inTransition = false) :
    p.switching = none ∧ p.fromStrict = false := by
  cases p with
  | commitClearCount | commitEpoch => exact absurd h Bool.false_ne_true
  | _ =>
    first
      | exact ⟨rfl, rfl⟩
      | exact absurd hout.symm Bool.false_ne_true
/-- The handoff thread leaves the shards alone. -/
theorem reserved_ofHandoff (h : p.ofHandoff = true) : (p.step e).1.reserved = e.reserved := by
  cases p with
  | reservedSeed | reservedAnnounce => exact absurd h Bool.false_ne_true
  | _ =>
    simp only [ControlPoint.step]
    repeat' split
    all_goals trivial

end ControlPoint

end HotCounter
