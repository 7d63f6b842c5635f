import HotCounter.Handoff.Lifetime

/-!
# The terms of a leader

`begin_leader_prepare` draws the maximum of three numbers: the successors of the active term and of
the last committed one, and a clock reading. The first is meant to keep the terms apart, but every
way to leave a round resets the active term to 0, and a round only begins before anything was
committed. So a term is the clock reading it was drawn at, or 1 (`Books.drawn`), and the terms of a
leader increase exactly if the readings do (`terms_increase_iff`).
-/

namespace HotCounter

namespace Process

open Foundation

variable {S : Site} {w : Process}

/-- A round has a higher term than every earlier round of the process, so no frame of an earlier
round carries its term: the newest term drawn is that of the round the leader is in, and the leader
announces no term that it did not draw. -/
structure TermsIncrease (w : Process) : Prop where
  drawn : w.notes.drawn.Pairwise fun later earlier => earlier < later
  round : w.node.up = true → ∀ c, w.node.control = .ret c () → c.state = .leaderPreparing →
    ∃ earlier, w.notes.drawn = c.activeTerm :: earlier ∧ ∀ term ∈ earlier, term < c.activeTerm
  announced : ∀ term ∈ w.notes.announced, term ∈ w.notes.drawn

/-- Terms that are clock readings, but at least 1, increase exactly if the readings do. -/
private theorem pairwise_max_one {readings : List ℕ} :
    ((readings.map (max 1)).Pairwise fun later earlier => earlier < later) ↔
      readings.Pairwise fun later earlier => earlier < later ∧ 1 < later := by
  rw [List.pairwise_map]
  refine List.Pairwise.iff fun later earlier => ?_
  omega

/-- **When the leader's terms increase.** In every run of a leader, over any number of rounds,
restarts and reboots and at any clock readings, the terms of its rounds increase exactly if every
clock reading at which it draws a term, from the second one on, is above 1 and above all those
before it. The first reading may be any. -/
theorem terms_increase_iff {journal : Option JournalRecord} (hleader : S.isLeader = true)
    (h : Reaches S (fun _ _ => True) journal w) :
    w.TermsIncrease ↔
      w.notes.readings.Pairwise fun later earlier => earlier < later ∧ 1 < later := by
  have horderly : Orderly S False w := orderly_of_reaches False.elim h
  have hdrawn : w.notes.drawn = w.notes.readings.map (max 1) := horderly.upheld.books.drawn hleader
  constructor
  · intro hterms
    have hpairwise := hterms.drawn
    rw [hdrawn] at hpairwise
    exact pairwise_max_one.mp hpairwise
  · intro hreadings
    have hpairwise : w.notes.drawn.Pairwise fun later earlier => earlier < later := by
      rw [hdrawn]
      exact pairwise_max_one.mpr hreadings
    refine ⟨hpairwise, fun hup c hcontrol hstate => ?_, horderly.upheld.books.announced⟩
    obtain ⟨own, -, stand⟩ := (horderly.rest hup hcontrol).of_preparing hstate
    obtain ⟨earlier, hround⟩ := stand.facts.round
    refine ⟨earlier, hround, ?_⟩
    have hsorted : (c.activeTerm :: earlier).Pairwise fun later earlier => earlier < later :=
      hround ▸ hpairwise
    exact (List.pairwise_cons.mp hsorted).1

/-- The leader of the pair gives its round up at the prepare timeout, and its machine reboots. -/
def pairReboots : List ProcessAction :=
  .node (.tick 1000001000) :: effects 3 1000001000 ++ [.crash]

/-- The leader of the pair begins one round at 1000 and, after a reboot, another at 2000. -/
theorem terms_increase_iff_pair :
    ∃ w, Reaches (pairSite 0) (fun _ _ => True) none w ∧ w.notes.drawn = [2000, 1000] ∧
      w.TermsIncrease := by
  have hexec : (exec (step (pairSite 0)) (fun _ _ => True) (init (pairSite 0) none)
      (pairRound 1000 ++ pairReboots ++ pairRound 2000)).map (fun w => decide
        (w.notes.drawn = [2000, 1000] ∧ w.notes.readings = [2000, 1000])) = some true := by
    decide +kernel
  obtain ⟨w, hrun, hdrawn, hreadings⟩ := Steps.exists_of_exec hexec
  refine ⟨w, hrun, hdrawn, (terms_increase_iff rfl hrun).mpr ?_⟩
  rw [hreadings]
  decide

/-- The leader of the pair begins a round at 1000, gives it up and reboots, and begins the next
round when the clock of the new boot shows 1000: both rounds have the same term, so a frame of the
first one passes for a frame of the second. -/
theorem term_reused :
    ∃ w, Reaches (pairSite 0) (fun _ _ => True) none w ∧ w.restsIn .leaderPreparing = true ∧
      w.notes.readings = [1000, 1000] ∧ w.notes.drawn = [1000, 1000] ∧
      w.node.impl.activeTerm = 1000 ∧ ¬ w.TermsIncrease := by
  have hexec : (exec (step (pairSite 0)) (fun _ _ => True) (init (pairSite 0) none)
      (pairRound 1000 ++ pairReboots ++ pairRound 1000)).map (fun w => decide
        (w.restsIn .leaderPreparing = true ∧ w.notes.readings = [1000, 1000] ∧
          w.notes.drawn = [1000, 1000] ∧ w.node.impl.activeTerm = 1000)) = some true := by
    decide +kernel
  obtain ⟨w, hrun, hstate, hreadings, hdrawn, hterm⟩ := Steps.exists_of_exec hexec
  refine ⟨w, hrun, hstate, hreadings, hdrawn, hterm, fun hterms => ?_⟩
  have hpairwise := hterms.drawn
  rw [hdrawn] at hpairwise
  exact absurd hpairwise (by decide)

end Process

end HotCounter
