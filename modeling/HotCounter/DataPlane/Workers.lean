import HotCounter.DataPlane.Dpdk
import HotCounter.Foundation.Transition

/-!
# The workers of the poll-mode data plane

Every queue of the port has a worker, and all workers share the engine. A worker takes a burst of
frames, answers or frees each of them, hands the replies to the port in one burst and frees those
the port did not take. A run interleaves the workers frame by frame, with everything else that is
called on the engine.

However the run goes, there is one order of the frames and calls that explains it
(`worker_main_explained`), and every mbuf has exactly one owner.
-/

namespace HotCounter

open Foundation

namespace Dpdk

/-- `kBurstSize`. -/
def kBurstSize : ℕ := 32

/-- The arrays of `worker_main`, and what has passed between the worker and its queue. -/
structure Worker where
  /-- The rest of the burst. -/
  received : List Mbuf := []
  replies : List Mbuf := []
  /-- Everything the port handed to the worker. -/
  arrived : List Mbuf := []
  /-- Everything the port took back. -/
  transmitted : List Mbuf := []
  freed : List Mbuf := []

/-- The process: `g_stop`, the engine and the workers. -/
structure Plane (W : Type*) where
  stop : Bool := false
  engine : CounterEngine
  workers : W → Worker

/-- One step of a process. -/
inductive PlaneAction (W : Type*)
  | receive (w : W) (burst : List Mbuf)
  | answer (w : W)
  | transmit (w : W) (taken : ℕ)
  | call (call : CounterEngine.Call)
  | stop

variable {W : Type*} [DecidableEq W]

/-- The worker after `rte_eth_rx_burst`. -/
def Worker.receive (worker : Worker) (burst : List Mbuf) : Worker :=
  { worker with received := burst, arrived := worker.arrived ++ burst }

/-- The worker after it has handled the first frame of the rest of its burst. -/
def Worker.answered (worker : Worker) (packet : Mbuf) (rest : List Mbuf) : Option Mbuf → Worker
  | some reply => { worker with received := rest, replies := worker.replies ++ [reply] }
  | none => { worker with received := rest, freed := worker.freed ++ [packet] }

/-- The worker after `rte_eth_tx_burst` took some of its replies and it has freed the others. -/
def Worker.transmit (worker : Worker) (taken : ℕ) : Worker :=
  { worker with
    replies := []
    transmitted := worker.transmitted ++ worker.replies.take taken
    freed := worker.freed ++ worker.replies.drop taken }

/-- The steps of a process. The port hands over at most a burst and takes back at most what it is
offered; a worker looks at `g_stop` before each burst. -/
def Plane.step (rteIpv4Cksum : List UInt8 → ℕ) (contexts : W → WorkerContext) (p : Plane W) :
    PlaneAction W → Option (Plane W)
  | .receive w burst =>
    if p.stop = false ∧ (p.workers w).received.isEmpty ∧ (p.workers w).replies.isEmpty ∧
        0 < burst.length ∧ burst.length ≤ kBurstSize then
      some { p with workers := Function.update p.workers w ((p.workers w).receive burst) }
    else none
  | .answer w =>
    match (p.workers w).received with
    | [] => none
    | packet :: rest =>
      let answer := answerFrame rteIpv4Cksum (contexts w) p.engine packet
      some
        { p with
          engine := answer.2
          workers := Function.update p.workers w ((p.workers w).answered packet rest answer.1) }
  | .transmit w taken =>
    if (p.workers w).received.isEmpty ∧ 0 < (p.workers w).replies.length ∧
        taken ≤ (p.workers w).replies.length then
      some { p with workers := Function.update p.workers w ((p.workers w).transmit taken) }
    else none
  | .call call => some { p with engine := p.engine.run call }
  | .stop => some { p with stop := true }

/-- The process before its workers have polled. -/
def Plane.init (W : Type*) (config : CounterEngineConfig) : Plane W where
  engine := .new config
  workers _ := {}

/-! ### Explaining a run -/

/-- A frame that was answered or freed, or another call on the engine. -/
inductive Entry (W : Type*)
  | answered (w : W) (packet : Mbuf) (reply : Option Mbuf)
  | called (call : CounterEngine.Call)

/-- The frame of an entry of a worker. -/
def Entry.frame (w : W) : Entry W → Option Mbuf
  | .answered w' packet _ => if w' = w then some packet else none
  | .called _ => none

/-- The reply of an entry of a worker. -/
def Entry.reply (w : W) : Entry W → Option Mbuf
  | .answered w' _ reply => if w' = w then reply else none
  | .called _ => none

/-- The entries, one after the other, lead from one engine to another, and every frame is answered
as `Answers` says in the engine of its turn. -/
inductive Explains (rteIpv4Cksum : List UInt8 → ℕ) (contexts : W → WorkerContext)
    (start : CounterEngine) : List (Entry W) → CounterEngine → Prop
  | start : Explains rteIpv4Cksum contexts start [] start
  | answered {log : List (Entry W)} {engine engine' : CounterEngine} {w : W} {packet : Mbuf}
      {reply : Option Mbuf} : Explains rteIpv4Cksum contexts start log engine →
      Answers rteIpv4Cksum (contexts w) engine packet reply engine' →
      Explains rteIpv4Cksum contexts start (log ++ [.answered w packet reply]) engine'
  | called {log : List (Entry W)} {engine : CounterEngine} {call : CounterEngine.Call} :
      Explains rteIpv4Cksum contexts start log engine →
      Explains rteIpv4Cksum contexts start (log ++ [.called call]) (engine.run call)

/-- A worker as the entries explain it. Its frames were handled in the order of their arrival; what
it transmitted is a part of its replies, in order; and each mbuf it was handed is at one place. -/
structure Worker.Explained (w : W) (worker : Worker) (log : List (Entry W)) : Prop where
  frames : worker.arrived = log.filterMap (Entry.frame w) ++ worker.received
  replies : (worker.transmitted ++ worker.replies).Sublist (log.filterMap (Entry.reply w))
  custody : (worker.arrived.map Mbuf.handle).Perm
    ((worker.received ++ worker.replies ++ worker.transmitted ++ worker.freed).map Mbuf.handle)

section Explained

variable {rteIpv4Cksum : List UInt8 → ℕ} {contexts : W → WorkerContext} {start : CounterEngine}
  {w : W} {worker : Worker} {log : List (Entry W)}

theorem Worker.explained_init (w : W) : Worker.Explained w {} [] :=
  ⟨rfl, List.Sublist.refl _, List.Perm.refl _⟩

/-- A reply is in the mbuf of its frame. -/
theorem Answers.handle_eq {context : WorkerContext} {engine engine' : CounterEngine}
    {packet sent : Mbuf} (h : Answers rteIpv4Cksum context engine packet (some sent) engine') :
    sent.handle = packet.handle := by
  cases h <;> rfl

namespace Worker.Explained

/-- An entry of another worker, or no frame at all, explains what was explained. -/
theorem append (h : worker.Explained w log) {entry : Entry W} (hframe : entry.frame w = none)
    (hreply : entry.reply w = none) : worker.Explained w (log ++ [entry]) := by
  refine ⟨?_, ?_, h.custody⟩
  · rw [List.filterMap_append, List.filterMap_cons_none hframe, List.filterMap_nil, List.append_nil]
    exact h.frames
  · rw [List.filterMap_append, List.filterMap_cons_none hreply, List.filterMap_nil, List.append_nil]
    exact h.replies

theorem receive (h : worker.Explained w log) (hidle : worker.received = []) (burst : List Mbuf) :
    (worker.receive burst).Explained w log where
  frames := by
    rw [Worker.receive, h.frames, hidle, List.append_nil]
  replies := h.replies
  custody := by
    have hcustody := h.custody
    rw [hidle, List.nil_append] at hcustody
    simp only [Worker.receive, List.map_append, List.append_assoc] at hcustody ⊢
    exact (hcustody.append_right _).trans List.perm_append_comm

theorem transmit (h : worker.Explained w log) (taken : ℕ) :
    (worker.transmit taken).Explained w log where
  frames := h.frames
  replies := by
    rw [Worker.transmit, List.append_nil]
    exact ((List.take_sublist _ _).append_left _).trans h.replies
  custody := by
    refine List.perm_iff_count.mpr fun handle => ?_
    have hcount := h.custody.count_eq handle
    have hsplit : (worker.replies.map Mbuf.handle).count handle =
        ((worker.replies.take taken).map Mbuf.handle).count handle +
          ((worker.replies.drop taken).map Mbuf.handle).count handle := by
      rw [← List.count_append, ← List.map_append, List.take_append_drop]
    simp only [Worker.transmit, List.map_append, List.count_append, List.append_nil] at hcount ⊢
    omega

theorem answered (h : worker.Explained w log) {packet : Mbuf} {rest : List Mbuf}
    (hreceived : worker.received = packet :: rest) {reply : Option Mbuf}
    (hhandle : ∀ sent, reply = some sent → sent.handle = packet.handle) :
    (worker.answered packet rest reply).Explained w (log ++ [.answered w packet reply]) := by
  have hframe : (Entry.answered w packet reply).frame w = some packet := if_pos rfl
  have hreply : (Entry.answered w packet reply).reply w = reply := if_pos rfl
  have hframes := h.frames
  have hcount := fun handle => h.custody.count_eq handle
  rw [hreceived] at hframes
  simp only [hreceived, List.map_append, List.map_cons, List.count_append, List.count_cons]
    at hcount
  cases reply with
  | none =>
    refine ⟨?_, ?_, List.perm_iff_count.mpr fun handle => ?_⟩
    · simp [Worker.answered, List.filterMap_append, hframe, hframes]
    · simpa [Worker.answered, List.filterMap_append, hreply] using h.replies
    · have hcount := hcount handle
      simp only [Worker.answered, List.map_append, List.map_cons, List.map_nil, List.count_append,
        List.count_cons, List.count_nil] at hcount ⊢
      omega
  | some sent =>
    have hsent := hhandle sent rfl
    refine ⟨?_, ?_, List.perm_iff_count.mpr fun handle => ?_⟩
    · simp [Worker.answered, List.filterMap_append, hframe, hframes]
    · simpa [Worker.answered, List.filterMap_append, hreply] using
        h.replies.append (List.Sublist.refl [sent])
    · have hcount := hcount handle
      simp only [Worker.answered, List.map_append, List.map_cons, List.map_nil, List.count_append,
        List.count_cons, List.count_nil, hsent] at hcount ⊢
      omega

end Worker.Explained

/-! ### Runs -/

/-- What is known of a process: one order of its frames and calls explains the engine and every
worker. -/
def Plane.Explained (rteIpv4Cksum : List UInt8 → ℕ) (contexts : W → WorkerContext)
    (start : CounterEngine) (p : Plane W) (log : List (Entry W)) : Prop :=
  Explains rteIpv4Cksum contexts start log p.engine ∧ ∀ w, (p.workers w).Explained w log

/-- **One step keeps the explanation**, lengthened by what the step did. -/
theorem Plane.Explained.step {p p' : Plane W} {action : PlaneAction W}
    (h : p.Explained rteIpv4Cksum contexts start log)
    (hstep : p.step rteIpv4Cksum contexts action = some p') :
    ∃ log', p'.Explained rteIpv4Cksum contexts start log' := by
  obtain ⟨hengine, hworkers⟩ := h
  -- a step of one worker that adds no entry
  have hone : ∀ {w : W} {worker : Worker}, worker.Explained w log →
      ∀ v, (Function.update p.workers w worker v).Explained v log := by
    intro w worker hworker v
    by_cases hv : v = w
    · subst hv
      rwa [Function.update_self]
    · rw [Function.update_of_ne hv]
      exact hworkers v
  cases action with
  | receive w burst =>
    simp only [Plane.step] at hstep
    split at hstep
    · rename_i hready
      obtain rfl := Option.some.inj hstep
      exact ⟨log, hengine, hone ((hworkers w).receive (List.isEmpty_iff.mp hready.2.1) burst)⟩
    · cases hstep
  | answer w =>
    simp only [Plane.step] at hstep
    split at hstep
    · cases hstep
    · rename_i packet rest hreceived
      obtain ⟨reply, engine', hanswer⟩ : ∃ reply engine',
        answerFrame rteIpv4Cksum (contexts w) p.engine packet = (reply, engine') := ⟨_, _, rfl⟩
      rw [hanswer] at hstep
      obtain rfl := Option.some.inj hstep
      have hanswers := answerFrame_eq_iff.mp hanswer
      refine ⟨log ++ [.answered w packet reply], hengine.answered hanswers, fun v => ?_⟩
      dsimp only
      by_cases hv : v = w
      · subst hv
        rw [Function.update_self]
        refine (hworkers v).answered hreceived fun sent hsent => ?_
        rw [hsent] at hanswers
        exact hanswers.handle_eq
      · rw [Function.update_of_ne hv]
        exact (hworkers v).append (if_neg (Ne.symm hv)) (if_neg (Ne.symm hv))
  | transmit w taken =>
    simp only [Plane.step] at hstep
    split at hstep
    · obtain rfl := Option.some.inj hstep
      exact ⟨log, hengine, hone ((hworkers w).transmit taken)⟩
    · cases hstep
  | call call =>
    obtain rfl := Option.some.inj hstep
    exact ⟨log ++ [.called call], hengine.called, fun v => (hworkers v).append rfl rfl⟩
  | stop =>
    obtain rfl := Option.some.inj hstep
    exact ⟨log, hengine, hworkers⟩

theorem Plane.explained_init (config : CounterEngineConfig) :
    (Plane.init W config).Explained rteIpv4Cksum contexts (.new config) [] :=
  ⟨.start, Worker.explained_init⟩

/-- A reply among the entries is the answer of some worker to some frame. -/
theorem Explains.exists_answers {engine : CounterEngine} {sent : Mbuf}
    (h : Explains rteIpv4Cksum contexts start log engine)
    (hsent : sent ∈ log.filterMap (Entry.reply w)) :
    ∃ context before packet after,
      Answers rteIpv4Cksum context before packet (some sent) after := by
  induction h with
  | start => simp at hsent
  | @answered log engine engine' v packet reply _ hanswers ih =>
    rw [List.filterMap_append, List.mem_append] at hsent
    rcases hsent with hold | hnew
    · exact ih hold
    · obtain ⟨entry, hentry, hreply⟩ := List.mem_filterMap.mp hnew
      obtain rfl := List.mem_singleton.mp hentry
      simp only [Entry.reply] at hreply
      split at hreply
      · subst hreply
        exact ⟨_, _, _, _, hanswers⟩
      · cases hreply
  | called _ ih =>
    rw [List.filterMap_append, List.mem_append] at hsent
    rcases hsent with hold | hnew
    · exact ih hold
    · simp [Entry.reply] at hnew

end Explained

/-- **Every run of the workers has an explanation.** However the workers and the other callers of
the engine are interleaved, some order of the handled frames and of the other calls leads from the
new engine to the present one, each frame being answered as `Answers` says in its turn. Every worker
handled its frames in the order of their arrival and transmitted replies of its own, in order; each
mbuf it was handed is in the rest of its burst, a reply, transmitted or freed, once; and no worker
answers a frame that was transmitted. -/
theorem worker_main_explained {rteIpv4Cksum : List UInt8 → ℕ} {contexts : W → WorkerContext}
    {config : CounterEngineConfig} {p : Plane W}
    (h : Steps (Plane.step rteIpv4Cksum contexts) (fun _ _ => True) (Plane.init W config) p) :
    ∃ log : List (Entry W), Explains rteIpv4Cksum contexts (.new config) log p.engine ∧
      ∀ w, (p.workers w).Explained w log ∧
        ∀ sent ∈ (p.workers w).transmitted, ∀ context engine,
          answerFrame rteIpv4Cksum context engine sent = (none, engine) := by
  have hexplained : ∃ log, p.Explained rteIpv4Cksum contexts (.new config) log := by
    refine h.invariant (P := fun p => ∃ log, p.Explained rteIpv4Cksum contexts (.new config) log)
      ⟨[], Plane.explained_init config⟩ ?_
    rintro q q' action ⟨log, hlog⟩ - hstep
    exact hlog.step hstep
  obtain ⟨log, hengine, hworkers⟩ := hexplained
  refine ⟨log, hengine, fun w => ⟨hworkers w, fun sent hsent context engine => ?_⟩⟩
  have hreply := (hworkers w).replies.subset (List.mem_append_left _ hsent)
  obtain ⟨_, _, _, _, hanswers⟩ := hengine.exists_answers hreply
  exact answerFrame_eq_iff.mpr (hanswers.ignored_again context engine)

/-- One worker receives a request, answers it while the process is told to stop, and transmits. -/
def requestRun : List (PlaneAction Unit) :=
  [.receive () [requestMbuf], .stop, .answer (), .call .controlLoop, .transmit () 1]

theorem worker_main_explained_requestRun : ∃ p : Plane Unit,
    ((p.workers ()).transmitted.map Mbuf.handle = [3] ∧ p.engine.strict.value = 5) ∧
    ∃ log : List (Entry Unit),
      Explains internetChecksum (fun _ => ⟨9091, {}⟩) (.new CounterEngine.testConfig) log p.engine ∧
      ∀ w, (p.workers w).Explained w log ∧
        ∀ sent ∈ (p.workers w).transmitted, ∀ context engine,
          answerFrame internetChecksum context engine sent = (none, engine) := by
  have hrun : (exec (Plane.step internetChecksum fun _ => ⟨9091, {}⟩) (fun _ _ => True)
      (Plane.init Unit CounterEngine.testConfig) requestRun).map (fun p => decide
        ((p.workers ()).transmitted.map Mbuf.handle = [3] ∧ p.engine.strict.value = 5)) =
          some true := by
    decide +kernel
  obtain ⟨p, hsteps, hp⟩ := Steps.exists_of_exec hrun
  exact ⟨p, hp, worker_main_explained hsteps⟩

end Dpdk

end HotCounter
