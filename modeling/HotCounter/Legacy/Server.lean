import HotCounter.Legacy.Number
import HotCounter.Foundation.Bytes
import HotCounter.Foundation.Transition
import HotCounter.Foundation.Sums

/-!
# The C server

`counter-server` runs one thread for each connection. A thread cuts what it reads into lines, takes
each line that is a number through `incrnchk`, counts the decision and writes a reply of two bytes.
All threads share one counter and the metrics, and a monitor that samples the metrics switches
the router to peak mode.

The threads are interleaved at every access to a shared variable, at every `read` and at every
`write`. Relaxed loads may be stale: the load of `incrnchk` and its failing compare-exchange read
any value up to the present one, which is more than the values the counter had, and only a
compare-exchange that succeeds reads the present value. Whatever the interleaving, the answers are
those of a sequential counter, every connection is answered line by line, and the counter and the
metrics agree with the answers (`served_exactly`).
-/

namespace HotCounter

open Foundation

namespace Legacy

open TcpServer (newline)

/-- `sizeof(buf)` of `connection_run`. -/
def bufferSize : ℕ := 4096

/-- `route_mode_t`. -/
inductive RouteMode
  | normal
  | peak
  | danger
  deriving DecidableEq, Repr

/-- The next access of a connection thread. -/
inductive Point
  /-- in `read` -/
  | reading
  /-- in the loop over the buffer -/
  | scanning
  /-- at the load of `incrnchk` -/
  | loading (delta : ℕ)
  /-- at the compare-exchange of `incrnchk` -/
  | swapping (delta observed : ℕ)
  /-- `incrnchk` has decided; at the first addition of `metrics_record` -/
  | counting (delta : ℕ) (accepted : Bool)
  /-- at the second addition of `metrics_record` -/
  | sorting (delta : ℕ) (accepted : Bool)
  /-- in `write` -/
  | replying (accepted : Bool)
  | closed
  deriving DecidableEq, Repr

/-- The locals of `connection_run`, `buffer` being the used part of `buf`, and what the thread has
read, written and served so far, oldest first. -/
structure Connection where
  point : Point := .reading
  buffer : List UInt8 := []
  start : ℕ := 0
  index : ℕ := 0
  received : List UInt8 := []
  sent : List UInt8 := []
  served : List (List UInt8 × Bool) := []
  deriving DecidableEq, Repr

/-- The line between `start` and `index`. -/
def Connection.line (c : Connection) : List UInt8 := (c.buffer.take c.index).drop c.start

/-- The reply of `connection_run`. -/
def reply (accepted : Bool) : List UInt8 := [if accepted then 65 else 82, newline]

/-- The process: the counter, the metrics, the router, the monitor, the connections, and what
`incrnchk` has decided, newest first. -/
structure Server (ι : Type*) where
  limit : ℕ
  value : ℕ := 0
  requests : ℕ := 0
  accepted : ℕ := 0
  rejected : ℕ := 0
  mode : RouteMode := .normal
  /-- `previous` and `at` of the monitor -/
  previous : ℕ := 0
  sampledAt : ℕ := 0
  connections : ι → Connection := fun _ => {}
  decided : List (ι × ℕ × Bool) := []

/-- One step of the process. -/
inductive ServerAction (ι : Type*)
  /-- `read` returns some bytes -/
  | receive (i : ι) (chunk : List UInt8)
  /-- `read` returns zero or an error -/
  | hangup (i : ι)
  /-- one turn of the loop over the buffer, or what follows the loop -/
  | scan (i : ι)
  /-- the next access to a shared variable, and the value of the counter that it reads -/
  | access (i : ι) (seen : ℕ)
  /-- `write` writes some bytes of the reply -/
  | write (i : ι) (count : ℕ)
  /-- the monitor wakes up -/
  | sample (now : ℕ)

/-- The test of `incrnchk`, whose subtraction wraps. -/
def refuses (limit observed delta : ℕ) : Bool :=
  decide (delta > (limit + 2 ^ 64 - observed) % 2 ^ 64)

/-- A connection after `read` has returned some bytes. -/
def Connection.receive (c : Connection) (chunk : List UInt8) : Connection :=
  { c with
    point := .scanning
    buffer := c.buffer ++ chunk
    start := 0
    index := 0
    received := c.received ++ chunk }

/-- A connection after one turn of the loop over the buffer, or after what follows the loop. -/
def Connection.scan (c : Connection) : Connection :=
  if c.index < c.buffer.length then
    if c.buffer.getD c.index 0 ≠ newline then { c with index := c.index + 1 }
    else
      let buffer := c.buffer.set c.index 0
      match readNumber (buffer.drop c.start) with
      | some delta => { c with buffer := buffer, point := .loading delta }
      | none => { c with buffer := buffer, point := .replying false }
  else
    let buffer := if c.start ≠ 0 then c.buffer.drop c.start else c.buffer
    { c with
      buffer := buffer
      start := 0
      index := 0
      point := if buffer.length = bufferSize then .closed else .reading }

/-- A connection after `write` has written some bytes of a reply. -/
def Connection.write (c : Connection) (accepted : Bool) (count : ℕ) : Connection :=
  let c' := { c with
    sent := c.sent ++ (reply accepted).take count
    served := c.served ++ [(c.line, accepted)] }
  if count ≠ (reply accepted).length then { c' with point := .closed }
  else { c' with point := .scanning, start := c.index + 1, index := c.index + 1 }

/-- `tps` of the monitor, in the arithmetic of `uint64_t`. -/
def sampledTps (requests previous elapsed : ℕ) : ℕ :=
  if elapsed = 0 then 0
  else (requests + 2 ^ 64 - previous) % 2 ^ 64 * 1000000000 % 2 ^ 64 / elapsed

namespace Server

variable {ι : Type*} [DecidableEq ι]

/-- Let a connection be at another point. -/
def moveTo (s : Server ι) (i : ι) (point : Point) : Server ι :=
  { s with connections := Function.update s.connections i { s.connections i with point := point } }

/-- `incrnchk` returns. -/
def conclude (s : Server ι) (i : ι) (delta : ℕ) (accepted : Bool) : Server ι :=
  { s.moveTo i (.counting delta accepted) with decided := (i, delta, accepted) :: s.decided }

/-- `incrnchk` tests the value it has read. -/
def test (s : Server ι) (i : ι) (delta seen : ℕ) : Option (Server ι) :=
  if s.value < seen then none
  else if refuses s.limit seen delta then some (s.conclude i delta false)
  else some (s.moveTo i (.swapping delta seen))

/-- The next access of a connection thread to a shared variable, if it is at one. -/
def access (s : Server ι) (i : ι) (seen : ℕ) : Option (Server ι) :=
  match (s.connections i).point with
  | .loading delta => s.test i delta seen
  | .swapping delta observed =>
    if seen = observed then
      if s.value = observed then
        some { s.conclude i delta true with value := (observed + delta) % 2 ^ 64 }
      else none
    else s.test i delta seen
  | .counting delta accepted =>
    some { s.moveTo i (.sorting delta accepted) with requests := (s.requests + 1) % 2 ^ 64 }
  | .sorting _ true =>
    some { s.moveTo i (.replying true) with accepted := (s.accepted + 1) % 2 ^ 64 }
  | .sorting _ false =>
    some { s.moveTo i (.replying false) with rejected := (s.rejected + 1) % 2 ^ 64 }
  | _ => none

/-- The steps of the process. The monitor runs if it has a threshold. -/
def step (threshold : ℕ) (s : Server ι) : ServerAction ι → Option (Server ι)
  | .receive i chunk =>
    if (s.connections i).point = .reading ∧ chunk ≠ [] ∧
        chunk.length ≤ bufferSize - (s.connections i).buffer.length then
      some { s with
        connections := Function.update s.connections i ((s.connections i).receive chunk) }
    else none
  | .hangup i => if (s.connections i).point = .reading then some (s.moveTo i .closed) else none
  | .scan i =>
    if (s.connections i).point = .scanning then
      some { s with connections := Function.update s.connections i (s.connections i).scan }
    else none
  | .access i seen => s.access i seen
  | .write i count =>
    match (s.connections i).point with
    | .replying accepted =>
      if count ≤ (reply accepted).length then
        some
          { s with
            connections :=
              Function.update s.connections i ((s.connections i).write accepted count) }
      else none
    | _ => none
  | .sample now =>
    let tps := sampledTps s.requests s.previous ((now + 2 ^ 64 - s.sampledAt) % 2 ^ 64)
    if threshold ≠ 0 then
      some
        { s with
          mode := if tps ≥ threshold ∧ s.mode = .normal then .peak else s.mode
          previous := s.requests
          sampledAt := now }
    else none

/-- The process that has bound its socket. -/
def init (ι : Type*) (limit startedAt : ℕ) : Server ι where
  limit := limit
  sampledAt := startedAt

end Server

/-! ### One connection -/

/-- The number on a line. -/
def number (line : List UInt8) : Option ℕ := readNumber (line ++ [0])

/-- The decision that a served line stands for, if it is a number. -/
def numbered (served : List UInt8 × Bool) : Option (ℕ × Bool) :=
  (number served.1).map fun delta => (delta, served.2)

namespace Connection

/-- The lines that were served. -/
def lines (c : Connection) : List (List UInt8) := c.served.map Prod.fst

/-- What was decided about the line that is being served. -/
def pending (c : Connection) : List (ℕ × Bool) :=
  match c.point with
  | .counting delta accepted | .sorting delta accepted => [(delta, accepted)]
  | .replying accepted => (numbered (c.line, accepted)).toList
  | _ => []

/-- The complete line that is being served: its end is marked with a byte of zero, and what is
behind it has not been looked at. -/
structure Handling (c : Connection) : Prop where
  start_le : c.start ≤ c.index
  index_lt : c.index < c.buffer.length
  length_le : c.buffer.length ≤ bufferSize
  stream : ∃ stream, c.received = stream ++ newline :: c.buffer.drop (c.index + 1) ∧
    Cut newline stream c.lines c.line

/-- What is known where a connection is. -/
def Kept (c : Connection) : Prop :=
  match c.point with
  | .reading => Cut newline c.received c.lines c.buffer ∧ c.buffer.length < bufferSize
  | .scanning => c.start ≤ c.index ∧ c.index ≤ c.buffer.length ∧ c.buffer.length ≤ bufferSize ∧
    ∃ stream, c.received = stream ++ c.buffer.drop c.index ∧ Cut newline stream c.lines c.line
  | .loading delta | .swapping delta _ | .counting delta _ | .sorting delta _ =>
    c.Handling ∧ number c.line = some delta
  | .replying accepted => c.Handling ∧ (number c.line = none → accepted = false)
  | .closed => c.lines <+: (c.received.splitOn newline).dropLast

/-- A connection as it should be, given what `incrnchk` has decided for it, oldest first. -/
structure Ok (c : Connection) (decisions : List (ℕ × Bool)) : Prop where
  kept : c.Kept
  order : decisions = c.served.filterMap numbered ++ c.pending
  refused : ∀ served ∈ c.served, number served.1 = none → served.2 = false
  sent : c.sent <+: c.served.flatMap fun served => reply served.2
  all_sent : c.point ≠ .closed → c.sent = c.served.flatMap fun served => reply served.2

theorem ok_init : Ok {} [] where
  kept := ⟨Cut.nil newline, by decide⟩
  order := rfl
  refused := fun _ h => absurd h List.not_mem_nil
  sent := List.nil_prefix
  all_sent := fun _ => rfl

variable {c : Connection} {decisions : List (ℕ × Bool)}

/-- Memory behind the line does not matter. -/
theorem readNumber_memory (line more : List UInt8) :
    readNumber (line ++ 0 :: more) = number line := by
  refine Option.ext fun delta => ?_
  rw [number, readNumber_iff, readNumber_iff]

/-- The complete lines of a stream are those of its cut. -/
theorem prefix_of_cut (h : Cut newline c.received c.lines c.buffer) :
    c.lines <+: (c.received.splitOn newline).dropLast := by
  rw [h.splitOn_eq, List.dropLast_concat]

/-- A line that is being served is one of the complete lines, and so are those before it. -/
theorem Handling.prefix_append (h : c.Handling) :
    c.lines ++ [c.line] <+: (c.received.splitOn newline).dropLast := by
  obtain ⟨stream, hreceived, hcut⟩ := h.stream
  have hsplit := hcut.close.splitOn_append (c.buffer.drop (c.index + 1))
  rw [List.append_assoc, List.singleton_append, ← hreceived, List.nil_append] at hsplit
  have hne : (c.buffer.drop (c.index + 1)).splitOn newline ≠ [] := List.splitOn_ne_nil _ _
  rw [hsplit, List.dropLast_append_of_ne_nil hne]
  exact List.prefix_append _ _

namespace Ok

/-- A thread goes to another point. -/
theorem move (h : c.Ok decisions) {point : Point} {decisions' : List (ℕ × Bool)}
    (hopen : c.point ≠ .closed) (hkept : { c with point := point }.Kept)
    (horder : decisions' = c.served.filterMap numbered ++ { c with point := point }.pending) :
    { c with point := point }.Ok decisions' where
  kept := hkept
  order := horder
  refused := h.refused
  sent := h.sent
  all_sent := fun _ => h.all_sent hopen

theorem receive (h : c.Ok decisions) (hpoint : c.point = .reading) {chunk : List UInt8}
    (hlength : chunk.length ≤ bufferSize - c.buffer.length) : (c.receive chunk).Ok decisions := by
  have hkept := h.kept
  have horder := h.order
  have hsent := h.all_sent (by rw [hpoint]; nofun)
  simp only [Kept, pending, hpoint] at hkept horder
  obtain ⟨hcut, hshort⟩ := hkept
  -- the loop starts over with what has not been cut off
  refine ⟨⟨le_rfl, Nat.zero_le _, ?_, c.lines.flatMap fun line => line ++ [newline], ?_,
    (List.append_nil _).symm, ?_, ?_⟩,
    horder, h.refused, h.sent, fun _ => hsent⟩
  · rw [Connection.receive, List.length_append]
    omega
  · rw [Connection.receive, List.drop_zero, ← List.append_assoc, ← hcut.eq]
  · exact hcut.lines_free
  · exact List.not_mem_nil

theorem hangup (h : c.Ok decisions) (hpoint : c.point = .reading) :
    { c with point := .closed }.Ok decisions := by
  have hkept := h.kept
  have horder := h.order
  simp only [Kept, pending, hpoint] at hkept horder
  exact h.move (by rw [hpoint]; nofun) (prefix_of_cut hkept.1) horder

theorem scan (h : c.Ok decisions) (hpoint : c.point = .scanning) : c.scan.Ok decisions := by
  have hkept := h.kept
  have horder := h.order
  have hsent := h.all_sent (by rw [hpoint]; nofun)
  simp only [Kept, pending, hpoint] at hkept horder
  obtain ⟨hstart, hindex, hlength, stream, hreceived, hcut⟩ := hkept
  rw [Connection.scan]
  split
  · rename_i hlt
    have hbyte : c.buffer.drop c.index = c.buffer.getD c.index 0 :: c.buffer.drop (c.index + 1) :=
      (getD_cons_drop hlt rfl 0).symm
    have htake : (c.buffer.take c.index).length = c.index := by
      rw [List.length_take, Nat.min_eq_left hindex]
    split
    · -- the line goes on
      rename_i hne
      have hline : { c with index := c.index + 1 }.line = c.line ++ [c.buffer.getD c.index 0] := by
        rw [line, line, List.take_add_one, List.getElem?_eq_getElem hlt, Option.toList_some,
          List.drop_append_of_le_length (hstart.trans_eq htake.symm), List.getD_eq_getElem _ _ hlt]
      refine ⟨?_, ?_, h.refused, h.sent, fun _ => hsent⟩
      · simp only [Kept, hpoint]
        refine ⟨by omega, by omega, hlength, stream ++ [c.buffer.getD c.index 0], ?_, ?_⟩
        · rw [hreceived, hbyte, List.append_assoc, List.singleton_append]
        · have hpush := hcut.push hne
          rw [← hline] at hpush
          exact hpush
      · simp only [pending, hpoint]
        exact horder
    · -- the line is complete
      rename_i hnewline
      rw [not_not] at hnewline
      have hset : c.buffer.set c.index 0 =
          c.buffer.take c.index ++ 0 :: c.buffer.drop (c.index + 1) := by
        rw [List.set_eq_take_append_cons_drop, if_pos hlt]
      have hmemory : (c.buffer.set c.index 0).drop c.start =
          c.line ++ 0 :: c.buffer.drop (c.index + 1) := by
        rw [hset, List.drop_append_of_le_length (hstart.trans_eq htake.symm), line]
      have hline : ((c.buffer.set c.index 0).take c.index).drop c.start = c.line := by
        rw [hset, List.take_left' htake, line]
      -- the newline becomes the NUL that ends the line
      have hhandling : ∀ point,
          { c with buffer := c.buffer.set c.index 0, point := point }.Handling := by
        refine fun point => ⟨hstart, by simpa using hlt, by simpa using hlength, stream, ?_, ?_⟩
        · rw [hreceived, hbyte, hnewline, List.drop_set_of_lt (Nat.lt_succ_self _)]
        · change Cut newline stream c.lines (((c.buffer.set c.index 0).take c.index).drop c.start)
          rwa [hline]
      -- the number is read from the memory of the line, and stops at that NUL
      have hnumber : ∀ point,
          number { c with buffer := c.buffer.set c.index 0, point := point }.line =
            readNumber ((c.buffer.set c.index 0).drop c.start) := by
        intro point
        rw [hmemory, readNumber_memory, ← hline]
        rfl
      dsimp only
      split
      · rename_i delta hread
        exact ⟨⟨hhandling _, (hnumber _).trans hread⟩, horder, h.refused, h.sent, fun _ => hsent⟩
      · rename_i hread
        refine ⟨⟨hhandling _, fun _ => rfl⟩, ?_, h.refused, h.sent, fun _ => hsent⟩
        have hnone : numbered ({ c with
            buffer := c.buffer.set c.index 0
            point := .replying false : Connection }.line, false) = none := by
          rw [numbered, (hnumber _).trans hread, Option.map_none]
        simp only [pending, hnone]
        exact horder
  · -- the whole buffer has been looked at
    rename_i hend
    have hwhole : c.index = c.buffer.length := by omega
    have hrest : c.line = c.buffer.drop c.start := by rw [line, hwhole, List.take_length]
    have hmoved : (if c.start ≠ 0 then c.buffer.drop c.start else c.buffer) =
        c.buffer.drop c.start := by
      split
      · rfl
      · rename_i hzero
        rw [not_not.mp hzero, List.drop_zero]
    -- the unfinished line moves to the front of the buffer, unless it fills the buffer
    rw [hwhole, List.drop_length, List.append_nil] at hreceived
    rw [hrest, ← hreceived] at hcut
    dsimp only
    rw [hmoved]
    split
    · refine ⟨?_, horder, h.refused, h.sent, fun _ => hsent⟩
      change c.lines <+: _
      rw [hcut.splitOn_eq, List.dropLast_concat]
    · rename_i hlong
      have hshort : (c.buffer.drop c.start).length < bufferSize := by
        rw [List.length_drop] at hlong ⊢
        omega
      exact ⟨⟨hcut, hshort⟩, horder, h.refused, h.sent, fun _ => hsent⟩

/-- `incrnchk` has read a value or decided, or the decision was counted once more. -/
theorem handle (h : c.Ok decisions) {delta : ℕ} (hhandling : c.Handling)
    (hnumber : number c.line = some delta) {point : Point} {decisions' : List (ℕ × Bool)}
    (hopen : c.point ≠ .closed) (hpoint : (∃ observed, point = .swapping delta observed) ∨
      (∃ accepted, point = .counting delta accepted) ∨ ∃ accepted, point = .sorting delta accepted)
    (horder : decisions' = c.served.filterMap numbered ++ { c with point := point }.pending) :
    { c with point := point }.Ok decisions' := by
  have hhandling' : { c with point := point }.Handling :=
    ⟨hhandling.start_le, hhandling.index_lt, hhandling.length_le, hhandling.stream⟩
  refine h.move hopen ?_ horder
  rcases hpoint with ⟨_, rfl⟩ | ⟨_, rfl⟩ | ⟨_, rfl⟩ <;> exact ⟨hhandling', hnumber⟩

/-- The decision goes into the reply. -/
theorem sort (h : c.Ok decisions) {delta : ℕ} {accepted : Bool}
    (hpoint : c.point = .sorting delta accepted) :
    { c with point := .replying accepted }.Ok decisions := by
  have hkept := h.kept
  have horder := h.order
  simp only [Kept, pending, hpoint] at hkept horder
  obtain ⟨hhandling, hnumber⟩ := hkept
  refine h.move (by rw [hpoint]; nofun) ⟨⟨hhandling.start_le, hhandling.index_lt,
    hhandling.length_le, hhandling.stream⟩, fun hnone => ?_⟩ ?_
  · exact absurd (hnumber.symm.trans hnone) (Option.some_ne_none _)
  · have hsome : numbered ({ c with point := .replying accepted : Connection }.line, accepted) =
        some (delta, accepted) := by
      rw [numbered]
      exact congrArg (Option.map _) hnumber
    simp only [pending, hsome]
    exact horder

/-- The reply is written, or the connection is over. -/
theorem write (h : c.Ok decisions) {accepted : Bool} (hpoint : c.point = .replying accepted)
    (count : ℕ) : (c.write accepted count).Ok decisions := by
  have hkept := h.kept
  have horder := h.order
  have hsent := h.all_sent (by rw [hpoint]; nofun)
  simp only [Kept, pending, hpoint] at hkept horder
  obtain ⟨hhandling, hnone⟩ := hkept
  have horder' : decisions = (c.served ++ [(c.line, accepted)]).filterMap numbered := by
    rw [horder, List.filterMap_append]
    cases hline : numbered (c.line, accepted) <;> simp [hline]
  have hrefused : ∀ served ∈ c.served ++ [(c.line, accepted)],
      number served.1 = none → served.2 = false := by
    intro served hmem
    rcases List.mem_append.mp hmem with hold | hnew
    · exact h.refused served hold
    · rw [List.mem_singleton.mp hnew]
      exact hnone
  have hlines : (c.served ++ [(c.line, accepted)]).map Prod.fst = c.lines ++ [c.line] := by
    rw [List.map_append]
    rfl
  have hreplies : ((c.served ++ [(c.line, accepted)]).flatMap fun served => reply served.2) =
      c.sent ++ reply accepted := by
    rw [List.flatMap_append, hsent, List.flatMap_singleton]
  rw [Connection.write]
  dsimp only
  split
  · -- the reply is cut short, and nothing more is served
    refine ⟨?_, ?_, hrefused, ?_, fun hopen => absurd rfl hopen⟩
    · change (c.served ++ [(c.line, accepted)]).map Prod.fst <+: _
      rw [hlines]
      exact hhandling.prefix_append
    · rw [horder']
      exact (List.append_nil _).symm
    · change c.sent ++ (reply accepted).take count <+: _
      rw [hreplies]
      exact (List.prefix_append_right_inj _).mpr (List.take_prefix _ _)
  · -- the whole reply is sent, and the next line starts behind the newline
    rename_i hcount
    rw [not_not] at hcount
    obtain ⟨stream, hreceived, hcut⟩ := hhandling.stream
    have hall : c.sent ++ (reply accepted).take count =
        (c.served ++ [(c.line, accepted)]).flatMap fun served => reply served.2 := by
      rw [hreplies, hcount, List.take_length]
    refine ⟨⟨le_rfl, hhandling.index_lt, hhandling.length_le, stream ++ [newline], ?_, ?_⟩, ?_,
      hrefused, ?_, fun _ => hall⟩
    · rw [hreceived, List.append_assoc, List.singleton_append]
    · have hempty : (c.buffer.take (c.index + 1)).drop (c.index + 1) = [] :=
        List.drop_of_length_le (List.length_take_le _ _)
      change Cut newline _ ((c.served ++ [(c.line, accepted)]).map Prod.fst)
        ((c.buffer.take (c.index + 1)).drop (c.index + 1))
      rw [hlines, hempty]
      exact hcut.close
    · rw [horder']
      exact (List.append_nil _).symm
    · change c.sent ++ (reply accepted).take count <+: _
      rw [hall]

end Ok

/-- Wherever a connection is, it has served the first complete lines of what it received. -/
theorem Kept.lines_prefix (h : c.Kept) : c.lines <+: (c.received.splitOn newline).dropLast := by
  rw [Kept] at h
  split at h
  · exact prefix_of_cut h.1
  · obtain ⟨-, -, -, stream, hreceived, hcut⟩ := h
    have hne : (c.line ++ c.buffer.drop c.index).splitOn newline ≠ [] := List.splitOn_ne_nil _ _
    rw [hreceived, hcut.splitOn_append, List.dropLast_append_of_ne_nil hne]
    exact List.prefix_append _ _
  · exact (List.prefix_append _ _).trans h.1.prefix_append
  · exact (List.prefix_append _ _).trans h.1.prefix_append
  · exact (List.prefix_append _ _).trans h.1.prefix_append
  · exact (List.prefix_append _ _).trans h.1.prefix_append
  · exact (List.prefix_append _ _).trans h.1.prefix_append
  · exact h

/-- A connection that reads has served all complete lines of what it received. -/
theorem Kept.lines_eq (h : c.Kept) (hpoint : c.point = .reading) :
    c.lines = (c.received.splitOn newline).dropLast := by
  simp only [Kept, hpoint] at h
  rw [h.1.splitOn_eq, List.dropLast_concat]

end Connection

end Legacy

end HotCounter
