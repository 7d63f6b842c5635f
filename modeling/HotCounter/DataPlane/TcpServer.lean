import HotCounter.Engine.Basic
import HotCounter.Foundation.Descriptor
import HotCounter.Foundation.Lines

/-!
# TCP sessions

`ConnectionSession::run` reads requests, one decimal number a line, and answers each with a line.
The environment decides how many bytes a `read` returns, which calls are interrupted, and what the
engine, which other sessions use too, answers to a request.

However the stream is cut into reads, what a session has applied and answered is what serving the
complete lines of the bytes read so far gives (`Session.serve`), up to the first line that does
not fit the buffer (`run_spec`).
-/

namespace HotCounter

open Foundation

namespace TcpServer

/-- `sizeof(buffer)`. -/
def bufferSize : ℕ := 4096

def newline : UInt8 := 10

/-- `write_all`. -/
def writeAll : List IoOutcome → (bytes written : List UInt8) → Option (Bool × List UInt8) :=
  writeLoop

/-! ### Numbers -/

/-- The errors of `std::from_chars`. -/
inductive Errc
  | invalidArgument
  | resultOutOfRange
  deriving DecidableEq, Repr

def isDigit (byte : UInt8) : Bool := 48 ≤ byte && byte ≤ 57

/-- The number that decimal digits denote. -/
def decimalValue (digits : List UInt8) : ℕ :=
  digits.foldl (fun value digit => value * 10 + (digit.toNat - 48)) 0

/-- `std::from_chars` for an unsigned 64-bit number in base 10: how many characters match, the
error, and the value, which an error leaves as it was. -/
def fromChars (chars : List UInt8) (value : ℕ) : ℕ × Option Errc × ℕ :=
  let digits := chars.takeWhile isDigit
  if digits = [] then (0, some .invalidArgument, value)
  else if decimalValue digits ≥ 2 ^ 64 then (digits.length, some .resultOutOfRange, value)
  else (digits.length, none, decimalValue digits)

/-! ### Sessions -/

/-- The members of a session that change, with the requests it has applied and the replies it has
sent, oldest first. -/
structure Session (σ : Type) where
  engine : σ
  routeSequence : ℕ
  applied : List Request := []
  sent : List (List UInt8) := []

/-- `A`, `R` or `M`, the last with the endpoint of the strict owner if there is one. -/
def response (endpoint : List UInt8) (decision : Decision) : List UInt8 :=
  if decision = .moved ∧ endpoint ≠ [] then 77 :: 32 :: (endpoint ++ [newline])
  else
    match decision with
    | .accepted => [65, newline]
    | .moved => [77, newline]
    | .rejected => [82, newline]

/-- Where a session is: in a `read`, in a `write`, or over. -/
inductive Status
  | reading
  | writing
  | closed
  deriving DecidableEq, Repr

/-- What a loop over the lines of the buffer leaves. -/
structure Scan (σ : Type) where
  status : Status
  consumed : ℕ
  session : Session σ

/-- What a session has come to: the bytes of the stream it has not read, and the sizes it asked
for in its calls of `read`. -/
structure Outcome (σ : Type) where
  status : Status
  session : Session σ
  unread : List UInt8
  asked : List ℕ

section

variable {σ : Type} (apply : σ → Request → Result × σ) (endpoint : List UInt8)
  (writes : ℕ → List IoOutcome)

/-- `parse_and_apply`. -/
def parseAndApply (s : Session σ) (chars : List UInt8) : Decision × Session σ :=
  match fromChars chars 0 with
  | (matched, error, delta) =>
    if error ≠ none ∨ matched ≠ chars.length then (.rejected, s)
    else
      let request : Request := ⟨0, delta, s.routeSequence⟩
      let answer := apply s.engine request
      (answer.1.decision, { s with
        engine := answer.2
        routeSequence := (s.routeSequence + 1) % 2 ^ 64
        applied := s.applied ++ [request] })

/-- The loop over the buffer, at some indices. -/
def scan (buffer : List UInt8) : List ℕ → (consumed : ℕ) → Session σ → Scan σ
  | [], consumed, s => ⟨.reading, consumed, s⟩
  | index :: indices, consumed, s =>
    if buffer.getD index 0 ≠ newline then scan buffer indices consumed s
    else
      let answer := parseAndApply apply s ((buffer.drop consumed).take (index - consumed))
      match writeAll (writes answer.2.sent.length) (response endpoint answer.1) [] with
      | none => ⟨.writing, consumed, answer.2⟩
      | some (success, bytes) =>
        let s := { answer.2 with sent := answer.2.sent ++ [bytes] }
        if !success then ⟨.closed, consumed, s⟩
        else scan buffer indices (index + 1) s

/-- `ConnectionSession::run`, on what is left of the stream and the used part of the buffer. -/
def run : List IoOutcome → (stream buffer : List UInt8) → Session σ → Outcome σ
  | [], stream, buffer, s => ⟨.reading, s, stream, [bufferSize - buffer.length]⟩
  | outcome :: outcomes, stream, buffer, s =>
    let size := bufferSize - buffer.length
    match outcome with
    | .interrupted =>
      let rest := run outcomes stream buffer s
      { rest with asked := size :: rest.asked }
    | .failed => ⟨.closed, s, stream, [size]⟩
    | .upTo count =>
      let chunk := stream.take (min (count + 1) size)
      if chunk = [] then ⟨.closed, s, stream, [size]⟩
      else
        let stream := stream.drop chunk.length
        let buffer := buffer ++ chunk
        let scanned := scan apply endpoint writes buffer (List.range buffer.length) 0 s
        if scanned.status ≠ .reading then ⟨scanned.status, scanned.session, stream, [size]⟩
        else
          -- the memmove
          let buffer := if scanned.consumed ≠ 0 then buffer.drop scanned.consumed else buffer
          if buffer.length = bufferSize then ⟨.closed, scanned.session, stream, [size]⟩
          else
            let rest := run outcomes stream buffer scanned.session
            { rest with asked := size :: rest.asked }

end

/-- A session on a connection; the route sequence starts at the descriptor. -/
def start {σ : Type} (fd : ℕ) (engine : σ) : Session σ := ⟨engine, fd * 2 ^ 32 % 2 ^ 64, [], []⟩

/-! ### Serving lines -/

/-- The number on a line of decimal digits that fits 64 bits. -/
def plainDecimal (line : List UInt8) : Option ℕ :=
  if line ≠ [] ∧ (∀ byte ∈ line, isDigit byte = true) ∧ decimalValue line < 2 ^ 64 then
    some (decimalValue line)
  else none

/-- The lines of a stream that a session serves: the complete ones, up to the first that is too
long. -/
def servedLines (stream : List UInt8) : List (List UInt8) :=
  (stream.splitOn newline).dropLast.takeWhile fun line => line.length < bufferSize

/-- Serve a line: a number is applied under the next route sequence, anything else is refused
without the engine. -/
def Session.serve {σ : Type} (apply : σ → Request → Result × σ) (endpoint : List UInt8)
    (s : Session σ) (line : List UInt8) : Session σ :=
  match plainDecimal line with
  | none => { s with sent := s.sent ++ [response endpoint .rejected] }
  | some delta =>
    let answer := apply s.engine ⟨0, delta, s.routeSequence⟩
    { engine := answer.2
      routeSequence := (s.routeSequence + 1) % 2 ^ 64
      applied := s.applied ++ [⟨0, delta, s.routeSequence⟩]
      sent := s.sent ++ [response endpoint answer.1.decision] }

/-! ### What a line gives -/

variable {σ : Type} {apply : σ → Request → Result × σ} {endpoint : List UInt8}
  {writes : ℕ → List IoOutcome}

theorem fromChars_of_digits {chars : List UInt8} (h : ∀ byte ∈ chars, isDigit byte = true)
    (hne : chars ≠ []) (value : ℕ) :
    fromChars chars value =
      if decimalValue chars ≥ 2 ^ 64 then (chars.length, some .resultOutOfRange, value)
      else (chars.length, none, decimalValue chars) := by
  rw [fromChars, List.takeWhile_eq_self_iff.mpr h, if_neg hne]

/-- Characters that are not all digits are not all matched, or none is. -/
theorem fromChars_of_not_digits {chars : List UInt8}
    (h : ¬((∀ byte ∈ chars, isDigit byte = true) ∧ chars ≠ [])) (value : ℕ) :
    (fromChars chars value).2.1 ≠ none ∨ (fromChars chars value).1 ≠ chars.length := by
  unfold fromChars
  dsimp only
  by_cases hempty : chars.takeWhile isDigit = []
  · rw [if_pos hempty]
    exact .inl (Option.some_ne_none _)
  · have hshort : (chars.takeWhile isDigit).length ≠ chars.length := by
      intro hlength
      have hall : chars.takeWhile isDigit = chars :=
        (List.takeWhile_prefix isDigit).eq_of_length hlength
      rw [hall] at hempty
      exact h ⟨List.takeWhile_eq_self_iff.mp hall, hempty⟩
    rw [if_neg hempty]
    split
    · exact .inl (Option.some_ne_none _)
    · exact .inr hshort

/-- **`parse_and_apply` applies exactly the plain decimal numbers.** -/
theorem parseAndApply_eq (s : Session σ) (chars : List UInt8) :
    parseAndApply apply s chars =
      match plainDecimal chars with
      | none => (.rejected, s)
      | some delta =>
        ((apply s.engine ⟨0, delta, s.routeSequence⟩).1.decision, { s with
          engine := (apply s.engine ⟨0, delta, s.routeSequence⟩).2
          routeSequence := (s.routeSequence + 1) % 2 ^ 64
          applied := s.applied ++ [⟨0, delta, s.routeSequence⟩] }) := by
  unfold parseAndApply plainDecimal
  dsimp only
  by_cases hdigits : (∀ byte ∈ chars, isDigit byte = true) ∧ chars ≠ []
  · obtain ⟨hall, hne⟩ := hdigits
    rw [fromChars_of_digits hall hne]
    by_cases hlarge : decimalValue chars ≥ 2 ^ 64
    · rw [if_pos hlarge, if_pos (.inl (Option.some_ne_none _)),
        if_neg fun h => Nat.not_lt.mpr hlarge h.2.2]
    · rw [if_neg hlarge, if_neg (by simp), if_pos ⟨hne, hall, Nat.lt_of_not_le hlarge⟩]
  · rw [if_pos (fromChars_of_not_digits hdigits 0), if_neg fun h => hdigits ⟨h.2.1, h.1⟩]

/-- Serving a line is answering it. -/
theorem serve_eq (s : Session σ) (line : List UInt8) :
    s.serve apply endpoint line =
      { (parseAndApply apply s line).2 with
        sent := (parseAndApply apply s line).2.sent ++
          [response endpoint (parseAndApply apply s line).1] } := by
  rw [parseAndApply_eq, Session.serve]
  cases plainDecimal line <;> rfl

theorem length_response_le (endpoint : List UInt8) (decision : Decision) :
    (response endpoint decision).length ≤ endpoint.length + 3 := by
  unfold response
  split
  · simp
  · cases decision <;> simp

/-- No `write` fails, and each reply is given a call for every byte. -/
def WritesSucceed (endpoint : List UInt8) (writes : ℕ → List IoOutcome) : Prop :=
  ∀ reply, .failed ∉ writes reply ∧
    endpoint.length + 3 ≤ (writes reply).countP IoOutcome.moves

theorem WritesSucceed.writeAll_eq (h : WritesSucceed endpoint writes) (reply : ℕ)
    (decision : Decision) :
    writeAll (writes reply) (response endpoint decision) [] =
      some (true, response endpoint decision) := by
  have hcalls := (length_response_le endpoint decision).trans (h reply).2
  exact writeLoop_complete (h reply).1 hcalls

/-! ### The loop over the buffer -/

theorem scan_spec (hwrites : WritesSucceed endpoint writes) {s₀ : Session σ} {buffer : List UInt8}
    {n : ℕ} : ∀ {i consumed : ℕ} {s : Session σ} {lines : List (List UInt8)},
    i + n = buffer.length → consumed ≤ i →
      Cut newline (buffer.take i) lines ((buffer.take i).drop consumed) →
      s = lines.foldl (Session.serve apply endpoint) s₀ →
      ∃ consumed' lines', consumed' ≤ buffer.length ∧
        Cut newline buffer lines' (buffer.drop consumed') ∧
        scan apply endpoint writes buffer (List.range' i n) consumed s =
          ⟨.reading, consumed', lines'.foldl (Session.serve apply endpoint) s₀⟩ := by
  induction n with
  | zero =>
    intro i consumed s lines hlength hle hcut hs
    rw [List.take_of_length_le (by omega)] at hcut
    exact ⟨consumed, lines, by omega, hcut, by rw [List.range'_zero, scan, hs]⟩
  | succ n ih =>
    intro i consumed s lines hlength hle hcut hs
    have hi : i < buffer.length := by omega
    have htake : buffer.take (i + 1) = buffer.take i ++ [buffer.getD i 0] := by
      rw [List.take_add_one, List.getElem?_eq_getElem hi, List.getD_eq_getElem _ _ hi,
        Option.toList_some]
    have hlengthi : (buffer.take i).length = i := by
      rw [List.length_take, Nat.min_eq_left hi.le]
    rw [List.range'_succ, scan]
    by_cases hbyte : buffer.getD i 0 ≠ newline
    · have hpush := hcut.push hbyte
      rw [← htake, ← List.drop_append_of_le_length (hle.trans_eq hlengthi.symm), ← htake] at hpush
      rw [if_pos hbyte]
      exact ih (by omega) (by omega) hpush hs
    · rw [Decidable.not_not] at hbyte
      have hclose := hcut.close
      have hline : (buffer.take i).drop consumed = (buffer.drop consumed).take (i - consumed) :=
        List.drop_take
      have hempty : (buffer.take (i + 1)).drop (i + 1) = [] :=
        List.drop_of_length_le (List.length_take_le _ _)
      rw [← hbyte, ← htake, hbyte, ← hempty, hline] at hclose
      rw [if_neg (Decidable.not_not.mpr hbyte)]
      dsimp only
      rw [hwrites.writeAll_eq]
      dsimp only
      rw [Bool.not_true, if_neg Bool.false_ne_true, ← serve_eq]
      refine ih (by omega) (le_refl _) hclose ?_
      rw [List.foldl_append, ← hs, List.foldl_cons, List.foldl_nil]

/-- The loop over the whole buffer. -/
theorem scan_buffer (hwrites : WritesSucceed endpoint writes) (s : Session σ)
    (buffer : List UInt8) :
    ∃ consumed lines, consumed ≤ buffer.length ∧
      Cut newline buffer lines (buffer.drop consumed) ∧
      scan apply endpoint writes buffer (List.range buffer.length) 0 s =
        ⟨.reading, consumed, lines.foldl (Session.serve apply endpoint) s⟩ := by
  rw [List.range_eq_range']
  have hstart : Cut newline (buffer.take 0) [] ((buffer.take 0).drop 0) := Cut.nil newline
  exact scan_spec hwrites (Nat.zero_add _) (le_refl 0) hstart rfl

/-! ### The session -/

/-- A session has served some lines, all that the bytes received complete. -/
structure Served (apply : σ → Request → Result × σ) (endpoint : List UInt8) (s₀ : Session σ)
    (received : List UInt8) (lines : List (List UInt8)) (buffer : List UInt8) (s : Session σ) :
    Prop where
  cut : Cut newline received lines buffer
  short : ∀ line ∈ lines, line.length < bufferSize
  session : s = lines.foldl (Session.serve apply endpoint) s₀

variable {s₀ s : Session σ} {received buffer : List UInt8} {lines : List (List UInt8)}

theorem Served.servedLines_eq (h : Served apply endpoint s₀ received lines buffer s) :
    servedLines received = lines := by
  rw [servedLines, h.cut.splitOn_eq, List.dropLast_concat, List.takeWhile_eq_self_iff]
  intro line hline
  exact decide_eq_true (h.short line hline)

/-- The rest is at the front of the next line, whatever follows. -/
theorem Served.splitOn_append (h : Served apply endpoint s₀ received lines buffer s)
    (more : List UInt8) :
    ∃ line pieces, (received ++ more).splitOn newline = lines ++ (buffer ++ line) :: pieces := by
  obtain ⟨line, pieces, hpieces⟩ := List.exists_cons_of_ne_nil (List.splitOn_ne_nil newline more)
  refine ⟨line, pieces, ?_⟩
  rw [h.cut.splitOn_append, splitOn_append_of_not_mem h.cut.rest_free, hpieces,
    List.modifyHead_cons]

/-- A rest that is too long ends the served lines, whatever follows. -/
theorem Served.servedLines_append (h : Served apply endpoint s₀ received lines buffer s)
    (hlong : bufferSize ≤ buffer.length) (more : List UInt8) :
    servedLines (received ++ more) = lines ∧
      ∃ line ∈ (received ++ more).splitOn newline, bufferSize ≤ line.length := by
  obtain ⟨line, pieces, hsplit⟩ := h.splitOn_append more
  have hnone : (((buffer ++ line) :: pieces).dropLast.takeWhile
      fun line => line.length < bufferSize) = [] := by
    cases pieces with
    | nil => rfl
    | cons piece pieces =>
      rw [List.dropLast_cons_cons, List.takeWhile_cons_of_neg]
      rw [decide_eq_true_eq, List.length_append]
      omega
  have hall : ∀ line ∈ lines, decide (line.length < bufferSize) = true :=
    fun line hline => decide_eq_true (h.short line hline)
  constructor
  · rw [servedLines, hsplit, List.dropLast_append_of_ne_nil (List.cons_ne_nil _ _),
      List.takeWhile_append_of_pos hall, hnone, List.append_nil]
  · refine ⟨buffer ++ line, ?_, ?_⟩
    · rw [hsplit]
      exact List.mem_append_right _ List.mem_cons_self
    · rw [List.length_append]
      omega

/-- A chunk is added to the buffer and the buffer is scanned. -/
theorem Served.chunk (hwrites : WritesSucceed endpoint writes)
    (h : Served apply endpoint s₀ received lines buffer s) {chunk : List UInt8}
    (hfits : (buffer ++ chunk).length ≤ bufferSize) :
    ∃ consumed lines', scan apply endpoint writes (buffer ++ chunk)
        (List.range (buffer ++ chunk).length) 0 s =
      ⟨.reading, consumed, lines'.foldl (Session.serve apply endpoint) s₀⟩ ∧
      Served apply endpoint s₀ (received ++ chunk) lines' ((buffer ++ chunk).drop consumed)
        (lines'.foldl (Session.serve apply endpoint) s₀) := by
  obtain ⟨consumed, more, -, hcut, hscan⟩ := scan_buffer hwrites s (buffer ++ chunk)
  refine ⟨consumed, lines ++ more, ?_, h.cut.trans hcut, fun line hline => ?_, rfl⟩
  · rw [hscan, h.session, List.foldl_append]
  · rcases List.mem_append.mp hline with hold | hnew
    · exact h.short line hold
    · exact (hcut.length_lt hnew).trans_le hfits

/-- What a run of the session comes to: it has served the lines of what it has read, and without
a failing call it ends at the end of the stream or at a line that is too long. -/
structure Comes (apply : σ → Request → Result × σ) (endpoint : List UInt8) (s₀ : Session σ)
    (received stream : List UInt8) (outcomes : List IoOutcome) (r : Outcome σ) : Prop where
  asked : ∀ size ∈ r.asked, 0 < size
  status : r.status ≠ .writing
  served : ∃ read lines rest, stream = read ++ r.unread ∧
    Served apply endpoint s₀ (received ++ read) lines rest r.session ∧
    (.failed ∉ outcomes → r.status = .closed → r.unread = [] ∨ bufferSize ≤ rest.length)
  ended : .failed ∉ outcomes → stream.length < outcomes.countP IoOutcome.moves →
    r.status = .closed

namespace Comes

variable {stream : List UInt8} {outcomes : List IoOutcome} {r : Outcome σ}

theorem ask {size : ℕ} (h : Comes apply endpoint s₀ received stream outcomes r)
    (hsize : 0 < size) :
    Comes apply endpoint s₀ received stream outcomes { r with asked := size :: r.asked } where
  asked := by
    intro n hn
    rcases List.mem_cons.mp hn with rfl | hn
    · exact hsize
    · exact h.asked n hn
  status := h.status
  served := h.served
  ended := h.ended

/-- A session that stops after what it has served. -/
theorem stop {status : Status} {size : ℕ} (h : Served apply endpoint s₀ received lines buffer s)
    (hsize : 0 < size) (hstatus : status ≠ .writing)
    (hclosed : .failed ∉ outcomes → status = .closed → stream = [] ∨ bufferSize ≤ buffer.length)
    (hended : .failed ∉ outcomes → stream.length < outcomes.countP IoOutcome.moves →
      status = .closed) :
    Comes apply endpoint s₀ received stream outcomes ⟨status, s, stream, [size]⟩ where
  asked := by
    intro n hn
    rw [List.mem_singleton.mp hn]
    exact hsize
  status := hstatus
  served := by
    refine ⟨[], lines, buffer, rfl, ?_, hclosed⟩
    rwa [List.append_nil]
  ended := hended

/-- A session that goes on after a call that read a chunk. -/
theorem after (outcome : IoOutcome) {chunk : List UInt8}
    (h : Comes apply endpoint s₀ (received ++ chunk) stream outcomes r)
    (hchunk : outcome.moves = true → chunk ≠ []) :
    Comes apply endpoint s₀ received (chunk ++ stream) (outcome :: outcomes) r where
  asked := h.asked
  status := h.status
  served := by
    obtain ⟨read, lines, rest, hread, hserved, hclosed⟩ := h.served
    refine ⟨chunk ++ read, lines, rest, ?_, ?_, ?_⟩
    · rw [List.append_assoc, ← hread]
    · rwa [← List.append_assoc]
    · intro hnot
      exact hclosed fun hfail => hnot (List.mem_cons_of_mem _ hfail)
  ended := by
    intro hnot hcalls
    refine h.ended (fun hfail => hnot (List.mem_cons_of_mem _ hfail)) ?_
    rw [List.length_append, List.countP_cons] at hcalls
    by_cases hmoves : outcome.moves = true
    · have hpos := List.length_pos_iff.mpr (hchunk hmoves)
      rw [if_pos hmoves] at hcalls
      omega
    · rw [if_neg hmoves] at hcalls
      omega

end Comes

/-- **Whatever the reads, the session serves the lines of what it has read.** -/
theorem run_spec (hwrites : WritesSucceed endpoint writes) {outcomes : List IoOutcome} :
    ∀ {stream received buffer : List UInt8} {lines : List (List UInt8)} {s : Session σ},
    Served apply endpoint s₀ received lines buffer s → buffer.length < bufferSize →
      Comes apply endpoint s₀ received stream outcomes
        (run apply endpoint writes outcomes stream buffer s) := by
  -- one read after another; the buffer has room for the next one in every state between them
  induction outcomes with
  | nil =>
    intro stream received buffer lines s h hroom
    have hreading : Status.reading ≠ .closed := by decide
    exact .stop h (Nat.sub_pos_of_lt hroom) (by decide) (fun _ hclosed => absurd hclosed hreading)
      fun _ hcalls => absurd hcalls (Nat.not_lt_zero _)
  | cons outcome outcomes ih =>
    intro stream received buffer lines s h hroom
    have hsize : 0 < bufferSize - buffer.length := Nat.sub_pos_of_lt hroom
    cases outcome with
    | interrupted =>
      have hrest : Comes apply endpoint s₀ (received ++ []) stream outcomes
          (run apply endpoint writes outcomes stream buffer s) := by
        rw [List.append_nil]
        exact ih h hroom
      exact (hrest.after .interrupted fun hmoves => absurd hmoves Bool.false_ne_true).ask hsize
    | failed =>
      exact .stop h hsize (by decide) (fun hnot => absurd List.mem_cons_self hnot) fun _ _ => rfl
    | upTo count =>
      rw [run]
      dsimp only
      split
      · -- nothing is read at the end of the stream only
        rename_i hnone
        refine .stop h hsize (by decide) (fun _ _ => .inl ?_) fun _ _ => rfl
        rcases List.take_eq_nil_iff.mp hnone with hzero | hend
        · omega
        · exact hend
      · rename_i hne
        set chunk := stream.take (min (count + 1) (bufferSize - buffer.length)) with hchunk
        have hsplit : chunk ++ stream.drop chunk.length = stream := take_append_drop_length _ _
        have hfits : (buffer ++ chunk).length ≤ bufferSize := by
          have hlength : chunk.length ≤ bufferSize - buffer.length :=
            (List.length_take_le _ _).trans (Nat.min_le_right _ _)
          rw [List.length_append]
          omega
        obtain ⟨consumed, lines', hscan, hserved⟩ := h.chunk hwrites hfits
        -- the lines served leave the buffer, and what is left starts the next line
        have hbuffer : (if consumed ≠ 0 then (buffer ++ chunk).drop consumed else buffer ++ chunk) =
            (buffer ++ chunk).drop consumed := by
          split
          · rfl
          · rename_i hzero
            rw [Decidable.not_not.mp hzero, List.drop_zero]
        rw [hscan, if_neg (by simp)]
        dsimp only
        rw [hbuffer]
        split
        · -- the next line does not fit
          rename_i hfull
          have hstop : Comes apply endpoint s₀ (received ++ chunk) (stream.drop chunk.length)
              outcomes ⟨.closed, lines'.foldl (Session.serve apply endpoint) s₀,
                stream.drop chunk.length, [bufferSize - buffer.length]⟩ :=
            .stop hserved hsize (by decide) (fun _ _ => .inr hfull.ge) fun _ _ => rfl
          have hrun := hstop.after (.upTo count) fun _ => hne
          rwa [hsplit] at hrun
        · rename_i hmore
          have hlength : ((buffer ++ chunk).drop consumed).length < bufferSize := by
            rw [List.length_drop] at hmore ⊢
            omega
          have hrest : Comes apply endpoint s₀ (received ++ chunk) (stream.drop chunk.length)
              outcomes _ := ih hserved hlength
          have hrun := (hrest.after (.upTo count) fun _ => hne).ask hsize
          rwa [hsplit] at hrun

theorem served_start (fd : ℕ) (engine : σ) :
    Served apply endpoint (start fd engine) [] [] [] (start fd engine) where
  cut := Cut.nil newline
  short := by
    intro line hline
    cases hline
  session := rfl

/-- The requests that some lines apply, under consecutive route sequences. -/
theorem applied_foldl_serve (lines : List (List UInt8)) : ∀ s : Session σ,
    s.routeSequence < 2 ^ 64 →
      (lines.foldl (Session.serve apply endpoint) s).applied =
        s.applied ++ (lines.filterMap plainDecimal).mapIdx fun j delta =>
          ⟨0, delta, (s.routeSequence + j) % 2 ^ 64⟩ := by
  induction lines with
  | nil =>
    intro s _
    exact (List.append_nil _).symm
  | cons line lines ih =>
    intro s hs
    have hnext : ((s.routeSequence + 1) % 2 ^ 64) < 2 ^ 64 := Nat.mod_lt _ (by decide)
    have hroute : ∀ j, ((s.routeSequence + 1) % 2 ^ 64 + j) % 2 ^ 64 =
        (s.routeSequence + (j + 1)) % 2 ^ 64 := by
      intro j
      rw [Nat.mod_add_mod, Nat.add_assoc, Nat.add_comm 1 j]
    rw [List.foldl_cons, List.filterMap_cons]
    cases hline : plainDecimal line with
    | none =>
      rw [Session.serve, hline]
      exact ih _ hs
    | some delta =>
      rw [Session.serve, hline]
      dsimp only
      have hzero : (s.routeSequence + 0) % 2 ^ 64 = s.routeSequence := Nat.mod_eq_of_lt hs
      rw [ih _ hnext, List.mapIdx_cons, hzero, List.append_assoc]
      simp only [hroute, List.singleton_append]

/-- Every line is answered, and the answers are in order. -/
theorem length_sent_foldl_serve (lines : List (List UInt8)) : ∀ s : Session σ,
    (lines.foldl (Session.serve apply endpoint) s).sent.length = s.sent.length + lines.length := by
  induction lines with
  | nil =>
    intro s
    rfl
  | cons line lines ih =>
    intro s
    have hone : (s.serve apply endpoint line).sent.length = s.sent.length + 1 := by
      rw [serve_eq, List.length_append, List.length_singleton]
      congr 2
      rw [parseAndApply_eq]
      cases plainDecimal line <;> rfl
    rw [List.foldl_cons, ih, hone, List.length_cons]
    omega

/-- **TCP framing does not depend on segmentation.** Whatever the reads and interruptions, a
session never asks for zero bytes, and it has applied and answered what serving the complete lines
of the bytes read so far gives. Without failing calls it comes to its end, by then it has served
the lines of the whole stream up to the first that is too long, and it ends at such a line or at
the end of the stream. Each plain decimal number is applied once, under consecutive route
sequences, and each line is answered once. -/
theorem framing_independent (apply : σ → Request → Result × σ) (endpoint : List UInt8)
    (writes : ℕ → List IoOutcome) (hwrites : WritesSucceed endpoint writes) (fd : ℕ) (engine : σ)
    (outcomes : List IoOutcome) (stream : List UInt8) (r : Outcome σ)
    (hr : r = run apply endpoint writes outcomes stream [] (start fd engine)) :
    (∀ size ∈ r.asked, 0 < size) ∧ r.status ≠ .writing ∧
    (∃ read, stream = read ++ r.unread ∧
      r.session = (servedLines read).foldl (Session.serve apply endpoint) (start fd engine)) ∧
    (.failed ∉ outcomes → stream.length < outcomes.countP IoOutcome.moves →
      r.status = .closed) ∧
    (.failed ∉ outcomes → r.status = .closed →
      r.session = (servedLines stream).foldl (Session.serve apply endpoint) (start fd engine) ∧
      (r.unread = [] ∨ ∃ line ∈ stream.splitOn newline, bufferSize ≤ line.length) ∧
      r.session.applied = ((servedLines stream).filterMap plainDecimal).mapIdx (fun j delta =>
        ⟨0, delta, (fd * 2 ^ 32 + j) % 2 ^ 64⟩) ∧
      r.session.sent.length = (servedLines stream).length) := by
  subst hr
  have hcomes : Comes apply endpoint (start fd engine) [] stream outcomes _ :=
    run_spec hwrites (served_start fd engine) (by decide)
  obtain ⟨read, lines, rest, hread, hserved, hclosed⟩ := hcomes.served
  rw [List.nil_append] at hserved
  refine ⟨hcomes.asked, hcomes.status, ⟨read, hread, ?_⟩, hcomes.ended, fun hfail hend => ?_⟩
  · rw [hserved.servedLines_eq]
    exact hserved.session
  · have hwhole : servedLines stream = lines ∧
        ((run apply endpoint writes outcomes stream [] (start fd engine)).unread = [] ∨
          ∃ line ∈ stream.splitOn newline, bufferSize ≤ line.length) := by
      rcases hclosed hfail hend with hempty | hlong
      · refine ⟨?_, .inl hempty⟩
        rw [hread, hempty, List.append_nil, hserved.servedLines_eq]
      · obtain ⟨hlines, hline⟩ := hserved.servedLines_append hlong
          (run apply endpoint writes outcomes stream [] (start fd engine)).unread
        rw [← hread] at hlines hline
        exact ⟨hlines, .inr hline⟩
    have hroute : (start fd engine).routeSequence < 2 ^ 64 := Nat.mod_lt _ (by decide)
    have happlied : (lines.foldl (Session.serve apply endpoint) (start fd engine)).applied = _ :=
      applied_foldl_serve lines _ hroute
    have hsent : (lines.foldl (Session.serve apply endpoint) (start fd engine)).sent.length = _ :=
      length_sent_foldl_serve lines _
    rw [← hserved.session] at happlied hsent
    simp only [start, Nat.mod_add_mod, List.nil_append] at happlied
    rw [hwhole.1]
    exact ⟨hserved.session, hwhole.2, happlied, hsent.trans (Nat.zero_add _)⟩

/-- Two requests and a refused line in three reads, on a fresh engine. -/
theorem framing_independent_three :
    (run CounterEngine.apply [] (fun _ => List.replicate 3 (.upTo 0))
      ([.upTo 1, .interrupted, .upTo 0] ++ List.replicate 9 (.upTo 2))
      [49, 50, 10, 120, 10, 51, 10, 52] [] (start 7 (CounterEngine.new ⟨20, 2, 0, 0, 0, 0,
        by decide, by decide, by decide⟩))).session.sent = [[65, 10], [82, 10], [65, 10]] := by
  have hcalls : .failed ∉ List.replicate 3 (IoOutcome.upTo 0) ∧
      3 ≤ (List.replicate 3 (IoOutcome.upTo 0)).countP IoOutcome.moves := by decide
  have hwrites : WritesSucceed [] fun _ => List.replicate 3 (.upTo 0) := fun _ => hcalls
  have hframing := framing_independent CounterEngine.apply [] _ hwrites 7
    (CounterEngine.new ⟨20, 2, 0, 0, 0, 0, by decide, by decide, by decide⟩)
    ([.upTo 1, .interrupted, .upTo 0] ++ List.replicate 9 (.upTo 2))
    [49, 50, 10, 120, 10, 51, 10, 52] _ rfl
  obtain ⟨-, -, -, hended, hserves⟩ := hframing
  have hclosed := hended (by decide) (by decide)
  rw [(hserves (by decide) hclosed).1]
  decide +kernel

end TcpServer

end HotCounter
