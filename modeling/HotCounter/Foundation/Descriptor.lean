import Mathlib

/-!
# Reading and writing in pieces

A `read` or a `write` may move fewer bytes than it was asked for, be interrupted, or fail; the
environment decides. A loop that goes on until all bytes are written has written exactly them, and
it comes to its end when no call fails and there is a call for every byte.
-/

namespace HotCounter

namespace Foundation

/-- How a `read` or a `write` of some bytes ends. -/
inductive IoOutcome
  /-- at most `count + 1` bytes are moved, and none only at the end of a file -/
  | upTo (count : ℕ)
  /-- `EINTR` -/
  | interrupted
  /-- any other error -/
  | failed
  deriving DecidableEq, Repr

/-- The outcome makes progress. -/
def IoOutcome.moves : IoOutcome → Bool
  | .upTo _ => true
  | .interrupted | .failed => false

/-- A piece of at most `n` bytes, and what is left without as many bytes. -/
theorem take_append_drop_length (n : ℕ) (bytes : List UInt8) :
    bytes.take n ++ bytes.drop (bytes.take n).length = bytes := by
  rw [List.length_take]
  rcases Nat.le_total n bytes.length with h | h
  · rw [Nat.min_eq_left h, List.take_append_drop]
  · rw [Nat.min_eq_right h, List.drop_length, List.append_nil, List.take_of_length_le h]

/-- The loop that writes all of some bytes, with what was written before: none while it waits for
the next `write`, then success and everything written. -/
def writeLoop : List IoOutcome → (bytes written : List UInt8) → Option (Bool × List UInt8)
  | _, [], written => some (true, written)
  | [], _ :: _, _ => none
  | .upTo count :: outcomes, bytes, written =>
    writeLoop outcomes (bytes.drop (count + 1)) (written ++ bytes.take (count + 1))
  | .interrupted :: outcomes, bytes, written => writeLoop outcomes bytes written
  | .failed :: _, _, written => some (false, written)

/-- A loop that succeeds has appended everything. -/
theorem writeLoop_sound {outcomes : List IoOutcome} {bytes written result : List UInt8}
    (h : writeLoop outcomes bytes written = some (true, result)) : result = written ++ bytes := by
  fun_induction writeLoop outcomes bytes written with
  | case1 outcomes written =>
    obtain ⟨-, rfl⟩ := Prod.mk.inj (Option.some.inj h)
    exact (List.append_nil _).symm
  | case2 => cases h
  | case3 count outcomes bytes written hne ih =>
    rw [ih h, List.append_assoc, List.take_append_drop]
  | case4 outcomes bytes written hne ih => exact ih h
  | case5 => exact absurd (Prod.mk.inj (Option.some.inj h)).1 Bool.false_ne_true

/-- Without a failing call, one call for each byte is enough. -/
theorem writeLoop_complete {outcomes : List IoOutcome} {bytes written : List UInt8}
    (hfail : .failed ∉ outcomes) (hcalls : bytes.length ≤ outcomes.countP IoOutcome.moves) :
    writeLoop outcomes bytes written = some (true, written ++ bytes) := by
  fun_induction writeLoop outcomes bytes written with
  | case1 outcomes written => rw [List.append_nil]
  | case2 => exact absurd hcalls (Nat.not_succ_le_zero _)
  | case3 count outcomes bytes written hne ih =>
    have hcalls' : (bytes.drop (count + 1)).length ≤ outcomes.countP IoOutcome.moves := by
      rw [List.countP_cons_of_pos rfl] at hcalls
      rw [List.length_drop]
      omega
    rw [ih (fun h => hfail (List.mem_cons_of_mem _ h)) hcalls', List.append_assoc,
      List.take_append_drop]
  | case4 outcomes bytes written hne ih =>
    have hcalls' : bytes.length ≤ outcomes.countP IoOutcome.moves := by
      rwa [List.countP_cons_of_neg (by simp [IoOutcome.moves])] at hcalls
    exact ih (fun h => hfail (List.mem_cons_of_mem _ h)) hcalls'
  | case5 => exact absurd List.mem_cons_self hfail

end Foundation

end HotCounter
