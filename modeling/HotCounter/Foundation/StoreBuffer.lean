import Mathlib

/-!
# Memory with store buffers

Every thread has a first-in, first-out buffer of its own plain stores. A load sees the thread's
own buffered stores before memory, a buffered store reaches memory at some later moment, and a
read-modify-write acts on memory once the thread's buffer is empty.
-/

namespace HotCounter

namespace Foundation

/-- Memory cells `κ` with values `V`, and the buffered stores of each thread, oldest first. -/
structure BufferedMemory (τ κ V : Type*) where
  memory : κ → V
  buffer : τ → List (κ × V)

namespace BufferedMemory

variable {τ κ V : Type*} [DecidableEq τ] [DecidableEq κ] (b : BufferedMemory τ κ V)

omit [DecidableEq τ] in
/-- The value a thread reads: its own latest buffered store to the cell, else memory. -/
def load (t : τ) (l : κ) : V :=
  (b.buffer t).foldl (fun v s => if s.1 = l then s.2 else v) (b.memory l)

/-- A plain store goes to the thread's buffer. -/
def store (t : τ) (l : κ) (v : V) : BufferedMemory τ κ V :=
  { b with buffer := Function.update b.buffer t (b.buffer t ++ [(l, v)]) }

/-- The oldest buffered store of a thread reaches memory. -/
def flush (t : τ) : Option (BufferedMemory τ κ V) :=
  match b.buffer t with
  | [] => none
  | s :: rest => some
      { memory := Function.update b.memory s.1 s.2
        buffer := Function.update b.buffer t rest }

/-- A read-modify-write, possible once the thread's own stores have reached memory. -/
def modify (t : τ) (l : κ) (f : V → V) : Option (BufferedMemory τ κ V) :=
  if (b.buffer t).isEmpty then
    some { b with memory := Function.update b.memory l (f (b.memory l)) }
  else none

variable {b} {b' : BufferedMemory τ κ V} {t : τ} {l : κ} {v : V}

omit [DecidableEq τ] in
/-- A thread whose stores have all reached memory reads memory. -/
theorem load_of_empty (h : b.buffer t = []) (l : κ) : b.load t l = b.memory l := by
  rw [load, h, List.foldl_nil]

omit [DecidableEq κ] in
@[simp]
theorem memory_store : (b.store t l v).memory = b.memory := rfl

omit [DecidableEq κ] in
@[simp]
theorem buffer_store :
    (b.store t l v).buffer = Function.update b.buffer t (b.buffer t ++ [(l, v)]) := rfl

/-- A thread sees its own latest store. -/
theorem load_store_self : (b.store t l v).load t l = v := by
  simp [load, List.foldl_append]

/-- What a flush moves from the buffer to memory. -/
theorem flush_cases (h : b.flush t = some b') :
    ∃ s rest, b.buffer t = s :: rest ∧ b'.memory = Function.update b.memory s.1 s.2 ∧
      b'.buffer = Function.update b.buffer t rest := by
  unfold flush at h
  split at h
  · cases h
  · rename_i s rest hbuffer
    obtain rfl := Option.some.inj h
    exact ⟨s, rest, hbuffer, rfl, rfl⟩

omit [DecidableEq τ] in
/-- A read-modify-write happens with nothing buffered, and on memory. -/
theorem modify_cases {f : V → V} (h : b.modify t l f = some b') :
    b.buffer t = [] ∧ b'.memory = Function.update b.memory l (f (b.memory l)) ∧
      b'.buffer = b.buffer := by
  unfold modify at h
  split at h
  · rename_i hempty
    obtain rfl := Option.some.inj h
    exact ⟨List.isEmpty_iff.mp hempty, rfl, rfl⟩
  · cases h

/-- A thread does not notice that its own store reaches memory. -/
theorem load_flush_self (h : b.flush t = some b') (l : κ) : b'.load t l = b.load t l := by
  obtain ⟨s, rest, hbuffer, hmemory, hrest⟩ := flush_cases h
  rw [load, load, hbuffer, hmemory, hrest, List.foldl_cons, Function.update_self]
  by_cases hs : s.1 = l
  · rw [if_pos hs, ← hs, Function.update_self]
  · rw [if_neg hs, Function.update_of_ne (Ne.symm hs)]

/-- Every value of a cell that is in memory or on its way there is `v`. -/
structure Only (b : BufferedMemory τ κ V) (l : κ) (v : V) : Prop where
  memory : b.memory l = v
  buffered : ∀ t, ∀ s ∈ b.buffer t, s.1 = l → s.2 = v

omit [DecidableEq τ] in
/-- Every thread then reads `v`. -/
theorem Only.load (h : b.Only l v) (t : τ) : b.load t l = v := by
  have hfold : ∀ (stores : List (κ × V)) (init : V), init = v →
      (∀ s ∈ stores, s.1 = l → s.2 = v) →
        stores.foldl (fun v s => if s.1 = l then s.2 else v) init = v := by
    intro stores
    induction stores with
    | nil => exact fun _ hinit _ => hinit
    | cons s rest ih =>
      intro init hinit hstores
      rw [List.foldl_cons]
      refine ih _ ?_ fun s' hs' => hstores s' (List.mem_cons_of_mem _ hs')
      split
      · rename_i hs
        exact hstores s List.mem_cons_self hs
      · exact hinit
  exact hfold _ _ h.memory (h.buffered t)

/-- A store that reaches memory brings no other value there. -/
theorem Only.flush (h : b.Only l v) (hb : b.flush t = some b') : b'.Only l v := by
  obtain ⟨s, rest, hbuffer, hmemory, hrest⟩ := flush_cases hb
  refine ⟨?_, fun t' s' hs' hl => ?_⟩
  · rw [hmemory]
    by_cases hs : s.1 = l
    · rw [← hs, Function.update_self]
      exact h.buffered t s (hbuffer ▸ List.mem_cons_self) hs
    · rw [Function.update_of_ne (Ne.symm hs)]
      exact h.memory
  · rw [hrest] at hs'
    by_cases ht : t' = t
    · subst ht
      rw [Function.update_self] at hs'
      exact h.buffered t' s' (hbuffer ▸ List.mem_cons_of_mem _ hs') hl
    · rw [Function.update_of_ne ht] at hs'
      exact h.buffered t' s' hs' hl

omit [DecidableEq τ] in
/-- A read-modify-write of another cell changes no value of this one. -/
theorem Only.modify {f : V → V} {l' : κ} (h : b.Only l v) (hne : l' ≠ l)
    (hb : b.modify t l' f = some b') : b'.Only l v := by
  obtain ⟨-, hmemory, hbuffer⟩ := modify_cases hb
  refine ⟨?_, hbuffer ▸ h.buffered⟩
  rw [hmemory, Function.update_of_ne (Ne.symm hne)]
  exact h.memory

omit [DecidableEq κ] in
/-- Storing the value once more keeps it the only one. -/
theorem Only.store (h : b.Only l v) : (b.store t l v).Only l v := by
  refine ⟨h.memory, fun t' s hs hl => ?_⟩
  rw [buffer_store] at hs
  by_cases ht : t' = t
  · subst ht
    rw [Function.update_self] at hs
    rcases List.mem_append.mp hs with hs | hs
    · exact h.buffered t' s hs hl
    · rw [List.mem_singleton.mp hs]
  · rw [Function.update_of_ne ht] at hs
    exact h.buffered t' s hs hl

end BufferedMemory

end Foundation

end HotCounter
