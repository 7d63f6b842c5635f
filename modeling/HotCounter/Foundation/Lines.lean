import Mathlib

/-!
# Cutting a stream into lines

A stream is cut at a separator into complete lines and an unfinished rest. The cut can be made as
the stream arrives: what has been cut off stays cut off, and only the rest has to be kept
(`Cut.trans`). The result is that of splitting the whole stream (`Cut.splitOn_eq`).
-/

namespace HotCounter

namespace Foundation

variable {α : Type*} {sep : α}

/-- A stream is some complete lines, each followed by the separator, and a rest without one. -/
structure Cut (sep : α) (stream : List α) (lines : List (List α)) (rest : List α) : Prop where
  eq : stream = lines.flatMap (fun line => line ++ [sep]) ++ rest
  lines_free : ∀ line ∈ lines, sep ∉ line
  rest_free : sep ∉ rest

namespace Cut

variable {stream : List α} {lines : List (List α)} {rest : List α}

theorem nil (sep : α) : Cut sep [] [] [] where
  eq := rfl
  lines_free := by
    intro line h
    cases h
  rest_free := List.not_mem_nil

/-- Another element of the unfinished line. -/
theorem push (h : Cut sep stream lines rest) {x : α} (hx : x ≠ sep) :
    Cut sep (stream ++ [x]) lines (rest ++ [x]) where
  eq := by rw [h.eq, List.append_assoc]
  lines_free := h.lines_free
  rest_free := by
    intro hmem
    rcases List.mem_append.mp hmem with hold | hnew
    · exact h.rest_free hold
    · exact hx (List.mem_singleton.mp hnew).symm

/-- The separator completes the line. -/
theorem close (h : Cut sep stream lines rest) :
    Cut sep (stream ++ [sep]) (lines ++ [rest]) [] where
  eq := by
    rw [h.eq, List.flatMap_append, List.append_nil, List.append_assoc, List.flatMap_singleton]
  lines_free := by
    intro line hmem
    rcases List.mem_append.mp hmem with hold | hnew
    · exact h.lines_free line hold
    · rw [List.mem_singleton.mp hnew]
      exact h.rest_free
  rest_free := List.not_mem_nil

/-- **A cut is continued from its rest.** -/
theorem trans {more : List α} {lines' : List (List α)} {rest' : List α}
    (h : Cut sep stream lines rest) (h' : Cut sep (rest ++ more) lines' rest') :
    Cut sep (stream ++ more) (lines ++ lines') rest' where
  eq := by
    rw [h.eq, List.append_assoc, h'.eq, List.flatMap_append, List.append_assoc]
  lines_free := by
    intro line hmem
    rcases List.mem_append.mp hmem with hmem | hmem
    · exact h.lines_free line hmem
    · exact h'.lines_free line hmem
  rest_free := h'.rest_free

/-- A complete line is shorter than the stream. -/
theorem length_lt (h : Cut sep stream lines rest) {line : List α} (hline : line ∈ lines) :
    line.length < stream.length := by
  have hsub := (List.sublist_flatten_of_mem
    (List.mem_map_of_mem (f := fun line => line ++ [sep]) hline)).length_le
  rw [h.eq, List.length_append, List.flatMap_def]
  rw [List.length_append, List.length_singleton] at hsub
  omega

variable [BEq α] [LawfulBEq α]

/-- The complete lines of a longer stream begin with those of the cut. -/
theorem splitOn_append (h : Cut sep stream lines rest) (more : List α) :
    (stream ++ more).splitOn sep = lines ++ (rest ++ more).splitOn sep := by
  obtain ⟨rfl, hlines, -⟩ := h
  rw [List.append_assoc]
  induction lines with
  | nil => rfl
  | cons line lines ih =>
    rw [List.flatMap_cons, List.append_assoc, List.append_assoc, List.singleton_append,
      List.splitOn_append_cons_self_of_not_mem (hlines line List.mem_cons_self),
      ih fun other hother => hlines other (List.mem_cons_of_mem _ hother), List.cons_append]

/-- **The cut is the one that splitting the stream gives.** -/
theorem splitOn_eq (h : Cut sep stream lines rest) : stream.splitOn sep = lines ++ [rest] := by
  have happend := h.splitOn_append []
  rwa [List.append_nil, List.append_nil, List.splitOn_eq_singleton h.rest_free] at happend

end Cut

/-- What comes before the first separator is at the front of the first piece. -/
theorem splitOn_append_of_not_mem [BEq α] [LawfulBEq α] {xs : List α} (h : sep ∉ xs)
    (more : List α) :
    (xs ++ more).splitOn sep = (more.splitOn sep).modifyHead (xs ++ ·) := by
  induction xs with
  | nil => cases hsplit : more.splitOn sep <;> simp [hsplit]
  | cons x xs ih =>
    have hx : ¬(x == sep) = true := by
      rw [beq_iff_eq]
      rintro rfl
      exact h List.mem_cons_self
    rw [List.cons_append, List.splitOn_cons_eq_if_modifyHead, if_neg hx,
      ih fun hmem => h (List.mem_cons_of_mem _ hmem), List.modifyHead_modifyHead]
    rfl

end Foundation

end HotCounter
