import Mathlib

/-!
# Editing byte strings in place

A field of a buffer is read with `slice` and written with `overwrite`; `exchange` swaps two fields
of one width through a copy. A buffer is the concatenation of its parts, and an edit of a part is
the concatenation with the edited part: the lemmas walk over the parts before the field and let go
of the parts behind it.
-/

namespace HotCounter

namespace Foundation

variable {α : Type*}

/-- The field of `width` entries at an offset. -/
def slice (offset width : ℕ) (buffer : List α) : List α := (buffer.drop offset).take width

/-- Write a field at an offset. What lies behind the end of the buffer is not written. -/
def overwrite (offset : ℕ) (field buffer : List α) : List α :=
  buffer.mapIdx fun i entry => if offset ≤ i then field.getD (i - offset) entry else entry

/-- Swap the fields of `width` entries at two offsets. -/
def exchange (first second width : ℕ) (buffer : List α) : List α :=
  overwrite second (slice first width buffer) (overwrite first (slice second width buffer) buffer)

variable {base offset first second width : ℕ} {field a b : List α}

/-- A buffer edited in place keeps its length. -/
@[simp]
theorem length_overwrite (buffer : List α) :
    (overwrite offset field buffer).length = buffer.length :=
  List.length_mapIdx

/-- A buffer keeps its length when two of its fields are swapped. -/
@[simp]
theorem length_exchange (buffer : List α) :
    (exchange first second width buffer).length = buffer.length := by
  simp [exchange]

/-- A field that lies in the buffer has its whole width. -/
theorem length_slice {buffer : List α} (h : offset + width ≤ buffer.length) :
    (slice offset width buffer).length = width := by
  rw [slice, List.length_take, List.length_drop]
  omega

/-! ### Parts before the field -/

/-- A field behind the first part is a field of the second, at the offset from there. -/
theorem slice_skip (h : a.length ≤ offset) :
    slice offset width (a ++ b) = slice (offset - a.length) width b := by
  rw [slice, slice, List.drop_append, List.drop_of_length_le h, List.nil_append]

/-- An edit behind the first part is an edit of the second, at the offset from there. -/
theorem overwrite_skip (h : a.length ≤ offset) :
    overwrite offset field (a ++ b) = a ++ overwrite (offset - a.length) field b := by
  have hbefore : a.mapIdx (fun i entry =>
      if offset ≤ i then field.getD (i - offset) entry else entry) = a := by
    refine List.ext_getElem List.length_mapIdx fun i hi _ => ?_
    rw [List.length_mapIdx] at hi
    rw [List.getElem_mapIdx, if_neg (by omega)]
  rw [overwrite, List.mapIdx_append, hbefore, overwrite]
  congr 1
  refine List.ext_getElem (by simp) fun i _ _ => ?_
  rw [List.getElem_mapIdx, List.getElem_mapIdx]
  by_cases hi : offset - a.length ≤ i
  · rw [if_pos hi, if_pos (by omega), show i + a.length - offset = i - (offset - a.length) by omega]
  · rw [if_neg hi, if_neg (by omega)]

theorem slice_cons {entry : α} (h : 0 < offset) :
    slice offset width (entry :: b) = slice (offset - 1) width b :=
  slice_skip (a := [entry]) h

theorem overwrite_cons {entry : α} (h : 0 < offset) :
    overwrite offset field (entry :: b) = entry :: overwrite (offset - 1) field b :=
  overwrite_skip (a := [entry]) h

section Base

variable (h : a.length = base)

include h

/-- `slice_skip` for a first part of known length. -/
theorem slice_base : slice (base + offset) width (a ++ b) = slice offset width b := by
  rw [slice_skip (by omega), h, Nat.add_sub_cancel_left]

/-- `overwrite_skip` for a first part of known length. -/
theorem overwrite_base :
    overwrite (base + offset) field (a ++ b) = a ++ overwrite offset field b := by
  rw [overwrite_skip (by omega), h, Nat.add_sub_cancel_left]

/-- A swap of two fields behind the first part is one of the second. -/
theorem exchange_base :
    exchange (base + first) (base + second) width (a ++ b) =
      a ++ exchange first second width b := by
  rw [exchange, slice_base h, slice_base h, overwrite_base h, overwrite_base h, exchange]

end Base

/-! ### Parts behind the field -/

/-- A field that lies in the first part is a field of it. -/
theorem slice_front (h : offset + width ≤ a.length) :
    slice offset width (a ++ b) = slice offset width a := by
  rw [slice, slice, List.drop_append_of_le_length (by omega), List.take_append_of_le_length]
  rw [List.length_drop]
  omega

/-- An edit that ends within the first part leaves the second alone. -/
theorem overwrite_front (h : offset + field.length ≤ a.length) :
    overwrite offset field (a ++ b) = overwrite offset field a ++ b := by
  rw [overwrite, List.mapIdx_append, overwrite]
  congr 1
  refine List.ext_getElem List.length_mapIdx fun i hi _ => ?_
  rw [List.getElem_mapIdx, List.getD_eq_default _ _ (by omega), ite_self]

/-- A swap within the first part leaves the second alone. -/
theorem exchange_front (hfirst : first + width ≤ a.length) (hsecond : second + width ≤ a.length) :
    exchange first second width (a ++ b) = exchange first second width a ++ b := by
  rw [exchange, slice_front hfirst, slice_front hsecond,
    overwrite_front (by rwa [length_slice hsecond]),
    overwrite_front (by rwa [length_slice hfirst, length_overwrite]), exchange]

/-! ### The field itself -/

/-- The first part, read. -/
theorem slice_here (h : a.length = width) : slice 0 width (a ++ b) = a := by
  rw [slice, List.drop_zero, List.take_append_of_le_length h.ge, List.take_of_length_le h.le]

/-- **Overwriting a part replaces it.** -/
theorem overwrite_here (h : field.length = a.length) :
    overwrite 0 field (a ++ b) = field ++ b := by
  rw [overwrite_front (by omega)]
  congr 1
  refine List.ext_getElem (by simp [h]) fun i hi hi' => ?_
  simp only [overwrite, List.getElem_mapIdx, Nat.zero_le, if_true, Nat.sub_zero]
  exact List.getD_eq_getElem _ _ hi'

/-- A buffer from an offset on is the field there and the buffer behind it. -/
theorem slice_append_drop (buffer : List α) :
    slice offset width buffer ++ buffer.drop (offset + width) = buffer.drop offset := by
  rw [slice, ← List.drop_drop, List.take_append_drop]

end Foundation

end HotCounter
