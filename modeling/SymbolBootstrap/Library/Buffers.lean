import Mathlib.Data.List.Basic
import Mathlib.Tactic.Ring

/-!
Buffers of a fixed length that are filled from the left, and lists made of blocks of one
length, read block by block.
-/
namespace Library.Buffers

variable {α : Type*} {blank : α} {size : ℕ} {written buffer values : List α}

/-- The buffer with the values from an index on in place of its own. -/
def overwrite (buffer values : List α) (index : ℕ) : List α :=
  buffer.take index ++ values ++ buffer.drop (index + values.length)

theorem length_overwrite {index : ℕ} (h : index + values.length ≤ buffer.length) :
    (overwrite buffer values index).length = buffer.length := by
  simp only [overwrite, List.length_append, List.length_take, List.length_drop]
  omega

variable (blank size written buffer) in
/-- A buffer of the given size that holds what was written and is blank after it. -/
structure Filled : Prop where
  fits : written.length ≤ size
  buffer_eq : buffer = written ++ List.replicate (size - written.length) blank

theorem filled_nil : Filled blank size [] (List.replicate size blank) :=
  ⟨Nat.zero_le size, rfl⟩

theorem Filled.length_eq (h : Filled blank size written buffer) : buffer.length = size := by
  have hfits := h.fits
  rw [h.buffer_eq, List.length_append, List.length_replicate]
  omega

/-- Writing on where the buffer becomes blank. -/
theorem Filled.overwrite (h : Filled blank size written buffer)
    (hfits : written.length + values.length ≤ size) :
    Filled blank size (written ++ values) (overwrite buffer values written.length) := by
  have hrest : size - written.length - values.length = size - (written.length + values.length) := by
    omega
  refine ⟨by rw [List.length_append]; exact hfits, ?_⟩
  rw [Buffers.overwrite, h.buffer_eq, List.take_left', List.drop_append, List.length_append,
    List.drop_eq_nil_of_le (Nat.le_add_right _ _), List.nil_append, Nat.add_sub_cancel_left,
    List.drop_replicate, hrest]
  rfl

/-- A full buffer is what was written. -/
theorem Filled.eq_of_full (h : Filled blank size written buffer) (hfull : written.length = size) :
    buffer = written := by
  rw [h.buffer_eq, hfull, Nat.sub_self, List.replicate_zero, List.append_nil]

/-- A field that others stand before and after. -/
theorem take_drop_field (before field after : List α) {offset width : ℕ}
    (hoffset : before.length = offset) (hwidth : field.length = width) :
    ((before ++ (field ++ after)).drop offset).take width = field := by
  rw [List.drop_left' hoffset]
  exact List.take_left' hwidth

/-- The block at an index, in a list of blocks of one length. -/
theorem take_drop_flatten {width : ℕ} {blocks : List (List α)}
    (hwidth : ∀ block ∈ blocks, block.length = width) {i : ℕ} {block : List α}
    (hblock : blocks[i]? = some block) :
    (blocks.flatten.drop (width * i)).take width = block := by
  induction blocks generalizing i with
  | nil => cases hblock
  | cons first rest ih =>
    have hfirst := hwidth first List.mem_cons_self
    cases i with
    | zero =>
      cases hblock
      rw [Nat.mul_zero, List.drop_zero, List.flatten_cons]
      exact List.take_left' hfirst
    | succ i =>
      rw [List.getElem?_cons_succ] at hblock
      have hskip : width * (i + 1) = first.length + width * i := by
        rw [hfirst]
        ring
      rw [hskip, List.flatten_cons, List.drop_append]
      rw [List.drop_eq_nil_of_le (Nat.le_add_right _ _), List.nil_append, Nat.add_sub_cancel_left]
      exact ih (fun block hmem => hwidth block (List.mem_cons_of_mem first hmem)) hblock

theorem length_flatten {width : ℕ} {blocks : List (List α)}
    (hwidth : ∀ block ∈ blocks, block.length = width) :
    blocks.flatten.length = width * blocks.length := by
  induction blocks with
  | nil => rfl
  | cons first rest ih =>
    rw [List.flatten_cons, List.length_append, hwidth first List.mem_cons_self,
      ih (fun block hmem => hwidth block (List.mem_cons_of_mem first hmem)), List.length_cons]
    ring

end Library.Buffers
