import Mathlib.Data.List.Pairwise
import Mathlib.Order.Lattice

/-!
Closed intervals attached to the elements of a type by two endpoint functions, and
lists of elements whose intervals are pairwise apart. The endpoints live in any
linear order. Only proper intervals, those with `lo x ≤ hi x`, overlap themselves.
-/
namespace Library.ClosedIntervals

variable {ι τ : Type*} [LinearOrder τ] (lo hi : ι → τ)

def Overlap (x y : ι) : Prop := lo y ≤ hi x ∧ lo x ≤ hi y

def Apart (xs : List ι) : Prop := xs.Pairwise (fun x y => ¬ Overlap lo hi x y)

def Contains (x : ι) (t : τ) : Prop := lo x ≤ t ∧ t ≤ hi x

variable {lo hi} {x y z : ι} {xs ys : List ι}

theorem Overlap.symm (h : Overlap lo hi x y) : Overlap lo hi y x := ⟨h.2, h.1⟩

theorem overlap_self (h : lo x ≤ hi x) : Overlap lo hi x x := ⟨h, h⟩

/-- An interval with the endpoints of `x` overlaps whatever `x` overlaps. -/
theorem Overlap.congr_left (hlo : lo x = lo z) (hhi : hi x = hi z)
    (h : Overlap lo hi x y) : Overlap lo hi z y :=
  ⟨hhi ▸ h.1, hlo ▸ h.2⟩

theorem overlap_of_contains {t : τ} (hx : Contains lo hi x t) (hy : Contains lo hi y t) :
    Overlap lo hi x y :=
  ⟨hy.1.trans hx.2, hx.1.trans hy.2⟩

theorem not_overlap_of_before (h : hi x < lo y) : ¬ Overlap lo hi x y :=
  fun hover => absurd hover.1 (not_le_of_gt h)

/-- Members of an apart list that overlap are the same element. -/
theorem Apart.eq_of_overlap (h : Apart lo hi xs) (hx : x ∈ xs) (hy : y ∈ xs)
    (hover : Overlap lo hi x y) : x = y := by
  by_contra hne
  have hsymm : Std.Symm (fun x y : ι => ¬ Overlap lo hi x y) :=
    ⟨fun _ _ hnot hover => hnot hover.symm⟩
  exact List.Pairwise.forall h hx hy hne hover

theorem Apart.sublist (h : Apart lo hi ys) (hsub : xs.Sublist ys) : Apart lo hi xs :=
  List.Pairwise.sublist hsub h

theorem apart_append :
    Apart lo hi (xs ++ ys) ↔ Apart lo hi xs ∧ Apart lo hi ys ∧
      ∀ x ∈ xs, ∀ y ∈ ys, ¬ Overlap lo hi x y :=
  List.pairwise_append

theorem apart_singleton (x : ι) : Apart lo hi [x] := List.pairwise_singleton _ x

/-- Proper intervals that are pairwise apart are pairwise different. -/
theorem Apart.nodup (h : Apart lo hi xs) (hproper : ∀ x ∈ xs, lo x ≤ hi x) : xs.Nodup := by
  refine List.Pairwise.imp_of_mem ?_ h
  intro x y hx _ hapart heq
  subst heq
  exact hapart (overlap_self (hproper x hx))

/-- At most one of the intervals that are pairwise apart contains a given point. -/
theorem Apart.countP_le_one {t : τ} {p : ι → Bool} (h : Apart lo hi xs)
    (hp : ∀ x ∈ xs, p x = true → Contains lo hi x t) : xs.countP p ≤ 1 := by
  induction xs with
  | nil => exact Nat.zero_le 1
  | cons x rest ih =>
    obtain ⟨hhead, htail⟩ := List.pairwise_cons.mp h
    have hrest := ih htail (fun y hy => hp y (List.mem_cons_of_mem x hy))
    by_cases hx : p x = true
    · have hnone : rest.countP p = 0 := by
        apply List.countP_eq_zero.mpr
        intro y hy hpy
        exact hhead y hy (overlap_of_contains (hp x List.mem_cons_self hx)
          (hp y (List.mem_cons_of_mem x hy) hpy))
      rw [List.countP_cons_of_pos hx, hnone]
    · rw [List.countP_cons_of_neg hx]
      exact hrest

end Library.ClosedIntervals
