import Mathlib.Data.List.Basic
import Mathlib.Data.List.Sort

/-!
A stable sort by a key. Elements with one key keep their order, so the sorted list ends
with the last of those that have the greatest key; and by a key with two values it is the
elements with the first value in their original order, followed by those with the second.
-/
namespace Library.StableSort

variable {α : Type*} (key : α → ℕ)

theorem decide_le_trans (x y z : α) (hxy : decide (key x ≤ key y) = true)
    (hyz : decide (key y ≤ key z) = true) : decide (key x ≤ key z) = true := by
  simp only [decide_eq_true_eq] at hxy hyz ⊢
  omega

theorem decide_le_total (x y : α) :
    (decide (key x ≤ key y) || decide (key y ≤ key x)) = true := by
  simp only [Bool.or_eq_true, decide_eq_true_eq]
  omega

theorem mergeSort_sorted (xs : List α) :
    (xs.mergeSort (fun x y => decide (key x ≤ key y))).Pairwise
      (fun x y => key x ≤ key y) := by
  have hsorted := List.pairwise_mergeSort (decide_le_trans key) (decide_le_total key) xs
  simpa only [decide_eq_true_eq] using hsorted

/-- The elements with one key value keep their order. -/
theorem filter_mergeSort (xs : List α) (n : ℕ) :
    (xs.mergeSort (fun x y => decide (key x ≤ key y))).filter (fun x => decide (key x = n)) =
      xs.filter (fun x => decide (key x = n)) := by
  have hperm := List.mergeSort_perm xs (fun x y => decide (key x ≤ key y))
  have hpairwise : (xs.filter (fun x => decide (key x = n))).Pairwise
      (fun x y => decide (key x ≤ key y) = true) := by
    apply List.Pairwise.imp_of_mem (R := fun _ _ => True)
    · intro x y hx hy _
      have hxn := List.of_mem_filter hx
      have hyn := List.of_mem_filter hy
      simp only [decide_eq_true_eq] at hxn hyn ⊢
      omega
    · exact List.pairwise_of_forall (fun _ _ => True.intro)
  have hsub := List.sublist_mergeSort (decide_le_trans key) (decide_le_total key)
    hpairwise List.filter_sublist
  have hfilter := hsub.filter (fun x => decide (key x = n))
  rw [List.filter_filter] at hfilter
  simp only [Bool.and_self] at hfilter
  exact (hfilter.eq_of_length (hperm.filter _).length_eq.symm).symm

/-- The last element that passes a test is followed by none that does. -/
theorem getLast?_filter_iff {p : α → Bool} {xs : List α} {x : α} :
    (xs.filter p).getLast? = some x ↔
      p x = true ∧ ∃ before after, xs = before ++ x :: after ∧ ∀ y ∈ after, p y = false := by
  rw [List.getLast?_filter, List.find?_eq_some_iff_append]
  refine and_congr_right fun _ => ?_
  constructor
  · rintro ⟨front, back, hsplit, hfront⟩
    refine ⟨back.reverse, front.reverse, ?_, ?_⟩
    · rw [← List.reverse_reverse xs, hsplit]
      simp
    · intro y hy
      simpa using hfront y (List.mem_reverse.mp hy)
  · rintro ⟨before, after, rfl, hafter⟩
    refine ⟨after.reverse, before.reverse, by simp, ?_⟩
    intro y hy
    simpa using hafter y (List.mem_reverse.mp hy)

/-- An element with the greatest key, the last one of those with that key. -/
def LastMaximal (xs : List α) (x : α) : Prop :=
  ∃ before after, xs = before ++ x :: after ∧ (∀ y ∈ before, key y ≤ key x) ∧
    ∀ y ∈ after, key y < key x

theorem LastMaximal.le {xs : List α} {x y : α} (h : LastMaximal key xs x) (hy : y ∈ xs) :
    key y ≤ key x := by
  obtain ⟨before, after, rfl, hbefore, hafter⟩ := h
  rcases List.mem_append.mp hy with hin | hin
  · exact hbefore y hin
  · rcases List.mem_cons.mp hin with rfl | hin
    · exact Nat.le_refl _
    · exact (hafter y hin).le

theorem lastMaximal_iff {xs : List α} {x : α} :
    LastMaximal key xs x ↔
      (∀ y ∈ xs, key y ≤ key x) ∧
        (xs.filter (fun y => decide (key y = key x))).getLast? = some x := by
  rw [getLast?_filter_iff]
  constructor
  · intro h
    refine ⟨fun y hy => h.le key hy, by simp, ?_⟩
    obtain ⟨before, after, hsplit, -, hafter⟩ := h
    refine ⟨before, after, hsplit, fun y hy => ?_⟩
    simpa using (hafter y hy).ne
  · rintro ⟨hle, -, before, after, rfl, hafter⟩
    refine ⟨before, after, rfl, fun y hy => hle y (List.mem_append_left _ hy), fun y hy => ?_⟩
    have hother : key y ≠ key x := by simpa using hafter y hy
    exact lt_of_le_of_ne
      (hle y (List.mem_append_right before (List.mem_cons_of_mem x hy))) hother

/-- The sorted list ends with the last of the elements that have the greatest key. -/
theorem getLast?_mergeSort {xs : List α} {x : α} :
    (xs.mergeSort (fun x y => decide (key x ≤ key y))).getLast? = some x ↔
      LastMaximal key xs x := by
  have hsorted := mergeSort_sorted key xs
  have hmem : ∀ y, y ∈ xs.mergeSort (fun x y => decide (key x ≤ key y)) ↔ y ∈ xs :=
    fun _ => List.mem_mergeSort
  rw [lastMaximal_iff, ← filter_mergeSort]
  generalize xs.mergeSort (fun x y => decide (key x ≤ key y)) = sorted at hsorted hmem ⊢
  have hlast : ∀ {y}, sorted.getLast? = some y → ∀ z ∈ sorted, key z ≤ key y := by
    intro y hy z hz
    obtain ⟨before, rfl⟩ := List.getLast?_eq_some_iff.mp hy
    rcases List.mem_append.mp hz with hin | hin
    · exact (List.pairwise_append.mp hsorted).2.2 z hin y (List.mem_singleton_self y)
    · rw [List.mem_singleton.mp hin]
  constructor
  · intro h
    refine ⟨fun y hy => hlast h y ((hmem y).mpr hy), getLast?_filter_iff.mpr ⟨by simp, ?_⟩⟩
    obtain ⟨before, rfl⟩ := List.getLast?_eq_some_iff.mp h
    exact ⟨before, [], rfl, fun y hy => absurd hy List.not_mem_nil⟩
  · rintro ⟨hle, hfilter⟩
    obtain ⟨-, before, after, rfl, hafter⟩ := getLast?_filter_iff.mp hfilter
    -- an element behind it would have a greater key
    have hnil : after = [] := by
      apply List.eq_nil_iff_forall_not_mem.mpr
      intro y hy
      have hbehind : key x ≤ key y :=
        List.rel_of_pairwise_cons (List.pairwise_append.mp hsorted).2.1 hy
      have hbelow := hle y ((hmem y).mp (List.mem_append_right before (List.mem_cons_of_mem x hy)))
      have hother : key y ≠ key x := by simpa using hafter y hy
      omega
    rw [hnil]
    exact List.getLast?_eq_some_iff.mpr ⟨before, rfl⟩
/-- A list sorted by a key below two is its zeros followed by its ones. -/
theorem eq_filter_append_of_sorted (xs : List α) (hkey : ∀ x ∈ xs, key x < 2)
    (hsorted : xs.Pairwise (fun x y => key x ≤ key y)) :
    xs = xs.filter (fun x => decide (key x = 0)) ++ xs.filter (fun x => decide (key x = 1)) := by
  induction xs with
  | nil => rfl
  | cons x rest ih =>
    obtain ⟨hhead, hrest⟩ := List.pairwise_cons.mp hsorted
    have hih := ih (fun y hy => hkey y (List.mem_cons_of_mem x hy)) hrest
    have hx := hkey x List.mem_cons_self
    by_cases hzero : key x = 0
    · rw [List.filter_cons_of_pos (by simpa using hzero),
        List.filter_cons_of_neg (by simp [hzero]), List.cons_append, ← hih]
    · have hone : key x = 1 := by omega
      have hnone : rest.filter (fun y => decide (key y = 0)) = [] := by
        apply List.filter_eq_nil_iff.mpr
        intro y hy
        have hle := hhead y hy
        simp only [decide_eq_true_eq]
        omega
      rw [hnone, List.nil_append] at hih
      rw [List.filter_cons_of_neg (by simpa using hzero), hnone, List.nil_append,
        List.filter_cons_of_pos (by simpa using hone), ← hih]

/-- Sorting by a key with the two values zero and one. -/
theorem mergeSort_two (xs : List α) (hkey : ∀ x ∈ xs, key x < 2) :
    xs.mergeSort (fun x y => decide (key x ≤ key y)) =
      xs.filter (fun x => decide (key x = 0)) ++ xs.filter (fun x => decide (key x = 1)) := by
  have hsorted := mergeSort_sorted key xs
  have hmem : ∀ x ∈ xs.mergeSort (fun x y => decide (key x ≤ key y)), key x < 2 :=
    fun x hx => hkey x (List.mem_mergeSort.mp hx)
  rw [eq_filter_append_of_sorted key _ hmem hsorted, filter_mergeSort, filter_mergeSort]

end Library.StableSort
