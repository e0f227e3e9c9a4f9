import Mathlib.Data.List.Infix
import Mathlib.Data.Int.Order.Basic

/-!
Where a part occurs in a text. A part with no border, that is no proper end that is also a
beginning of it, does not overlap itself, so it is found where it was put between texts that
do not hold it.
-/
namespace Library.Searching

variable {α : Type} [DecidableEq α]

/-- The first position of a part. -/
def position (part : List α) : List α → Option ℕ
  | [] => if part = [] then some 0 else none
  | c :: rest => if part <+: c :: rest then some 0 else (position part rest).map (· + 1)

/-- `text.indexOf(part, start)`. -/
def indexOf (text part : List α) (start : ℕ) : ℤ :=
  match position part (text.drop start) with
  | some offset => (start + offset : ℕ)
  | none => -1

/-- `text.substring(start, stop)`: the bounds are cut to the text and the lower comes first. -/
def substring (text : List α) (start stop : ℤ) : List α :=
  (text.take (max start stop).toNat).drop (min start stop).toNat

/-- The positions at which a part that is not empty begins, as `indexOf` gives them when it
is called from behind the last one found. -/
def locationsFrom (part : List α) (start : ℕ) : List α → List ℕ
  | [] => []
  | c :: rest =>
      if part <+: c :: rest then start :: locationsFrom part (start + 1) rest
      else locationsFrom part (start + 1) rest

def locations (text part : List α) : List ℕ := locationsFrom part 0 text

/-- No proper end of a part is a beginning of it. -/
def Unbordered (part : List α) : Prop := ∀ i < part.length, 0 < i → ¬ part.drop i <+: part

section Found

variable {part : List α}

omit [DecidableEq α] in
/-- An end of a part with no border does not begin it, whatever follows. -/
theorem not_prefix_drop (hpart : Unbordered part) {i : ℕ} (hi : 0 < i) (hlt : i < part.length)
    (rest : List α) : ¬ part <+: part.drop i ++ rest := by
  intro h
  have hlength : (part.drop i).length ≤ part.length := by
    rw [List.length_drop]
    omega
  exact hpart i hlt hi (List.prefix_of_prefix_length_le (List.prefix_append _ _) h hlength)

omit [DecidableEq α] in
/-- Before the place where it was put, a part does not begin in a text that does not hold it. -/
theorem not_prefix_append (hpart : Unbordered part) {text : List α} (hne : text ≠ [])
    (hfree : ¬ part <:+: text) (rest : List α) : ¬ part <+: text ++ (part ++ rest) := by
  intro h
  by_cases hlength : part.length ≤ text.length
  · exact hfree (List.prefix_of_prefix_length_le h (List.prefix_append _ _) hlength).isInfix
  · obtain ⟨tail, rfl⟩ : text <+: part :=
      List.prefix_of_prefix_length_le (List.prefix_append _ _) h (by omega)
    rw [List.prefix_append_right_inj] at h
    have hpos := List.length_pos_iff.mpr hne
    rw [List.length_append] at hlength
    have htail : tail <+: text ++ tail :=
      List.prefix_of_prefix_length_le h (List.prefix_append _ _) (by rw [List.length_append]; omega)
    refine hpart text.length (by rw [List.length_append]; omega) hpos ?_
    rwa [List.drop_left]

omit [DecidableEq α] in
theorem not_infix_tail {c : α} {text : List α} (h : ¬ part <:+: c :: text) : ¬ part <:+: text :=
  fun hrest => h (List.infix_cons hrest)

theorem position_append (hpart : Unbordered part) {text : List α} (hfree : ¬ part <:+: text)
    (rest : List α) : position part (text ++ (part ++ rest)) = some text.length := by
  induction text with
  | nil =>
    cases part with
    | nil => exact absurd (List.nil_infix) hfree
    | cons c tail =>
      rw [List.nil_append, List.cons_append, position, ← List.cons_append,
        if_pos (List.prefix_append _ _)]
      rfl
  | cons c text ih =>
    have hhere := not_prefix_append hpart (List.cons_ne_nil c text) hfree rest
    rw [List.cons_append] at hhere ⊢
    rw [position, if_neg hhere, ih (not_infix_tail hfree)]
    rfl

/-- Positions at which a part does not begin are passed over. -/
theorem locationsFrom_skip {text rest : List α}
    (h : ∀ i < text.length, ¬ part <+: text.drop i ++ rest) (start : ℕ) :
    locationsFrom part start (text ++ rest) = locationsFrom part (start + text.length) rest := by
  induction text generalizing start with
  | nil => rfl
  | cons c text ih =>
    have hhere := h 0 (Nat.succ_pos _)
    rw [List.drop_zero, List.cons_append] at hhere
    rw [List.cons_append, locationsFrom, if_neg hhere,
      ih (fun i hi => h (i + 1) (Nat.succ_lt_succ hi)), List.length_cons, Nat.add_assoc,
      Nat.add_comm 1 text.length]

/-- A part is found where it was put, and the next ones behind it. -/
theorem locationsFrom_append (hne : part ≠ []) (hpart : Unbordered part) {text : List α}
    (hfree : ¬ part <:+: text) (start : ℕ) (rest : List α) :
    locationsFrom part start (text ++ (part ++ rest)) =
      (start + text.length) :: locationsFrom part (start + text.length + part.length) rest := by
  have hbefore : ∀ i < text.length, ¬ part <+: text.drop i ++ (part ++ rest) := by
    intro i hi
    refine not_prefix_append hpart ?_ (fun h => hfree (h.trans (List.drop_suffix i text).isInfix))
      rest
    rw [ne_eq, List.drop_eq_nil_iff]
    omega
  rw [locationsFrom_skip hbefore]
  cases part with
  | nil => exact absurd rfl hne
  | cons c tail =>
    have hinside : ∀ i < tail.length, ¬ c :: tail <+: tail.drop i ++ rest := by
      intro i hi
      exact not_prefix_drop hpart (i := i + 1) (Nat.succ_pos _) (Nat.succ_lt_succ hi) rest
    have hhere : c :: tail <+: c :: (tail ++ rest) := by
      rw [← List.cons_append]
      exact List.prefix_append _ _
    rw [List.cons_append, locationsFrom, if_pos hhere, locationsFrom_skip hinside,
      List.length_cons, Nat.add_assoc _ 1, Nat.add_comm 1]

theorem locationsFrom_free {text : List α} (hfree : ¬ part <:+: text)
    (start : ℕ) : locationsFrom part start text = [] := by
  induction text generalizing start with
  | nil => rfl
  | cons c text ih =>
    rw [locationsFrom, if_neg fun h => hfree h.isInfix, ih (not_infix_tail hfree)]

end Found

end Library.Searching
