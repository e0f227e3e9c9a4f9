import Mathlib.Data.List.Forall2

/-!
What a successful run of code that can throw says: the runs of its parts. The code is
in `Except`, or in `Except` with a state.
-/
namespace Library.Throwing

section Except

variable {ε α β : Type}

theorem bind_ok {x : Except ε α} {f : α → Except ε β} {b : β} :
    (x >>= f) = .ok b ↔ ∃ a, x = .ok a ∧ f a = .ok b := by
  cases x with
  | error e => simp [bind, Except.bind]
  | ok a => simp [bind, Except.bind]

theorem map_ok {f : α → β} {x : Except ε α} {b : β} :
    x.map f = .ok b ↔ ∃ a, x = .ok a ∧ f a = b := by
  cases x with
  | error e => simp [Except.map]
  | ok a => simp [Except.map]

theorem mapM_ok {f : α → Except ε β} {xs : List α} {ys : List β} :
    xs.mapM f = .ok ys ↔ List.Forall₂ (fun x y => f x = .ok y) xs ys := by
  induction xs generalizing ys with
  | nil =>
    rw [List.mapM_nil, List.forall₂_nil_left_iff]
    exact ⟨fun h => (Except.ok.inj h).symm, fun h => h ▸ rfl⟩
  | cons x rest ih =>
    rw [List.mapM_cons, bind_ok]
    constructor
    · rintro ⟨y, hy, hrest⟩
      obtain ⟨ys', hys', hpure⟩ := bind_ok.mp hrest
      cases hpure
      exact .cons hy (ih.mp hys')
    · rintro (_ | ⟨hy, hrest⟩)
      exact ⟨_, hy, bind_ok.mpr ⟨_, ih.mpr hrest, rfl⟩⟩

/-- `mapM` succeeds exactly when every call does. -/
theorem exists_mapM_ok {f : α → Except ε β} {xs : List α} :
    (∃ ys, xs.mapM f = .ok ys) ↔ ∀ x ∈ xs, ∃ y, f x = .ok y := by
  simp only [mapM_ok]
  induction xs with
  | nil => exact ⟨fun _ _ h => absurd h List.not_mem_nil, fun _ => ⟨[], .nil⟩⟩
  | cons x rest ih =>
    rw [List.forall_mem_cons, ← ih]
    constructor
    · rintro ⟨_, _ | ⟨hx, hrest⟩⟩
      exact ⟨⟨_, hx⟩, ⟨_, hrest⟩⟩
    · rintro ⟨⟨y, hx⟩, ⟨ys, hrest⟩⟩
      exact ⟨y :: ys, .cons hx hrest⟩

theorem mem_mapM_ok {f : α → Except ε β} {xs : List α} {ys : List β} {y : β}
    (h : xs.mapM f = .ok ys) : y ∈ ys ↔ ∃ x ∈ xs, f x = .ok y := by
  have hall := mapM_ok.mp h
  clear h
  induction hall with
  | nil => simp
  | cons hx _ ih =>
    rw [List.mem_cons, List.exists_mem_cons_iff, hx, Except.ok.injEq, eq_comm]
    exact or_congr_right ih

theorem forM_ok {f : α → Except ε Unit} {xs : List α} :
    xs.forM f = .ok () ↔ ∀ x ∈ xs, f x = .ok () := by
  induction xs with
  | nil => exact ⟨fun _ _ hmem => absurd hmem List.not_mem_nil, fun _ => rfl⟩
  | cons x rest ih =>
    rw [List.forall_mem_cons, ← ih]
    change (f x >>= fun _ => rest.forM f) = .ok () ↔ _
    rw [bind_ok]
    exact ⟨fun ⟨_, hx, hrest⟩ => ⟨hx, hrest⟩, fun ⟨hx, hrest⟩ => ⟨(), hx, hrest⟩⟩

/-- Two loops are the same when their bodies are on what they go through. -/
theorem foldlM_congr {σ : Type} {f g : σ → α → Except ε σ} {xs : List α} {s : σ}
    (h : ∀ x ∈ xs, ∀ s, f s x = g s x) : xs.foldlM f s = xs.foldlM g s := by
  induction xs generalizing s with
  | nil => rfl
  | cons x rest ih =>
    rw [List.foldlM_cons, List.foldlM_cons, h x List.mem_cons_self]
    exact congrArg _ (funext fun s' => ih fun y hy => h y (List.mem_cons_of_mem x hy))

/-- A loop over the numbers below a bound succeeds when every step from its invariant does. -/
theorem foldlM_range_total {σ : Type} {f : σ → ℕ → Except ε σ} {P : ℕ → σ → Prop} {n : ℕ}
    {s : σ} (hstart : P 0 s)
    (hstep : ∀ i < n, ∀ s, P i s → ∃ s', f s i = .ok s' ∧ P (i + 1) s') :
    ∃ s', (List.range n).foldlM f s = .ok s' ∧ P n s' := by
  induction n with
  | zero => exact ⟨s, rfl, hstart⟩
  | succ n ih =>
    obtain ⟨before, hbefore, hinv⟩ := ih (fun i hi => hstep i (by omega))
    obtain ⟨after, hafter, hinv'⟩ := hstep n (by omega) before hinv
    refine ⟨after, ?_, hinv'⟩
    rw [List.range_succ, List.foldlM_append, hbefore]
    change (f before n >>= fun s' => pure s') = .ok after
    rw [hafter]
    rfl

/-- A check that throws when it fails. -/
theorem check_ok {p : Prop} [Decidable p] {e : ε} {f : α → Except ε β} {x : Except ε β}
    {b : β} : (if p then throw e >>= f else x) = .ok b ↔ ¬p ∧ x = .ok b := by
  by_cases h : p
  · rw [if_pos h]
    constructor
    · intro hthrow
      cases hthrow
    · rintro ⟨hn, -⟩
      exact absurd h hn
  · rw [if_neg h]
    exact ⟨fun hx => ⟨h, hx⟩, fun hx => hx.2⟩

/-- A check that throws when it fails, and is the last step. -/
theorem guard_ok {p : Prop} [Decidable p] {e : ε} :
    (if p then throw e else pure () : Except ε Unit) = .ok () ↔ ¬p := by
  by_cases h : p
  · rw [if_pos h]
    constructor
    · intro hthrow
      cases hthrow
    · exact fun hn => absurd h hn
  · rw [if_neg h]
    exact ⟨fun _ => h, fun _ => rfl⟩

theorem then_ok {x : Except ε Unit} {y : Except ε α} {a : α} :
    (x >>= fun _ => y) = .ok a ↔ x = .ok () ∧ y = .ok a := by
  rw [bind_ok]
  exact ⟨fun ⟨_, hx, hy⟩ => ⟨hx, hy⟩, fun ⟨hx, hy⟩ => ⟨(), hx, hy⟩⟩

end Except

section StateT

variable {σ ε α β : Type}

theorem run_bind_ok {x : StateT σ (Except ε) α} {f : α → StateT σ (Except ε) β} {s : σ}
    {r : β × σ} : (x >>= f) s = .ok r ↔ ∃ a s', x s = .ok (a, s') ∧ f a s' = .ok r := by
  change (x s >>= fun p => f p.1 p.2) = .ok r ↔ _
  rw [bind_ok]
  exact ⟨fun ⟨p, hx, hf⟩ => ⟨p.1, p.2, hx, hf⟩, fun ⟨a, s', hx, hf⟩ => ⟨(a, s'), hx, hf⟩⟩

theorem run_pure_ok {a : α} {s : σ} {r : α × σ} :
    (pure a : StateT σ (Except ε) α) s = .ok r ↔ r = (a, s) :=
  ⟨fun h => (Except.ok.inj h).symm, fun h => h ▸ rfl⟩

theorem run_lift_ok {x : Except ε α} {s : σ} {r : α × σ} :
    (liftM x : StateT σ (Except ε) α) s = .ok r ↔ x = .ok r.1 ∧ r.2 = s := by
  obtain ⟨a, s'⟩ := r
  change (x >>= fun a => pure (a, s)) = .ok (a, s') ↔ _
  rw [bind_ok]
  constructor
  · rintro ⟨a', hx, hpure⟩
    cases hpure
    exact ⟨hx, rfl⟩
  · rintro ⟨hx, rfl⟩
    exact ⟨a, hx, rfl⟩

theorem run_throw_ok {e : ε} {s : σ} {r : α × σ} :
    (throw e : StateT σ (Except ε) α) s ≠ .ok r := by
  intro h
  cases h

theorem run_check_ok {p : Prop} [Decidable p] {e : ε} {f : α → StateT σ (Except ε) β}
    {x : StateT σ (Except ε) β} {s : σ} {r : β × σ} :
    (if p then throw e >>= f else x : StateT σ (Except ε) β) s = .ok r ↔ ¬p ∧ x s = .ok r := by
  by_cases h : p
  · rw [if_pos h]
    constructor
    · intro hthrow
      cases hthrow
    · rintro ⟨hn, -⟩
      exact absurd h hn
  · rw [if_neg h]
    exact ⟨fun hx => ⟨h, hx⟩, fun hx => hx.2⟩

/-- Induction rule for `mapM`: a relation between the inputs done, their results and the
state, kept by every call, holds at the end of a successful run. -/
theorem run_mapM_ok {f : α → StateT σ (Except ε) β} {P : List α → List β → σ → Prop}
    (hstep : ∀ done results s x y s', P done results s → f x s = .ok (y, s') →
      P (done ++ [x]) (results ++ [y]) s')
    {xs : List α} {ys : List β} {s s' : σ} (hstart : P [] [] s)
    (hrun : xs.mapM f s = .ok (ys, s')) : P xs ys s' := by
  have hfrom : ∀ (xs done : List α) (results ys : List β) (s : σ), P done results s →
      xs.mapM f s = .ok (ys, s') → P (done ++ xs) (results ++ ys) s' := by
    intro xs
    induction xs with
    | nil =>
      intro done results ys s hdone hrun
      rw [List.mapM_nil, run_pure_ok] at hrun
      cases hrun
      simpa using hdone
    | cons x rest ih =>
      intro done results ys s hdone hrun
      rw [List.mapM_cons, run_bind_ok] at hrun
      obtain ⟨y, s₁, hx, hrest⟩ := hrun
      obtain ⟨ys', s₂, hys, hpure⟩ := run_bind_ok.mp hrest
      rw [run_pure_ok] at hpure
      cases hpure
      have hnext :=
        ih (done ++ [x]) (results ++ [y]) ys' s₁ (hstep done results s x y s₁ hdone hx) hys
      simpa using hnext
  simpa using hfrom xs [] [] ys s hstart hrun

/-- The same for a list with its indices: each call is given the number of those before it. -/
theorem run_mapM_zipIdx_ok {f : α × ℕ → StateT σ (Except ε) β} {P : List α → List β → σ → Prop}
    (hstep : ∀ done results s x y s', P done results s → results.length = done.length →
      f (x, done.length) s = .ok (y, s') → P (done ++ [x]) (results ++ [y]) s')
    {xs : List α} {ys : List β} {s s' : σ} (hstart : P [] [] s)
    (hrun : xs.zipIdx.mapM f s = .ok (ys, s')) : P xs ys s' := by
  -- the index counts the elements done, so the induction carries them along
  have hfrom : ∀ (xs done : List α) (results ys : List β) (s : σ), P done results s →
      results.length = done.length → (xs.zipIdx done.length).mapM f s = .ok (ys, s') →
      P (done ++ xs) (results ++ ys) s' := by
    intro xs
    induction xs with
    | nil =>
      intro done results ys s hdone _ hrun
      rw [List.zipIdx_nil, List.mapM_nil, run_pure_ok] at hrun
      cases hrun
      simpa using hdone
    | cons x rest ih =>
      intro done results ys s hdone hlength hrun
      rw [List.zipIdx_cons, List.mapM_cons, run_bind_ok] at hrun
      obtain ⟨y, s₁, hx, hrest⟩ := hrun
      obtain ⟨ys', s₂, hys, hpure⟩ := run_bind_ok.mp hrest
      rw [run_pure_ok] at hpure
      cases hpure
      have hcount : done.length + 1 = (done ++ [x]).length := by simp
      rw [hcount] at hys
      have hnext := ih (done ++ [x]) (results ++ [y]) ys' s₁
        (hstep done results s x y s₁ hdone hlength hx) (by simpa using hlength) hys
      simpa using hnext
  simpa using hfrom xs [] [] ys s hstart rfl hrun

/-- The calls of a successful `mapM`, each from some state. -/
theorem run_mapM_forall₂ {f : α → StateT σ (Except ε) β} {xs : List α} {ys : List β} {s s' : σ}
    (hrun : xs.mapM f s = .ok (ys, s')) :
    List.Forall₂ (fun x y => ∃ before after, f x before = .ok (y, after)) xs ys := by
  have hstep : ∀ (done : List α) (results : List β) before x y after,
      List.Forall₂ (fun x y => ∃ before after, f x before = .ok (y, after)) done results →
      f x before = .ok (y, after) →
      List.Forall₂ (fun x y => ∃ before after, f x before = .ok (y, after)) (done ++ [x])
        (results ++ [y]) := by
    intro done results before x y after hdone hx
    exact List.rel_append hdone (.cons ⟨before, after, hx⟩ .nil)
  exact run_mapM_ok (P := fun done results _ =>
    List.Forall₂ (fun x y => ∃ before after, f x before = .ok (y, after)) done results)
    hstep .nil hrun

/-- Calls that leave the state alone make a `mapM` that does. -/
theorem run_mapM_eq {f : α → StateT σ (Except ε) β} {xs : List α} {ys : List β} {s : σ}
    (h : List.Forall₂ (fun x y => f x s = .ok (y, s)) xs ys) : xs.mapM f s = .ok (ys, s) := by
  induction h with
  | nil => rfl
  | cons hx _ ih =>
    rw [List.mapM_cons, run_bind_ok]
    exact ⟨_, s, hx, run_bind_ok.mpr ⟨_, s, ih, run_pure_ok.mpr rfl⟩⟩

/-- `mapM` succeeds when every call does, from whatever state. -/
theorem run_mapM_total {f : α → StateT σ (Except ε) β} {Q : α → β → Prop} {xs : List α}
    (h : ∀ x ∈ xs, ∀ s, ∃ y s', f x s = .ok (y, s') ∧ Q x y) (s : σ) :
    ∃ ys s', xs.mapM f s = .ok (ys, s') ∧ List.Forall₂ Q xs ys := by
  induction xs generalizing s with
  | nil => exact ⟨[], s, rfl, .nil⟩
  | cons x rest ih =>
    obtain ⟨y, s₁, hx, hy⟩ := h x List.mem_cons_self s
    obtain ⟨ys, s₂, hrest, hys⟩ := ih (fun x' hx' => h x' (List.mem_cons_of_mem x hx')) s₁
    refine ⟨y :: ys, s₂, ?_, .cons hy hys⟩
    rw [List.mapM_cons, run_bind_ok]
    exact ⟨y, s₁, hx, run_bind_ok.mpr ⟨ys, s₂, hrest, run_pure_ok.mpr rfl⟩⟩

end StateT

/-- A relation along a list with its indices, seen at one index. -/
theorem forall₂_zipIdx_getElem {α β : Type} {R : α × ℕ → β → Prop} {xs : List α} {ys : List β}
    (h : List.Forall₂ R xs.zipIdx ys) {i : ℕ} {x : α} (hx : xs[i]? = some x) :
    ∃ y, ys[i]? = some y ∧ R (x, i) y := by
  obtain ⟨hlength, hget⟩ := List.forall₂_iff_get.mp h
  obtain ⟨hi, rfl⟩ := List.getElem?_eq_some_iff.mp hx
  have hzip : i < xs.zipIdx.length := by simpa using hi
  have hys : i < ys.length := hlength ▸ hzip
  refine ⟨ys[i], List.getElem?_eq_getElem hys, ?_⟩
  simpa using hget i hzip hys

theorem forall₂_zipIdx_of_getElem {α β : Type} {R : α × ℕ → β → Prop} {xs : List α} {ys : List β}
    (hlength : xs.length = ys.length)
    (h : ∀ (i : ℕ) (x : α) (y : β), xs[i]? = some x → ys[i]? = some y → R (x, i) y) :
    List.Forall₂ R xs.zipIdx ys := by
  rw [List.forall₂_iff_get]
  refine ⟨by simpa using hlength, ?_⟩
  intro i hi hy
  have hx : i < xs.length := by simpa using hi
  have hget := h i xs[i] ys[i] (List.getElem?_eq_getElem hx) (List.getElem?_eq_getElem hy)
  simpa using hget

end Library.Throwing
