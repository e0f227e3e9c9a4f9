import Mathlib.Tactic.Tauto
import SymbolBootstrap.Library.FirstFit
import SymbolBootstrap.VotingPlan

/-!
The linking loop over voting files, every unlink being confirmed. After one file the
keys are disjoint exactly when the file met at most one of them. Over files that are
themselves disjoint, each deals with the initial keys only, as in a first-fit
assignment; `FilePlan` is where the loop then stands.
-/
namespace SymbolBootstrap.FilePlans

open Library Library.ClosedIntervals LinkService LinkChain VotingPlan

variable {params : LinkParams} {prompt : ℕ → Bool}

section OneFile

variable {keys before after : List VotingKeyAccount} {file key : VotingKeyAccount}

/-- Next to disjoint keys, a file different from the first key it overlaps is
different from all of them. -/
theorem new_of_disjoint (hfirst : FirstOverlap keys file before key after)
    (hdisjoint : DisjointKeys keys)
    (hdifferent : isSameAccount key file = false) :
    ∀ other ∈ keys, isSameAccount file other = false := by
  intro other hother
  by_contra hsame
  have hover := overlap_of_same (by simpa using hsame) (overlaps_iff.mp hfirst.overlap)
  have heq : other = key := hdisjoint.eq_of_overlap hother hfirst.mem hover
  subst heq
  rw [different_comm hdifferent] at hsame
  exact hsame rfl

theorem countP_of_firstOverlap (hfirst : FirstOverlap keys file before key after) :
    keys.countP (overlapsVotingAccounts file) =
      1 + after.countP (overlapsVotingAccounts file) := by
  have hzero : before.countP (overlapsVotingAccounts file) = 0 := by
    apply List.countP_eq_zero.mpr
    intro other hother
    simp only [hfirst.clear other hother, Bool.false_eq_true, not_false_eq_true]
  rw [hfirst.split, List.countP_append, hzero, List.countP_cons_of_pos hfirst.overlap]
  omega

/-- After one file the keys are disjoint exactly when it met at most one of them. -/
theorem disjoint_iff_of_step {plan next : VotingPlan}
    (hstep : VotingStep params prompt plan file next)
    (hconfirmed : AllConfirmed params prompt)
    (hdisjoint : DisjointKeys plan.remainingVotingKeys) :
    DisjointKeys next.remainingVotingKeys ↔
      plan.remainingVotingKeys.countP (overlapsVotingAccounts file) ≤ 1 := by
  cases hstep with
  | same before key after hfirst hsame =>
    refine ⟨fun _ => ?_, fun _ => hdisjoint⟩
    have hzero : after.countP (overlapsVotingAccounts file) = 0 := by
      apply List.countP_eq_zero.mpr
      intro other hother hover
      have hmeets := overlap_of_same (by rwa [isSameAccount_comm] at hsame)
        (overlaps_iff.mp hover)
      have hapart := hdisjoint
      rw [hfirst.split] at hapart
      exact List.rel_of_pairwise_cons (List.pairwise_append.mp hapart).2.1 hother hmeets
    rw [countP_of_firstOverlap hfirst, hzero]
  | refused before key after hfirst hdifferent hanswer =>
    rw [hconfirmed plan.asked] at hanswer
    exact Bool.noConfusion hanswer
  | replaced before key after hfirst hdifferent hanswer =>
    have hrest : DisjointKeys (before ++ after) := by
      refine Apart.sublist hdisjoint ?_
      rw [hfirst.split]
      exact List.Sublist.append (List.Sublist.refl before) (List.sublist_cons_self key after)
    rw [countP_of_firstOverlap hfirst]
    constructor
    · intro hnext
      have hcross := (apart_append.mp hnext).2.2
      have hzero : after.countP (overlapsVotingAccounts file) = 0 := by
        apply List.countP_eq_zero.mpr
        intro other hother hover
        exact hcross other (List.mem_append_right before hother) file
          (List.mem_singleton_self file) (overlaps_iff.mp hover).symm
      omega
    · intro hcount
      have hzero : after.countP (overlapsVotingAccounts file) = 0 := by omega
      refine apart_append.mpr ⟨hrest, apart_singleton file, ?_⟩
      intro other hother new hnew hover
      rw [List.mem_singleton.mp hnew] at hover
      have hmeets := overlaps_iff.mpr hover.symm
      rcases List.mem_append.mp hother with hbefore | hafter
      · rw [hfirst.clear other hbefore] at hmeets
        exact Bool.noConfusion hmeets
      · exact List.countP_eq_zero.mp hzero other hafter hmeets
  | linked hclear hroom =>
    have hzero : plan.remainingVotingKeys.countP (overlapsVotingAccounts file) = 0 := by
      apply List.countP_eq_zero.mpr
      intro other hother
      simp only [hclear other hother, Bool.false_eq_true, not_false_eq_true]
    refine ⟨fun _ => by omega, fun _ => ?_⟩
    refine apart_append.mpr ⟨hdisjoint, apart_singleton file, ?_⟩
    intro other hother new hnew hover
    rw [List.mem_singleton.mp hnew] at hover
    exact not_overlaps_iff.mp (hclear other hother) hover.symm
  | full hclear hfull =>
    have hzero : plan.remainingVotingKeys.countP (overlapsVotingAccounts file) = 0 := by
      apply List.countP_eq_zero.mpr
      intro other hother
      simp only [hclear other hother, Bool.false_eq_true, not_false_eq_true]
    exact ⟨fun _ => by omega, fun _ => hdisjoint⟩

end OneFile

section DisjointFiles

/-- A file conflicts with a key it overlaps without being the same account. -/
def conflicts (file key : VotingKeyAccount) : Bool :=
  overlapsVotingAccounts file key && !isSameAccount key file

theorem conflicts_of_overlap {file key : VotingKeyAccount}
    (hover : overlapsVotingAccounts file key = true)
    (hdifferent : isSameAccount key file = false) : conflicts file key = true := by
  simp only [conflicts, hover, hdifferent, Bool.not_false, Bool.and_self]

theorem not_conflicts_of_clear {file key : VotingKeyAccount}
    (h : overlapsVotingAccounts file key = false) : conflicts file key = false := by
  simp only [conflicts, h, Bool.false_and]

theorem not_conflicts_of_same {file key : VotingKeyAccount}
    (h : isSameAccount key file = true) : conflicts file key = false := by
  simp only [conflicts, h, Bool.not_true, Bool.and_false]

theorem overlaps_of_conflicts {file key : VotingKeyAccount}
    (h : conflicts file key = true) : overlapsVotingAccounts file key = true :=
  (Bool.and_eq_true_iff.mp h).1

theorem different_of_conflicts {file key : VotingKeyAccount}
    (h : conflicts file key = true) : isSameAccount key file = false := by
  simpa using (Bool.and_eq_true_iff.mp h).2

/-- The linked keys no conflicting file has replaced. -/
def kept (initial files : List VotingKeyAccount) : List VotingKeyAccount :=
  FirstFit.remaining conflicts initial files

/-- Where the linking loop stands after disjoint files: the initial keys that were not
replaced, followed by the files that were linked. Files never meet linked files, so
each deals with the initial keys as in a first-fit assignment. -/
structure FilePlan (linked initial done planned : List VotingKeyAccount)
    (plan : VotingPlan) : Prop where
  split : plan.remainingVotingKeys = kept initial done ++ planned
  planned_done : planned.Sublist done
  planned_new : ∀ file ∈ planned, ∀ key ∈ kept initial done, isSameAccount key file = false
  settled : ∀ file ∈ done, file ∈ planned ∨
    (∃ key ∈ kept initial done, isSameAccount key file = true) ∨
    (plan.remainingVotingKeys.length = 3 ∧
      ∀ key ∈ kept initial done, overlapsVotingAccounts file key = false)
  tracks : Tracks linked plan
  room : plan.remainingVotingKeys.length ≤ 3

section Step

variable {linked initial done planned before after : List VotingKeyAccount}
  {plan next : VotingPlan} {file key : VotingKeyAccount}

theorem kept_append (initial done : List VotingKeyAccount) (file : VotingKeyAccount) :
    kept initial (done ++ [file]) = (kept initial done).eraseP (conflicts file) := by
  unfold kept
  rw [FirstFit.remaining_append]
  rfl

theorem kept_sublist (initial done : List VotingKeyAccount) :
    (kept initial done).Sublist initial :=
  FirstFit.remaining_sublist conflicts initial done

theorem kept_append_of_clear
    (h : ∀ key ∈ kept initial done, conflicts file key = false) :
    kept initial (done ++ [file]) = kept initial done := by
  rw [kept_append]
  apply List.eraseP_of_forall_not
  intro key hkey
  simp only [h key hkey, Bool.false_eq_true, not_false_eq_true]

/-- The first key a new file overlaps is an initial one. -/
theorem FilePlan.first_kept (h : FilePlan linked initial done planned plan)
    (hclear : ∀ other ∈ done, overlapsVotingAccounts file other = false)
    (hfirst : FirstOverlap plan.remainingVotingKeys file before key after) :
    ∃ later, after = later ++ planned ∧
      FirstOverlap (kept initial done) file before key later := by
  have hkey : key ∉ planned := by
    intro hmem
    have hnot := hclear key (h.planned_done.subset hmem)
    rw [hfirst.overlap] at hnot
    exact Bool.noConfusion hnot
  have hsplit := hfirst.split
  rw [h.split] at hsplit
  rcases List.append_eq_append_iff.mp hsplit with ⟨extra, _, hplanned⟩ | ⟨rest, hkept, hrest⟩
  · rw [hplanned] at hkey
    exact absurd (List.mem_append_right extra List.mem_cons_self) hkey
  · cases rest with
    | nil =>
      rw [List.nil_append] at hrest
      rw [← hrest] at hkey
      exact absurd List.mem_cons_self hkey
    | cons head later =>
      obtain ⟨rfl, hafter⟩ := List.cons.inj hrest
      exact ⟨later, hafter, hkept, hfirst.clear, hfirst.overlap⟩

theorem kept_erase (hfirst : FirstOverlap (kept initial done) file before key after)
    (hdifferent : isSameAccount key file = false) :
    kept initial (done ++ [file]) = before ++ after := by
  have hbefore : ∀ other ∈ before, ¬ conflicts file other = true := by
    intro other hother
    simp only [not_conflicts_of_clear (hfirst.clear other hother), Bool.false_eq_true,
      not_false_eq_true]
  rw [kept_append, hfirst.split, List.eraseP_append_right _ hbefore,
    List.eraseP_cons_of_pos (conflicts_of_overlap hfirst.overlap hdifferent)]

/-- A file that is the same as a key that stayed is passed over. -/
theorem FilePlan.step_same (h : FilePlan linked initial done planned plan)
    (hdisjoint : DisjointKeys initial)
    (hclear : ∀ other ∈ done, overlapsVotingAccounts file other = false)
    (hfirst : FirstOverlap plan.remainingVotingKeys file before key after)
    (hsame : isSameAccount key file = true) :
    FilePlan linked initial (done ++ [file]) planned plan := by
  obtain ⟨later, _, hfirst'⟩ := h.first_kept hclear hfirst
  have hkept : DisjointKeys (kept initial done) := hdisjoint.sublist (kept_sublist initial done)
  have hnone : ∀ other ∈ kept initial done, conflicts file other = false := by
    intro other hother
    by_contra hconflict
    have hover := overlaps_of_conflicts (by simpa using hconflict)
    have hmeets := overlap_of_same (by rwa [isSameAccount_comm] at hsame)
      (overlaps_iff.mp hover)
    have heq := hkept.eq_of_overlap hfirst'.mem hother hmeets
    subst heq
    rw [not_conflicts_of_same hsame] at hconflict
    exact hconflict rfl
  have hsteady := kept_append_of_clear hnone
  refine ⟨?_, h.planned_done.trans (List.sublist_append_left done [file]), ?_, ?_,
    h.tracks, h.room⟩
  · rw [hsteady]
    exact h.split
  · rw [hsteady]
    exact h.planned_new
  · rw [hsteady]
    intro other hother
    rcases List.mem_append.mp hother with hdone | hfile
    · exact h.settled other hdone
    · rw [List.mem_singleton.mp hfile]
      exact Or.inr (Or.inl ⟨key, hfirst'.mem, hsame⟩)

/-- A file without room or overlap changes nothing. -/
theorem FilePlan.step_full (h : FilePlan linked initial done planned plan)
    (hempty : ∀ other ∈ plan.remainingVotingKeys, overlapsVotingAccounts file other = false)
    (hfull : plan.remainingVotingKeys.length = 3) :
    FilePlan linked initial (done ++ [file]) planned plan := by
  have hfree : ∀ other ∈ kept initial done, overlapsVotingAccounts file other = false := by
    intro other hother
    apply hempty
    rw [h.split]
    exact List.mem_append_left _ hother
  have hsteady := kept_append_of_clear
    (fun other hother => not_conflicts_of_clear (hfree other hother))
  refine ⟨?_, h.planned_done.trans (List.sublist_append_left done [file]), ?_, ?_,
    h.tracks, h.room⟩
  · rw [hsteady]
    exact h.split
  · rw [hsteady]
    exact h.planned_new
  · rw [hsteady]
    intro other hother
    rcases List.mem_append.mp hother with hdone | hin
    · exact h.settled other hdone
    · rw [List.mem_singleton.mp hin]
      exact Or.inr (Or.inr ⟨hfull, hfree⟩)

/-- A file that meets nothing is linked. -/
theorem FilePlan.step_linked (h : FilePlan linked initial done planned plan)
    (hproper : file.startEpoch ≤ file.endEpoch) (htracks : Tracks linked next)
    (hempty : ∀ other ∈ plan.remainingVotingKeys, overlapsVotingAccounts file other = false)
    (hless : plan.remainingVotingKeys.length < 3)
    (hnext : next.remainingVotingKeys = plan.remainingVotingKeys ++ [file]) :
    FilePlan linked initial (done ++ [file]) (planned ++ [file]) next := by
  have hfree : ∀ other ∈ kept initial done, overlapsVotingAccounts file other = false := by
    intro other hother
    apply hempty
    rw [h.split]
    exact List.mem_append_left _ hother
  have hsteady := kept_append_of_clear
    (fun other hother => not_conflicts_of_clear (hfree other hother))
  refine ⟨?_, h.planned_done.append (List.Sublist.refl [file]), ?_, ?_, htracks, ?_⟩
  · rw [hsteady, hnext, ← List.append_assoc, ← h.split]
  · rw [hsteady]
    intro other hother key hkey
    rcases List.mem_append.mp hother with hin | hin
    · exact h.planned_new other hin key hkey
    · rw [List.mem_singleton.mp hin]
      exact different_comm (different_of_clear hproper (hfree key hkey))
  · rw [hsteady]
    intro other hother
    rcases List.mem_append.mp hother with hdone | hin
    · rcases h.settled other hdone with hplanned | hsame | ⟨hfull, hapart⟩
      · exact Or.inl (List.mem_append_left _ hplanned)
      · exact Or.inr (Or.inl hsame)
      · omega
    · exact Or.inl (List.mem_append_right _ hin)
  · rw [hnext, List.length_append, List.length_singleton]
    omega

/-- A file takes the place of the first key it conflicts with. -/
theorem FilePlan.step_replaced (h : FilePlan linked initial done planned plan)
    (hdisjoint : DisjointKeys initial) (htracks : Tracks linked next)
    (hclear : ∀ other ∈ done, overlapsVotingAccounts file other = false)
    (hfirst : FirstOverlap plan.remainingVotingKeys file before key after)
    (hdifferent : isSameAccount key file = false)
    (hnext : next.remainingVotingKeys = before ++ after ++ [file]) :
    FilePlan linked initial (done ++ [file]) (planned ++ [file]) next := by
  obtain ⟨later, hafter, hfirst'⟩ := h.first_kept hclear hfirst
  have hkept : DisjointKeys (kept initial done) := hdisjoint.sublist (kept_sublist initial done)
  have herase := kept_erase hfirst' hdifferent
  have hsub : ∀ other ∈ kept initial (done ++ [file]), other ∈ kept initial done := by
    rw [kept_append]
    exact fun other hother => List.mem_of_mem_eraseP hother
  have hlength : next.remainingVotingKeys.length = plan.remainingVotingKeys.length := by
    rw [hnext, hfirst.split]
    simp only [List.length_append, List.length_cons, List.length_nil]
    omega
  refine ⟨?_, h.planned_done.append (List.Sublist.refl [file]), ?_, ?_, htracks, ?_⟩
  · rw [herase, hnext, hafter]
    simp only [List.append_assoc]
  · intro other hother key' hkey'
    rcases List.mem_append.mp hother with hin | hin
    · exact h.planned_new other hin key' (hsub key' hkey')
    · rw [List.mem_singleton.mp hin]
      exact different_comm (new_of_disjoint hfirst' hkept hdifferent key' (hsub key' hkey'))
  · intro other hother
    rcases List.mem_append.mp hother with hdone | hin
    · rcases h.settled other hdone with hplanned | ⟨key', hkey', hsame⟩ | ⟨hfull, hapart⟩
      · exact Or.inl (List.mem_append_left _ hplanned)
      · have hne : key' ≠ key := by
          intro heq
          subst heq
          have hmeets := overlap_of_same hsame (overlaps_iff.mp hfirst'.overlap).symm
          exact not_overlaps_iff.mp (hclear other hdone) hmeets.symm
        refine Or.inr (Or.inl ⟨key', ?_, hsame⟩)
        rw [herase]
        rw [hfirst'.split] at hkey'
        simp only [List.mem_append, List.mem_cons] at hkey' ⊢
        tauto
      · refine Or.inr (Or.inr ⟨hlength.trans hfull, ?_⟩)
        exact fun key' hkey' => hapart key' (hsub key' hkey')
    · exact Or.inl (List.mem_append_right _ hin)
  · rw [hlength]
    exact h.room

/-- A new file is only linked next to keys other than itself. -/
theorem FilePlan.new (h : FilePlan linked initial done planned plan)
    (hdisjoint : DisjointKeys initial) (hproper : file.startEpoch ≤ file.endEpoch)
    (hclear : ∀ other ∈ done, overlapsVotingAccounts file other = false)
    (hfirst : FirstOverlap plan.remainingVotingKeys file before key after)
    (hdifferent : isSameAccount key file = false) :
    ∀ other ∈ before ++ after, isSameAccount file other = false := by
  obtain ⟨later, hafter, hfirst'⟩ := h.first_kept hclear hfirst
  have hkept : DisjointKeys (kept initial done) := hdisjoint.sublist (kept_sublist initial done)
  intro other hother
  rw [hafter, ← List.append_assoc] at hother
  rcases List.mem_append.mp hother with hin | hin
  · apply new_of_disjoint hfirst' hkept hdifferent other
    rw [hfirst'.split]
    simp only [List.mem_append, List.mem_cons] at hin ⊢
    tauto
  · exact different_of_clear hproper (hclear other (h.planned_done.subset hin))

/-- One more file, disjoint from the earlier ones. -/
theorem FilePlan.step (h : FilePlan linked initial done planned plan)
    (hstep : VotingStep params prompt plan file next)
    (hconfirmed : AllConfirmed params prompt) (hdisjoint : DisjointKeys initial)
    (hproper : file.startEpoch ≤ file.endEpoch)
    (hclear : ∀ other ∈ done, overlapsVotingAccounts file other = false) :
    ∃ planned', FilePlan linked initial (done ++ [file]) planned' next := by
  have htracks : Tracks linked next :=
    hstep.tracks h.tracks hproper (fun _ _ _ => h.new hdisjoint hproper hclear)
  cases hstep with
  | same before key after hfirst hsame =>
    exact ⟨planned, h.step_same hdisjoint hclear hfirst hsame⟩
  | refused before key after hfirst hdifferent hanswer =>
    rw [hconfirmed plan.asked] at hanswer
    exact Bool.noConfusion hanswer
  | replaced before key after hfirst hdifferent hanswer =>
    exact ⟨planned ++ [file],
      h.step_replaced hdisjoint htracks hclear hfirst hdifferent rfl⟩
  | linked hempty hless =>
    exact ⟨planned ++ [file], h.step_linked hproper htracks hempty hless rfl⟩
  | full hempty hfull => exact ⟨planned, h.step_full hempty hfull⟩

/-- What the iterations over disjoint files keep up. -/
theorem FilePlan.run (h : FilePlan linked initial done planned plan)
    (hconfirmed : AllConfirmed params prompt) (hdisjoint : DisjointKeys initial)
    (files : List VotingKeyAccount) (hfiles : DisjointKeys (done ++ files))
    (hproper : ProperKeys files) :
    ∃ planned', FilePlan linked initial (done ++ files) planned'
      (files.foldl (planVotingFile params prompt) plan) := by
  induction files generalizing done planned plan with
  | nil =>
    rw [List.append_nil]
    exact ⟨planned, h⟩
  | cons file rest ih =>
    have hclear : ∀ other ∈ done, overlapsVotingAccounts file other = false := by
      intro other hother
      apply not_overlaps_iff.mpr
      intro hover
      exact (apart_append.mp hfiles).2.2 other hother file List.mem_cons_self hover.symm
    obtain ⟨planned', hnext⟩ := h.step (planVotingFile_step params prompt plan file h.room)
      hconfirmed hdisjoint (hproper file List.mem_cons_self) hclear
    have hassoc : done ++ file :: rest = (done ++ [file]) ++ rest := by
      rw [List.append_assoc, List.singleton_append]
    rw [hassoc] at hfiles ⊢
    exact ih hnext hfiles (fun other hother => hproper other (List.mem_cons_of_mem file hother))

/-- The loop over disjoint files starts with nothing planned. -/
theorem filePlan_start (htracks : Tracks linked plan)
    (hroom : plan.remainingVotingKeys.length ≤ 3) :
    FilePlan linked plan.remainingVotingKeys [] [] plan where
  split := (List.append_nil _).symm
  planned_done := List.Sublist.refl []
  planned_new := fun _ hfile => absurd hfile List.not_mem_nil
  settled := fun _ hfile => absurd hfile List.not_mem_nil
  tracks := htracks
  room := hroom

/-- The remaining keys are disjoint exactly when no key that stayed is in conflict with
a file. -/
theorem FilePlan.disjoint_iff (h : FilePlan linked initial done planned plan)
    (hdisjoint : DisjointKeys initial) (hdone : DisjointKeys done) :
    DisjointKeys plan.remainingVotingKeys ↔
      ∀ key ∈ kept initial done, ∀ file ∈ done, conflicts file key = false := by
  have hkept : DisjointKeys (kept initial done) := hdisjoint.sublist (kept_sublist initial done)
  rw [h.split]
  constructor
  · intro hall key hkey file hfile
    by_contra hconflict
    have hconflict' : conflicts file key = true := by simpa using hconflict
    have hover := overlaps_of_conflicts hconflict'
    rcases h.settled file hfile with hin | ⟨other, hother, hsame⟩ | ⟨_, hfree⟩
    · exact (apart_append.mp hall).2.2 key hkey file hin (overlaps_iff.mp hover).symm
    · have hmeets := overlap_of_same (by rwa [isSameAccount_comm] at hsame)
        (overlaps_iff.mp hover)
      have heq := hkept.eq_of_overlap hother hkey hmeets
      subst heq
      rw [different_of_conflicts hconflict'] at hsame
      exact Bool.noConfusion hsame
    · rw [hfree key hkey] at hover
      exact Bool.noConfusion hover
  · intro hnone
    refine apart_append.mpr ⟨hkept, hdone.sublist h.planned_done, ?_⟩
    intro key hkey file hfile hover
    have hclear := hnone key hkey file (h.planned_done.subset hfile)
    rw [conflicts_of_overlap (overlaps_iff.mpr hover.symm) (h.planned_new file hfile key hkey)]
      at hclear
    exact Bool.noConfusion hclear

end Step
end DisjointFiles

end SymbolBootstrap.FilePlans
