import SymbolBootstrap.LinkChain

/-!
What the voting loops can do, said once. `VotingStep` lists the outcomes of one
iteration of the second loop of `addVotingKeyLinkTransactions` with everything that
is known in each, and `ExpiryStep` those of the first. Every later fact about the
plans is a case analysis of these.
-/
namespace SymbolBootstrap.VotingPlan

open Library.ClosedIntervals LinkService LinkChain

section Accounts

variable {x y z : VotingKeyAccount}

theorem overlaps_iff : overlapsVotingAccounts x y = true ↔
    Overlap VotingKeyAccount.startEpoch VotingKeyAccount.endEpoch x y := by
  simp only [overlapsVotingAccounts, Bool.and_eq_true, decide_eq_true_eq, Overlap, ge_iff_le]

theorem not_overlaps_iff : overlapsVotingAccounts x y = false ↔
    ¬ Overlap VotingKeyAccount.startEpoch VotingKeyAccount.endEpoch x y := by
  rw [← overlaps_iff, Bool.not_eq_true]

theorem isSameAccount_iff : isSameAccount x y = true ↔
    toUpperCase x.publicKey = toUpperCase y.publicKey ∧
      x.startEpoch = y.startEpoch ∧ x.endEpoch = y.endEpoch := by
  simp only [isSameAccount, Bool.and_eq_true, beq_iff_eq, and_assoc]

theorem isSameAccount_self (x : VotingKeyAccount) : isSameAccount x x = true :=
  isSameAccount_iff.mpr ⟨rfl, rfl, rfl⟩

theorem isSameAccount_comm (x y : VotingKeyAccount) :
    isSameAccount x y = isSameAccount y x := by
  apply Bool.eq_iff_iff.mpr
  rw [isSameAccount_iff, isSameAccount_iff]
  constructor
  · rintro ⟨hkey, hstart, hend⟩
    exact ⟨hkey.symm, hstart.symm, hend.symm⟩
  · rintro ⟨hkey, hstart, hend⟩
    exact ⟨hkey.symm, hstart.symm, hend.symm⟩

theorem different_comm (h : isSameAccount x y = false) : isSameAccount y x = false :=
  (isSameAccount_comm y x).trans h

theorem isSameAccount_trans (hxy : isSameAccount x y = true)
    (hyz : isSameAccount y z = true) : isSameAccount x z = true := by
  obtain ⟨hkey, hstart, hend⟩ := isSameAccount_iff.mp hxy
  obtain ⟨hkey', hstart', hend'⟩ := isSameAccount_iff.mp hyz
  exact isSameAccount_iff.mpr
    ⟨hkey.trans hkey', hstart.trans hstart', hend.trans hend'⟩

/-- Accounts that are the same have the same range, so they overlap the same keys. -/
theorem overlap_of_same (h : isSameAccount x y = true)
    (hover : Overlap VotingKeyAccount.startEpoch VotingKeyAccount.endEpoch x z) :
    Overlap VotingKeyAccount.startEpoch VotingKeyAccount.endEpoch y z := by
  obtain ⟨_, hstart, hend⟩ := isSameAccount_iff.mp h
  exact hover.congr_left hstart hend

theorem different_of_clear (hproper : x.startEpoch ≤ x.endEpoch)
    (h : overlapsVotingAccounts x y = false) : isSameAccount x y = false := by
  by_contra hsame
  have hover := overlap_of_same (by simpa using hsame) (overlap_self hproper)
  exact not_overlaps_iff.mp h hover.symm

end Accounts

section Steps

variable (params : LinkParams) (prompt : ℕ → Bool)

/-- Every confirmation is given, whichever way it is asked. -/
def AllConfirmed : Prop := ∀ asked, (confirmUnlink params prompt asked).1 = true

theorem allConfirmed_of_ready (h : params.ready = true)
    (hremove : params.removeOldLinked = none) : AllConfirmed params prompt := by
  intro asked
  simp [confirmUnlink, h, hremove]

/-- `key` is the first entry of `keys` that overlaps `file`. -/
structure FirstOverlap (keys : List VotingKeyAccount) (file : VotingKeyAccount)
    (before : List VotingKeyAccount) (key : VotingKeyAccount)
    (after : List VotingKeyAccount) : Prop where
  split : keys = before ++ key :: after
  clear : ∀ other ∈ before, overlapsVotingAccounts file other = false
  overlap : overlapsVotingAccounts file key = true

/-- The outcomes of one iteration of the linking loop. -/
inductive VotingStep (plan : VotingPlan) (file : VotingKeyAccount) : VotingPlan → Prop
  | same (before : List VotingKeyAccount) (key : VotingKeyAccount)
      (after : List VotingKeyAccount)
      (hfirst : FirstOverlap plan.remainingVotingKeys file before key after)
      (hsame : isSameAccount key file = true) : VotingStep plan file plan
  | refused (before : List VotingKeyAccount) (key : VotingKeyAccount)
      (after : List VotingKeyAccount)
      (hfirst : FirstOverlap plan.remainingVotingKeys file before key after)
      (hdifferent : isSameAccount key file = false)
      (hanswer : (confirmUnlink params prompt plan.asked).1 = false) :
      VotingStep plan file
        ⟨plan.remainingVotingKeys, plan.transactions,
          (confirmUnlink params prompt plan.asked).2⟩
  | replaced (before : List VotingKeyAccount) (key : VotingKeyAccount)
      (after : List VotingKeyAccount)
      (hfirst : FirstOverlap plan.remainingVotingKeys file before key after)
      (hdifferent : isSameAccount key file = false)
      (hanswer : (confirmUnlink params prompt plan.asked).1 = true) :
      VotingStep plan file
        ⟨before ++ after ++ [file],
          plan.transactions ++ [.voting key .unlink, .voting file .link],
          (confirmUnlink params prompt plan.asked).2⟩
  | linked (hclear : ∀ other ∈ plan.remainingVotingKeys,
        overlapsVotingAccounts file other = false)
      (hroom : plan.remainingVotingKeys.length < 3) :
      VotingStep plan file
        ⟨plan.remainingVotingKeys ++ [file],
          plan.transactions ++ [.voting file .link], plan.asked⟩
  | full (hclear : ∀ other ∈ plan.remainingVotingKeys,
        overlapsVotingAccounts file other = false)
      (hfull : plan.remainingVotingKeys.length = 3) : VotingStep plan file plan

theorem firstOverlap_of_find {keys : List VotingKeyAccount} {file key : VotingKeyAccount}
    (h : keys.find? (overlapsVotingAccounts file) = some key) :
    ∃ before after, FirstOverlap keys file before key after := by
  obtain ⟨hover, before, after, hsplit, hclear⟩ := List.find?_eq_some_iff_append.mp h
  refine ⟨before, after, hsplit, ?_, hover⟩
  intro other hother
  simpa only [Bool.not_eq_true'] using hclear other hother

theorem FirstOverlap.eraseP {keys before after : List VotingKeyAccount}
    {file key : VotingKeyAccount} (h : FirstOverlap keys file before key after) :
    keys.eraseP (overlapsVotingAccounts file) = before ++ after := by
  have hbefore : ∀ other ∈ before, ¬ overlapsVotingAccounts file other = true := by
    intro other hother
    simp only [h.clear other hother, Bool.false_eq_true, not_false_eq_true]
  rw [h.split, List.eraseP_append_right _ hbefore, List.eraseP_cons_of_pos h.overlap]

theorem FirstOverlap.mem {keys before after : List VotingKeyAccount}
    {file key : VotingKeyAccount} (h : FirstOverlap keys file before key after) :
    key ∈ keys := by
  rw [h.split]
  simp only [List.mem_append, List.mem_cons, true_or, or_true]

/-- The keys are the first overlapping one and the others. -/
theorem FirstOverlap.mem_iff {keys before after : List VotingKeyAccount}
    {file key other : VotingKeyAccount} (h : FirstOverlap keys file before key after) :
    other ∈ keys ↔ other = key ∨ other ∈ before ++ after := by
  rw [h.split]
  simp only [List.mem_append, List.mem_cons]
  tauto

theorem FirstOverlap.find {keys before after : List VotingKeyAccount}
    {file key : VotingKeyAccount} (h : FirstOverlap keys file before key after) :
    keys.find? (overlapsVotingAccounts file) = some key := by
  apply List.find?_eq_some_iff_append.mpr
  refine ⟨h.overlap, before, after, h.split, ?_⟩
  intro other hother
  simp only [h.clear other hother, Bool.not_false]

/-- A list with a member the file overlaps has a first one. -/
theorem exists_firstOverlap {keys : List VotingKeyAccount} {file key : VotingKeyAccount}
    (hkey : key ∈ keys) (hover : overlapsVotingAccounts file key = true) :
    ∃ before first after, FirstOverlap keys file before first after := by
  cases hfind : keys.find? (overlapsVotingAccounts file) with
  | none => exact absurd hover (List.find?_eq_none.mp hfind key hkey)
  | some first =>
    obtain ⟨before, after, hfirst⟩ := firstOverlap_of_find hfind
    exact ⟨before, first, after, hfirst⟩

/-- One iteration of the linking loop does one of the five things. -/
theorem planVotingFile_step (plan : VotingPlan) (file : VotingKeyAccount)
    (hlen : plan.remainingVotingKeys.length ≤ 3) :
    VotingStep params prompt plan file (planVotingFile params prompt plan file) := by
  unfold planVotingFile
  split
  · rename_i key hfind
    obtain ⟨before, after, hfirst⟩ := firstOverlap_of_find hfind
    by_cases hsame : isSameAccount key file = true
    · rw [if_pos hsame]
      exact .same before key after hfirst hsame
    · have hdifferent : isSameAccount key file = false := by simpa using hsame
      rw [if_neg hsame]
      by_cases hanswer : (confirmUnlink params prompt plan.asked).1 = true
      · have hroom : (before ++ after).length < 3 := by
          have hlength := congrArg List.length hfirst.split
          simp only [List.length_append, List.length_cons] at hlength ⊢
          omega
        simp only [hanswer, ↓reduceIte, linkIfRoom, hfirst.eraseP, hroom,
          List.append_assoc, List.cons_append, List.nil_append]
        rw [← List.append_assoc]
        exact .replaced before key after hfirst hdifferent hanswer
      · have hrefused : (confirmUnlink params prompt plan.asked).1 = false := by
          simpa using hanswer
        simp only [hrefused, Bool.false_eq_true, ↓reduceIte]
        exact .refused before key after hfirst hdifferent hrefused
  · rename_i hnone
    have hclear : ∀ other ∈ plan.remainingVotingKeys,
        overlapsVotingAccounts file other = false := by
      intro other hother
      simpa using List.find?_eq_none.mp hnone other hother
    unfold linkIfRoom
    by_cases hroom : plan.remainingVotingKeys.length < 3
    · rw [if_pos hroom]
      exact .linked hclear hroom
    · rw [if_neg hroom]
      exact .full hclear (by omega)

theorem VotingStep.length_le {plan next : VotingPlan} {file : VotingKeyAccount}
    (h : VotingStep params prompt plan file next)
    (hlen : plan.remainingVotingKeys.length ≤ 3) : next.remainingVotingKeys.length ≤ 3 := by
  cases h with
  | same before key after hfirst hsame => exact hlen
  | refused before key after hfirst hdifferent hanswer => exact hlen
  | replaced before key after hfirst hdifferent hanswer =>
    rw [hfirst.split] at hlen
    simp only [List.length_append, List.length_cons, List.length_nil] at hlen ⊢
    omega
  | linked hclear hroom =>
    simp only [List.length_append, List.length_cons, List.length_nil]
    omega
  | full hclear hfull => exact hlen

/-- The loop only ever adds transactions. -/
theorem foldl_planVotingFile_extends (files : List VotingKeyAccount)
    {plan : VotingPlan} (hroom : plan.remainingVotingKeys.length ≤ 3) :
    ∃ more, (files.foldl (planVotingFile params prompt) plan).transactions =
      plan.transactions ++ more := by
  induction files generalizing plan with
  | nil => exact ⟨[], (List.append_nil _).symm⟩
  | cons file rest ih =>
    have hstep := planVotingFile_step params prompt plan file hroom
    obtain ⟨more, hmore⟩ := ih (hstep.length_le params prompt hroom)
    have hnow : ∃ added, (planVotingFile params prompt plan file).transactions =
        plan.transactions ++ added := by
      generalize planVotingFile params prompt plan file = next at hstep
      cases hstep with
      | same _ _ _ _ _ => exact ⟨[], (List.append_nil _).symm⟩
      | refused _ _ _ _ _ _ => exact ⟨[], (List.append_nil _).symm⟩
      | replaced _ _ _ _ _ _ => exact ⟨_, rfl⟩
      | linked _ _ => exact ⟨_, rfl⟩
      | full _ _ => exact ⟨[], (List.append_nil _).symm⟩
    obtain ⟨added, hadded⟩ := hnow
    refine ⟨added ++ more, ?_⟩
    rw [List.foldl_cons, hmore, hadded, List.append_assoc]

end Steps

section Tracking

/-- No two entries name the same key, which is how the chain holds them. -/
def DistinctKeys (keys : List VotingKeyAccount) : Prop :=
  keys.Pairwise (fun x y => isSameAccount x y = false)

theorem distinct_of_disjoint {keys : List VotingKeyAccount} (hdisjoint : DisjointKeys keys)
    (hproper : ProperKeys keys) : DistinctKeys keys := by
  refine List.Pairwise.imp_of_mem ?_ hdisjoint
  intro x y hx _ hapart
  by_contra hsame
  have hover := overlap_of_same (by simpa using hsame) (overlap_self (hproper x hx))
  exact hapart hover.symm

theorem distinct_append {keys : List VotingKeyAccount} {key : VotingKeyAccount}
    (hkeys : DistinctKeys keys) (h : ∀ other ∈ keys, isSameAccount key other = false) :
    DistinctKeys (keys ++ [key]) := by
  refine List.pairwise_append.mpr ⟨hkeys, List.pairwise_singleton _ key, ?_⟩
  intro other hother new hnew
  rw [List.mem_singleton.mp hnew]
  exact different_comm (h other hother)

theorem votingAfter_unlink {before after : List VotingKeyAccount} {key : VotingKeyAccount}
    (h : DistinctKeys (before ++ key :: after)) :
    votingAfter (before ++ key :: after) (.voting key .unlink) = before ++ after := by
  obtain ⟨hbefore, hafter, hcross⟩ := List.pairwise_append.mp h
  have hkeep : ∀ other ∈ before, isSameAccount key other = false :=
    fun other hother => different_comm (hcross other hother key List.mem_cons_self)
  have hkeep' : ∀ other ∈ after, isSameAccount key other = false :=
    (List.pairwise_cons.mp hafter).1
  have hleft : before.filter (fun linked => !isSameAccount key linked) = before := by
    apply List.filter_eq_self.mpr
    intro other hother
    simp only [hkeep other hother, Bool.not_false]
  have hright : after.filter (fun linked => !isSameAccount key linked) = after := by
    apply List.filter_eq_self.mpr
    intro other hother
    simp only [hkeep' other hother, Bool.not_false]
  rw [votingAfter, List.filter_append, List.filter_cons]
  simp only [isSameAccount_self, Bool.not_true, Bool.false_eq_true, ↓reduceIte, hleft, hright]

theorem votingAfter_link {keys : List VotingKeyAccount} {key : VotingKeyAccount}
    (h : ∀ linked ∈ keys, isSameAccount key linked = false) :
    votingAfter keys (.voting key .link) = keys ++ [key] := by
  have hany : keys.any (isSameAccount key) = false := by
    apply List.any_eq_false.mpr
    intro linked hlinked
    simp only [h linked hlinked, Bool.false_eq_true, not_false_eq_true]
  rw [votingAfter]
  simp only [hany, Bool.false_eq_true, ↓reduceIte]

variable {params : LinkParams} {prompt : ℕ → Bool}

/-- The plan's remaining keys are exactly those the chain holds after the plan's
transactions, and no two of them are the same. -/
structure Tracks (linked : List VotingKeyAccount) (plan : VotingPlan) : Prop where
  chain : votingAfterAll linked plan.transactions = plan.remainingVotingKeys
  distinct : DistinctKeys plan.remainingVotingKeys

/-- An iteration keeps track of the chain when a file is only linked next to keys
other than itself. -/
theorem VotingStep.tracks {linked : List VotingKeyAccount} {plan next : VotingPlan}
    {file : VotingKeyAccount} (h : VotingStep params prompt plan file next)
    (htracks : Tracks linked plan) (hproper : file.startEpoch ≤ file.endEpoch)
    (hnew : ∀ before key after,
      FirstOverlap plan.remainingVotingKeys file before key after →
      isSameAccount key file = false →
      ∀ other ∈ before ++ after, isSameAccount file other = false) :
    Tracks linked next := by
  have hdistinct := htracks.distinct
  cases h with
  | same before key after hfirst hsame => exact htracks
  | refused before key after hfirst hdifferent hanswer =>
    exact ⟨htracks.chain, hdistinct⟩
  | replaced before key after hfirst hdifferent hanswer =>
    have hother := hnew before key after hfirst hdifferent
    rw [hfirst.split] at hdistinct
    constructor
    · rw [votingAfterAll_append, htracks.chain, hfirst.split]
      change votingAfter (votingAfter (before ++ key :: after) (.voting key .unlink))
        (.voting file .link) = _
      rw [votingAfter_unlink hdistinct, votingAfter_link hother]
    · have hrest : DistinctKeys (before ++ after) := by
        refine List.Pairwise.sublist ?_ hdistinct
        exact List.Sublist.append (List.Sublist.refl before) (List.sublist_cons_self key after)
      exact distinct_append hrest hother
  | linked hclear hroom =>
    have hother : ∀ other ∈ plan.remainingVotingKeys, isSameAccount file other = false :=
      fun other hmem => different_of_clear hproper (hclear other hmem)
    constructor
    · rw [votingAfterAll_append, htracks.chain]
      exact votingAfter_link hother
    · exact distinct_append hdistinct hother
  | full hclear hfull => exact htracks

theorem unlinkExpired_tracks_from (lastKnownNetworkEpoch : ℕ)
    (kept keys : List VotingKeyAccount) (asked : ℕ) (h : DistinctKeys (kept ++ keys)) :
    votingAfterAll (kept ++ keys)
        (unlinkExpired params prompt lastKnownNetworkEpoch keys asked).transactions =
      kept ++ (unlinkExpired params prompt lastKnownNetworkEpoch keys asked).remainingVotingKeys
    := by
  induction keys generalizing kept asked with
  | nil => rfl
  | cons key rest ih =>
    have hkept : DistinctKeys ((kept ++ [key]) ++ rest) := by simpa using h
    have hdropped : DistinctKeys (kept ++ rest) :=
      List.Pairwise.sublist
        (List.Sublist.append (List.Sublist.refl kept) (List.sublist_cons_self key rest)) h
    unfold unlinkExpired
    by_cases hexpired : key.endEpoch < lastKnownNetworkEpoch
    · simp only [hexpired, ↓reduceIte]
      by_cases hanswer : (confirmUnlink params prompt asked).1 = true
      · simp only [hanswer, ↓reduceIte]
        have hunlink := votingAfter_unlink h
        calc votingAfterAll (kept ++ key :: rest) (.voting key .unlink :: _)
            = votingAfterAll (votingAfter (kept ++ key :: rest) (.voting key .unlink)) _ := rfl
          _ = votingAfterAll (kept ++ rest) _ := by rw [hunlink]
          _ = _ := ih kept (confirmUnlink params prompt asked).2 hdropped
      · simp only [hanswer, Bool.false_eq_true, ↓reduceIte]
        simpa using ih (kept ++ [key]) (confirmUnlink params prompt asked).2 hkept
    · simp only [hexpired, ↓reduceIte]
      simpa using ih (kept ++ [key]) asked hkept

theorem unlinkExpired_sublist (lastKnownNetworkEpoch : ℕ) (keys : List VotingKeyAccount)
    (asked : ℕ) :
    (unlinkExpired params prompt lastKnownNetworkEpoch keys asked).remainingVotingKeys.Sublist
      keys := by
  induction keys generalizing asked with
  | nil => exact List.Sublist.refl []
  | cons key rest ih =>
    unfold unlinkExpired
    by_cases hexpired : key.endEpoch < lastKnownNetworkEpoch
    · simp only [hexpired, ↓reduceIte]
      split
      · exact (ih _).cons key
      · exact (ih _).cons_cons key
    · simp only [hexpired, ↓reduceIte]
      exact (ih asked).cons_cons key

/-- The expiry loop leaves the chain with the plan's remaining keys. -/
theorem unlinkExpired_tracks (lastKnownNetworkEpoch : ℕ) (keys : List VotingKeyAccount)
    (asked : ℕ) (h : DistinctKeys keys) :
    Tracks keys (unlinkExpired params prompt lastKnownNetworkEpoch keys asked) := by
  constructor
  · exact unlinkExpired_tracks_from lastKnownNetworkEpoch [] keys asked h
  · exact List.Pairwise.sublist (unlinkExpired_sublist lastKnownNetworkEpoch keys asked) h

/-- With every confirmation given, the expiry loop keeps the keys that have not ended. -/
theorem unlinkExpired_confirmed (hconfirmed : AllConfirmed params prompt)
    (lastKnownNetworkEpoch : ℕ) (keys : List VotingKeyAccount) (asked : ℕ) :
    (unlinkExpired params prompt lastKnownNetworkEpoch keys asked).remainingVotingKeys =
      activeVotingKeyFiles lastKnownNetworkEpoch keys := by
  induction keys generalizing asked with
  | nil => rfl
  | cons key rest ih =>
    unfold unlinkExpired
    by_cases hexpired : key.endEpoch < lastKnownNetworkEpoch
    · have hinactive : ¬ key.endEpoch ≥ lastKnownNetworkEpoch := by omega
      simp only [hexpired, ↓reduceIte, hconfirmed asked, ih, activeVotingKeyFiles,
        List.filter_cons, hinactive, decide_false, Bool.false_eq_true]
    · have hactive : key.endEpoch ≥ lastKnownNetworkEpoch := by omega
      simp only [hexpired, ↓reduceIte, ih, activeVotingKeyFiles, List.filter_cons, hactive,
        decide_true]

end Tracking
end SymbolBootstrap.VotingPlan
