import SymbolBootstrap.LinkParts
import SymbolBootstrap.VotingDisjoint

/-!
Planning again on the state a plan leads to. Remote and VRF always come to rest after
one plan. The voting keys come to rest exactly when they were left disjoint: a file is
quiet when the first key it overlaps is its own, or when it overlaps none and there is
no room, and a file linked next to a key in conflict with it is not quiet.
-/
namespace SymbolBootstrap.LinkConvergence

open Library.ClosedIntervals LinkService LinkChain VotingPlan FilePlans LinkParts VotingDisjoint

section Slot

variable {params : LinkParams} {prompt : ℕ → Bool}

theorem slotTransactions_of_same (hlink : params.unlink = false) (prompt : ℕ → Bool)
    {account linked : KeyAccount} (hsame : sameKey account linked = true)
    (factory : KeyAccount → LinkAction → Transaction) (asked : ℕ) :
    (slotTransactions params prompt (some linked) factory (some account) asked).1 = [] := by
  simp only [slotTransactions, addTransaction, hlink, hsame, Bool.false_eq_true, ↓reduceIte]

/-- A slot is at rest after one plan. -/
theorem slot_converges (hlink : params.unlink = false)
    (hconfirmed : AllConfirmed params prompt) (prompt' : ℕ → Bool)
    (linked configured : Option KeyAccount)
    (factory : KeyAccount → LinkAction → Transaction)
    (slotEffect : Option KeyAccount → Transaction → Option KeyAccount)
    (heffect : ∀ slot account action,
      slotEffect slot (factory account action) = slotAfter slot account action)
    (asked asked' : ℕ) :
    (slotTransactions params prompt'
      ((slotTransactions params prompt linked factory configured asked).1.foldl slotEffect linked)
      factory configured asked').1 = [] := by
  cases configured with
  | none => rfl
  | some account =>
    have hself : sameKey account account = true := by simp [sameKey]
    cases linked with
    | none =>
      have hplan : (slotTransactions params prompt none factory (some account) asked).1 =
          [factory account .link] := by
        simp only [slotTransactions, addTransaction, hlink, Bool.false_eq_true, ↓reduceIte]
      rw [hplan, List.foldl_cons, List.foldl_nil, heffect]
      exact slotTransactions_of_same hlink prompt' hself factory asked'
    | some old =>
      by_cases hsame : sameKey account old = true
      · rw [slotTransactions_of_same hlink prompt hsame]
        exact slotTransactions_of_same hlink prompt' hsame factory asked'
      · have hplan : (slotTransactions params prompt (some old) factory (some account) asked).1 =
            [factory old .unlink, factory account .link] := by
          simp only [slotTransactions, addTransaction, hlink, hsame, hconfirmed asked,
            Bool.false_eq_true, ↓reduceIte]
        rw [hplan, List.foldl_cons, List.foldl_cons, List.foldl_nil, heffect, heffect]
        exact slotTransactions_of_same hlink prompt' hself factory asked'

end Slot

section Voting

variable {params : LinkParams} {prompt : ℕ → Bool}

/-- The linking loop has nothing to do for the file. -/
def Quiet (keys : List VotingKeyAccount) (file : VotingKeyAccount) : Prop :=
  (∃ before key after, FirstOverlap keys file before key after ∧
    isSameAccount key file = true) ∨
  ((∀ key ∈ keys, overlapsVotingAccounts file key = false) ∧ keys.length = 3)

/-- The linking loop adds nothing exactly when every file is quiet. -/
theorem foldl_planVotingFile_quiet (hconfirmed : AllConfirmed params prompt)
    (files : List VotingKeyAccount) (plan : VotingPlan)
    (hroom : plan.remainingVotingKeys.length ≤ 3) :
    (files.foldl (planVotingFile params prompt) plan).transactions = plan.transactions ↔
      ∀ file ∈ files, Quiet plan.remainingVotingKeys file := by
  induction files with
  | nil => exact ⟨fun _ _ hmem => absurd hmem List.not_mem_nil, fun _ => rfl⟩
  | cons file rest ih =>
    have hstep := planVotingFile_step params prompt plan file hroom
    have hroom' := hstep.length_le params prompt hroom
    obtain ⟨more, hmore⟩ := foldl_planVotingFile_extends params prompt rest hroom'
    rw [List.foldl_cons, List.forall_mem_cons]
    generalize hnext : planVotingFile params prompt plan file = next at hstep hroom' hmore
    cases hstep with
    | same before key after hfirst hsame =>
      have hquiet : Quiet plan.remainingVotingKeys file :=
        Or.inl ⟨before, key, after, hfirst, hsame⟩
      exact ih.trans ⟨fun h => ⟨hquiet, h⟩, fun h => h.2⟩
    | refused before key after hfirst hdifferent hanswer =>
      rw [hconfirmed plan.asked] at hanswer
      exact Bool.noConfusion hanswer
    | replaced before key after hfirst hdifferent hanswer =>
      constructor
      · intro hsame
        rw [hmore] at hsame
        have hlength := congrArg List.length hsame
        simp only [List.length_append, List.length_cons] at hlength
        omega
      · rintro ⟨hquiet, _⟩
        rcases hquiet with ⟨before', key', after', hfirst', hsame⟩ | ⟨hclear, _⟩
        · have hkey := hfirst'.find
          rw [hfirst.find] at hkey
          rw [Option.some.inj hkey, hsame] at hdifferent
          exact Bool.noConfusion hdifferent
        · have hover := hfirst.overlap
          rw [hclear key hfirst.mem] at hover
          exact Bool.noConfusion hover
    | linked hclear hless =>
      constructor
      · intro hsame
        rw [hmore] at hsame
        have hlength := congrArg List.length hsame
        simp only [List.length_append, List.length_cons] at hlength
        omega
      · rintro ⟨hquiet, _⟩
        rcases hquiet with ⟨before', key', after', hfirst', _⟩ | ⟨_, hfull⟩
        · have hover := hfirst'.overlap
          rw [hclear key' hfirst'.mem] at hover
          exact Bool.noConfusion hover
        · omega
    | full hclear hfull =>
      have hquiet : Quiet plan.remainingVotingKeys file := Or.inr ⟨hclear, hfull⟩
      exact ih.trans ⟨fun h => ⟨hquiet, h⟩, fun h => h.2⟩

variable {linked initial done planned : List VotingKeyAccount} {plan : VotingPlan}

/-- Where disjoint files were dealt with, all of them are quiet exactly when the keys
are disjoint. -/
theorem FilePlan.quiet_iff (h : FilePlan linked initial done planned plan)
    (hdisjoint : DisjointKeys initial) (hdone : DisjointKeys done) (hproper : ProperKeys done) :
    (∀ file ∈ done, Quiet plan.remainingVotingKeys file) ↔
      DisjointKeys plan.remainingVotingKeys := by
  have hkept : DisjointKeys (kept initial done) := hdisjoint.sublist (kept_sublist initial done)
  constructor
  · intro hquiet
    apply (h.disjoint_iff hdisjoint hdone).mpr
    intro key hkey file hfile
    by_contra hconflict
    have hover := overlaps_of_conflicts (by simpa using hconflict)
    have hdifferent := different_of_conflicts (by simpa using hconflict)
    rcases h.settled file hfile with hplanned | ⟨own, hown, hsame⟩ | ⟨_, hfree⟩
    · have hremains : key ∈ plan.remainingVotingKeys := by
        rw [h.split]
        exact List.mem_append_left _ hkey
      rcases hquiet file hfile with ⟨before, first, after, hfirst, hsame⟩ | ⟨hclear, _⟩
      · have hinside : first ∈ kept initial done := by
          -- the first overlapping key comes no later than `key`, which was kept
          obtain ⟨_, earliest, _, hkeptFirst⟩ := exists_firstOverlap hkey hover
          have hfind : plan.remainingVotingKeys.find? (overlapsVotingAccounts file) =
              some earliest := by
            rw [h.split, List.find?_append, hkeptFirst.find]
            rfl
          rw [hfirst.find] at hfind
          rw [Option.some.inj hfind]
          exact hkeptFirst.mem
        have hnew := h.planned_new file hplanned first hinside
        rw [hsame] at hnew
        exact Bool.noConfusion hnew
      · rw [hclear key hremains] at hover
        exact Bool.noConfusion hover
    · have hmeets := overlap_of_same (by rwa [isSameAccount_comm] at hsame)
        (overlaps_iff.mp hover)
      have heq := hkept.eq_of_overlap hown hkey hmeets
      rw [← heq, hsame] at hdifferent
      exact Bool.noConfusion hdifferent
    · rw [hfree key hkey] at hover
      exact Bool.noConfusion hover
  · intro hall file hfile
    have hself := overlap_self (hproper file hfile)
    have hown : ∀ own ∈ plan.remainingVotingKeys, isSameAccount own file = true →
        Quiet plan.remainingVotingKeys file := by
      intro own hmem hsame
      have hover : overlapsVotingAccounts file own = true := by
        rw [isSameAccount_comm] at hsame
        exact overlaps_iff.mpr (overlap_of_same hsame hself).symm
      obtain ⟨before, first, after, hfirst⟩ := exists_firstOverlap hmem hover
      have hmeets := overlap_of_same (by rwa [isSameAccount_comm] at hsame)
        (overlaps_iff.mp hfirst.overlap)
      have heq := hall.eq_of_overlap hmem hfirst.mem hmeets
      rw [heq] at hsame
      exact Or.inl ⟨before, first, after, hfirst, hsame⟩
    rcases h.settled file hfile with hplanned | ⟨own, hkeptOwn, hsame⟩ | ⟨hfull, hfree⟩
    · apply hown file _ (isSameAccount_self file)
      rw [h.split]
      exact List.mem_append_right _ hplanned
    · apply hown own _ hsame
      rw [h.split]
      exact List.mem_append_left _ hkeptOwn
    · by_cases hplanned : file ∈ planned
      · apply hown file _ (isSameAccount_self file)
        rw [h.split]
        exact List.mem_append_right _ hplanned
      · refine Or.inr ⟨?_, hfull⟩
        intro key hkey
        rw [h.split] at hkey
        rcases List.mem_append.mp hkey with hin | hin
        · exact hfree key hin
        · apply not_overlaps_iff.mpr
          intro hover
          have heq := hdone.eq_of_overlap hfile (h.planned_done.subset hin) hover
          rw [heq] at hplanned
          exact hplanned hin

theorem unlinkExpired_active {keys : List VotingKeyAccount} {lastKnownNetworkEpoch : ℕ}
    (asked : ℕ) (h : ∀ key ∈ keys, key.endEpoch ≥ lastKnownNetworkEpoch) :
    unlinkExpired params prompt lastKnownNetworkEpoch keys asked = ⟨keys, [], asked⟩ := by
  induction keys with
  | nil => rfl
  | cons key rest ih =>
    have hunexpired : ¬ key.endEpoch < lastKnownNetworkEpoch := by
      have hend := h key List.mem_cons_self
      omega
    rw [unlinkExpired, ih (fun other hmem => h other (List.mem_cons_of_mem key hmem))]
    simp only [hunexpired, ↓reduceIte]

/-- The voting keys are at rest after one plan exactly when every linked key in conflict
with a file finds one to be replaced by. -/
theorem voting_converges_iff (files : List VotingKeyAccount) (prompt' : ℕ → Bool)
    (lastKnownNetworkEpoch asked asked' : ℕ) (hconfirmed : AllConfirmed params prompt)
    (hconfirmed' : AllConfirmed params prompt') (hlen : linked.length ≤ 3)
    (hlinked : DisjointKeys linked) (hproper : ProperKeys linked)
    (hfiles : ProperKeys files) (hdisjoint : DisjointKeys files) :
    addVotingKeyLinkTransactions params prompt'
        (votingSetAfter params prompt linked files lastKnownNetworkEpoch asked) files
        lastKnownNetworkEpoch asked' = [] ↔
      EveryConflictReplaced linked files lastKnownNetworkEpoch := by
  obtain ⟨planned, hplan⟩ := exists_filePlan files lastKnownNetworkEpoch asked hconfirmed hlen
    hlinked hproper hfiles hdisjoint
  have hactive : ∀ key ∈ (votingLinkPlan params prompt linked files lastKnownNetworkEpoch
      asked).remainingVotingKeys, key.endEpoch ≥ lastKnownNetworkEpoch := by
    intro key hkey
    rw [hplan.split] at hkey
    rcases List.mem_append.mp hkey with hin | hin
    · simpa using List.of_mem_filter ((kept_sublist _ _).subset hin)
    · simpa using List.of_mem_filter (hplan.planned_done.subset hin)
  have hset : votingSetAfter params prompt linked files lastKnownNetworkEpoch asked =
      (votingLinkPlan params prompt linked files lastKnownNetworkEpoch
        asked).remainingVotingKeys := hplan.tracks.chain
  have hsecond := foldl_planVotingFile_quiet hconfirmed'
    (activeVotingKeyFiles lastKnownNetworkEpoch files)
    ⟨votingSetAfter params prompt linked files lastKnownNetworkEpoch asked, [], asked'⟩
    (by rw [hset]; exact hplan.room)
  rw [addVotingKeyLinkTransactions, votingLinkPlan, unlinkExpired_active asked'
    (by rw [hset]; exact hactive), hsecond, hset]
  have hquiet := FilePlan.quiet_iff hplan (hlinked.sublist List.filter_sublist)
    (hdisjoint.sublist List.filter_sublist)
    (fun file hfile => hfiles file (List.mem_of_mem_filter hfile))
  rw [hquiet, ← hset]
  exact lastSet_disjoint_iff files lastKnownNetworkEpoch asked hconfirmed hlen hlinked hproper
    hfiles hdisjoint

end Voting

section Generic

/-- A second plan on the state the first one leads to, for the same node and epoch. -/
def planAgain (params : LinkParams) (prompt prompt' : ℕ → Bool)
    (mainAccountKeys nodeAccount : GenericNodeAccount) (latestFinalizedBlockEpoch : ℕ) :
    List Transaction :=
  createGenericTransactions params prompt'
    (applyAll mainAccountKeys (createGenericTransactions params prompt mainAccountKeys
      nodeAccount latestFinalizedBlockEpoch))
    nodeAccount latestFinalizedBlockEpoch

/-- Linking comes to rest after one plan exactly when every linked voting key in conflict
with a file finds one to be replaced by. -/
theorem linking_converges_exactly (params : LinkParams) (prompt prompt' : ℕ → Bool)
    (mainAccountKeys nodeAccount : GenericNodeAccount) (latestFinalizedBlockEpoch : ℕ)
    (hlink : params.unlink = false) (hconfirmed : AllConfirmed params prompt)
    (hconfirmed' : AllConfirmed params prompt') (hlen : mainAccountKeys.voting.length ≤ 3)
    (hlinked : DisjointKeys mainAccountKeys.voting)
    (hproper : ProperKeys mainAccountKeys.voting) (hfiles : ProperKeys nodeAccount.voting)
    (hdisjoint : DisjointKeys nodeAccount.voting) :
    planAgain params prompt prompt' mainAccountKeys nodeAccount latestFinalizedBlockEpoch = [] ↔
      EveryConflictReplaced mainAccountKeys.voting nodeAccount.voting
        latestFinalizedBlockEpoch := by
  have hplanned : votingTransactions params prompt mainAccountKeys nodeAccount
      latestFinalizedBlockEpoch =
      addVotingKeyLinkTransactions params prompt mainAccountKeys.voting nodeAccount.voting
        latestFinalizedBlockEpoch
        (askedBeforeVoting params prompt mainAccountKeys nodeAccount) := by
    simp only [votingTransactions, hlink, Bool.false_eq_true, ↓reduceIte]
  rw [planAgain, applyAll_createGeneric params prompt mainAccountKeys nodeAccount
    latestFinalizedBlockEpoch hlen, hplanned, createGenericTransactions_eq]
  generalize hstate : GenericNodeAccount.mk _ _ _ = state
  have hremoteRest : (remoteTransactions params prompt' state nodeAccount).1 = [] := by
    rw [← hstate]
    exact slot_converges hlink hconfirmed prompt' _ _ _ _ (fun _ _ _ => rfl) _ _
  have hvrfRest : (vrfTransactions params prompt' state nodeAccount).1 = [] := by
    rw [← hstate]
    exact slot_converges hlink hconfirmed prompt' _ _ _ _ (fun _ _ _ => rfl) _ _
  rw [hremoteRest, hvrfRest]
  simp only [List.nil_append, votingTransactions, hlink, Bool.false_eq_true, ↓reduceIte]
  rw [← hstate]
  exact voting_converges_iff nodeAccount.voting prompt' latestFinalizedBlockEpoch _ _ hconfirmed
    hconfirmed' hlen hlinked hproper hfiles hdisjoint

/-- Two linked keys and one file that takes the place of the first and meets the second. -/
theorem linking_converges_exactly_border :
    ¬ EveryConflictReplaced [⟨1, 10, "A1"⟩, ⟨11, 20, "B2"⟩] [⟨5, 15, "C3"⟩] 1 := by
  have h := linking_converges_exactly ⟨false, true, none⟩ (fun _ => false) (fun _ => false)
    ⟨none, none, [⟨1, 10, "A1"⟩, ⟨11, 20, "B2"⟩]⟩ ⟨none, none, [⟨5, 15, "C3"⟩]⟩ 1 rfl
    (allConfirmed_of_ready _ _ rfl rfl) (allConfirmed_of_ready _ _ rfl rfl) (by decide)
    (by decide) (by decide) (by decide) (by decide)
  intro hreplaced
  exact absurd (h.mpr hreplaced) (by decide)

/-- The second plan replaces the key the first plan left next to the file. -/
theorem linking_plans_again :
    ¬ ∀ (mainAccountKeys nodeAccount : GenericNodeAccount) (latestFinalizedBlockEpoch : ℕ),
      mainAccountKeys.voting.length ≤ 3 → DisjointKeys mainAccountKeys.voting →
      ProperKeys mainAccountKeys.voting → ProperKeys nodeAccount.voting →
      DisjointKeys nodeAccount.voting →
      planAgain ⟨false, true, none⟩ (fun _ => false) (fun _ => false) mainAccountKeys
        nodeAccount latestFinalizedBlockEpoch = [] := by
  intro h
  exact absurd (h ⟨none, none, [⟨1, 10, "A1"⟩, ⟨11, 20, "B2"⟩]⟩ ⟨none, none, [⟨5, 15, "C3"⟩]⟩ 1
    (by decide) (by decide) (by decide) (by decide) (by decide)) (by decide)

end Generic
end SymbolBootstrap.LinkConvergence
