import SymbolBootstrap.LinkRevision

/-!
Executing the sorted plan. Remote and VRF transactions are planned in sorted order and
an unlinking plan has unlinks only, so everything depends on the voting part of a
linking plan.
-/
namespace SymbolBootstrap.LinkExecution

open LinkService LinkChain VotingPlan LinkParts LinkOrder LinkRevision

section Unlinking

variable {params : LinkParams} {prompt : ℕ → Bool} {linked : List VotingKeyAccount}
  {plan : VotingPlan}

/-- What the unlinking loop keeps up. -/
structure OnlyUnlinks (linked : List VotingKeyAccount) (plan : VotingPlan) : Prop where
  executable : VotingExecutable linked plan.transactions
  tracks : Tracks linked plan
  room : plan.remainingVotingKeys.length ≤ 3

theorem OnlyUnlinks.step (h : OnlyUnlinks linked plan) (file : VotingKeyAccount) :
    OnlyUnlinks linked (unlinkVotingFile params prompt plan file) := by
  unfold unlinkVotingFile
  split
  · rename_i key hfind
    obtain ⟨before, after, hfirst⟩ := firstOverlap_of_find hfind
    split
    · by_cases hanswer : (confirmUnlink params prompt plan.asked).1 = true
      · have hdistinct := h.tracks.distinct
        have hroom := h.room
        rw [hfirst.split] at hdistinct hroom
        simp only [hanswer, ↓reduceIte, hfirst.eraseP]
        refine ⟨?_, ⟨?_, ?_⟩, ?_⟩
        · refine (votingExecutable_append _ _ _).mpr ⟨h.executable, ?_⟩
          rw [h.tracks.chain, hfirst.split]
          refine ⟨hroom, ⟨key, List.mem_append_right _ List.mem_cons_self,
            isSameAccount_self key⟩, ?_⟩
          rw [votingAfter_unlink hdistinct]
          change (before ++ after).length ≤ 3
          simp only [List.length_append, List.length_cons] at hroom ⊢
          omega
        · rw [votingAfterAll_append, h.tracks.chain, hfirst.split]
          exact votingAfter_unlink hdistinct
        · exact List.Pairwise.sublist (List.Sublist.append (List.Sublist.refl before)
            (List.sublist_cons_self key after)) hdistinct
        · simp only [List.length_append, List.length_cons] at hroom ⊢
          omega
      · simp only [hanswer, Bool.false_eq_true, ↓reduceIte]
        exact ⟨h.executable, ⟨h.tracks.chain, h.tracks.distinct⟩, h.room⟩
    · exact h
  · exact h

theorem OnlyUnlinks.run (h : OnlyUnlinks linked plan) (files : List VotingKeyAccount) :
    OnlyUnlinks linked (files.foldl (unlinkVotingFile params prompt) plan) := by
  induction files generalizing plan with
  | nil => exact h
  | cons file rest ih => exact ih (h.step file)

theorem votingUnlink_onlyUnlinks (files : List VotingKeyAccount) (asked : ℕ)
    (hlen : linked.length ≤ 3) (hdisjoint : DisjointKeys linked)
    (hproper : ProperKeys linked) :
    OnlyUnlinks linked
      (files.foldl (unlinkVotingFile params prompt) ⟨linked, [], asked⟩) := by
  apply OnlyUnlinks.run
  exact ⟨hlen, ⟨rfl, distinct_of_disjoint hdisjoint hproper⟩, hlen⟩

end Unlinking

section SortedPlan

variable (params : LinkParams) (prompt : ℕ → Bool)
  (mainAccountKeys nodeAccount : GenericNodeAccount)

/-- The sorted transactions can be announced one by one and come to the state the plan
was made for. -/
def SortedPlanWorks (latestFinalizedBlockEpoch : Option ℕ) (lastKnownNetworkEpoch : ℕ) :
    Prop :=
  Executable mainAccountKeys (createTransactions params prompt mainAccountKeys nodeAccount
      latestFinalizedBlockEpoch lastKnownNetworkEpoch) ∧
    applyAll mainAccountKeys (createTransactions params prompt mainAccountKeys nodeAccount
      latestFinalizedBlockEpoch lastKnownNetworkEpoch) =
    applyAll mainAccountKeys (createGenericTransactions params prompt mainAccountKeys
      nodeAccount (planningEpoch latestFinalizedBlockEpoch lastKnownNetworkEpoch))

/-- Only linking plans can revise a link; unlinking plans never do. -/
def PlanKeepsOwnLinks (epoch : ℕ) : Prop :=
  params.unlink = false →
    NeverRevisesOwnLink params prompt mainAccountKeys.voting nodeAccount.voting epoch
      (askedBeforeVoting params prompt mainAccountKeys nodeAccount)

variable {params prompt mainAccountKeys nodeAccount}

variable (params prompt) in
/-- The sorted plan works exactly when the plan keeps its own links. -/
theorem sortedPlanWorks_iff (latestFinalizedBlockEpoch : Option ℕ)
    (lastKnownNetworkEpoch : ℕ) (hlen : mainAccountKeys.voting.length ≤ 3)
    (hdisjoint : DisjointKeys mainAccountKeys.voting)
    (hproper : ProperKeys mainAccountKeys.voting) (hfiles : ProperKeys nodeAccount.voting) :
    SortedPlanWorks params prompt mainAccountKeys nodeAccount latestFinalizedBlockEpoch
        lastKnownNetworkEpoch ↔
      PlanKeepsOwnLinks params prompt mainAccountKeys nodeAccount
        (planningEpoch latestFinalizedBlockEpoch lastKnownNetworkEpoch) := by
  generalize hepoch : planningEpoch latestFinalizedBlockEpoch lastKnownNetworkEpoch = epoch
  have hparts := sorted_iff_voting params prompt mainAccountKeys nodeAccount epoch hlen
  rw [SortedPlanWorks, createTransactions, hepoch, hparts, PlanKeepsOwnLinks]
  by_cases hunlink : params.unlink = true
  · have hvoting : votingTransactions params prompt mainAccountKeys nodeAccount epoch =
        addVotingKeyUnlinkTransactions params prompt mainAccountKeys.voting nodeAccount.voting
          (askedBeforeVoting params prompt mainAccountKeys nodeAccount) := by
      rw [votingTransactions, if_pos hunlink]
    have honly : OnlyUnlinks mainAccountKeys.voting (nodeAccount.voting.foldl
        (unlinkVotingFile params prompt) ⟨mainAccountKeys.voting, [], _⟩) :=
      votingUnlink_onlyUnlinks nodeAccount.voting
        (askedBeforeVoting params prompt mainAccountKeys nodeAccount) hlen hdisjoint hproper
    have hunlinks := foldl_unlinkVotingFile_unlinks params prompt
      ⟨mainAccountKeys.voting, [], askedBeforeVoting params prompt mainAccountKeys nodeAccount⟩
      nodeAccount.voting (fun _ hnone => absurd hnone List.not_mem_nil)
    have hsorted := unlinksFirst_of_unlinks hunlinks
    rw [hvoting, addVotingKeyUnlinkTransactions, hsorted]
    constructor
    · intro _ hlink
      rw [hunlink] at hlink
      exact Bool.noConfusion hlink
    · exact fun _ => ⟨honly.executable, rfl⟩
  · have hlink : params.unlink = false := by simpa using hunlink
    have hvoting : votingTransactions params prompt mainAccountKeys nodeAccount epoch =
        addVotingKeyLinkTransactions params prompt mainAccountKeys.voting nodeAccount.voting
          epoch (askedBeforeVoting params prompt mainAccountKeys nodeAccount) := by
      rw [votingTransactions, if_neg hunlink]
    rw [hvoting, votingLink_sorted_iff nodeAccount.voting _ hlen hdisjoint hproper hfiles]
    exact ⟨fun h _ => h, fun h => h hlink⟩

/-- When the sorted plan can be executed and comes to the state of the planned one: the
exact condition, for every answer given, and that disjoint files always meet it. -/
theorem sortedPlan_works_exactly (params : LinkParams) (prompt : ℕ → Bool)
    (mainAccountKeys nodeAccount : GenericNodeAccount)
    (latestFinalizedBlockEpoch : Option ℕ) (lastKnownNetworkEpoch : ℕ)
    (hlen : mainAccountKeys.voting.length ≤ 3)
    (hdisjoint : DisjointKeys mainAccountKeys.voting)
    (hproper : ProperKeys mainAccountKeys.voting) (hfiles : ProperKeys nodeAccount.voting) :
    (SortedPlanWorks params prompt mainAccountKeys nodeAccount latestFinalizedBlockEpoch
        lastKnownNetworkEpoch ↔
      PlanKeepsOwnLinks params prompt mainAccountKeys nodeAccount
        (planningEpoch latestFinalizedBlockEpoch lastKnownNetworkEpoch)) ∧
    (DisjointKeys nodeAccount.voting →
      SortedPlanWorks params prompt mainAccountKeys nodeAccount latestFinalizedBlockEpoch
        lastKnownNetworkEpoch) := by
  have hiff := sortedPlanWorks_iff params prompt latestFinalizedBlockEpoch
    lastKnownNetworkEpoch hlen hdisjoint hproper hfiles
  refine ⟨hiff, fun hapart => hiff.mpr fun _ => ?_⟩
  exact neverRevises_of_disjoint nodeAccount.voting _ hlen hfiles hapart

/-- An empty account and two files that overlap. -/
theorem sortedPlan_works_exactly_overlapping :
    ¬ PlanKeepsOwnLinks ⟨false, true, none⟩ (fun _ => false) ⟨none, none, []⟩
      ⟨none, none, [⟨1, 10, "A1"⟩, ⟨5, 15, "B2"⟩]⟩ (planningEpoch (some 1) 1) := by
  have h := (sortedPlan_works_exactly ⟨false, true, none⟩ (fun _ => false) ⟨none, none, []⟩
    ⟨none, none, [⟨1, 10, "A1"⟩, ⟨5, 15, "B2"⟩]⟩ (some 1) 1 (by decide) (by decide)
    (by decide) (by decide)).1
  intro hkeeps
  have hexec := (h.mpr hkeeps).1
  rw [createTransactions, sortByLinkAction_eq] at hexec
  obtain ⟨linked, hlinked, _⟩ := hexec.2.1
  exact absurd hlinked List.not_mem_nil

/-- The plan links the first file, takes it back for the second, and the sorted order
starts by unlinking a key that is not linked. -/
theorem sortedPlan_rejected :
    ¬ ∀ (mainAccountKeys nodeAccount : GenericNodeAccount)
        (latestFinalizedBlockEpoch : Option ℕ) (lastKnownNetworkEpoch : ℕ),
      mainAccountKeys.voting.length ≤ 3 → DisjointKeys mainAccountKeys.voting →
      ProperKeys mainAccountKeys.voting → ProperKeys nodeAccount.voting →
      SortedPlanWorks ⟨false, true, none⟩ (fun _ => false) mainAccountKeys nodeAccount
        latestFinalizedBlockEpoch lastKnownNetworkEpoch := by
  intro h
  have hexec := (h ⟨none, none, []⟩ ⟨none, none, [⟨1, 10, "A1"⟩, ⟨5, 15, "B2"⟩]⟩ (some 1) 1
    (by decide) (by decide) (by decide) (by decide)).1
  rw [createTransactions, sortByLinkAction_eq] at hexec
  obtain ⟨linked, hlinked, _⟩ := hexec.2.1
  exact absurd hlinked List.not_mem_nil

end SortedPlan

end SymbolBootstrap.LinkExecution
