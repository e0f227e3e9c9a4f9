import SymbolBootstrap.Library.PrefixRuns
import SymbolBootstrap.FilePlans

/-!
When the linking loop leaves the voting keys pairwise disjoint. A file takes the place
of the first key it overlaps only, so a file that meets two remaining keys leaves the
second one linked next to it. Two exact accounts are given: for arbitrary files, the
sets after every file are disjoint exactly when each file meets at most one key; for
files that are themselves disjoint, the final set is disjoint exactly when every linked
key in conflict with a file can be given one, which is a first-fit assignment.
-/
namespace SymbolBootstrap.VotingDisjoint

open Library Library.ClosedIntervals LinkService LinkChain VotingPlan FilePlans

variable {params : LinkParams} {prompt : ℕ → Bool}

section VotingSet

/-- The voting keys linked after the planned transactions were applied in order. -/
def votingSetAfter (params : LinkParams) (prompt : ℕ → Bool)
    (linked files : List VotingKeyAccount) (lastKnownNetworkEpoch asked : ℕ) :
    List VotingKeyAccount :=
  votingAfterAll linked
    (addVotingKeyLinkTransactions params prompt linked files lastKnownNetworkEpoch asked)

/-- Each file that has not ended meets at most one of the keys that are linked once the
files before it have been dealt with. -/
def MeetsAtMostOneKey (params : LinkParams) (prompt : ℕ → Bool)
    (linked files : List VotingKeyAccount) (lastKnownNetworkEpoch asked : ℕ) : Prop :=
  ∀ n file, files[n]? = some file → file.endEpoch ≥ lastKnownNetworkEpoch →
    (votingSetAfter params prompt linked (files.take n) lastKnownNetworkEpoch asked).countP
      (overlapsVotingAccounts file) ≤ 1

/-- The keys that find no file when each key that has not ended, in order, takes the
first file in conflict with it that no earlier key has taken. -/
def keysWithoutFile (linked files : List VotingKeyAccount) (lastKnownNetworkEpoch : ℕ) :
    List VotingKeyAccount :=
  FirstFit.untaken conflicts (activeVotingKeyFiles lastKnownNetworkEpoch linked)
    (activeVotingKeyFiles lastKnownNetworkEpoch files)

/-- Every linked key in conflict with a file finds one to be replaced by. -/
def EveryConflictReplaced (linked files : List VotingKeyAccount)
    (lastKnownNetworkEpoch : ℕ) : Prop :=
  ∀ key ∈ keysWithoutFile linked files lastKnownNetworkEpoch,
    ∀ file ∈ activeVotingKeyFiles lastKnownNetworkEpoch files, conflicts file key = false

/-- One turn of the second loop over all files, those that have ended being skipped. -/
def fileTurn (params : LinkParams) (prompt : ℕ → Bool) (lastKnownNetworkEpoch : ℕ)
    (plan : VotingPlan) (file : VotingKeyAccount) : VotingPlan :=
  if decide (file.endEpoch ≥ lastKnownNetworkEpoch) then
    planVotingFile params prompt plan file
  else plan

theorem votingLinkPlan_take (linked files : List VotingKeyAccount)
    (lastKnownNetworkEpoch asked n : ℕ) :
    votingLinkPlan params prompt linked (files.take n) lastKnownNetworkEpoch asked =
      PrefixRuns.stateAt (fileTurn params prompt lastKnownNetworkEpoch)
        (unlinkExpired params prompt lastKnownNetworkEpoch linked asked) files n := by
  unfold votingLinkPlan activeVotingKeyFiles PrefixRuns.stateAt
  rw [List.foldl_filter]
  rfl

/-- A plan in step with the chain whose remaining keys are disjoint. -/
structure Settled (linked : List VotingKeyAccount) (plan : VotingPlan) : Prop where
  tracks : Tracks linked plan
  disjoint : DisjointKeys plan.remainingVotingKeys
  room : plan.remainingVotingKeys.length ≤ 3

variable {linked : List VotingKeyAccount} {plan : VotingPlan} {file : VotingKeyAccount}

variable (params prompt) in
theorem Settled.tracks_turn (h : Settled linked plan) (lastKnownNetworkEpoch : ℕ)
    (hproper : file.startEpoch ≤ file.endEpoch) :
    Tracks linked (fileTurn params prompt lastKnownNetworkEpoch plan file) ∧
      (fileTurn params prompt lastKnownNetworkEpoch plan file).remainingVotingKeys.length ≤ 3 := by
  unfold fileTurn
  split
  · have hstep := planVotingFile_step params prompt plan file h.room
    refine ⟨hstep.tracks h.tracks hproper ?_, hstep.length_le params prompt h.room⟩
    intro before key after hfirst hdifferent other hother
    exact new_of_disjoint hfirst h.disjoint hdifferent other (hfirst.mem_iff.mpr (Or.inr hother))
  · exact ⟨h.tracks, h.room⟩

/-- A turn from a settled plan is settled exactly when its file, if it has not ended,
meets at most one linked key. -/
theorem Settled.turn_iff (h : Settled linked plan) (hconfirmed : AllConfirmed params prompt)
    (lastKnownNetworkEpoch : ℕ) (hproper : file.startEpoch ≤ file.endEpoch) :
    Settled linked (fileTurn params prompt lastKnownNetworkEpoch plan file) ↔
      (file.endEpoch ≥ lastKnownNetworkEpoch →
        (votingAfterAll linked plan.transactions).countP (overlapsVotingAccounts file) ≤ 1) := by
  obtain ⟨htracks, hroom⟩ := h.tracks_turn params prompt
    lastKnownNetworkEpoch hproper
  have hdisjoint := disjoint_iff_of_step
    (planVotingFile_step params prompt plan file h.room) hconfirmed h.disjoint
  rw [h.tracks.chain]
  by_cases hactive : file.endEpoch ≥ lastKnownNetworkEpoch
  · have hturn : fileTurn params prompt lastKnownNetworkEpoch plan file =
        planVotingFile params prompt plan file := by
      simp only [fileTurn, hactive, decide_true, ↓reduceIte]
    rw [hturn] at htracks hroom ⊢
    constructor
    · intro hsettled _
      exact hdisjoint.mp hsettled.disjoint
    · intro hcount
      exact ⟨htracks, hdisjoint.mpr (hcount hactive), hroom⟩
  · have hturn : fileTurn params prompt lastKnownNetworkEpoch plan file = plan := by
      simp only [fileTurn, hactive, decide_false, Bool.false_eq_true, ↓reduceIte]
    rw [hturn]
    exact ⟨fun _ hend => absurd hend hactive, fun _ => h⟩

theorem settled_start (lastKnownNetworkEpoch asked : ℕ) (hlinked : DisjointKeys linked)
    (hproper : ProperKeys linked) (hlen : linked.length ≤ 3) :
    Settled linked (unlinkExpired params prompt lastKnownNetworkEpoch linked asked) where
  tracks := unlinkExpired_tracks lastKnownNetworkEpoch linked asked
    (distinct_of_disjoint hlinked hproper)
  disjoint := hlinked.sublist (unlinkExpired_sublist lastKnownNetworkEpoch linked asked)
  room := (unlinkExpired_sublist lastKnownNetworkEpoch linked asked).length_le.trans hlen

/-- For arbitrary files: the voting sets after every file are disjoint exactly when no
file meets two linked keys. -/
theorem everySet_disjoint_iff (files : List VotingKeyAccount)
    (lastKnownNetworkEpoch asked : ℕ) (hconfirmed : AllConfirmed params prompt)
    (hlen : linked.length ≤ 3) (hlinked : DisjointKeys linked) (hproper : ProperKeys linked)
    (hfiles : ProperKeys files) :
    (∀ n, DisjointKeys (votingSetAfter params prompt linked (files.take n)
        lastKnownNetworkEpoch asked)) ↔
      MeetsAtMostOneKey params prompt linked files lastKnownNetworkEpoch asked := by
  have hstart : Settled linked
      (unlinkExpired params prompt lastKnownNetworkEpoch linked asked) :=
    settled_start lastKnownNetworkEpoch asked hlinked hproper hlen
  have hiff := PrefixRuns.everyPrefix_iff_everyStep
    (fileTurn params prompt lastKnownNetworkEpoch) _ files hstart
    (fun plan file hfile hsettled =>
      hsettled.turn_iff hconfirmed lastKnownNetworkEpoch (hfiles file hfile))
  have hset : ∀ n, votingSetAfter params prompt linked (files.take n)
      lastKnownNetworkEpoch asked = votingAfterAll linked
        (PrefixRuns.stateAt (fileTurn params prompt lastKnownNetworkEpoch)
          (unlinkExpired params prompt lastKnownNetworkEpoch linked asked) files
          n).transactions := by
    intro n
    rw [votingSetAfter, addVotingKeyLinkTransactions, votingLinkPlan_take]
  have hsettled : (∀ n, DisjointKeys (votingSetAfter params prompt linked (files.take n)
      lastKnownNetworkEpoch asked)) ↔
      ∀ n, Settled linked (PrefixRuns.stateAt (fileTurn params prompt lastKnownNetworkEpoch)
        (unlinkExpired params prompt lastKnownNetworkEpoch linked asked) files n) := by
    constructor
    · intro hall n
      induction n with
      | zero => exact hstart
      | succ n ih =>
        have hnext := hall (n + 1)
        rw [hset] at hnext
        cases hfile : files[n]? with
        | none =>
          rw [PrefixRuns.stateAt_of_none _ _ _ hfile]
          exact ih
        | some file =>
          rw [PrefixRuns.stateAt_succ _ _ hfile] at hnext ⊢
          obtain ⟨htracks, hroom⟩ := ih.tracks_turn params prompt
            lastKnownNetworkEpoch (hfiles file (List.mem_of_getElem? hfile))
          rw [htracks.chain] at hnext
          exact ⟨htracks, hnext, hroom⟩
    · intro hall n
      rw [hset, (hall n).tracks.chain]
      exact (hall n).disjoint
  rw [hsettled, hiff]
  unfold MeetsAtMostOneKey PrefixRuns.EveryStep
  simp only [hset]

/-- The linking loop over disjoint files ends in a `FilePlan` from the keys that have
not ended. -/
theorem exists_filePlan (files : List VotingKeyAccount) (lastKnownNetworkEpoch asked : ℕ)
    (hconfirmed : AllConfirmed params prompt) (hlen : linked.length ≤ 3)
    (hlinked : DisjointKeys linked) (hproper : ProperKeys linked)
    (hfiles : ProperKeys files) (hdisjoint : DisjointKeys files) :
    ∃ planned, FilePlan linked (activeVotingKeyFiles lastKnownNetworkEpoch linked)
      (activeVotingKeyFiles lastKnownNetworkEpoch files) planned
      (votingLinkPlan params prompt linked files lastKnownNetworkEpoch asked) := by
  have hstart : Settled linked
      (unlinkExpired params prompt lastKnownNetworkEpoch linked asked) :=
    settled_start lastKnownNetworkEpoch asked hlinked hproper hlen
  have hactive : (activeVotingKeyFiles lastKnownNetworkEpoch files).Sublist files :=
    List.filter_sublist
  obtain ⟨planned, hplan⟩ := (filePlan_start hstart.tracks hstart.room).run hconfirmed
    hstart.disjoint (activeVotingKeyFiles lastKnownNetworkEpoch files)
    (hdisjoint.sublist hactive) (fun file hfile => hfiles file (hactive.subset hfile))
  rw [List.nil_append, unlinkExpired_confirmed hconfirmed] at hplan
  exact ⟨planned, hplan⟩

/-- For disjoint files: the voting set after all of them is disjoint exactly when every
linked key in conflict with a file finds one to be replaced by. -/
theorem lastSet_disjoint_iff (files : List VotingKeyAccount)
    (lastKnownNetworkEpoch asked : ℕ) (hconfirmed : AllConfirmed params prompt)
    (hlen : linked.length ≤ 3) (hlinked : DisjointKeys linked) (hproper : ProperKeys linked)
    (hfiles : ProperKeys files) (hdisjoint : DisjointKeys files) :
    DisjointKeys (votingSetAfter params prompt linked files lastKnownNetworkEpoch asked) ↔
      EveryConflictReplaced linked files lastKnownNetworkEpoch := by
  obtain ⟨planned, hplan⟩ := exists_filePlan files lastKnownNetworkEpoch asked hconfirmed hlen
    hlinked hproper hfiles hdisjoint
  have hiff := hplan.disjoint_iff (hlinked.sublist List.filter_sublist)
    (hdisjoint.sublist List.filter_sublist)
  rw [kept, FirstFit.remaining_eq_untaken] at hiff
  rw [votingSetAfter, addVotingKeyLinkTransactions]
  exact (iff_of_eq (congrArg DisjointKeys hplan.tracks.chain)).trans hiff

/-- The exact conditions under which linking keeps the voting keys disjoint. The first
part speaks of the sets after every file, for arbitrary files; the second draws the
final set from it; the third is exact for the final set when the files are disjoint. -/
theorem votingPlan_disjoint_exactly (params : LinkParams) (prompt : ℕ → Bool)
    (linked files : List VotingKeyAccount) (lastKnownNetworkEpoch asked : ℕ)
    (hconfirmed : AllConfirmed params prompt) (hlen : linked.length ≤ 3)
    (hlinked : DisjointKeys linked) (hproper : ProperKeys linked)
    (hfiles : ProperKeys files) :
    ((∀ n, DisjointKeys (votingSetAfter params prompt linked (files.take n)
        lastKnownNetworkEpoch asked)) ↔
      MeetsAtMostOneKey params prompt linked files lastKnownNetworkEpoch asked) ∧
    (MeetsAtMostOneKey params prompt linked files lastKnownNetworkEpoch asked →
      DisjointKeys (votingSetAfter params prompt linked files lastKnownNetworkEpoch asked)) ∧
    (DisjointKeys files →
      (DisjointKeys (votingSetAfter params prompt linked files lastKnownNetworkEpoch asked) ↔
        EveryConflictReplaced linked files lastKnownNetworkEpoch)) := by
  have hevery := everySet_disjoint_iff files lastKnownNetworkEpoch asked hconfirmed hlen
    hlinked hproper hfiles
  refine ⟨hevery, ?_, ?_⟩
  · intro hmeets
    have hall := hevery.mpr hmeets files.length
    rwa [List.take_length] at hall
  · exact lastSet_disjoint_iff files lastKnownNetworkEpoch asked hconfirmed hlen hlinked
      hproper hfiles

/-- Two linked keys and one file across their border, every unlink being confirmed. -/
theorem votingPlan_disjoint_exactly_border :
    ¬ EveryConflictReplaced [⟨1, 10, "A1"⟩, ⟨11, 20, "B2"⟩] [⟨5, 15, "C3"⟩] 1 := by
  have h := (votingPlan_disjoint_exactly ⟨false, true, none⟩ (fun _ => false)
    [⟨1, 10, "A1"⟩, ⟨11, 20, "B2"⟩] [⟨5, 15, "C3"⟩] 1 0
    (allConfirmed_of_ready _ _ rfl rfl) (by decide) (by decide) (by decide)
    (by decide)).2.2 (by decide)
  intro hreplaced
  exact absurd (h.mpr hreplaced) (by decide)

/-- The file takes the place of the first key and stays next to the second. -/
theorem votingPlan_overlapping_result :
    ¬ ∀ (linked files : List VotingKeyAccount) (lastKnownNetworkEpoch : ℕ),
      linked.length ≤ 3 → DisjointKeys linked → ProperKeys linked → ProperKeys files →
      DisjointKeys (votingSetAfter ⟨false, true, none⟩ (fun _ => false) linked files
        lastKnownNetworkEpoch 0) := by
  intro h
  exact absurd (h [⟨1, 10, "A1"⟩, ⟨11, 20, "B2"⟩] [⟨5, 15, "C3"⟩] 1
    (by decide) (by decide) (by decide) (by decide)) (by decide)

end VotingSet

end SymbolBootstrap.VotingDisjoint
