import SymbolBootstrap.LinkExecution

/-!
Unlinking a node that was linked from an empty account. The two voting loops are not
mirror images: linking takes the first three files that have not ended, unlinking goes
over all files and only looks at keys a file overlaps. Among disjoint files the only
key a proper file overlaps is its own; a file that ends before it starts overlaps
nothing, is linked all the same, and is never found again.
-/
namespace SymbolBootstrap.LinkUndo

open Library.ClosedIntervals LinkService LinkChain VotingPlan LinkParts LinkExecution

section Unlinking

variable {params : LinkParams} {prompt : ℕ → Bool}

/-- The outcomes of one iteration of the unlinking loop, every unlink being confirmed. -/
inductive UnlinkStep (params : LinkParams) (prompt : ℕ → Bool) (plan : VotingPlan)
    (file : VotingKeyAccount) : VotingPlan → Prop
  | unlinked (before : List VotingKeyAccount) (key : VotingKeyAccount)
      (after : List VotingKeyAccount)
      (hfirst : FirstOverlap plan.remainingVotingKeys file before key after)
      (hsame : isSameAccount key file = true) :
      UnlinkStep params prompt plan file
        ⟨before ++ after, plan.transactions ++ [.voting key .unlink],
          (confirmUnlink params prompt plan.asked).2⟩
  | different (before : List VotingKeyAccount) (key : VotingKeyAccount)
      (after : List VotingKeyAccount)
      (hfirst : FirstOverlap plan.remainingVotingKeys file before key after)
      (hdifferent : isSameAccount key file = false) : UnlinkStep params prompt plan file plan
  | clear (hclear : ∀ other ∈ plan.remainingVotingKeys,
        overlapsVotingAccounts file other = false) : UnlinkStep params prompt plan file plan

/-- One iteration of the unlinking loop does one of the three things. -/
theorem unlinkVotingFile_step (hconfirmed : AllConfirmed params prompt) (plan : VotingPlan)
    (file : VotingKeyAccount) :
    UnlinkStep params prompt plan file (unlinkVotingFile params prompt plan file) := by
  unfold unlinkVotingFile
  split
  · rename_i key hfind
    obtain ⟨before, after, hfirst⟩ := firstOverlap_of_find hfind
    by_cases hsame : isSameAccount key file = true
    · rw [if_pos hsame]
      simp only [hconfirmed plan.asked, ↓reduceIte, hfirst.eraseP]
      exact .unlinked before key after hfirst hsame
    · rw [if_neg hsame]
      exact .different before key after hfirst (by simpa using hsame)
  · rename_i hnone
    refine .clear fun other hother => ?_
    simpa using List.find?_eq_none.mp hnone other hother

/-- The unlinking loop would find this key when it comes to this file. -/
def foundBy (file key : VotingKeyAccount) : Bool :=
  decide (key.startEpoch ≤ key.endEpoch) && isSameAccount key file

theorem overlaps_of_foundBy {file key : VotingKeyAccount} (h : foundBy file key = true) :
    overlapsVotingAccounts file key = true := by
  obtain ⟨hproper, hsame⟩ := (Bool.and_eq_true _ _).mp h
  exact overlaps_iff.mpr (overlap_of_same hsame (overlap_self (of_decide_eq_true hproper)))

/-- A file that overlaps a key of its own account finds it. -/
theorem foundBy_of_overlaps {file key : VotingKeyAccount}
    (hover : overlapsVotingAccounts file key = true) (hsame : isSameAccount key file = true) :
    foundBy file key = true := by
  obtain ⟨_, hstart, hend⟩ := isSameAccount_iff.mp hsame
  obtain ⟨hle, _⟩ := overlaps_iff.mp hover
  have hproper : key.startEpoch ≤ key.endEpoch := by
    rw [hend]
    exact hle
  simp only [foundBy, hproper, hsame, decide_true, Bool.and_self]

theorem filter_foundBy {file : VotingKeyAccount} {keys : List VotingKeyAccount}
    (h : ∀ key ∈ keys, ¬ foundBy file key = true) :
    keys.filter (fun key => !foundBy file key) = keys := by
  apply List.filter_eq_self.mpr
  intro key hkey
  simpa using h key hkey

/-- Among disjoint keys a file takes away exactly the keys it finds. -/
theorem UnlinkStep.remaining {plan next : VotingPlan} {file : VotingKeyAccount}
    (h : UnlinkStep params prompt plan file next)
    (hdisjoint : DisjointKeys plan.remainingVotingKeys) :
    next.remainingVotingKeys =
      plan.remainingVotingKeys.filter (fun key => !foundBy file key) := by
  cases h with
  | unlinked before key after hfirst hsame =>
    have hkey := foundBy_of_overlaps hfirst.overlap hsame
    have hbefore : before.filter (fun key => !foundBy file key) = before := by
      refine filter_foundBy fun other hother hfound => ?_
      have hover := overlaps_of_foundBy hfound
      rw [hfirst.clear other hother] at hover
      exact Bool.noConfusion hover
    have hafter : after.filter (fun key => !foundBy file key) = after := by
      refine filter_foundBy fun other hother hfound => ?_
      have hover := overlaps_iff.mp (overlaps_of_foundBy hfound)
      have hmeets := overlap_of_same (by rwa [isSameAccount_comm] at hsame) hover
      have hapart := hdisjoint
      rw [hfirst.split] at hapart
      exact List.rel_of_pairwise_cons (List.pairwise_append.mp hapart).2.1 hother hmeets
    rw [hfirst.split, List.filter_append, List.filter_cons_of_neg (by simp [hkey]), hbefore,
      hafter]
  | different before key after hfirst hdifferent =>
    refine (filter_foundBy fun other hother hfound => ?_).symm
    have hsame : isSameAccount other file = true := ((Bool.and_eq_true _ _).mp hfound).2
    -- the key the file overlaps first is then the one that is its own
    have hmeets := overlap_of_same (by rwa [isSameAccount_comm] at hsame)
      (overlaps_iff.mp hfirst.overlap)
    have heq : other = key := hdisjoint.eq_of_overlap hother hfirst.mem hmeets
    rw [← heq, hsame] at hdifferent
    exact Bool.noConfusion hdifferent
  | clear hclear =>
    refine (filter_foundBy fun other hother hfound => ?_).symm
    have hover := overlaps_of_foundBy hfound
    rw [hclear other hother] at hover
    exact Bool.noConfusion hover

/-- Among disjoint keys the unlinking loop takes away exactly the keys some file finds. -/
theorem foldl_unlinkVotingFile_remaining (hconfirmed : AllConfirmed params prompt)
    (files : List VotingKeyAccount) (plan : VotingPlan)
    (hdisjoint : DisjointKeys plan.remainingVotingKeys) :
    (files.foldl (unlinkVotingFile params prompt) plan).remainingVotingKeys =
      plan.remainingVotingKeys.filter (fun key => !files.any (fun file => foundBy file key)) := by
  induction files generalizing plan with
  | nil => exact (List.filter_eq_self.mpr (fun _ _ => rfl)).symm
  | cons file rest ih =>
    have hnext := (unlinkVotingFile_step hconfirmed plan file).remaining hdisjoint
    rw [List.foldl_cons, ih _ (by rw [hnext]; exact hdisjoint.sublist List.filter_sublist),
      hnext, List.filter_filter]
    apply List.filter_congr
    intro key _
    rw [List.any_cons, Bool.not_or, Bool.and_comm]

end Unlinking

section Linking

variable {params : LinkParams} {prompt : ℕ → Bool}

/-- Files that overlap neither each other nor a remaining key are linked while there is
room. -/
theorem foldl_planVotingFile_disjoint (files : List VotingKeyAccount) (plan : VotingPlan)
    (hdisjoint : DisjointKeys (plan.remainingVotingKeys ++ files)) :
    (files.foldl (planVotingFile params prompt) plan).transactions =
      plan.transactions ++ (files.take (3 - plan.remainingVotingKeys.length)).map
        (fun file => .voting file .link) := by
  induction files generalizing plan with
  | nil => simp
  | cons file rest ih =>
    have hclear : plan.remainingVotingKeys.find? (overlapsVotingAccounts file) = none := by
      apply List.find?_eq_none.mpr
      intro key hkey hover
      exact (apart_append.mp hdisjoint).2.2 key hkey file List.mem_cons_self
        (overlaps_iff.mp hover).symm
    rw [List.foldl_cons, planVotingFile, hclear]
    change (rest.foldl _ (linkIfRoom plan file)).transactions = _
    unfold linkIfRoom
    by_cases hroom : plan.remainingVotingKeys.length < 3
    · have hleft : 3 - plan.remainingVotingKeys.length =
          3 - (plan.remainingVotingKeys ++ [file]).length + 1 := by
        simp only [List.length_append, List.length_cons, List.length_nil]
        omega
      rw [if_pos hroom, ih _ (by simpa using hdisjoint), hleft, List.take_succ_cons,
        List.map_cons, List.append_assoc]
      rfl
    · have hleft : 3 - plan.remainingVotingKeys.length = 0 := by omega
      have hrest : DisjointKeys (plan.remainingVotingKeys ++ rest) :=
        hdisjoint.sublist
          (List.Sublist.append (List.Sublist.refl _) (List.sublist_cons_self file rest))
      rw [if_neg hroom, ih plan hrest, hleft, List.take_zero, List.take_zero]

/-- What the chain holds after links alone. -/
theorem votingAfterAll_links (files keys : List VotingKeyAccount) :
    ∃ more, votingAfterAll keys (files.map (fun file => .voting file .link)) = keys ++ more ∧
      more.Sublist files := by
  induction files generalizing keys with
  | nil => exact ⟨[], (List.append_nil keys).symm, List.Sublist.refl []⟩
  | cons file rest ih =>
    by_cases hany : keys.any (isSameAccount file) = true
    · have hnow : votingAfter keys (.voting file .link) = keys := by
        rw [votingAfter, if_pos hany]
      obtain ⟨more, hmore, hsub⟩ := ih keys
      refine ⟨more, ?_, hsub.cons file⟩
      rw [← hmore]
      exact congrArg (votingAfterAll · _) hnow
    · have hnow : votingAfter keys (.voting file .link) = keys ++ [file] := by
        rw [votingAfter, if_neg hany]
      obtain ⟨more, hmore, hsub⟩ := ih (keys ++ [file])
      refine ⟨file :: more, ?_, hsub.cons_cons file⟩
      rw [List.append_cons, ← hmore]
      exact congrArg (votingAfterAll · _) hnow

theorem votingAfter_link_distinct {keys : List VotingKeyAccount} (h : DistinctKeys keys)
    (file : VotingKeyAccount) : DistinctKeys (votingAfter keys (.voting file .link)) := by
  rw [votingAfter]
  by_cases hany : keys.any (isSameAccount file) = true
  · rw [if_pos hany]
    exact h
  · rw [if_neg hany]
    exact distinct_append h (by simpa using hany)

theorem votingAfterAll_links_distinct (files : List VotingKeyAccount)
    {keys : List VotingKeyAccount} (h : DistinctKeys keys) :
    DistinctKeys (votingAfterAll keys (files.map (fun file => .voting file .link))) := by
  induction files generalizing keys with
  | nil => exact h
  | cons file rest ih => exact ih (votingAfter_link_distinct h file)

/-- Every linked file is held under its own account. -/
theorem exists_same_of_linked (files keys : List VotingKeyAccount) :
    ∀ file ∈ files, ∃ key ∈ votingAfterAll keys (files.map (fun file => .voting file .link)),
      isSameAccount file key = true := by
  induction files generalizing keys with
  | nil => exact fun _ hmem => absurd hmem List.not_mem_nil
  | cons file rest ih =>
    have hnow : ∃ key ∈ votingAfter keys (.voting file .link), isSameAccount file key = true := by
      rw [votingAfter]
      by_cases hany : keys.any (isSameAccount file) = true
      · rw [if_pos hany]
        exact List.any_eq_true.mp hany
      · rw [if_neg hany]
        exact ⟨file, List.mem_append_right keys (List.mem_singleton_self file),
          isSameAccount_self file⟩
    intro other hother
    rcases List.mem_cons.mp hother with heq | hin
    · obtain ⟨key, hkey, hsame⟩ := hnow
      obtain ⟨more, hmore, _⟩ := votingAfterAll_links rest (votingAfter keys (.voting file .link))
      refine ⟨key, ?_, by rw [heq]; exact hsame⟩
      change key ∈ votingAfterAll (votingAfter keys (.voting file .link)) _
      rw [hmore]
      exact List.mem_append_left more hkey
    · exact ih (votingAfter keys (.voting file .link)) other hin

end Linking

section Undo

/-- The voting files a plan links on an account that has nothing linked. -/
def firstLinked (files : List VotingKeyAccount) (lastKnownNetworkEpoch : ℕ) :
    List VotingKeyAccount :=
  (activeVotingKeyFiles lastKnownNetworkEpoch files).take 3

theorem firstLinked_sublist (files : List VotingKeyAccount) (lastKnownNetworkEpoch : ℕ) :
    (firstLinked files lastKnownNetworkEpoch).Sublist files :=
  (List.take_sublist 3 _).trans List.filter_sublist

/-- The plan for an account with no voting keys is to link the first files. -/
theorem addVotingKeyLink_of_empty (params : LinkParams) (prompt : ℕ → Bool)
    {files : List VotingKeyAccount} (hdisjoint : DisjointKeys files)
    (lastKnownNetworkEpoch asked : ℕ) :
    addVotingKeyLinkTransactions params prompt [] files lastKnownNetworkEpoch asked =
      (firstLinked files lastKnownNetworkEpoch).map (fun file => .voting file .link) := by
  have hactive : DisjointKeys (activeVotingKeyFiles lastKnownNetworkEpoch files) :=
    hdisjoint.sublist List.filter_sublist
  exact foldl_planVotingFile_disjoint (activeVotingKeyFiles lastKnownNetworkEpoch files)
    ⟨[], [], asked⟩ hactive

/-- The voting keys of the first files are all unlinked again exactly when none of these
files ends before it starts. -/
theorem voting_undone_iff {params : LinkParams} {prompt : ℕ → Bool}
    (hconfirmed : AllConfirmed params prompt) {files : List VotingKeyAccount}
    (hdisjoint : DisjointKeys files) (lastKnownNetworkEpoch asked : ℕ) :
    let linked := votingAfterAll []
      ((firstLinked files lastKnownNetworkEpoch).map (fun file => .voting file .link))
    votingAfterAll linked (addVotingKeyUnlinkTransactions params prompt linked files asked) = [] ↔
      ProperKeys (firstLinked files lastKnownNetworkEpoch) := by
  intro linked
  obtain ⟨more, hmore, hsub⟩ := votingAfterAll_links (firstLinked files lastKnownNetworkEpoch) []
  have hlinked : linked.Sublist (firstLinked files lastKnownNetworkEpoch) := by
    rw [show linked = more from hmore]
    exact hsub
  have hapart : DisjointKeys linked :=
    hdisjoint.sublist (hlinked.trans (firstLinked_sublist files lastKnownNetworkEpoch))
  have hroom : linked.length ≤ 3 := hlinked.length_le.trans (List.length_take_le 3 _)
  have hdistinct : DistinctKeys linked :=
    votingAfterAll_links_distinct (firstLinked files lastKnownNetworkEpoch) List.Pairwise.nil
  have hstart : OnlyUnlinks linked ⟨linked, [], asked⟩ := ⟨hroom, ⟨rfl, hdistinct⟩, hroom⟩
  have hrun : OnlyUnlinks linked
      (files.foldl (unlinkVotingFile params prompt) ⟨linked, [], asked⟩) := hstart.run files
  have hchain := hrun.tracks.chain
  rw [addVotingKeyUnlinkTransactions, hchain,
    foldl_unlinkVotingFile_remaining hconfirmed files ⟨linked, [], asked⟩ hapart,
    List.filter_eq_nil_iff]
  constructor
  · intro hfound file hfile
    obtain ⟨key, hkey, hsame⟩ := exists_same_of_linked
      (firstLinked files lastKnownNetworkEpoch) [] file hfile
    obtain ⟨finder, _, hfinder⟩ := List.any_eq_true.mp (by simpa using hfound key hkey)
    have hproper := of_decide_eq_true ((Bool.and_eq_true _ _).mp hfinder).1
    obtain ⟨_, hstart, hend⟩ := isSameAccount_iff.mp hsame
    omega
  · intro hproper key hkey
    have hfile := hlinked.subset hkey
    have hself : foundBy key key = true := by
      simp only [foundBy, hproper key hfile, isSameAccount_self, decide_true, Bool.and_self]
    have hfound : files.any (fun file => foundBy file key) = true :=
      List.any_eq_true.mpr ⟨key, (firstLinked_sublist files lastKnownNetworkEpoch).subset hfile,
        hself⟩
    simp [hfound]

/-- A slot is empty again once what was linked in it is unlinked. -/
theorem slot_undone {params params' : LinkParams} (hlink : params.unlink = false)
    (hunlink : params'.unlink = true) (prompt prompt' : ℕ → Bool)
    (configured : Option KeyAccount) (factory : KeyAccount → LinkAction → Transaction)
    (slotEffect : Option KeyAccount → Transaction → Option KeyAccount)
    (heffect : ∀ slot account action,
      slotEffect slot (factory account action) = slotAfter slot account action)
    (asked asked' : ℕ) :
    let linked := (slotTransactions params prompt none factory configured asked).1.foldl
      slotEffect none
    (slotTransactions params' prompt' linked factory configured asked').1.foldl
      slotEffect linked = none := by
  intro linked
  cases configured with
  | none => rfl
  | some account =>
    have hself : sameKey account account = true := by simp [sameKey]
    have hplan : (slotTransactions params prompt none factory (some account) asked).1 =
        [factory account .link] := by
      simp only [slotTransactions, addTransaction, hlink, Bool.false_eq_true, ↓reduceIte]
    have hlinked : linked = some account := by
      change (slotTransactions params prompt none factory (some account) asked).1.foldl
        slotEffect none = _
      rw [hplan, List.foldl_cons, List.foldl_nil, heffect]
      rfl
    have hundo : (slotTransactions params' prompt' (some account) factory (some account)
        asked').1 = [factory account .unlink] := by
      simp only [slotTransactions, addTransaction, hunlink, hself, ↓reduceIte]
    rw [hlinked, hundo, List.foldl_cons, List.foldl_nil, heffect]
    simp only [slotAfter, Option.filter_some, hself, Bool.not_true, Bool.false_eq_true,
      ↓reduceIte]

def nothingLinked : GenericNodeAccount := ⟨none, none, []⟩

/-- A node is linked on an account that has nothing linked, and then unlinked. -/
def linkThenUnlink (params params' : LinkParams) (prompt prompt' : ℕ → Bool)
    (nodeAccount : GenericNodeAccount) (latestFinalizedBlockEpoch latestFinalizedBlockEpoch' : ℕ) :
    GenericNodeAccount :=
  let linked := applyAll nothingLinked (createGenericTransactions params prompt nothingLinked
    nodeAccount latestFinalizedBlockEpoch)
  applyAll linked (createGenericTransactions params' prompt' linked nodeAccount
    latestFinalizedBlockEpoch')

/-- Unlinking leaves nothing linked exactly when none of the voting files that linking
came to first ends before it starts. -/
theorem unlink_undoes_link_exactly (params params' : LinkParams) (prompt prompt' : ℕ → Bool)
    (nodeAccount : GenericNodeAccount) (latestFinalizedBlockEpoch latestFinalizedBlockEpoch' : ℕ)
    (hlink : params.unlink = false) (hunlink : params'.unlink = true)
    (hconfirmed : AllConfirmed params' prompt') (hdisjoint : DisjointKeys nodeAccount.voting) :
    linkThenUnlink params params' prompt prompt' nodeAccount latestFinalizedBlockEpoch
        latestFinalizedBlockEpoch' = nothingLinked ↔
      ProperKeys (firstLinked nodeAccount.voting latestFinalizedBlockEpoch) := by
  have hplanned : votingTransactions params prompt nothingLinked nodeAccount
      latestFinalizedBlockEpoch =
      (firstLinked nodeAccount.voting latestFinalizedBlockEpoch).map
        (fun file => .voting file .link) := by
    simp only [votingTransactions, hlink, Bool.false_eq_true, ↓reduceIte]
    exact addVotingKeyLink_of_empty params prompt hdisjoint latestFinalizedBlockEpoch _
  unfold linkThenUnlink
  rw [applyAll_createGeneric params prompt nothingLinked nodeAccount latestFinalizedBlockEpoch
    (Nat.zero_le 3), hplanned]
  generalize hstate : GenericNodeAccount.mk _ _ _ = linked
  have hroom : linked.voting.length ≤ 3 := by
    obtain ⟨more, hmore, hsub⟩ := votingAfterAll_links
      (firstLinked nodeAccount.voting latestFinalizedBlockEpoch) []
    rw [← hstate]
    exact hmore ▸ hsub.length_le.trans (List.length_take_le 3 _)
  have hremoteUndone : (remoteTransactions params' prompt' linked nodeAccount).1.foldl remoteAfter
      linked.remote = none := by
    rw [← hstate]
    exact slot_undone hlink hunlink prompt prompt' _ _ _ (fun _ _ _ => rfl) _ _
  have hvrfUndone : (vrfTransactions params' prompt' linked nodeAccount).1.foldl vrfAfter
      linked.vrf = none := by
    rw [← hstate]
    exact slot_undone hlink hunlink prompt prompt' _ _ _ (fun _ _ _ => rfl) _ _
  have hvotingUndone : votingAfterAll linked.voting (votingTransactions params' prompt' linked
      nodeAccount latestFinalizedBlockEpoch') = [] ↔
      ProperKeys (firstLinked nodeAccount.voting latestFinalizedBlockEpoch) := by
    rw [votingTransactions, if_pos hunlink, ← hstate]
    exact voting_undone_iff hconfirmed hdisjoint latestFinalizedBlockEpoch _
  simp only [applyAll_createGeneric params' prompt' linked nodeAccount latestFinalizedBlockEpoch'
    hroom, hremoteUndone, hvrfUndone, nothingLinked, GenericNodeAccount.mk.injEq, true_and]
  exact hvotingUndone

/-- A remote, a VRF and two voting files, the first of which has ended. -/
theorem unlink_undoes_link_exactly_small :
    linkThenUnlink ⟨false, true, none⟩ ⟨true, true, none⟩ (fun _ => false) (fun _ => false)
      ⟨some ⟨"C1"⟩, some ⟨"D1"⟩, [⟨1, 10, "A1"⟩, ⟨11, 20, "B2"⟩]⟩ 15 15 = nothingLinked :=
  (unlink_undoes_link_exactly ⟨false, true, none⟩ ⟨true, true, none⟩ (fun _ => false)
    (fun _ => false) ⟨some ⟨"C1"⟩, some ⟨"D1"⟩, [⟨1, 10, "A1"⟩, ⟨11, 20, "B2"⟩]⟩ 15 15 rfl rfl
    (allConfirmed_of_ready _ _ rfl rfl) (by decide)).mpr (by decide)

/-- A file without a single epoch is linked and stays linked. -/
theorem empty_file_stays_linked :
    ¬ ∀ (nodeAccount : GenericNodeAccount) (latestFinalizedBlockEpoch : ℕ),
      DisjointKeys nodeAccount.voting →
      linkThenUnlink ⟨false, true, none⟩ ⟨true, true, none⟩ (fun _ => false) (fun _ => false)
        nodeAccount latestFinalizedBlockEpoch latestFinalizedBlockEpoch = nothingLinked := by
  intro h
  exact absurd (h ⟨none, none, [⟨5, 4, "A1"⟩]⟩ 1 (by decide)) (by decide)

end Undo
end SymbolBootstrap.LinkUndo
