import SymbolBootstrap.VotingFolders
import SymbolBootstrap.VotingPlan

/-!
Voting over whole runs. At each epoch the node's next voting key file is created if it
is due, and the voting files are linked. The files a run creates never overlap, each
begins where the last one ends or at the current epoch, and at most two of them have
not ended when another one is due; so the linked keys are always exactly the files that
have not ended.
-/
namespace SymbolBootstrap.VotingRuns

open Library Library.ClosedIntervals LinkService LinkChain VotingPlan VotingUtils VotingService
  VotingFileNames VotingFolders

section Folder

variable {Content : Type} {readVotingFile : Content → Except String VotingKeyAccount}
  {readdirSync : List (DirEntry Content) → List (DirEntry Content)} {lifetime : ℕ}
  {entries : List (DirEntry Content)}

variable (readVotingFile lifetime) in
/-- A folder that runs have written: numbered voting key files of the same lifetime,
each starting after the one before has ended. -/
structure WrittenFolder (entries : List (DirEntry Content)) : Prop where
  readable : ∀ entry ∈ entries,
    loadEntry readVotingFile entry = .ok (some (fileOf readVotingFile entry))
  names : entries.map (·.filename) =
    (List.range entries.length).map (fun k => privateKeyTreeFileName (k + 1))
  ordered : (filesIn readVotingFile entries).Pairwise (fun x y => x.endEpoch < y.startEpoch)
  lasting : ∀ file ∈ filesIn readVotingFile entries,
    file.endEpoch + 1 = file.startEpoch + lifetime

theorem WrittenFolder.proper (h : WrittenFolder readVotingFile lifetime entries)
    (hlifetime : 1 ≤ lifetime) :
    ∀ file ∈ filesIn readVotingFile entries, file.startEpoch ≤ file.endEpoch := by
  intro file hfile
  have hlasting := h.lasting file hfile
  omega

theorem WrittenFolder.numbered (h : WrittenFolder readVotingFile lifetime entries)
    (hlifetime : 1 ≤ lifetime) : NumberedFolder readVotingFile entries :=
  ⟨h.readable, h.names, h.ordered, h.proper hlifetime⟩

/-- A numbered folder with one more file of the lifetime. -/
theorem WrittenFolder.add (h : WrittenFolder readVotingFile lifetime entries)
    {written : List (DirEntry Content)} {file : VotingKeyFile}
    (hnumbered : NumberedFolder readVotingFile written)
    (hfiles : filesIn readVotingFile written = filesIn readVotingFile entries ++ [file])
    (hlasting : file.endEpoch + 1 = file.startEpoch + lifetime) :
    WrittenFolder readVotingFile lifetime written := by
  refine ⟨hnumbered.readable, hnumbered.names, hnumbered.ordered, ?_⟩
  rw [hfiles]
  intro other hother
  rcases List.mem_append.mp hother with hold | hnew
  · exact h.lasting other hold
  · rw [List.mem_singleton.mp hnew]
    exact hlasting

variable (readVotingFile) in
def accountsIn (entries : List (DirEntry Content)) : List VotingKeyAccount :=
  (filesIn readVotingFile entries).map (·.toVotingKeyAccount)

theorem WrittenFolder.accounts_ordered (h : WrittenFolder readVotingFile lifetime entries) :
    (accountsIn readVotingFile entries).Pairwise (fun x y => x.endEpoch < y.startEpoch) :=
  List.pairwise_map.mpr h.ordered

theorem WrittenFolder.accounts_disjoint (h : WrittenFolder readVotingFile lifetime entries) :
    DisjointKeys (accountsIn readVotingFile entries) :=
  h.accounts_ordered.imp (fun hbefore => not_overlap_of_before hbefore)

theorem WrittenFolder.accounts_lasting (h : WrittenFolder readVotingFile lifetime entries) :
    ∀ key ∈ accountsIn readVotingFile entries, key.endEpoch + 1 = key.startEpoch + lifetime := by
  intro key hkey
  obtain ⟨file, hfile, rfl⟩ := List.mem_map.mp hkey
  exact h.lasting file hfile

theorem WrittenFolder.accounts_proper (h : WrittenFolder readVotingFile lifetime entries)
    (hlifetime : 1 ≤ lifetime) : ProperKeys (accountsIn readVotingFile entries) := by
  intro key hkey
  have hlasting := h.accounts_lasting key hkey
  omega

/-- When the last file ends within a lifetime, fewer than three files have not ended. -/
theorem WrittenFolder.active_length (h : WrittenFolder readVotingFile lifetime entries)
    (hlifetime : 1 ≤ lifetime) (epoch : ℕ)
    (hlast : lastEndEpoch (filesIn readVotingFile entries) ≤ epoch + lifetime) :
    (activeVotingKeyFiles epoch (accountsIn readVotingFile entries)).length < 3 := by
  have hsub : (activeVotingKeyFiles epoch (accountsIn readVotingFile entries)).Sublist
      (accountsIn readVotingFile entries) := List.filter_sublist
  have hactive : ∀ key ∈ activeVotingKeyFiles epoch (accountsIn readVotingFile entries),
      key.endEpoch ≥ epoch := by
    intro key hkey
    simpa using List.of_mem_filter hkey
  have hordered := h.accounts_ordered.sublist hsub
  by_contra hlong
  match hkeys : activeVotingKeyFiles epoch (accountsIn readVotingFile entries) with
  | [] => simp [hkeys] at hlong
  | [_] => simp [hkeys] at hlong
  | [_, _] => simp [hkeys] at hlong
  | first :: second :: third :: rest =>
    rw [hkeys] at hordered hactive hsub
    have hfirst := hactive first List.mem_cons_self
    obtain ⟨hbefore, hrest⟩ := List.pairwise_cons.mp hordered
    have hsecond := hbefore second List.mem_cons_self
    have hthird := (List.pairwise_cons.mp hrest).1 third List.mem_cons_self
    have hsecondIn : second ∈ accountsIn readVotingFile entries :=
      hsub.subset (List.mem_cons_of_mem _ List.mem_cons_self)
    have hthirdIn : third ∈ accountsIn readVotingFile entries :=
      hsub.subset (List.mem_cons_of_mem _ (List.mem_cons_of_mem _ List.mem_cons_self))
    have hsecondEnd := h.accounts_lasting second hsecondIn
    have hthirdEnd := h.accounts_lasting third hthirdIn
    obtain ⟨file, hfile, hfileKey⟩ := List.mem_map.mp hthirdIn
    have hend := (h.numbered hlifetime).le_lastEndEpoch hfile
    have hfileEnd : file.endEpoch = third.endEpoch := congrArg VotingKeyAccount.endEpoch hfileKey
    omega

end Folder

section Linking

variable {params : LinkParams} {prompt : ℕ → Bool} {plan : VotingPlan}

/-- A file that is one of the disjoint remaining keys changes nothing. -/
theorem planVotingFile_own {file : VotingKeyAccount}
    (hdisjoint : DisjointKeys plan.remainingVotingKeys)
    (hproper : ProperKeys plan.remainingVotingKeys) (hfile : file ∈ plan.remainingVotingKeys) :
    planVotingFile params prompt plan file = plan := by
  have hself := overlap_self (hproper file hfile)
  obtain ⟨before, first, after, hfirst⟩ := exists_firstOverlap hfile (overlaps_iff.mpr hself)
  have heq := hdisjoint.eq_of_overlap hfile hfirst.mem (overlaps_iff.mp hfirst.overlap)
  subst heq
  simp only [planVotingFile, hfirst.find, isSameAccount_self, ↓reduceIte]

theorem foldl_planVotingFile_own (files : List VotingKeyAccount)
    (hdisjoint : DisjointKeys plan.remainingVotingKeys)
    (hproper : ProperKeys plan.remainingVotingKeys)
    (hfiles : ∀ file ∈ files, file ∈ plan.remainingVotingKeys) :
    files.foldl (planVotingFile params prompt) plan = plan := by
  induction files with
  | nil => rfl
  | cons file rest ih =>
    rw [List.foldl_cons, planVotingFile_own hdisjoint hproper (hfiles file List.mem_cons_self)]
    exact ih (fun other hmem => hfiles other (List.mem_cons_of_mem file hmem))

/-- A file clear of the remaining keys is linked while there is room. -/
theorem planVotingFile_next {file : VotingKeyAccount}
    (hclear : ∀ key ∈ plan.remainingVotingKeys, overlapsVotingAccounts file key = false)
    (hroom : plan.remainingVotingKeys.length < 3) :
    planVotingFile params prompt plan file =
      ⟨plan.remainingVotingKeys ++ [file], plan.transactions ++ [.voting file .link],
        plan.asked⟩ := by
  have hnone : plan.remainingVotingKeys.find? (overlapsVotingAccounts file) = none := by
    apply List.find?_eq_none.mpr
    intro key hkey
    simp only [hclear key hkey, Bool.false_eq_true, not_false_eq_true]
  rw [planVotingFile, hnone]
  simp only [linkIfRoom, hroom, ↓reduceIte]

theorem active_append (epoch : ℕ) (first second : List VotingKeyAccount) :
    activeVotingKeyFiles epoch (first ++ second) =
      activeVotingKeyFiles epoch first ++ activeVotingKeyFiles epoch second :=
  List.filter_append first second

theorem active_active {epoch later : ℕ} (h : epoch ≤ later) (keys : List VotingKeyAccount) :
    activeVotingKeyFiles later (activeVotingKeyFiles epoch keys) =
      activeVotingKeyFiles later keys := by
  unfold activeVotingKeyFiles
  rw [List.filter_filter]
  congr 1
  funext key
  simp only [ge_iff_le, Bool.and_eq_decide, decide_eq_true_eq, decide_eq_decide]
  omega

/-- Where the linked keys are the files that had not ended at an earlier epoch, the
linking loop leaves the files that have not ended now, among them at most one file
added since. -/
theorem votingLinkPlan_continues {files : List VotingKeyAccount} {epoch later : ℕ}
    (new : List VotingKeyAccount) (asked : ℕ) (hconfirmed : AllConfirmed params prompt)
    (hlater : epoch ≤ later)
    (hdisjoint : DisjointKeys (files ++ new)) (hproper : ProperKeys (files ++ new))
    (hnew : new = [] ∨ ∃ file, new = [file] ∧ file.endEpoch ≥ later ∧
      (activeVotingKeyFiles later files).length < 3) :
    votingAfterAll (activeVotingKeyFiles epoch files)
        (addVotingKeyLinkTransactions params prompt (activeVotingKeyFiles epoch files)
          (files ++ new) later asked) =
      activeVotingKeyFiles later (files ++ new) := by
  have hold : DisjointKeys files := hdisjoint.sublist (List.sublist_append_left files new)
  have hold' : ProperKeys files := fun key hkey => hproper key (List.mem_append_left new hkey)
  have hactive : DisjointKeys (activeVotingKeyFiles later files) :=
    hold.sublist List.filter_sublist
  have hactive' : ProperKeys (activeVotingKeyFiles later files) :=
    fun key hkey => hold' key (List.mem_of_mem_filter hkey)
  have htracks : Tracks (activeVotingKeyFiles epoch files)
      (unlinkExpired params prompt later (activeVotingKeyFiles epoch files) asked) :=
    unlinkExpired_tracks later _ asked (distinct_of_disjoint (hold.sublist List.filter_sublist)
      (fun key hkey => hold' key (List.mem_of_mem_filter hkey)))
  have hremaining := unlinkExpired_confirmed hconfirmed later
    (activeVotingKeyFiles epoch files) asked
  rw [active_active hlater] at hremaining
  rw [addVotingKeyLinkTransactions, votingLinkPlan, active_append, List.foldl_append,
    foldl_planVotingFile_own (activeVotingKeyFiles later files) (by rw [hremaining]; exact hactive)
      (by rw [hremaining]; exact hactive') (by rw [hremaining]; exact fun file hfile => hfile)]
  rcases hnew with rfl | ⟨file, rfl, hend, hroom⟩
  · have hnone : activeVotingKeyFiles later [] = [] := rfl
    rw [hnone, List.foldl_nil, htracks.chain, hremaining, List.append_nil]
  · have hone : activeVotingKeyFiles later [file] = [file] := by
      simp only [activeVotingKeyFiles, List.filter_cons, hend, decide_true, ↓reduceIte,
        List.filter_nil]
    have hfree : ∀ key ∈ (unlinkExpired params prompt later (activeVotingKeyFiles epoch files)
        asked).remainingVotingKeys, overlapsVotingAccounts file key = false := by
      intro key hkey
      rw [hremaining] at hkey
      apply not_overlaps_iff.mpr
      intro hover
      exact (apart_append.mp hdisjoint).2.2 key (List.mem_of_mem_filter hkey) file
        (List.mem_singleton_self file) hover.symm
    have hless : (unlinkExpired params prompt later (activeVotingKeyFiles epoch files)
        asked).remainingVotingKeys.length < 3 := by
      rw [hremaining]
      exact hroom
    have hstep : VotingStep params prompt _ file _ := .linked hfree hless
    have hnexttracks := hstep.tracks htracks
      (hproper file (List.mem_append_right files (List.mem_singleton_self file)))
      (fun _ key _ hfirst _ => by
        have hover := hfirst.overlap
        rw [hfree key hfirst.mem] at hover
        exact Bool.noConfusion hover)
    rw [hone, List.foldl_cons, List.foldl_nil, planVotingFile_next hfree hless,
      hnexttracks.chain, hremaining]

end Linking

section OneRun

variable {Content : Type} {readVotingFile : Content → Except String VotingKeyAccount}
  {readdirSync : List (DirEntry Content) → List (DirEntry Content)}
  {createVotingFile : ℕ → ℕ → Content} {presetData : VotingPreset}
  {folder : Option (List (DirEntry Content))} {voting : List VotingKeyFile} {epoch : ℕ}

variable (readVotingFile epoch) in
/-- Where the epochs the voting files of a folder cover end, as a run sees it. -/
def maxVotingKeyEndEpoch (entries : List (DirEntry Content)) : ℕ :=
  max (lastEndEpoch (filesIn readVotingFile entries)) (epoch - 1)

theorem networkEpoch_eq (hepoch : 1 ≤ epoch) (other : Option ℕ) :
    ((truthy (some epoch)).or other).getD 1 = epoch := by
  have hsome : truthy (some epoch) = some epoch := by
    simp only [truthy, Option.filter_some, ne_eq, Nat.ne_of_gt hepoch, not_false_eq_true,
      decide_true, ↓reduceIte]
  rw [hsome, Option.some_or, Option.getD_some]

variable (createVotingFile voting) in
/-- A run that finds the files up to date leaves them alone. -/
theorem run_upToDate
    (h : WrittenFolder readVotingFile presetData.votingKeyDesiredLifetime (mkdir folder))
    (hlifetime : 1 ≤ presetData.votingKeyDesiredLifetime)
    (hfuture : presetData.votingKeyDesiredFutureLifetime ≤ presetData.votingKeyDesiredLifetime)
    (hlist : ∀ entries, (readdirSync entries).Perm entries) (hepoch : 1 ≤ epoch)
    (hdone : maxVotingKeyEndEpoch readVotingFile epoch (mkdir folder) >
      epoch + presetData.votingKeyDesiredFutureLifetime) :
    run readVotingFile readdirSync createVotingFile presetData true folder voting (some epoch)
        (some true) =
      .ok ⟨some (mkdir folder), filesIn readVotingFile (mkdir folder), false⟩ := by
  apply (h.numbered hlifetime).run_none createVotingFile voting hlist hfuture
  by_contra hsome
  obtain ⟨request, hrequest⟩ := Option.ne_none_iff_exists'.mp hsome
  obtain ⟨hshort, -, -⟩ := nextRequest_eq_some.mp hrequest
  rw [networkEpochOf, networkEpoch_eq hepoch] at hshort
  unfold maxVotingKeyEndEpoch at hdone
  omega

variable (createVotingFile voting) in
/-- A run that finds the files to end soon writes one more, for the epochs after them. -/
theorem run_creates
    (h : WrittenFolder readVotingFile presetData.votingKeyDesiredLifetime (mkdir folder))
    (hlifetime : 1 ≤ presetData.votingKeyDesiredLifetime)
    (hfuture : presetData.votingKeyDesiredFutureLifetime ≤ presetData.votingKeyDesiredLifetime)
    (hlist : ∀ entries, (readdirSync entries).Perm entries) (hepoch : 1 ≤ epoch)
    (hprovider : ∀ first last, first ≤ last →
      ∃ publicKey, readVotingFile (createVotingFile first last) = .ok ⟨first, last, publicKey⟩)
    (hdue : maxVotingKeyEndEpoch readVotingFile epoch (mkdir folder) ≤
      epoch + presetData.votingKeyDesiredFutureLifetime) :
    ∃ written file,
      WrittenFolder readVotingFile presetData.votingKeyDesiredLifetime written ∧
      filesIn readVotingFile written = filesIn readVotingFile (mkdir folder) ++ [file] ∧
      file.startEpoch = maxVotingKeyEndEpoch readVotingFile epoch (mkdir folder) + 1 ∧
      file.endEpoch = maxVotingKeyEndEpoch readVotingFile epoch (mkdir folder) +
        presetData.votingKeyDesiredLifetime ∧
      run readVotingFile readdirSync createVotingFile presetData true folder voting (some epoch)
          (some true) = .ok ⟨some written, filesIn readVotingFile written, true⟩ := by
  unfold maxVotingKeyEndEpoch at hdue ⊢
  have hepochs : networkEpochOf presetData (some epoch) = epoch := networkEpoch_eq hepoch _
  have hnext : ∃ request, nextRequest presetData (some epoch) (some true)
      (filesIn readVotingFile (mkdir folder)) = some request :=
    ⟨_, nextRequest_eq_some.mpr ⟨by rw [hepochs]; exact hdue, Or.inl rfl, rfl⟩⟩
  obtain ⟨request, hrequest⟩ := hnext
  obtain ⟨written, file, hnumbered, hfiles, hstart, hend, hrun⟩ :=
    (h.numbered hlifetime).run_some createVotingFile voting hlist hlifetime hfuture hprovider
      hrequest
  obtain ⟨-, -, rfl⟩ := nextRequest_eq_some.mp hrequest
  simp only [hepochs] at hstart hend
  exact ⟨written, file, h.add hnumbered hfiles (by omega), hfiles, hstart, hend, hrun⟩

end OneRun

section Runs

variable {Content : Type} (readVotingFile : Content → Except String VotingKeyAccount)
  (readdirSync : List (DirEntry Content) → List (DirEntry Content))
  (createVotingFile : ℕ → ℕ → ℕ → Content) (presetData : VotingPreset) (params : LinkParams)
  (prompt : ℕ → ℕ → Bool)

structure VotingState (Content : Type) where
  folder : Option (List (DirEntry Content))
  voting : List VotingKeyFile
  linked : List VotingKeyAccount
deriving DecidableEq, Repr

/-- One update at an epoch: the voting service runs, and the files are linked. The
number of the update tells its provider call and its prompts from earlier ones. -/
def votingStep (number : ℕ) (state : VotingState Content) (epoch : ℕ) :
    Except String (VotingState Content) := do
  let result ← run readVotingFile readdirSync (createVotingFile number) presetData true
    state.folder state.voting (some epoch) (some true)
  let files ← loadVotingFiles readVotingFile readdirSync result.folder
  return ⟨result.folder, result.voting, votingAfterAll state.linked
    (addVotingKeyLinkTransactions params (prompt number) state.linked
      (files.map (·.toVotingKeyAccount)) epoch 0)⟩

def votingSteps : ℕ → VotingState Content → List ℕ → Except String (VotingState Content)
  | _, state, [] => return state
  | number, state, epoch :: rest => do
      let next ← votingStep readVotingFile readdirSync createVotingFile presetData params
        prompt number state epoch
      votingSteps (number + 1) next rest

def coversEpoch (epoch : ℕ) (key : VotingKeyAccount) : Bool :=
  decide (key.startEpoch ≤ epoch) && decide (epoch ≤ key.endEpoch)

/-- What voting at an epoch needs of the files and the linked keys. -/
structure Voting (epoch : ℕ) (files : List VotingKeyFile) (linked : List VotingKeyAccount) :
    Prop where
  one : linked.countP (coversEpoch epoch) = 1
  disjoint : DisjointKeys linked
  room : linked.length ≤ maxVotingKeysPerAccount
  from_file : ∀ key ∈ linked, ∃ file ∈ files, file.toVotingKeyAccount = key
  all_linked : ∀ file ∈ files, file.endEpoch ≥ epoch → file.toVotingKeyAccount ∈ linked

/-- What the updates keep up: the linked keys are the files that have not ended, and
the files leave out no epoch from the current one to their end. -/
structure Kept (epoch : ℕ) (state : VotingState Content) : Prop where
  folder : WrittenFolder readVotingFile presetData.votingKeyDesiredLifetime (mkdir state.folder)
  linked : state.linked =
    activeVotingKeyFiles epoch (accountsIn readVotingFile (mkdir state.folder))
  covered : ∀ later, epoch ≤ later →
    later ≤ lastEndEpoch (filesIn readVotingFile (mkdir state.folder)) →
    ∃ file ∈ filesIn readVotingFile (mkdir state.folder),
      file.startEpoch ≤ later ∧ later ≤ file.endEpoch
  room : state.linked.length ≤ 3

variable {readVotingFile readdirSync createVotingFile presetData params prompt}
  {epoch later : ℕ} {state : VotingState Content}

/-- Before the first update nothing is linked and there are no files. -/
theorem kept_start {folder : Option (List (DirEntry Content))}
    (hempty : folder = none ∨ folder = some []) :
    Kept readVotingFile presetData 1 ⟨folder, [], []⟩ := by
  have hentries : mkdir folder = [] := by
    rcases hempty with rfl | rfl <;> rfl
  refine ⟨?_, ?_, ?_, Nat.zero_le 3⟩
  · rw [hentries]
    exact ⟨fun _ hmem => absurd hmem List.not_mem_nil, rfl, List.Pairwise.nil,
      fun _ hmem => absurd hmem List.not_mem_nil⟩
  · rw [hentries]
    rfl
  · rw [hentries]
    intro later hlater hlast
    have hzero : later ≤ 0 := hlast
    omega

theorem votingStep_of_run {number : ℕ} {written : List (DirEntry Content)} {created : Bool}
    (hlist : ∀ entries, (readdirSync entries).Perm entries)
    (hlifetime : 1 ≤ presetData.votingKeyDesiredLifetime)
    (hwritten : WrittenFolder readVotingFile presetData.votingKeyDesiredLifetime written)
    (hrun : run readVotingFile readdirSync (createVotingFile number) presetData true
      state.folder state.voting (some later) (some true) =
        .ok ⟨some written, filesIn readVotingFile written, created⟩) :
    votingStep readVotingFile readdirSync createVotingFile presetData params prompt number
        state later =
      .ok ⟨some written, filesIn readVotingFile written, votingAfterAll state.linked
        (addVotingKeyLinkTransactions params (prompt number) state.linked
          (accountsIn readVotingFile written) later 0)⟩ := by
  have hload := (hwritten.numbered hlifetime).load hlist
  rw [votingStep, hrun]
  change (loadVotingFiles readVotingFile readdirSync (some written)).bind _ = _
  rw [hload]
  rfl

variable (readVotingFile params) in
/-- What an update leaves once its files are linked. -/
def linkedAfter (confirmations : ℕ → Bool) (state : VotingState Content)
    (written : List (DirEntry Content)) (epoch : ℕ) : VotingState Content :=
  ⟨some written, filesIn readVotingFile written, votingAfterAll state.linked
    (addVotingKeyLinkTransactions params confirmations state.linked
      (accountsIn readVotingFile written) epoch 0)⟩

/-- Where nothing is due, keys that have ended since are unlinked. -/
theorem Kept.unchanged (h : Kept readVotingFile presetData epoch state)
    {confirmations : ℕ → Bool} (hconfirmed : AllConfirmed params confirmations)
    (hlifetime : 1 ≤ presetData.votingKeyDesiredLifetime) (hlater : epoch ≤ later) :
    Kept readVotingFile presetData later
      (linkedAfter readVotingFile params confirmations state
        (mkdir state.folder) later) := by
  have hplan := votingLinkPlan_continues [] 0 hconfirmed hlater
    (by rw [List.append_nil]; exact h.folder.accounts_disjoint)
    (by rw [List.append_nil]; exact h.folder.accounts_proper hlifetime) (Or.inl rfl)
  rw [List.append_nil, ← h.linked] at hplan
  refine ⟨h.folder, hplan, ?_, ?_⟩
  · intro epoch' hepoch' hlast
    exact h.covered epoch' (hlater.trans hepoch') hlast
  · change (votingAfterAll _ _).length ≤ 3
    rw [hplan, ← active_active hlater, ← h.linked]
    exact (List.length_filter_le _ _).trans h.room

/-- The next file takes its place among at most two that have not ended. -/
theorem Kept.added (h : Kept readVotingFile presetData epoch state)
    {confirmations : ℕ → Bool} (hconfirmed : AllConfirmed params confirmations)
    (hlifetime : 1 ≤ presetData.votingKeyDesiredLifetime)
    (hfuture : presetData.votingKeyDesiredFutureLifetime ≤ presetData.votingKeyDesiredLifetime)
    (hlater : epoch ≤ later)
    (hdue : maxVotingKeyEndEpoch readVotingFile later (mkdir state.folder) ≤
      later + presetData.votingKeyDesiredFutureLifetime)
    {written : List (DirEntry Content)} {file : VotingKeyFile}
    (hwritten : WrittenFolder readVotingFile presetData.votingKeyDesiredLifetime written)
    (hfiles : filesIn readVotingFile written =
      filesIn readVotingFile (mkdir state.folder) ++ [file])
    (hstart : file.startEpoch = maxVotingKeyEndEpoch readVotingFile later (mkdir state.folder) + 1)
    (hend : file.endEpoch = maxVotingKeyEndEpoch readVotingFile later (mkdir state.folder) +
      presetData.votingKeyDesiredLifetime) :
    Kept readVotingFile presetData later
      (linkedAfter readVotingFile params confirmations state written later) ∧
    later ≤ lastEndEpoch (filesIn readVotingFile written) := by
  have hmax : maxVotingKeyEndEpoch readVotingFile later (mkdir state.folder) =
      max (lastEndEpoch (filesIn readVotingFile (mkdir state.folder))) (later - 1) := rfl
  have haccounts : accountsIn readVotingFile written =
      accountsIn readVotingFile (mkdir state.folder) ++ [file.toVotingKeyAccount] := by
    rw [accountsIn, hfiles, List.map_append]
    rfl
  have hactive : file.endEpoch ≥ later := by omega
  have hroom := h.folder.active_length hlifetime later (by omega)
  have hplan := votingLinkPlan_continues [file.toVotingKeyAccount] 0 hconfirmed hlater
    (haccounts ▸ hwritten.accounts_disjoint) (haccounts ▸ hwritten.accounts_proper hlifetime)
    (Or.inr ⟨file.toVotingKeyAccount, rfl, hactive, hroom⟩)
  rw [← h.linked, ← haccounts] at hplan
  have hlast : lastEndEpoch (filesIn readVotingFile written) = file.endEpoch := by
    rw [hfiles, lastEndEpoch_append]
  refine ⟨⟨hwritten, hplan, ?_, ?_⟩, by omega⟩
  · intro epoch' hepoch' hreach
    change epoch' ≤ lastEndEpoch (filesIn readVotingFile written) at hreach
    change ∃ file ∈ filesIn readVotingFile written, _
    rw [hfiles]
    by_cases hold : epoch' ≤ lastEndEpoch (filesIn readVotingFile (mkdir state.folder))
    · obtain ⟨other, hother, hrange⟩ := h.covered epoch' (hlater.trans hepoch') hold
      exact ⟨other, List.mem_append_left _ hother, hrange⟩
    · refine ⟨file, List.mem_append_right _ (List.mem_singleton_self file), ?_, ?_⟩
      · omega
      · omega
  · change (votingAfterAll _ _).length ≤ 3
    rw [hplan, haccounts, active_append]
    have hone : (activeVotingKeyFiles later [file.toVotingKeyAccount]).length ≤ 1 :=
      List.length_filter_le _ _
    rw [List.length_append]
    omega

/-- One update keeps the linked keys to the files that have not ended, and leaves a
file that reaches the epoch. -/
theorem Kept.step (h : Kept readVotingFile presetData epoch state)
    (hlist : ∀ entries, (readdirSync entries).Perm entries)
    (hprovider : ∀ number first last, first ≤ last → ∃ publicKey,
      readVotingFile (createVotingFile number first last) = .ok ⟨first, last, publicKey⟩)
    (hconfirmed : ∀ number, AllConfirmed params (prompt number))
    (hlifetime : 1 ≤ presetData.votingKeyDesiredLifetime)
    (hfuture : presetData.votingKeyDesiredFutureLifetime ≤ presetData.votingKeyDesiredLifetime)
    (number : ℕ) (hlater : epoch ≤ later) (hpositive : 1 ≤ later) :
    ∃ next entries,
      votingStep readVotingFile readdirSync createVotingFile presetData params prompt number
        state later = .ok next ∧
      next.folder = some entries ∧ Kept readVotingFile presetData later next ∧
      later ≤ lastEndEpoch (filesIn readVotingFile entries) := by
  have hmax : maxVotingKeyEndEpoch readVotingFile later (mkdir state.folder) =
      max (lastEndEpoch (filesIn readVotingFile (mkdir state.folder))) (later - 1) := rfl
  by_cases hdone : maxVotingKeyEndEpoch readVotingFile later (mkdir state.folder) >
      later + presetData.votingKeyDesiredFutureLifetime
  · have hrun := run_upToDate (createVotingFile number) state.voting h.folder hlifetime
      hfuture hlist hpositive hdone
    exact ⟨_, mkdir state.folder, votingStep_of_run hlist hlifetime h.folder hrun, rfl,
      h.unchanged (hconfirmed number) hlifetime hlater, by omega⟩
  · obtain ⟨written, file, hwritten, hfiles, hstart, hend, hrun⟩ :=
      run_creates (createVotingFile number) state.voting h.folder hlifetime hfuture hlist
        hpositive (hprovider number) (by omega)
    obtain ⟨hkept, hreach⟩ := h.added (hconfirmed number) hlifetime hfuture hlater (by omega)
      hwritten hfiles hstart hend
    exact ⟨_, written, votingStep_of_run hlist hlifetime hwritten hrun, rfl, hkept, hreach⟩

/-- Any run of updates at increasing epochs keeps it up. -/
theorem Kept.run (h : Kept readVotingFile presetData epoch state)
    (hlist : ∀ entries, (readdirSync entries).Perm entries)
    (hprovider : ∀ number first last, first ≤ last → ∃ publicKey,
      readVotingFile (createVotingFile number first last) = .ok ⟨first, last, publicKey⟩)
    (hconfirmed : ∀ number, AllConfirmed params (prompt number))
    (hlifetime : 1 ≤ presetData.votingKeyDesiredLifetime)
    (hfuture : presetData.votingKeyDesiredFutureLifetime ≤ presetData.votingKeyDesiredLifetime)
    (hpositive : 1 ≤ epoch) (number : ℕ) (epochs : List ℕ)
    (hepochs : (epoch :: epochs).Pairwise (fun x y => x ≤ y)) (hnonempty : epochs ≠ []) :
    ∃ next entries,
      votingSteps readVotingFile readdirSync createVotingFile presetData params prompt number
        state epochs = .ok next ∧
      next.folder = some entries ∧ Kept readVotingFile presetData (epochs.getLast hnonempty) next ∧
      epochs.getLast hnonempty ≤ lastEndEpoch (filesIn readVotingFile entries) := by
  induction epochs generalizing epoch state number with
  | nil => exact absurd rfl hnonempty
  | cons later rest ih =>
    obtain ⟨hfirst, hrest⟩ := List.pairwise_cons.mp hepochs
    have hlater := hfirst later List.mem_cons_self
    obtain ⟨next, entries, hstep, hfolder, hkept, hreach⟩ := h.step hlist hprovider hconfirmed
      hlifetime hfuture number hlater (hpositive.trans hlater)
    rw [votingSteps, hstep]
    change ∃ next' entries', votingSteps _ _ _ _ _ _ (number + 1) next rest = _ ∧ _
    by_cases hend : rest = []
    · subst hend
      exact ⟨next, entries, rfl, hfolder, hkept, hreach⟩
    · obtain ⟨last, files, hsteps, hlast⟩ := ih hkept (hpositive.trans hlater) (number + 1)
        hrest hend
      rw [List.getLast_cons hend]
      exact ⟨last, files, hsteps, hlast⟩

/-- What is kept up is enough for voting. -/
theorem Kept.voting (h : Kept readVotingFile presetData epoch state)
    {entries : List (DirEntry Content)}
    (hfolder : state.folder = some entries)
    (hreach : epoch ≤ lastEndEpoch (filesIn readVotingFile entries)) :
    Voting epoch (filesIn readVotingFile entries) state.linked := by
  have hentries : mkdir state.folder = entries := by
    rw [hfolder]
    rfl
  have hlinked := h.linked
  have hcovered := h.covered epoch (Nat.le_refl epoch)
  have hwritten := h.folder
  rw [hentries] at hlinked hcovered hwritten
  have hdisjoint : DisjointKeys state.linked := by
    rw [hlinked]
    exact hwritten.accounts_disjoint.sublist List.filter_sublist
  have hall : ∀ file ∈ filesIn readVotingFile entries, file.endEpoch ≥ epoch →
      file.toVotingKeyAccount ∈ state.linked := by
    intro file hfile hend
    rw [hlinked]
    refine List.mem_filter.mpr ⟨List.mem_map_of_mem hfile, ?_⟩
    simpa using hend
  refine ⟨?_, hdisjoint, h.room, ?_, hall⟩
  · obtain ⟨file, hfile, hstart, hend⟩ := hcovered hreach
    have hcovers : coversEpoch epoch file.toVotingKeyAccount = true := by
      simp only [coversEpoch, hstart, hend, decide_true, Bool.and_self]
    have hsome := List.countP_pos_iff.mpr ⟨_, hall file hfile hend, hcovers⟩
    have hone := hdisjoint.countP_le_one (t := epoch) (p := coversEpoch epoch)
      (fun key _ hkey => by
        simp only [coversEpoch, Bool.and_eq_true, decide_eq_true_eq] at hkey
        exact hkey)
    omega
  · intro key hkey
    rw [hlinked] at hkey
    obtain ⟨file, hfile, heq⟩ := List.mem_map.mp (List.mem_of_mem_filter hkey)
    exact ⟨file, hfile, heq⟩

/-- Voting never lapses: after every run of updates at increasing epochs, the last
epoch lies in exactly one linked key, and the linked keys are disjoint, at most three,
and exactly the voting files that have not ended. -/
theorem voting_never_lapses (readVotingFile : Content → Except String VotingKeyAccount)
    (readdirSync : List (DirEntry Content) → List (DirEntry Content))
    (createVotingFile : ℕ → ℕ → ℕ → Content) (presetData : VotingPreset) (params : LinkParams)
    (prompt : ℕ → ℕ → Bool) (folder : Option (List (DirEntry Content)))
    (hempty : folder = none ∨ folder = some [])
    (hlist : ∀ entries, (readdirSync entries).Perm entries)
    (hprovider : ∀ number first last, first ≤ last → ∃ publicKey,
      readVotingFile (createVotingFile number first last) = .ok ⟨first, last, publicKey⟩)
    (hconfirmed : ∀ number, AllConfirmed params (prompt number))
    (hlifetime : 1 ≤ presetData.votingKeyDesiredLifetime)
    (hfuture : presetData.votingKeyDesiredFutureLifetime ≤ presetData.votingKeyDesiredLifetime)
    (epochs : List ℕ) (epoch : ℕ)
    (hepochs : (epochs ++ [epoch]).Pairwise (fun x y => x ≤ y))
    (hpositive : ∀ x ∈ epochs ++ [epoch], 1 ≤ x) :
    ∃ state files,
      votingSteps readVotingFile readdirSync createVotingFile presetData params prompt 0
        ⟨folder, [], []⟩ (epochs ++ [epoch]) = .ok state ∧
      loadVotingFiles readVotingFile readdirSync state.folder = .ok files ∧
      Voting epoch files state.linked := by
  obtain ⟨state, entries, hsteps, hfolder, hkept, hreach⟩ := (kept_start hempty).run hlist
    hprovider hconfirmed hlifetime hfuture (Nat.le_refl 1) 0 (epochs ++ [epoch])
    (List.pairwise_cons.mpr ⟨hpositive, hepochs⟩) (by simp)
  rw [List.getLast_append_singleton] at hkept hreach
  refine ⟨state, filesIn readVotingFile entries, hsteps, ?_, hkept.voting hfolder hreach⟩
  have hwritten := hkept.folder
  rw [hfolder] at hwritten ⊢
  exact (hwritten.numbered hlifetime).load hlist

/-- Three updates with a lifetime of two epochs. -/
theorem voting_never_lapses_three :
    ∃ state files,
      votingSteps (fun account : VotingKeyAccount => .ok account) id
        (fun number first last => ⟨first, last, toString number⟩) ⟨none, false, 2, 1⟩
        ⟨false, true, none⟩ (fun _ _ => false) 0 ⟨none, [], []⟩ ([1, 2] ++ [7]) = .ok state ∧
      loadVotingFiles (fun account => .ok account) id state.folder = .ok files ∧
      Voting 7 files state.linked :=
  voting_never_lapses (fun account => .ok account) id
    (fun number first last => ⟨first, last, toString number⟩)
    ⟨none, false, 2, 1⟩ ⟨false, true, none⟩ (fun _ _ => false) none (Or.inl rfl)
    (fun entries => List.Perm.refl entries)
    (fun number _ _ _ => ⟨toString number, rfl⟩)
    (fun _ => allConfirmed_of_ready _ _ rfl rfl) (by decide) (by decide) [1, 2] 7
    (by decide) (by decide)

end Runs
end SymbolBootstrap.VotingRuns
