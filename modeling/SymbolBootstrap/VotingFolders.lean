import Mathlib
import SymbolBootstrap.Library.ClosedIntervals
import SymbolBootstrap.Library.StableSort
import SymbolBootstrap.VotingFileNames

/-!
The folders that runs of the voting service write, whatever the epochs and the settings of
each run: numbered voting key files, each starting after the one before has ended. Such a
folder loads as its files in the order in which they were written, and a run leaves it as
it is or adds one file with the next number.
-/
namespace SymbolBootstrap.VotingFolders

open Library Library.ClosedIntervals LinkService VotingUtils VotingService VotingFileNames

section Folder

variable {Content : Type} {readVotingFile : Content → Except String VotingKeyAccount}
  {readdirSync : List (DirEntry Content) → List (DirEntry Content)}
  {entries : List (DirEntry Content)}

variable (readVotingFile) in
/-- The voting key file an entry is read as; entries that are none do not occur. -/
def fileOf (entry : DirEntry Content) : VotingKeyFile :=
  match loadEntry readVotingFile entry with
  | .ok (some file) => file
  | _ => ⟨⟨0, 0, ""⟩, ""⟩

variable (readVotingFile) in
def filesIn (entries : List (DirEntry Content)) : List VotingKeyFile :=
  entries.map (fileOf readVotingFile)

variable (readVotingFile) in
/-- A folder of numbered voting key files in the order of their epochs. -/
structure NumberedFolder (entries : List (DirEntry Content)) : Prop where
  readable : ∀ entry ∈ entries,
    loadEntry readVotingFile entry = .ok (some (fileOf readVotingFile entry))
  names : entries.map (·.filename) =
    (List.range entries.length).map (fun k => privateKeyTreeFileName (k + 1))
  ordered : (filesIn readVotingFile entries).Pairwise (fun x y => x.endEpoch < y.startEpoch)
  proper : ∀ file ∈ filesIn readVotingFile entries, file.startEpoch ≤ file.endEpoch

theorem numberedFolder_nil : NumberedFolder readVotingFile [] :=
  ⟨fun _ hmem => absurd hmem List.not_mem_nil, rfl, List.Pairwise.nil,
    fun _ hmem => absurd hmem List.not_mem_nil⟩

theorem NumberedFolder.apart (h : NumberedFolder readVotingFile entries) :
    Apart (fun file : VotingKeyFile => file.startEpoch) (fun file => file.endEpoch)
      (filesIn readVotingFile entries) :=
  h.ordered.imp (fun hbefore => not_overlap_of_before hbefore)

/-- A numbered folder loads as its files in the order they were written, however the
file system lists it. -/
theorem NumberedFolder.load (h : NumberedFolder readVotingFile entries)
    (hlist : ∀ entries, (readdirSync entries).Perm entries) :
    loadVotingFiles readVotingFile readdirSync (some entries) =
      .ok (filesIn readVotingFile entries) := by
  have hmapM : (readdirSync entries).mapM (loadEntry readVotingFile) =
      .ok ((readdirSync entries).map (fun entry => some (fileOf readVotingFile entry))) := by
    rw [Throwing.mapM_ok, List.forall₂_map_right_iff, List.forall₂_same]
    exact fun entry hentry => h.readable entry ((hlist entries).subset hentry)
  have hloaded : ((readdirSync entries).map
      (fun entry => some (fileOf readVotingFile entry))).filterMap id =
      (readdirSync entries).map (fileOf readVotingFile) := by
    rw [List.filterMap_map]
    exact congrFun (List.filterMap_eq_map (f := fileOf readVotingFile)) (readdirSync entries)
  have hperm : (sortByStartEpoch ((readdirSync entries).map (fileOf readVotingFile))).Perm
      (filesIn readVotingFile entries) :=
    (List.mergeSort_perm _ _).trans ((hlist entries).map (fileOf readVotingFile))
  have hsame : ∀ x y, x ∈ sortByStartEpoch ((readdirSync entries).map (fileOf readVotingFile)) →
      y ∈ filesIn readVotingFile entries → x.startEpoch ≤ y.startEpoch →
      y.startEpoch ≤ x.startEpoch → x = y := by
    intro x y hx hy hxy hyx
    have hxrange := h.proper x (hperm.subset hx)
    have hyrange := h.proper y hy
    refine h.apart.eq_of_overlap (hperm.subset hx) hy ⟨?_, ?_⟩
    · show y.startEpoch ≤ x.endEpoch
      omega
    · show x.startEpoch ≤ y.endEpoch
      omega
  have hleft := StableSort.mergeSort_sorted (fun file : VotingKeyFile => file.startEpoch)
    ((readdirSync entries).map (fileOf readVotingFile))
  have hright : (filesIn readVotingFile entries).Pairwise
      (fun x y => x.startEpoch ≤ y.startEpoch) := by
    refine List.Pairwise.imp_of_mem ?_ h.ordered
    intro x y hx _ hbefore
    have hrange := h.proper x hx
    omega
  have hsorted : sortByStartEpoch ((readdirSync entries).map (fileOf readVotingFile)) =
      filesIn readVotingFile entries := hperm.eq_of_pairwise hsame hleft hright
  rw [loadVotingFiles, hmapM]
  change Except.ok (sortByStartEpoch _) = _
  rw [hloaded, hsorted]

/-- The last file has the last end. -/
theorem NumberedFolder.le_lastEndEpoch (h : NumberedFolder readVotingFile entries)
    {file : VotingKeyFile}
    (hfile : file ∈ filesIn readVotingFile entries) :
    file.endEpoch ≤ lastEndEpoch (filesIn readVotingFile entries) := by
  have hordered := h.ordered
  have hproper := h.proper
  generalize filesIn readVotingFile entries = files at hordered hproper hfile ⊢
  rcases List.eq_nil_or_concat files with rfl | ⟨earlier, last, rfl⟩
  · exact absurd hfile List.not_mem_nil
  · rw [List.concat_eq_append] at hfile hordered hproper ⊢
    have hend : lastEndEpoch (earlier ++ [last]) = last.endEpoch := by
      simp only [lastEndEpoch, List.getLast?_append_cons, List.getLast?_singleton,
        Option.map_some, Option.getD_some]
    rw [hend]
    rcases List.mem_append.mp hfile with hin | hin
    · have hbefore := (List.pairwise_append.mp hordered).2.2 file hin last
        (List.mem_singleton_self last)
      have hrange := hproper last (List.mem_append_right _ (List.mem_singleton_self last))
      omega
    · rw [List.mem_singleton.mp hin]

theorem privateKeyTreeFileName_injective {m n : ℕ}
    (h : privateKeyTreeFileName m = privateKeyTreeFileName n) : m = n := by
  have hstem : "private_key_tree" ++ toString m = "private_key_tree" ++ toString n :=
    (String.append_left_inj ".dat").mp h
  have hnumber : toString m = toString n := (String.append_right_inj _).mp hstem
  exact Nat.repr_inj.mp hnumber

theorem loadEntry_written (number : ℕ) {content : Content} {account : VotingKeyAccount}
    (hread : readVotingFile content = .ok account) :
    loadEntry readVotingFile ⟨privateKeyTreeFileName number, true, content⟩ =
      .ok (some { account with filename := privateKeyTreeFileName number }) := by
  have hvoting : isVotingFile
      (⟨privateKeyTreeFileName number, true, content⟩ : DirEntry Content) = true :=
    isVotingFile_named rfl
  rw [isVotingFile] at hvoting
  rw [loadEntry, if_pos hvoting, hread]
  rfl

/-- Files numbered without gaps leave the next name free. -/
theorem nextNameFree_of_numbered {entries : List (DirEntry Content)}
    (h : ∀ entry ∈ entries, isVotingFile entry = true →
      ∃ k < entries.countP isVotingFile, entry.filename = privateKeyTreeFileName (k + 1)) :
    NextNameFree entries := by
  intro entry hentry hfile hname
  have hvoting : isVotingFile entry = true := by rw [isVotingFile_named hname, hfile]
  obtain ⟨k, hk, hnumbered⟩ := h entry hentry hvoting
  have hnumber := privateKeyTreeFileName_injective (hnumbered.symm.trans hname)
  omega

theorem NumberedFolder.name_cases (h : NumberedFolder readVotingFile entries)
    {entry : DirEntry Content} (hentry : entry ∈ entries) :
    ∃ k < entries.length, entry.filename = privateKeyTreeFileName (k + 1) := by
  have hname : entry.filename ∈ entries.map (·.filename) := List.mem_map_of_mem hentry
  rw [h.names] at hname
  obtain ⟨k, hk, hfilename⟩ := List.mem_map.mp hname
  exact ⟨k, List.mem_range.mp hk, hfilename.symm⟩

theorem NumberedFolder.isVotingFile (h : NumberedFolder readVotingFile entries)
    {entry : DirEntry Content} (hentry : entry ∈ entries) : isVotingFile entry = true :=
  (loadEntry_isSome (h.readable entry hentry)).symm

/-- The next name is free. -/
theorem NumberedFolder.nextNameFree (h : NumberedFolder readVotingFile entries) :
    ∀ entry ∈ entries, entry.filename ≠ privateKeyTreeFileName (entries.length + 1) := by
  have hcount : entries.countP VotingFileNames.isVotingFile = entries.length :=
    List.countP_eq_length.mpr fun entry hentry => h.isVotingFile hentry
  have hfree : NextNameFree entries := by
    refine nextNameFree_of_numbered fun entry hentry _ => ?_
    rw [hcount]
    exact h.name_cases hentry
  intro entry hentry
  have hvoting := h.isVotingFile hentry
  rw [VotingFileNames.isVotingFile, Bool.and_eq_true, Bool.and_eq_true] at hvoting
  rw [← hcount]
  exact hfree entry hentry hvoting.1.1

/-- Removing the metadata file leaves a numbered folder as it is. -/
theorem NumberedFolder.deleteFile (h : NumberedFolder readVotingFile entries) :
    deleteFile "metadata.yml" entries = entries := by
  apply List.filter_eq_self.mpr
  intro entry hentry
  exact (List.mem_filter.mp (mem_deleteFile hentry (h.isVotingFile hentry))).2

/-- The next file of a numbered folder is written under a name of its own. -/
theorem NumberedFolder.writeFile_eq (h : NumberedFolder readVotingFile entries)
    (content : Content) :
    writeFile (privateKeyTreeFileName (entries.length + 1)) content entries =
      entries ++ [⟨privateKeyTreeFileName (entries.length + 1), true, content⟩] := by
  unfold writeFile
  congr 1
  apply List.filter_eq_self.mpr
  intro entry hentry
  simp only [beq_eq_false_iff_ne.mpr (h.nextNameFree entry hentry), Bool.not_false]

/-- Writing one more file, for later epochs. -/
theorem NumberedFolder.write (h : NumberedFolder readVotingFile entries)
    {content : Content} {account : VotingKeyAccount}
    (hread : readVotingFile content = .ok account)
    (hlater : lastEndEpoch (filesIn readVotingFile entries) < account.startEpoch)
    (hproper : account.startEpoch ≤ account.endEpoch) :
    NumberedFolder readVotingFile
      (entries ++ [⟨privateKeyTreeFileName (entries.length + 1), true, content⟩]) ∧
    filesIn readVotingFile
      (entries ++ [⟨privateKeyTreeFileName (entries.length + 1), true, content⟩]) =
      filesIn readVotingFile entries ++
        [{ account with filename := privateKeyTreeFileName (entries.length + 1) }] := by
  have hload := loadEntry_written (entries.length + 1) hread
  have hfile : fileOf readVotingFile
      ⟨privateKeyTreeFileName (entries.length + 1), true, content⟩ =
      { account with filename := privateKeyTreeFileName (entries.length + 1) } := by
    rw [fileOf, hload]
  have hfiles : filesIn readVotingFile
      (entries ++ [⟨privateKeyTreeFileName (entries.length + 1), true, content⟩]) =
      filesIn readVotingFile entries ++
        [{ account with filename := privateKeyTreeFileName (entries.length + 1) }] := by
    rw [filesIn, List.map_append, List.map_singleton, hfile]
    rfl
  refine ⟨⟨?_, ?_, ?_, ?_⟩, hfiles⟩
  · intro entry hentry
    rcases List.mem_append.mp hentry with hin | hin
    · exact h.readable entry hin
    · rw [List.mem_singleton.mp hin, hfile]
      exact hload
  · rw [List.map_append, h.names, List.length_append, List.length_singleton,
      List.range_succ, List.map_append]
    rfl
  · rw [hfiles]
    refine List.pairwise_append.mpr ⟨h.ordered, List.pairwise_singleton _ _, ?_⟩
    intro file hin new hnew
    rw [List.mem_singleton.mp hnew]
    have hend := h.le_lastEndEpoch hin
    show file.endEpoch < account.startEpoch
    omega
  · rw [hfiles]
    intro file hin
    rcases List.mem_append.mp hin with hold | hnew
    · exact h.proper file hold
    · rw [List.mem_singleton.mp hnew]
      exact hproper

theorem lastEndEpoch_append (files : List VotingKeyFile) (file : VotingKeyFile) :
    lastEndEpoch (files ++ [file]) = file.endEpoch := by
  simp only [lastEndEpoch, List.getLast?_append_cons, List.getLast?_singleton,
    Option.map_some, Option.getD_some]

end Folder

section Run

variable {Content : Type} {readVotingFile : Content → Except String VotingKeyAccount}
  {readdirSync : List (DirEntry Content) → List (DirEntry Content)}
  {createVotingFile : ℕ → ℕ → Content} {presetData : VotingPreset}
  {folder : Option (List (DirEntry Content))} {voting : List VotingKeyFile}
  {currentNetworkEpoch : Option ℕ} {updateVotingKey : Option Bool}

section Provided

variable {provider : ℕ → ℕ → Except String Content}

variable (voting provider) in
/-- A run that has no file to ask for leaves a numbered folder as it is. -/
theorem NumberedFolder.runProvided_none (h : NumberedFolder readVotingFile (mkdir folder))
    (hlist : ∀ entries, (readdirSync entries).Perm entries)
    (hfuture : presetData.votingKeyDesiredFutureLifetime ≤ presetData.votingKeyDesiredLifetime)
    (hnext : nextRequest presetData currentNetworkEpoch updateVotingKey
      (filesIn readVotingFile (mkdir folder)) = none) :
    runProvided readVotingFile readdirSync provider presetData true folder voting
        currentNetworkEpoch updateVotingKey =
      .ok ⟨some (mkdir folder), filesIn readVotingFile (mkdir folder), false⟩ := by
  have hvalid : ¬ presetData.votingKeyDesiredFutureLifetime >
      presetData.votingKeyDesiredLifetime := by omega
  simp only [runProvided, Bool.not_true, Bool.false_eq_true, ↓reduceIte, hvalid, h.deleteFile,
    h.load hlist]
  change (if _ then _ else if _ then _ else _) = _
  by_cases hlong : max (lastEndEpoch (filesIn readVotingFile (mkdir folder)))
      (networkEpochOf presetData currentNetworkEpoch - 1) >
      networkEpochOf presetData currentNetworkEpoch + presetData.votingKeyDesiredFutureLifetime
  · unfold networkEpochOf at hlong
    rw [if_pos hlong]
    rfl
  · have hkeep : (!updateVotingKey.getD presetData.autoUpdateVotingKeys &&
        decide ((filesIn readVotingFile (mkdir folder)).length > 0)) = true := by
      by_contra hadd
      have hsome := nextRequest_eq_some.mpr ⟨not_lt.mp hlong, add_of_not_keep hadd, rfl⟩
      rw [hnext] at hsome
      cases hsome
    unfold networkEpochOf at hlong
    rw [if_neg hlong, if_pos hkeep]
    rfl

variable (voting provider) in
/-- A run that has one to ask for adds it to a numbered folder. -/
theorem NumberedFolder.runProvided_some (h : NumberedFolder readVotingFile (mkdir folder))
    (hlist : ∀ entries, (readdirSync entries).Perm entries)
    (hlifetime : 1 ≤ presetData.votingKeyDesiredLifetime)
    (hfuture : presetData.votingKeyDesiredFutureLifetime ≤ presetData.votingKeyDesiredLifetime)
    {request : VotingKeyRequest}
    (hnext : nextRequest presetData currentNetworkEpoch updateVotingKey
      (filesIn readVotingFile (mkdir folder)) = some request)
    {content : Content} {publicKey : String}
    (hprovided : provider request.votingKeyStartEpoch request.votingKeyEndEpoch = .ok content)
    (hread : readVotingFile content =
      .ok ⟨request.votingKeyStartEpoch, request.votingKeyEndEpoch, publicKey⟩) :
    ∃ written, written = mkdir folder ++ [⟨request.privateKeyTreeFileName, true, content⟩] ∧
      NumberedFolder readVotingFile written ∧
      filesIn readVotingFile written = filesIn readVotingFile (mkdir folder) ++
        [⟨⟨request.votingKeyStartEpoch, request.votingKeyEndEpoch, publicKey⟩,
          request.privateKeyTreeFileName⟩] ∧
      runProvided readVotingFile readdirSync provider presetData true folder voting
          currentNetworkEpoch updateVotingKey =
        .ok ⟨some written, filesIn readVotingFile written, true⟩ := by
  have hvalid : ¬ presetData.votingKeyDesiredFutureLifetime >
      presetData.votingKeyDesiredLifetime := by omega
  have hlength : (filesIn readVotingFile (mkdir folder)).length = (mkdir folder).length := by
    rw [filesIn, List.length_map]
  obtain ⟨hshort, hadd, rfl⟩ := nextRequest_eq_some.mp hnext
  clear hnext
  generalize hmax : max (lastEndEpoch (filesIn readVotingFile (mkdir folder)))
    (networkEpochOf presetData currentNetworkEpoch - 1) = lastEpoch at hshort hprovided hread
  simp only [hlength] at hprovided hread ⊢
  have hlater : lastEndEpoch (filesIn readVotingFile (mkdir folder)) < lastEpoch + 1 := by
    omega
  have hproper : lastEpoch + 1 ≤ lastEpoch + presetData.votingKeyDesiredLifetime := by omega
  obtain ⟨hwritten, hfiles⟩ := h.write hread hlater hproper
  refine ⟨_, rfl, hwritten, hfiles, ?_⟩
  have hkeep : ¬ (!updateVotingKey.getD presetData.autoUpdateVotingKeys &&
      decide ((filesIn readVotingFile (mkdir folder)).length > 0)) = true := by
    rcases hadd with hupdate | hnone
    · simp [hupdate]
    · simp [hnone]
  unfold networkEpochOf at hmax hshort
  simp only [runProvided, Bool.not_true, Bool.false_eq_true, ↓reduceIte, hvalid, h.deleteFile,
    h.load hlist]
  change (if _ then _ else if _ then _ else _) = _
  rw [hmax, if_neg (by omega), if_neg hkeep, hlength]
  simp only [hprovided]
  change (loadVotingFiles readVotingFile readdirSync (some (writeFile _ _ _))).bind _ = _
  rw [h.writeFile_eq, hwritten.load hlist]
  rfl

end Provided

variable (createVotingFile voting) in
theorem NumberedFolder.run_none (h : NumberedFolder readVotingFile (mkdir folder))
    (hlist : ∀ entries, (readdirSync entries).Perm entries)
    (hfuture : presetData.votingKeyDesiredFutureLifetime ≤ presetData.votingKeyDesiredLifetime)
    (hnext : nextRequest presetData currentNetworkEpoch updateVotingKey
      (filesIn readVotingFile (mkdir folder)) = none) :
    run readVotingFile readdirSync createVotingFile presetData true folder voting
        currentNetworkEpoch updateVotingKey =
      .ok ⟨some (mkdir folder), filesIn readVotingFile (mkdir folder), false⟩ := by
  exact h.runProvided_none voting _ hlist hfuture hnext

variable (createVotingFile voting) in
theorem NumberedFolder.run_some (h : NumberedFolder readVotingFile (mkdir folder))
    (hlist : ∀ entries, (readdirSync entries).Perm entries)
    (hlifetime : 1 ≤ presetData.votingKeyDesiredLifetime)
    (hfuture : presetData.votingKeyDesiredFutureLifetime ≤ presetData.votingKeyDesiredLifetime)
    (hprovider : ∀ first last, first ≤ last →
      ∃ publicKey, readVotingFile (createVotingFile first last) = .ok ⟨first, last, publicKey⟩)
    {request : VotingKeyRequest}
    (hnext : nextRequest presetData currentNetworkEpoch updateVotingKey
      (filesIn readVotingFile (mkdir folder)) = some request) :
    ∃ written file, NumberedFolder readVotingFile written ∧
      filesIn readVotingFile written = filesIn readVotingFile (mkdir folder) ++ [file] ∧
      file.startEpoch = request.votingKeyStartEpoch ∧
      file.endEpoch = request.votingKeyEndEpoch ∧
      run readVotingFile readdirSync createVotingFile presetData true folder voting
          currentNetworkEpoch updateVotingKey =
        .ok ⟨some written, filesIn readVotingFile written, true⟩ := by
  obtain ⟨-, -, hrequest⟩ := nextRequest_eq_some.mp hnext
  have hproper : request.votingKeyStartEpoch ≤ request.votingKeyEndEpoch := by
    rw [hrequest]
    dsimp only
    omega
  obtain ⟨publicKey, hread⟩ := hprovider _ _ hproper
  obtain ⟨written, -, hwritten, hfiles, hrun⟩ := h.runProvided_some voting
    (fun first last => .ok (createVotingFile first last)) hlist hlifetime hfuture hnext rfl hread
  exact ⟨written, _, hwritten, hfiles, rfl, rfl, hrun⟩

end Run

end SymbolBootstrap.VotingFolders
