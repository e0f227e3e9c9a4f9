import SymbolBootstrap.Library.StableSort
import SymbolBootstrap.VotingFileNames

/-!
The epochs of the next voting key file. They follow the end of the file that starts last,
not the latest end of all files, so a file that starts earlier and lasts longer is only
left behind when it has ended before the network epoch. Where the files start and end in
the same order nothing overlaps the next one.
-/
namespace SymbolBootstrap.VotingContinuation

open Library Library.Throwing LinkService VotingUtils VotingService VotingFileNames

section Folder

variable {Content : Type} (readVotingFile : Content → Except String VotingKeyAccount)
  (readdirSync : List (DirEntry Content) → List (DirEntry Content))

/-- The voting files of a folder in the order in which it is listed. -/
def listVotingFiles (entries : List (DirEntry Content)) : Except String (List VotingKeyFile) := do
  let loaded ← (readdirSync entries).mapM (loadEntry readVotingFile)
  return loaded.filterMap id

variable {readVotingFile readdirSync}

theorem loadVotingFiles_ok {entries : List (DirEntry Content)} {files : List VotingKeyFile} :
    loadVotingFiles readVotingFile readdirSync (some entries) = .ok files ↔
      ∃ listed, listVotingFiles readVotingFile readdirSync entries = .ok listed ∧
        files = sortByStartEpoch listed := by
  simp only [loadVotingFiles, listVotingFiles, bind_ok]
  constructor
  · rintro ⟨loaded, hloaded, hpure⟩
    cases hpure
    exact ⟨_, ⟨loaded, hloaded, rfl⟩, rfl⟩
  · rintro ⟨listed, ⟨loaded, hloaded, hpure⟩, rfl⟩
    cases hpure
    exact ⟨loaded, hloaded, rfl⟩

/-- A voting file is listed when an entry of the folder is loaded as it. -/
theorem mem_listVotingFiles (hlist : ∀ entries, (readdirSync entries).Perm entries)
    {entries : List (DirEntry Content)} {listed : List VotingKeyFile}
    (h : listVotingFiles readVotingFile readdirSync entries = .ok listed) {file : VotingKeyFile} :
    file ∈ listed ↔ ∃ entry ∈ entries, loadEntry readVotingFile entry = .ok (some file) := by
  obtain ⟨loaded, hloaded, hpure⟩ := bind_ok.mp h
  cases hpure
  simp only [List.mem_filterMap, id_eq, exists_eq_right, mem_mapM_ok hloaded]
  exact exists_congr fun entry => and_congr_left fun _ => (hlist entries).mem_iff

theorem loadEntry_account {entry : DirEntry Content} {file : VotingKeyFile}
    (h : loadEntry readVotingFile entry = .ok (some file)) :
    readVotingFile entry.content = .ok file.toVotingKeyAccount := by
  unfold loadEntry at h
  split at h
  · obtain ⟨account, hread, hpure⟩ := bind_ok.mp h
    cases hpure
    exact hread
  · cases h

/-- The file of a list that starts last; of several, the one that comes last. -/
def StartsLast (listed : List VotingKeyFile) (last : VotingKeyFile) : Prop :=
  StableSort.LastMaximal (fun file : VotingKeyFile => file.startEpoch) listed last

theorem lastEndEpoch_eq {listed : List VotingKeyFile} {last : VotingKeyFile}
    (h : StartsLast listed last) : lastEndEpoch (sortByStartEpoch listed) = last.endEpoch := by
  have hlast : (sortByStartEpoch listed).getLast? = some last :=
    (StableSort.getLast?_mergeSort _).mpr h
  rw [lastEndEpoch, hlast, Option.map_some, Option.getD_some]

theorem exists_startsLast {listed : List VotingKeyFile} {file : VotingKeyFile}
    (h : file ∈ listed) : ∃ last, StartsLast listed last := by
  cases hlast : (sortByStartEpoch listed).getLast? with
  | none =>
    have hmem : file ∈ sortByStartEpoch listed := List.mem_mergeSort.mpr h
    rw [List.getLast?_eq_none_iff.mp hlast] at hmem
    exact absurd hmem List.not_mem_nil
  | some last => exact ⟨last, (StableSort.getLast?_mergeSort _).mp hlast⟩

/-- A file that ends later than the one that starts last has ended by the network epoch. -/
def EndsInOrder (networkEpoch : ℕ) (listed : List VotingKeyFile) : Prop :=
  ∀ last, StartsLast listed last → ∀ file ∈ listed,
    last.endEpoch < file.endEpoch → file.endEpoch < networkEpoch

/-- Files that end in the order in which they start are such. -/
theorem endsInOrder_of_mono {networkEpoch : ℕ} {listed : List VotingKeyFile}
    (h : ∀ x ∈ listed, ∀ y ∈ listed, x.startEpoch ≤ y.startEpoch → x.endEpoch ≤ y.endEpoch) :
    EndsInOrder networkEpoch listed := by
  intro last hlast file hfile hlonger
  have hstart : file.startEpoch ≤ last.startEpoch := hlast.le _ hfile
  obtain ⟨before, after, rfl, -, -⟩ := hlast
  have hend := h file hfile last (List.mem_append_right before List.mem_cons_self) hstart
  omega

end Folder

section Continuation

variable {Content : Type} (readVotingFile : Content → Except String VotingKeyAccount)
  (readdirSync : List (DirEntry Content) → List (DirEntry Content)) (presetData : VotingPreset)
  (nodeIsVoting : Bool) (folder : Option (List (DirEntry Content)))
  (currentNetworkEpoch : Option ℕ) (updateVotingKey : Option Bool)

/-- The file that a run asks for starts after every voting file of the folder has ended and
not before the network epoch, and lasts the desired number of epochs. -/
def ContinuesFiles : Prop :=
  ∀ request, votingKeyRequest readVotingFile readdirSync presetData nodeIsVoting folder
      currentNetworkEpoch updateVotingKey = .ok (some request) →
    (∀ entry ∈ folder.getD [], ∀ file, loadEntry readVotingFile entry = .ok (some file) →
      file.endEpoch < request.votingKeyStartEpoch) ∧
    networkEpochOf presetData currentNetworkEpoch ≤ request.votingKeyStartEpoch ∧
    request.votingKeyEndEpoch + 1 =
      request.votingKeyStartEpoch + presetData.votingKeyDesiredLifetime

variable {readVotingFile readdirSync presetData nodeIsVoting folder currentNetworkEpoch
  updateVotingKey}

/-- The epochs of a request, by the file that starts last. -/
theorem request_epochs {request : VotingKeyRequest}
    (h : votingKeyRequest readVotingFile readdirSync presetData nodeIsVoting folder
      currentNetworkEpoch updateVotingKey = .ok (some request)) :
    ∃ listed, listVotingFiles readVotingFile readdirSync
        (deleteFile "metadata.yml" (mkdir folder)) = .ok listed ∧
      request.votingKeyStartEpoch = max (lastEndEpoch (sortByStartEpoch listed))
        (networkEpochOf presetData currentNetworkEpoch - 1) + 1 ∧
      request.votingKeyEndEpoch + 1 =
        request.votingKeyStartEpoch + presetData.votingKeyDesiredLifetime := by
  obtain ⟨-, -, files, hload, hnext⟩ := votingKeyRequest_eq_some.mp h
  obtain ⟨listed, hlisted, rfl⟩ := loadVotingFiles_ok.mp hload
  obtain ⟨-, -, rfl⟩ := nextRequest_eq_some.mp hnext
  refine ⟨listed, hlisted, rfl, ?_⟩
  show max _ _ + presetData.votingKeyDesiredLifetime + 1 =
    max _ _ + 1 + presetData.votingKeyDesiredLifetime
  omega

theorem loadEntry_of_deleteFile {entry : DirEntry Content} {file : VotingKeyFile}
    (hentry : entry ∈ folder.getD [])
    (hload : loadEntry readVotingFile entry = .ok (some file)) :
    entry ∈ deleteFile "metadata.yml" (mkdir folder) :=
  mem_deleteFile hentry (loadEntry_isSome hload).symm

/-- The next file continues the voting files exactly when, if a file is due, those that end
after the one that starts last have ended. -/
theorem continues_files_exactly (readVotingFile : Content → Except String VotingKeyAccount)
    (readdirSync : List (DirEntry Content) → List (DirEntry Content))
    (presetData : VotingPreset) (nodeIsVoting : Bool)
    (folder : Option (List (DirEntry Content))) (currentNetworkEpoch : Option ℕ)
    (updateVotingKey : Option Bool) (hlist : ∀ entries, (readdirSync entries).Perm entries) :
    ContinuesFiles readVotingFile readdirSync presetData nodeIsVoting folder
        currentNetworkEpoch updateVotingKey ↔
      (FileDue readVotingFile readdirSync presetData nodeIsVoting folder currentNetworkEpoch
          updateVotingKey → ∀ listed, listVotingFiles readVotingFile readdirSync
            (deleteFile "metadata.yml" (mkdir folder)) = .ok listed →
          EndsInOrder (networkEpochOf presetData currentNetworkEpoch) listed) := by
  constructor
  · intro hcontinues hdue listed hlisted last hlast file hfile hlonger
    obtain ⟨request, hrequest⟩ := exists_request hdue
    obtain ⟨listed', hlisted', hstart, -⟩ := request_epochs hrequest
    rw [hlisted] at hlisted'
    cases hlisted'
    obtain ⟨entry, hentry, hload⟩ := (mem_listVotingFiles hlist hlisted).mp hfile
    have hafter := (hcontinues request hrequest).1 entry (List.mem_of_mem_filter hentry) file hload
    rw [hstart, lastEndEpoch_eq hlast] at hafter
    omega
  · intro hordered request hrequest
    obtain ⟨listed, hlisted, hstart, hlasting⟩ := request_epochs hrequest
    have hinOrder := hordered (request_ok hlist hrequest).1 listed hlisted
    refine ⟨?_, ?_, hlasting⟩
    · intro entry hentry file hload
      have hfile := (mem_listVotingFiles hlist hlisted).mpr
        ⟨entry, loadEntry_of_deleteFile hentry hload, hload⟩
      obtain ⟨last, hlast⟩ := exists_startsLast hfile
      have hend := hinOrder last hlast file hfile
      rw [hstart, lastEndEpoch_eq hlast]
      omega
    · rw [hstart]
      omega

/-- A second file that follows the first one. -/
theorem continues_files_exactly_small :
    ContinuesFiles Except.ok id ⟨none, false, 10, 5⟩ true
      (some [⟨"private_key_tree1.dat", true, ⟨1, 10, "A1"⟩⟩]) (some 8) (some true) := by
  refine (continues_files_exactly Except.ok id ⟨none, false, 10, 5⟩ true
    (some [⟨"private_key_tree1.dat", true, ⟨1, 10, "A1"⟩⟩]) (some 8) (some true)
    (fun entries => List.Perm.refl entries)).mpr fun _ listed hlisted => ?_
  have hsame : ∀ file ∈ listed, file.endEpoch = 10 := by
    intro file hfile
    obtain ⟨entry, hentry, hload⟩ :=
      (mem_listVotingFiles (fun entries => List.Perm.refl entries) hlisted).mp hfile
    rw [List.mem_singleton.mp (List.mem_of_mem_filter hentry)] at hload
    have hread := Except.ok.inj (loadEntry_account hload)
    exact (congrArg VotingKeyAccount.endEpoch hread).symm
  refine endsInOrder_of_mono fun x hx y hy _ => ?_
  rw [hsame x hx, hsame y hy]

/-- A file within the epochs of another one: the next file overlaps the longer one. -/
theorem next_file_overlaps :
    ¬ ∀ (presetData : VotingPreset) (folder : Option (List (DirEntry VotingKeyAccount)))
      (currentNetworkEpoch : Option ℕ) (updateVotingKey : Option Bool),
      (∀ entry ∈ folder.getD [], entry.content.startEpoch ≤ entry.content.endEpoch) →
      ContinuesFiles Except.ok id presetData true folder currentNetworkEpoch
        updateVotingKey := by
  intro h
  let longer : DirEntry VotingKeyAccount := ⟨"private_key_tree1.dat", true, ⟨1, 100, "A1"⟩⟩
  let inner : DirEntry VotingKeyAccount := ⟨"private_key_tree2.dat", true, ⟨5, 10, "B2"⟩⟩
  let longerFile : VotingKeyFile := ⟨⟨1, 100, "A1"⟩, "private_key_tree1.dat"⟩
  let innerFile : VotingKeyFile := ⟨⟨5, 10, "B2"⟩, "private_key_tree2.dat"⟩
  have hcontinues := h ⟨none, false, 10, 5⟩ (some [longer, inner]) (some 8) (some true)
    (by decide)
  have hdelete : deleteFile "metadata.yml" [longer, inner] = [longer, inner] := by
    decide +kernel
  have hlonger : loadEntry Except.ok longer = .ok (some longerFile) := by
    rw [loadEntry, if_pos (by decide +kernel)]
    rfl
  have hinner : loadEntry Except.ok inner = .ok (some innerFile) := by
    rw [loadEntry, if_pos (by decide +kernel)]
    rfl
  have hlisted : listVotingFiles Except.ok id
      (deleteFile "metadata.yml" (mkdir (some [longer, inner]))) =
      .ok [longerFile, innerFile] := by
    show listVotingFiles Except.ok id (deleteFile "metadata.yml" [longer, inner]) = _
    rw [hdelete]
    exact bind_ok.mpr ⟨_, mapM_ok.mpr (.cons hlonger (.cons hinner .nil)), rfl⟩
  have hlast : StartsLast [longerFile, innerFile] innerFile :=
    ⟨[longerFile], [], rfl, by decide, by decide⟩
  have hdue : FileDue Except.ok id ⟨none, false, 10, 5⟩ true (some [longer, inner]) (some 8)
      (some true) := by
    refine ⟨rfl, by decide, _, loadVotingFiles_ok.mpr ⟨_, hlisted, rfl⟩, ?_, Or.inl rfl⟩
    rw [lastEndEpoch_eq hlast]
    decide
  obtain ⟨request, hrequest⟩ := exists_request hdue
  obtain ⟨listed, hlisted', hstart, -⟩ := request_epochs hrequest
  rw [hlisted] at hlisted'
  cases hlisted'
  have hafter := (hcontinues request hrequest).1 longer List.mem_cons_self longerFile hlonger
  rw [hstart, lastEndEpoch_eq hlast] at hafter
  exact absurd hafter (by decide)

end Continuation

end SymbolBootstrap.VotingContinuation
