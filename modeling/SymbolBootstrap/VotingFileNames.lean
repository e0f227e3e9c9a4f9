import SymbolBootstrap.Library.Throwing
import SymbolBootstrap.VotingService

/-!
The name of the next voting key file. It is made from the number of voting key files in
the folder, not from their names, so a file is lost exactly when one is due and a file of
the folder has that name. In the folders that runs alone have written it is free.
-/
namespace SymbolBootstrap.VotingFileNames

open Library.Throwing LinkService VotingUtils VotingService

section Folder

variable {Content : Type} {readVotingFile : Content → Except String VotingKeyAccount}
  {readdirSync : List (DirEntry Content) → List (DirEntry Content)}

/-- A file named as voting key files are, whatever stands between. -/
def isVotingFile (entry : DirEntry Content) : Bool :=
  entry.isFile && startsWith entry.filename "private_key_tree" &&
    endsWith entry.filename ".dat"

theorem loadEntry_isSome {entry : DirEntry Content} {loaded : Option VotingKeyFile}
    (h : loadEntry readVotingFile entry = .ok loaded) : loaded.isSome = isVotingFile entry := by
  unfold loadEntry at h
  by_cases hvoting : isVotingFile entry = true
  · rw [isVotingFile] at hvoting
    rw [if_pos hvoting] at h
    obtain ⟨account, _, hpure⟩ := bind_ok.mp h
    cases hpure
    exact hvoting.symm
  · have hother : isVotingFile entry = false := by simpa using hvoting
    rw [isVotingFile] at hother
    rw [if_neg (by simp [hother])] at h
    cases h
    exact hother.symm

theorem loaded_length {listed : List (DirEntry Content)} {loaded : List (Option VotingKeyFile)}
    (h : List.Forall₂ (fun entry file => loadEntry readVotingFile entry = .ok file) listed
      loaded) : (loaded.filterMap id).length = listed.countP isVotingFile := by
  induction h with
  | nil => rfl
  | @cons entry file _ _ hentry _ ih =>
    have hvoting := loadEntry_isSome hentry
    cases file with
    | none =>
      have hother : ¬ isVotingFile entry = true := by simp [← hvoting]
      rw [List.countP_cons_of_neg hother, ← ih]
      rfl
    | some file =>
      rw [List.countP_cons_of_pos hvoting.symm, ← ih]
      rfl

/-- As many files are loaded as there are voting key files in the folder. -/
theorem loadVotingFiles_length (hlist : ∀ entries, (readdirSync entries).Perm entries)
    {entries : List (DirEntry Content)} {files : List VotingKeyFile}
    (h : loadVotingFiles readVotingFile readdirSync (some entries) = .ok files) :
    files.length = entries.countP isVotingFile := by
  obtain ⟨loaded, hloaded, hpure⟩ := bind_ok.mp h
  cases hpure
  rw [sortByStartEpoch, List.length_mergeSort, loaded_length (mapM_ok.mp hloaded)]
  exact (hlist entries).countP_eq isVotingFile

/-- The metadata file is no voting key file. -/
theorem isVotingFile_metadata {entry : DirEntry Content} (h : entry.filename = "metadata.yml") :
    isVotingFile entry = false := by
  have hstart : startsWith "metadata.yml" "private_key_tree" = false := by decide
  simp only [isVotingFile, h, hstart, Bool.and_false, Bool.false_and]

theorem mem_deleteFile {entry : DirEntry Content} {entries : List (DirEntry Content)}
    (hentry : entry ∈ entries) (hvoting : isVotingFile entry = true) :
    entry ∈ deleteFile "metadata.yml" entries := by
  refine List.mem_filter.mpr ⟨hentry, ?_⟩
  have hother : entry.filename ≠ "metadata.yml" := by
    intro heq
    rw [isVotingFile_metadata heq] at hvoting
    exact Bool.noConfusion hvoting
  simp only [beq_eq_false_iff_ne.mpr hother, Bool.and_false, Bool.not_false]

theorem countP_deleteFile (entries : List (DirEntry Content)) :
    (deleteFile "metadata.yml" entries).countP isVotingFile = entries.countP isVotingFile := by
  rw [deleteFile, List.countP_filter]
  apply List.countP_congr
  intro entry hentry
  constructor
  · intro h
    exact ((Bool.and_eq_true _ _).mp h).1
  · intro hvoting
    have hkept := (List.mem_filter.mp (mem_deleteFile hentry hvoting)).2
    simp only [hvoting, hkept, Bool.and_self]

/-- Writing a file leaves all entries of another name as they are. -/
theorem mem_writeFile {filename : String} {content : Content} {entry : DirEntry Content}
    {entries : List (DirEntry Content)} (hentry : entry ∈ entries)
    (hother : entry.filename ≠ filename) : entry ∈ writeFile filename content entries := by
  refine List.mem_append_left _ (List.mem_filter.mpr ⟨hentry, ?_⟩)
  simp only [beq_eq_false_iff_ne.mpr hother, Bool.not_false]

theorem startsWith_append (start middle ending : String) :
    startsWith (start ++ middle ++ ending) start = true := by
  simp only [startsWith, String.toList_append, List.append_assoc]
  exact List.isPrefixOf_iff_prefix.mpr (List.prefix_append _ _)

theorem endsWith_append (start ending : String) : endsWith (start ++ ending) ending = true := by
  simp only [endsWith, String.toList_append]
  exact List.isSuffixOf_iff_suffix.mpr (List.suffix_append _ _)

/-- A file with a name of the source's making is a voting key file. -/
theorem isVotingFile_named {entry : DirEntry Content} {number : ℕ}
    (hname : entry.filename = privateKeyTreeFileName number) :
    isVotingFile entry = entry.isFile := by
  have hstart : startsWith (privateKeyTreeFileName number) "private_key_tree" = true :=
    startsWith_append _ _ _
  have hend : endsWith (privateKeyTreeFileName number) ".dat" = true := endsWith_append _ _
  simp only [isVotingFile, hname, hstart, hend, Bool.and_true]

/-- The name that the number of voting key files leads to is not taken. -/
def NextNameFree (entries : List (DirEntry Content)) : Prop :=
  ∀ entry ∈ entries, entry.isFile = true →
    entry.filename ≠ privateKeyTreeFileName (entries.countP isVotingFile + 1)

instance (entries : List (DirEntry Content)) : Decidable (NextNameFree entries) :=
  inferInstanceAs (Decidable (∀ entry ∈ entries, entry.isFile = true →
    entry.filename ≠ privateKeyTreeFileName (entries.countP isVotingFile + 1)))

end Folder

section Request

/-- What a run asks the provider for. -/
structure VotingKeyRequest where
  privateKeyTreeFileName : String
  votingKeyStartEpoch : ℕ
  votingKeyEndEpoch : ℕ
deriving DecidableEq, Repr

variable {Content : Type} (readVotingFile : Content → Except String VotingKeyAccount)
  (readdirSync : List (DirEntry Content) → List (DirEntry Content))
  (createVotingFile : ℕ → ℕ → Content) (presetData : VotingPreset) (nodeIsVoting : Bool)
  (folder : Option (List (DirEntry Content))) (currentNetworkEpoch : Option ℕ)
  (updateVotingKey : Option Bool)

def networkEpochOf : ℕ :=
  ((truthy currentNetworkEpoch).or (truthy presetData.lastKnownNetworkEpoch)).getD 1

/-- What a run asks for once it has loaded the voting files: nothing while they last long
enough, or when a file is there and none is to be added. -/
def nextRequest (currentVotingFiles : List VotingKeyFile) : Option VotingKeyRequest :=
  let networkEpoch := networkEpochOf presetData currentNetworkEpoch
  let update := updateVotingKey.getD presetData.autoUpdateVotingKeys
  let maxVotingKeyEndEpoch := max (lastEndEpoch currentVotingFiles) (networkEpoch - 1)
  if maxVotingKeyEndEpoch > networkEpoch + presetData.votingKeyDesiredFutureLifetime then none
  else if !update && decide (currentVotingFiles.length > 0) then none
  else
    some ⟨privateKeyTreeFileName (currentVotingFiles.length + 1), maxVotingKeyEndEpoch + 1,
      maxVotingKeyEndEpoch + presetData.votingKeyDesiredLifetime⟩

/-- A run up to the call of the provider. -/
def votingKeyRequest : Except String (Option VotingKeyRequest) :=
  if !nodeIsVoting then return none
  else if presetData.votingKeyDesiredFutureLifetime > presetData.votingKeyDesiredLifetime then
    throw ("votingKeyDesiredFutureLifetime (" ++
      toString presetData.votingKeyDesiredFutureLifetime ++
      ") cannot be greater than votingKeyDesiredLifetime (" ++
      toString presetData.votingKeyDesiredLifetime ++ ")")
  else do
    let entries := deleteFile "metadata.yml" (mkdir folder)
    let currentVotingFiles ← loadVotingFiles readVotingFile readdirSync (some entries)
    return nextRequest presetData currentNetworkEpoch updateVotingKey currentVotingFiles

/-- The folder when the run is over, also when the run throws. -/
def folderAfter : Option (List (DirEntry Content)) :=
  if !nodeIsVoting ||
      decide (presetData.votingKeyDesiredFutureLifetime > presetData.votingKeyDesiredLifetime) then
    folder
  else
    let entries := deleteFile "metadata.yml" (mkdir folder)
    match votingKeyRequest readVotingFile readdirSync presetData nodeIsVoting folder
        currentNetworkEpoch updateVotingKey with
    | .ok (some request) =>
        some (writeFile request.privateKeyTreeFileName
          (createVotingFile request.votingKeyStartEpoch request.votingKeyEndEpoch) entries)
    | .ok none => some entries
    | .error _ => some entries

/-- A run that returns has made the request, and leaves that folder. -/
theorem run_ok {voting : List VotingKeyFile} {result : VotingRun Content}
    (h : run readVotingFile readdirSync createVotingFile presetData nodeIsVoting folder voting
      currentNetworkEpoch updateVotingKey = .ok result) :
    (∃ request, votingKeyRequest readVotingFile readdirSync presetData nodeIsVoting folder
        currentNetworkEpoch updateVotingKey = .ok request ∧ result.created = request.isSome) ∧
      result.folder = folderAfter readVotingFile readdirSync createVotingFile presetData
        nodeIsVoting folder currentNetworkEpoch updateVotingKey := by
  cases nodeIsVoting with
  | false =>
    cases h
    exact ⟨⟨none, rfl, rfl⟩, rfl⟩
  | true =>
    by_cases hlifetime :
        presetData.votingKeyDesiredFutureLifetime > presetData.votingKeyDesiredLifetime
    · simp only [run, runProvided, hlifetime, Bool.not_true, Bool.false_eq_true, ↓reduceIte] at h
      cases h
    · simp only [run, runProvided, hlifetime, Bool.not_true, Bool.false_eq_true, ↓reduceIte] at h
      obtain ⟨files, hload, h⟩ := bind_ok.mp h
      have hrequest : votingKeyRequest readVotingFile readdirSync presetData true folder
          currentNetworkEpoch updateVotingKey =
          .ok (nextRequest presetData currentNetworkEpoch updateVotingKey files) := by
        simp only [votingKeyRequest, hlifetime, Bool.not_true, Bool.false_eq_true, ↓reduceIte,
          hload]
        rfl
      refine ⟨⟨_, hrequest, ?_⟩, ?_⟩
      all_goals
        simp only [folderAfter, hrequest, nextRequest, networkEpochOf, hlifetime, Bool.not_true,
          decide_false, Bool.or_false, Bool.false_eq_true, ↓reduceIte]
        split at h
        · rename_i hlong
          cases h
          simp only [hlong, ↓reduceIte, Option.isSome_none]
        · rename_i hshort
          split at h
          · rename_i hkeep
            cases h
            simp only [hshort, hkeep, ↓reduceIte, Option.isSome_none]
          · rename_i hdue
            obtain ⟨content, hcontent, h⟩ := bind_ok.mp h
            cases hcontent
            obtain ⟨reloaded, _, hpure⟩ := bind_ok.mp h
            cases hpure
            simp only [hshort, hdue, ↓reduceIte, Option.isSome_some, Bool.false_eq_true]

/-- A file is due: the node is voting, its files can be read and do not last long enough,
and either a file may be added or there is none. -/
structure FileDue : Prop where
  voting : nodeIsVoting = true
  lifetime : presetData.votingKeyDesiredFutureLifetime ≤ presetData.votingKeyDesiredLifetime
  ending : ∃ files, loadVotingFiles readVotingFile readdirSync
      (some (deleteFile "metadata.yml" (mkdir folder))) = .ok files ∧
    max (lastEndEpoch files) (networkEpochOf presetData currentNetworkEpoch - 1) ≤
      networkEpochOf presetData currentNetworkEpoch + presetData.votingKeyDesiredFutureLifetime ∧
    (updateVotingKey.getD presetData.autoUpdateVotingKeys = true ∨ files = [])

/-- The name that a run asks the provider for is not that of a file in the folder, and the
voting key files of the folder are in it after the run. -/
def NeverOverwrites : Prop :=
  (∀ request, votingKeyRequest readVotingFile readdirSync presetData nodeIsVoting folder
      currentNetworkEpoch updateVotingKey = .ok (some request) →
    ∀ entry ∈ folder.getD [], entry.isFile = true →
      entry.filename ≠ request.privateKeyTreeFileName) ∧
  ∀ entry ∈ folder.getD [], isVotingFile entry = true →
    entry ∈ (folderAfter readVotingFile readdirSync createVotingFile presetData nodeIsVoting
      folder currentNetworkEpoch updateVotingKey).getD []

variable {readVotingFile readdirSync presetData nodeIsVoting folder currentNetworkEpoch
  updateVotingKey}

/-- A file may be added unless there is one and no update is asked for. -/
theorem add_of_not_keep {files : List VotingKeyFile}
    (h : ¬ (!updateVotingKey.getD presetData.autoUpdateVotingKeys &&
      decide (files.length > 0)) = true) :
    updateVotingKey.getD presetData.autoUpdateVotingKeys = true ∨ files = [] := by
  by_contra hneither
  obtain ⟨hupdate, hfiles⟩ := not_or.mp hneither
  have hlength := List.length_pos_iff.mpr hfiles
  simp [hupdate, hlength] at h

theorem nextRequest_eq_some {files : List VotingKeyFile} {request : VotingKeyRequest} :
    nextRequest presetData currentNetworkEpoch updateVotingKey files = some request ↔
      max (lastEndEpoch files) (networkEpochOf presetData currentNetworkEpoch - 1) ≤
        networkEpochOf presetData currentNetworkEpoch +
          presetData.votingKeyDesiredFutureLifetime ∧
      (updateVotingKey.getD presetData.autoUpdateVotingKeys = true ∨ files = []) ∧
      request = ⟨privateKeyTreeFileName (files.length + 1),
        max (lastEndEpoch files) (networkEpochOf presetData currentNetworkEpoch - 1) + 1,
        max (lastEndEpoch files) (networkEpochOf presetData currentNetworkEpoch - 1) +
          presetData.votingKeyDesiredLifetime⟩ := by
  simp only [nextRequest]
  by_cases hlong : max (lastEndEpoch files) (networkEpochOf presetData currentNetworkEpoch - 1) >
      networkEpochOf presetData currentNetworkEpoch + presetData.votingKeyDesiredFutureLifetime
  · rw [if_pos hlong]
    exact iff_of_false (by simp) (fun h => absurd h.1 (not_le.mpr hlong))
  · rw [if_neg hlong]
    by_cases hkeep : (!updateVotingKey.getD presetData.autoUpdateVotingKeys &&
        decide (files.length > 0)) = true
    · rw [if_pos hkeep]
      refine iff_of_false (by simp) fun h => ?_
      rcases h.2.1 with hupdate | rfl
      · simp [hupdate] at hkeep
      · simp at hkeep
    · rw [if_neg hkeep, Option.some.injEq]
      exact ⟨fun h => ⟨not_lt.mp hlong, add_of_not_keep hkeep, h.symm⟩, fun h => h.2.2.symm⟩

/-- A request is only made by a voting node whose files can be read. -/
theorem votingKeyRequest_eq_some {request : VotingKeyRequest} :
    votingKeyRequest readVotingFile readdirSync presetData nodeIsVoting folder
        currentNetworkEpoch updateVotingKey = .ok (some request) ↔
      nodeIsVoting = true ∧
      presetData.votingKeyDesiredFutureLifetime ≤ presetData.votingKeyDesiredLifetime ∧
      ∃ files, loadVotingFiles readVotingFile readdirSync
          (some (deleteFile "metadata.yml" (mkdir folder))) = .ok files ∧
        nextRequest presetData currentNetworkEpoch updateVotingKey files = some request := by
  cases nodeIsVoting with
  | false => exact iff_of_false nofun (fun h => Bool.noConfusion h.1)
  | true =>
    by_cases hlifetime :
        presetData.votingKeyDesiredFutureLifetime > presetData.votingKeyDesiredLifetime
    · simp only [votingKeyRequest, Bool.not_true, Bool.false_eq_true, ↓reduceIte, hlifetime]
      exact iff_of_false nofun (fun h => absurd h.2.1 (not_le.mpr hlifetime))
    · simp only [votingKeyRequest, Bool.not_true, Bool.false_eq_true, ↓reduceIte, hlifetime,
        bind_ok, true_and, not_lt.mp hlifetime]
      exact ⟨fun ⟨files, hload, hpure⟩ => ⟨files, hload, Except.ok.inj hpure⟩,
        fun ⟨files, hload, hnext⟩ => ⟨files, hload, congrArg Except.ok hnext⟩⟩

theorem exists_request (h : FileDue readVotingFile readdirSync presetData nodeIsVoting folder
      currentNetworkEpoch updateVotingKey) :
    ∃ request, votingKeyRequest readVotingFile readdirSync presetData nodeIsVoting folder
      currentNetworkEpoch updateVotingKey = .ok (some request) := by
  obtain ⟨files, hload, hshort, hadd⟩ := h.ending
  exact ⟨_, votingKeyRequest_eq_some.mpr ⟨h.voting, h.lifetime, files, hload,
    nextRequest_eq_some.mpr ⟨hshort, hadd, rfl⟩⟩⟩

/-- A request is only made when a file is due, and for the name after the last number. -/
theorem request_ok (hlist : ∀ entries, (readdirSync entries).Perm entries)
    {request : VotingKeyRequest}
    (h : votingKeyRequest readVotingFile readdirSync presetData nodeIsVoting folder
      currentNetworkEpoch updateVotingKey = .ok (some request)) :
    FileDue readVotingFile readdirSync presetData nodeIsVoting folder currentNetworkEpoch
        updateVotingKey ∧
      request.privateKeyTreeFileName =
        privateKeyTreeFileName ((folder.getD []).countP isVotingFile + 1) := by
  obtain ⟨hvoting, hlifetime, files, hload, hnext⟩ := votingKeyRequest_eq_some.mp h
  obtain ⟨hshort, hadd, rfl⟩ := nextRequest_eq_some.mp hnext
  refine ⟨⟨hvoting, hlifetime, files, hload, hshort, hadd⟩, ?_⟩
  rw [loadVotingFiles_length hlist hload, countP_deleteFile, mkdir]

theorem mem_folderAfter_of_free
    {entry : DirEntry Content} (hentry : entry ∈ folder.getD [])
    (hvoting : isVotingFile entry = true)
    (hfree : ∀ request, votingKeyRequest readVotingFile readdirSync presetData nodeIsVoting folder
        currentNetworkEpoch updateVotingKey = .ok (some request) →
      entry.filename ≠ request.privateKeyTreeFileName) :
    entry ∈ (folderAfter readVotingFile readdirSync createVotingFile presetData nodeIsVoting
      folder currentNetworkEpoch updateVotingKey).getD [] := by
  have hkept := mem_deleteFile hentry hvoting
  unfold folderAfter
  split
  · exact hentry
  · split
    · rename_i request hrequest
      exact mem_writeFile hkept (hfree request hrequest)
    · exact hkept
    · exact hkept

/-- A run never overwrites a file exactly when, if a file is due, no file has the number
after the number of voting key files. -/
theorem never_overwrites_exactly (readVotingFile : Content → Except String VotingKeyAccount)
    (readdirSync : List (DirEntry Content) → List (DirEntry Content))
    (createVotingFile : ℕ → ℕ → Content) (presetData : VotingPreset) (nodeIsVoting : Bool)
    (folder : Option (List (DirEntry Content))) (currentNetworkEpoch : Option ℕ)
    (updateVotingKey : Option Bool) (hlist : ∀ entries, (readdirSync entries).Perm entries) :
    NeverOverwrites readVotingFile readdirSync createVotingFile presetData nodeIsVoting folder
        currentNetworkEpoch updateVotingKey ↔
      (FileDue readVotingFile readdirSync presetData nodeIsVoting folder currentNetworkEpoch
        updateVotingKey → NextNameFree (folder.getD [])) := by
  constructor
  · rintro ⟨hnames, _⟩ hdue entry hentry hfile
    obtain ⟨request, hrequest⟩ := exists_request hdue
    rw [← (request_ok hlist hrequest).2]
    exact hnames request hrequest entry hentry hfile
  · intro hfree
    have hnames : ∀ request, votingKeyRequest readVotingFile readdirSync presetData nodeIsVoting
        folder currentNetworkEpoch updateVotingKey = .ok (some request) →
        ∀ entry ∈ folder.getD [], entry.isFile = true →
          entry.filename ≠ request.privateKeyTreeFileName := by
      intro request hrequest entry hentry hfile
      obtain ⟨hdue, hname⟩ := request_ok hlist hrequest
      rw [hname]
      exact hfree hdue entry hentry hfile
    refine ⟨hnames, fun entry hentry hvoting => ?_⟩
    refine mem_folderAfter_of_free createVotingFile hentry hvoting fun request hrequest => ?_
    have hfile : entry.isFile = true := by
      rw [isVotingFile, Bool.and_eq_true, Bool.and_eq_true] at hvoting
      exact hvoting.1.1
    exact hnames request hrequest entry hentry hfile

/-- A folder with the first file, and another one whose own number is free. -/
theorem never_overwrites_exactly_small :
    NeverOverwrites Except.ok id (fun start last => ⟨start, last, "C3"⟩) ⟨none, false, 10, 5⟩ true
      (some [⟨"private_key_tree1.dat", true, ⟨1, 10, "A1"⟩⟩,
        ⟨"private_key_tree_manual.dat", true, ⟨11, 12, "B2"⟩⟩]) (some 10) (some true) :=
  (never_overwrites_exactly Except.ok id (fun start last => ⟨start, last, "C3"⟩)
    ⟨none, false, 10, 5⟩ true
    (some [⟨"private_key_tree1.dat", true, ⟨1, 10, "A1"⟩⟩,
      ⟨"private_key_tree_manual.dat", true, ⟨11, 12, "B2"⟩⟩]) (some 10) (some true)
    (fun entries => List.Perm.refl entries)).mpr (fun _ => by decide +kernel)

/-- The first file was deleted when it had ended; the next one takes the place of the
second. -/
theorem second_file_overwritten :
    ¬ ∀ (presetData : VotingPreset) (nodeIsVoting : Bool)
      (folder : Option (List (DirEntry VotingKeyAccount))) (currentNetworkEpoch : Option ℕ)
      (updateVotingKey : Option Bool),
      NeverOverwrites Except.ok id (fun start last => ⟨start, last, "C3"⟩) presetData
        nodeIsVoting folder currentNetworkEpoch updateVotingKey := by
  intro h
  let second : DirEntry VotingKeyAccount :=
    ⟨"private_key_tree2.dat", true, ⟨11, 20, "B2"⟩⟩
  have hnever := h ⟨none, false, 10, 5⟩ true (some [second]) (some 18) (some true)
  let file : VotingKeyFile := ⟨⟨11, 20, "B2"⟩, "private_key_tree2.dat"⟩
  have hdelete : deleteFile "metadata.yml" [second] = [second] := by decide +kernel
  have hentry : loadEntry Except.ok second = .ok (some file) := by
    rw [loadEntry, if_pos (by decide +kernel)]
    rfl
  have hload : loadVotingFiles Except.ok id (some (deleteFile "metadata.yml" [second])) =
      .ok [file] := by
    rw [hdelete]
    refine bind_ok.mpr ⟨[some file], mapM_ok.mpr (.cons hentry .nil), ?_⟩
    exact congrArg Except.ok (List.mergeSort_singleton file)
  have hdue : FileDue Except.ok id ⟨none, false, 10, 5⟩ true (some [second]) (some 18)
      (some true) := ⟨rfl, by decide, _, hload, by decide, Or.inl rfl⟩
  obtain ⟨request, hrequest⟩ := exists_request hdue
  have hname := (request_ok (fun entries => List.Perm.refl entries) hrequest).2
  refine hnever.1 request hrequest second List.mem_cons_self rfl ?_
  rw [hname]
  decide +kernel

end Request
end SymbolBootstrap.VotingFileNames
