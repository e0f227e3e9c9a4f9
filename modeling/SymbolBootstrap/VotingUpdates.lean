import SymbolBootstrap.VotingFolders

/-!
Updating the voting key files twice at the same epoch. The first run adds a file that ends
a lifetime after the last end; whether the second adds another one depends on that end
alone. A lifetime of at least two epochs more than the future lifetime always reaches far
enough, one that the service admits need not.
-/
namespace SymbolBootstrap.VotingUpdates

open LinkService VotingUtils VotingService VotingFileNames VotingFolders

section Updates

variable {Content : Type} (readVotingFile : Content → Except String VotingKeyAccount)
  (readdirSync : List (DirEntry Content) → List (DirEntry Content))
  (createVotingFile : ℕ → ℕ → ℕ → Content)

/-- The settings that the service accepts, with files of at least one epoch. -/
structure Admitted (presetData : VotingPreset) : Prop where
  lifetime : 1 ≤ presetData.votingKeyDesiredLifetime
  future : presetData.votingKeyDesiredFutureLifetime ≤ presetData.votingKeyDesiredLifetime

/-- The folders that runs leave behind, each at an epoch and with settings of its own. -/
inductive ReachableFolder : Option (List (DirEntry Content)) → Prop
  | missing : ReachableFolder none
  | empty : ReachableFolder (some [])
  | run {folder : Option (List (DirEntry Content))} {voting : List VotingKeyFile}
      {presetData : VotingPreset} {nodeIsVoting : Bool} {currentNetworkEpoch : Option ℕ}
      {updateVotingKey : Option Bool} {number : ℕ} {result : VotingRun Content}
      (hfolder : ReachableFolder folder) (hadmitted : Admitted presetData)
      (hrun : run readVotingFile readdirSync (createVotingFile number) presetData nodeIsVoting
        folder voting currentNetworkEpoch updateVotingKey = .ok result) :
      ReachableFolder result.folder

/-- When an update adds a file, an update after it at the same epoch succeeds and adds none,
whoever makes the files. -/
def OneUpdateEnough (presetData : VotingPreset) (nodeIsVoting : Bool)
    (folder : Option (List (DirEntry Content))) (currentNetworkEpoch : Option ℕ) : Prop :=
  ∀ number voting result,
    run readVotingFile readdirSync (createVotingFile number) presetData nodeIsVoting folder
        voting currentNetworkEpoch (some true) = .ok result →
    result.created = true →
    ∀ number', ∃ again,
      run readVotingFile readdirSync (createVotingFile number') presetData nodeIsVoting
          result.folder result.voting currentNetworkEpoch (some true) = .ok again ∧
        again.created = false

variable {readVotingFile readdirSync createVotingFile}

/-- Runs leave numbered folders. -/
theorem ReachableFolder.numbered {folder : Option (List (DirEntry Content))}
    (h : ReachableFolder readVotingFile readdirSync createVotingFile folder)
    (hlist : ∀ entries, (readdirSync entries).Perm entries)
    (hprovider : ∀ number first last, first ≤ last → ∃ publicKey,
      readVotingFile (createVotingFile number first last) = .ok ⟨first, last, publicKey⟩) :
    NumberedFolder readVotingFile (mkdir folder) := by
  induction h with
  | missing => exact numberedFolder_nil
  | empty => exact numberedFolder_nil
  | @run folder voting presetData nodeIsVoting currentNetworkEpoch updateVotingKey number result
      _ hadmitted hrun ih =>
    cases nodeIsVoting with
    | false =>
      cases hrun
      exact ih
    | true =>
      cases hnext : nextRequest presetData currentNetworkEpoch updateVotingKey
          (filesIn readVotingFile (mkdir folder)) with
      | none =>
        rw [ih.run_none (createVotingFile number) voting hlist hadmitted.future hnext] at hrun
        cases hrun
        exact ih
      | some request =>
        obtain ⟨written, file, hwritten, -, -, -, hcreates⟩ := ih.run_some
          (createVotingFile number) voting hlist hadmitted.lifetime hadmitted.future
          (hprovider number) hnext
        rw [hcreates] at hrun
        cases hrun
        exact hwritten

/-- A numbered folder, or one that is missing, loads as its files. -/
theorem loadVotingFiles_folder {folder : Option (List (DirEntry Content))}
    (h : NumberedFolder readVotingFile (mkdir folder))
    (hlist : ∀ entries, (readdirSync entries).Perm entries) :
    loadVotingFiles readVotingFile readdirSync folder =
      .ok (filesIn readVotingFile (mkdir folder)) := by
  cases folder with
  | none => rfl
  | some entries => exact h.load hlist

/-- An update adds a file exactly when the last end is not far enough from the epoch. -/
theorem nextRequest_update {presetData : VotingPreset} {currentNetworkEpoch : Option ℕ}
    {files : List VotingKeyFile} :
    nextRequest presetData currentNetworkEpoch (some true) files = none ↔
      networkEpochOf presetData currentNetworkEpoch + presetData.votingKeyDesiredFutureLifetime <
        max (lastEndEpoch files) (networkEpochOf presetData currentNetworkEpoch - 1) := by
  rw [← not_iff_not, ← ne_eq, Option.ne_none_iff_exists', not_lt]
  constructor
  · rintro ⟨request, hrequest⟩
    exact (nextRequest_eq_some.mp hrequest).1
  · intro hshort
    exact ⟨_, nextRequest_eq_some.mpr ⟨hshort, Or.inl rfl, rfl⟩⟩

/-- The end of the file that an update would add reaches past the future lifetime. -/
def ReachesFar (presetData : VotingPreset) (currentNetworkEpoch : Option ℕ)
    (files : List VotingKeyFile) : Prop :=
  networkEpochOf presetData currentNetworkEpoch + presetData.votingKeyDesiredFutureLifetime <
    max (lastEndEpoch files) (networkEpochOf presetData currentNetworkEpoch - 1) +
      presetData.votingKeyDesiredLifetime

theorem reachesFar_of_lifetime {presetData : VotingPreset}
    (h : presetData.votingKeyDesiredFutureLifetime + 2 ≤ presetData.votingKeyDesiredLifetime)
    (currentNetworkEpoch : Option ℕ) (files : List VotingKeyFile) :
    ReachesFar presetData currentNetworkEpoch files := by
  unfold ReachesFar
  omega

/-- An update of a numbered folder adds a file or finds none to add. -/
theorem update_cases (folder : Option (List (DirEntry Content))) {presetData : VotingPreset}
    (currentNetworkEpoch : Option ℕ) (h : NumberedFolder readVotingFile (mkdir folder))
    (hlist : ∀ entries, (readdirSync entries).Perm entries)
    (hprovider : ∀ number first last, first ≤ last → ∃ publicKey,
      readVotingFile (createVotingFile number first last) = .ok ⟨first, last, publicKey⟩)
    (hadmitted : Admitted presetData) (number : ℕ) (voting : List VotingKeyFile) :
    (nextRequest presetData currentNetworkEpoch (some true)
        (filesIn readVotingFile (mkdir folder)) = none ∧
      run readVotingFile readdirSync (createVotingFile number) presetData true folder voting
          currentNetworkEpoch (some true) =
        .ok ⟨some (mkdir folder), filesIn readVotingFile (mkdir folder), false⟩) ∨
    (nextRequest presetData currentNetworkEpoch (some true)
        (filesIn readVotingFile (mkdir folder)) ≠ none ∧
      ∃ written, NumberedFolder readVotingFile written ∧
        lastEndEpoch (filesIn readVotingFile written) =
          max (lastEndEpoch (filesIn readVotingFile (mkdir folder)))
            (networkEpochOf presetData currentNetworkEpoch - 1) +
              presetData.votingKeyDesiredLifetime ∧
        run readVotingFile readdirSync (createVotingFile number) presetData true folder voting
            currentNetworkEpoch (some true) =
          .ok ⟨some written, filesIn readVotingFile written, true⟩) := by
  cases hnext : nextRequest presetData currentNetworkEpoch (some true)
      (filesIn readVotingFile (mkdir folder)) with
  | none =>
    exact Or.inl ⟨rfl, h.run_none (createVotingFile number) voting hlist hadmitted.future hnext⟩
  | some request =>
    obtain ⟨written, file, hwritten, hfiles, -, hend, hrun⟩ := h.run_some
      (createVotingFile number) voting hlist hadmitted.lifetime hadmitted.future
      (hprovider number) hnext
    obtain ⟨-, -, rfl⟩ := nextRequest_eq_some.mp hnext
    refine Or.inr ⟨nofun, written, hwritten, ?_, hrun⟩
    rw [hfiles, lastEndEpoch_append]
    exact hend

theorem oneUpdateEnough_iff (folder : Option (List (DirEntry Content)))
    (presetData : VotingPreset) (currentNetworkEpoch : Option ℕ)
    (h : NumberedFolder readVotingFile (mkdir folder))
    (hlist : ∀ entries, (readdirSync entries).Perm entries)
    (hprovider : ∀ number first last, first ≤ last → ∃ publicKey,
      readVotingFile (createVotingFile number first last) = .ok ⟨first, last, publicKey⟩)
    (hadmitted : Admitted presetData) :
    OneUpdateEnough readVotingFile readdirSync createVotingFile presetData true folder
        currentNetworkEpoch ↔
      ReachesFar presetData currentNetworkEpoch (filesIn readVotingFile (mkdir folder)) := by
  unfold ReachesFar
  constructor
  · intro henough
    by_contra hshort
    obtain ⟨hnone, -⟩ | ⟨-, written, hwritten, hlast, hrun⟩ :=
      update_cases folder currentNetworkEpoch h hlist hprovider hadmitted 0 []
    · have hfar := nextRequest_update.mp hnone
      omega
    · obtain ⟨again, hagain, hcreated⟩ := henough 0 [] _ hrun rfl 0
      obtain ⟨hnone, -⟩ | ⟨-, more, -, -, hmore⟩ :=
        update_cases (some written) currentNetworkEpoch hwritten hlist hprovider hadmitted 0
          (filesIn readVotingFile written)
      · have hfar := nextRequest_update.mp hnone
        change _ < max (lastEndEpoch (filesIn readVotingFile written)) _ at hfar
        omega
      · rw [hmore] at hagain
        cases hagain
        cases hcreated
  · intro hfar number voting result hrun hcreated number'
    obtain ⟨-, hnone⟩ | ⟨-, written, hwritten, hlast, hsome⟩ :=
      update_cases folder currentNetworkEpoch h hlist hprovider hadmitted number voting
    · rw [hnone] at hrun
      cases hrun
      cases hcreated
    · rw [hsome] at hrun
      cases hrun
      obtain ⟨-, hagain⟩ | ⟨hdue, -⟩ :=
        update_cases (some written) currentNetworkEpoch hwritten hlist hprovider hadmitted number'
          (filesIn readVotingFile written)
      · exact ⟨_, hagain, rfl⟩
      · refine absurd (nextRequest_update.mpr ?_) hdue
        change _ < max (lastEndEpoch (filesIn readVotingFile written)) _
        omega

/-- One update is enough exactly when the file that it would add reaches past the future
lifetime; it always is when the lifetime is two epochs longer. -/
theorem one_update_exactly {folder : Option (List (DirEntry Content))}
    {presetData : VotingPreset} (nodeIsVoting : Bool) (currentNetworkEpoch : Option ℕ)
    (hlist : ∀ entries, (readdirSync entries).Perm entries)
    (hprovider : ∀ number first last, first ≤ last → ∃ publicKey,
      readVotingFile (createVotingFile number first last) = .ok ⟨first, last, publicKey⟩)
    (hreachable : ReachableFolder readVotingFile readdirSync createVotingFile folder)
    (hadmitted : Admitted presetData) :
    (OneUpdateEnough readVotingFile readdirSync createVotingFile presetData nodeIsVoting folder
        currentNetworkEpoch ↔
      (nodeIsVoting = true →
        ∀ files, loadVotingFiles readVotingFile readdirSync folder = .ok files →
          ReachesFar presetData currentNetworkEpoch files)) ∧
    (presetData.votingKeyDesiredFutureLifetime + 2 ≤ presetData.votingKeyDesiredLifetime →
      OneUpdateEnough readVotingFile readdirSync createVotingFile presetData nodeIsVoting folder
        currentNetworkEpoch) := by
  have hnumbered := hreachable.numbered hlist hprovider
  have hexactly : OneUpdateEnough readVotingFile readdirSync createVotingFile presetData
      nodeIsVoting folder currentNetworkEpoch ↔
      (nodeIsVoting = true → ∀ files,
        loadVotingFiles readVotingFile readdirSync folder = .ok files →
        ReachesFar presetData currentNetworkEpoch files) := by
    cases nodeIsVoting with
    | false =>
      refine iff_of_true (fun number voting result hrun hcreated => ?_) nofun
      cases hrun
      cases hcreated
    | true =>
      rw [oneUpdateEnough_iff _ _ _ hnumbered hlist hprovider hadmitted,
        loadVotingFiles_folder hnumbered hlist]
      simp
  refine ⟨hexactly, fun hlonger => hexactly.mpr fun _ files _ => ?_⟩
  exact reachesFar_of_lifetime hlonger currentNetworkEpoch files

end Updates

/-- A provider whose files are what they are read as. -/
def plainFile (number first last : ℕ) : VotingKeyAccount := ⟨first, last, toString number⟩

theorem one_update_exactly_none :
    (OneUpdateEnough Except.ok id plainFile ⟨none, false, 10, 5⟩ true none (some 1) ↔
      (true = true → ∀ files, loadVotingFiles Except.ok id none = .ok files →
        ReachesFar ⟨none, false, 10, 5⟩ (some 1) files)) ∧
    (5 + 2 ≤ 10 → OneUpdateEnough Except.ok id plainFile ⟨none, false, 10, 5⟩ true none (some 1)) :=
  one_update_exactly true (some 1) (fun _ => List.Perm.refl _)
    (fun number _ _ _ => ⟨toString number, rfl⟩) ReachableFolder.missing ⟨by decide, by decide⟩

/-- With a lifetime of five epochs, all of them future, two updates at epoch 8 add two files. -/
theorem second_update_adds_file :
    ¬ ∀ (folder : Option (List (DirEntry VotingKeyAccount))) (presetData : VotingPreset)
        (nodeIsVoting : Bool) (currentNetworkEpoch : Option ℕ),
      ReachableFolder Except.ok id plainFile folder → Admitted presetData →
      OneUpdateEnough Except.ok id plainFile presetData nodeIsVoting folder
        currentNetworkEpoch := by
  intro hclaim
  have henough := hclaim none ⟨none, false, 5, 5⟩ true (some 8) ReachableFolder.missing
    ⟨by decide, by decide⟩
  have hfar := (oneUpdateEnough_iff none ⟨none, false, 5, 5⟩ (some 8) numberedFolder_nil
    (fun _ => List.Perm.refl _) (fun number _ _ _ => ⟨toString number, rfl⟩)
    ⟨by decide, by decide⟩).mp henough
  exact absurd hfar (by unfold ReachesFar; decide)

end SymbolBootstrap.VotingUpdates
