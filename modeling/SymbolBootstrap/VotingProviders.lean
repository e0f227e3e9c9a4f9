import SymbolBootstrap.VotingFileLayout
import SymbolBootstrap.VotingRuns

/-!
The updates of a voting node down to the bytes of its files. NativeVotingKeyFileProvider writes
a file of random keys for the epochs it is asked for. At the epoch of an update the node finds,
in one of its files, a private key for that epoch which the root key of a linked key has signed.

The random keys and the root keys are what is drawn; epochs stay below 2^32, up to which the
library decodes the numbers that it encodes.
-/
namespace SymbolBootstrap.VotingProviders

open Library Library.Buffers Library.Throwing LinkService LinkChain VotingUtils VotingService
  VotingFileNames VotingFolders VotingPlan VotingRuns VotingFileCodec VotingFileSizes
  VotingFileLayout

section Native

/-- What one call of the provider draws: the private key of the voting account and the private
keys of the epochs. -/
structure NativeDraws where
  votingPrivateKey : String
  randomBytes : ℕ → List UInt8

variable (convert : Convert) (implementation : CryptoImplementation)

/-- `NativeVotingKeyFileProvider.createVotingFile`. -/
def nativeProvider (draws : NativeDraws) (votingKeyStartEpoch votingKeyEndEpoch : ℕ) :
    Except String Uint8Array :=
  createVotingFile convert implementation draws.randomBytes draws.votingPrivateKey
    votingKeyStartEpoch votingKeyEndEpoch none

/-- The private keys have 32 bytes. -/
structure NativeDraws.Proper (draws : NativeDraws) : Prop where
  root : ∃ rootPrivateKey : List UInt8,
    convert.hexToUint8 draws.votingPrivateKey = .ok rootPrivateKey ∧ rootPrivateKey.length = 32
  random : ∀ i, (draws.randomBytes i).length = 32

/-- The bytes of the file at which the item of an epoch stands. -/
def itemAt (file : Uint8Array) (votingKeyEndEpoch epoch : ℕ) : List UInt8 :=
  (file.bytes.drop (80 + 96 * (votingKeyEndEpoch - epoch))).take 96

/-- The file is read as the key of a root key pair, and has a signed private key for each epoch
of its range. -/
def Signs (numberText : ℤ → String) (file : Uint8Array) : Prop :=
  ∃ (rootPrivateKey : List UInt8) (root : KeyPair) (account : VotingKeyAccount),
    implementation.createKeyPairFromPrivateKey rootPrivateKey = .ok root ∧
    readVotingFile convert numberText file = .ok account ∧
    account.publicKey = convert.uint8ToHex root.publicKey ∧
    ∀ epoch, account.startEpoch ≤ epoch → epoch ≤ account.endEpoch → ∃ privateKey,
      IsItem implementation root privateKey epoch (itemAt file account.endEpoch epoch)

variable {convert implementation} {limit : ℕ}

theorem insertItem_drawn {randomBytes : ℕ → List UInt8} {root : KeyPair} {stop i : ℕ}
    {keys : PrivateKeys} (hkey : keys.val[i]? = some (randomBytes i)) (cursor : Uint8Array × ℕ) :
    insertItem convert implementation randomBytes root stop none cursor i =
      insertItem convert implementation randomBytes root stop (some keys) cursor i := by
  simp only [insertItem, privateKeyAt, hkey]

/-- The file of random keys: the header and an item for each epoch. -/
theorem nativeProvider_written (hconvert : ConvertLaws convert limit)
    (hcrypto : CryptoLaws implementation) {draws : NativeDraws} (hdraws : draws.Proper convert)
    {start stop : ℕ} (hrange : start ≤ stop) (hstop : stop < 2 ^ 53)
    (hcount : stop - start + 1 < 2 ^ 32) :
    ∃ rootPrivateKey root file items,
      implementation.createKeyPairFromPrivateKey rootPrivateKey = .ok root ∧
      root.publicKey.length = 32 ∧
      nativeProvider convert implementation draws start stop = .ok file ∧
      file.bytes = headerBytes root.publicKey start stop ++ items.flatten ∧
      Items implementation root ((List.range (stop - start + 1)).map draws.randomBytes) stop
        (stop - start + 1) items := by
  obtain ⟨rootPrivateKey, hsecret, hroot⟩ := hdraws.root
  obtain ⟨root, hpair, hprivate, hpublic⟩ : ∃ root : KeyPair,
      implementation.createKeyPairFromPrivateKey rootPrivateKey = .ok root ∧
      root.privateKey.length = 32 ∧ root.publicKey.length = 32 := by
    obtain ⟨publicKey, hpair, hpublic⟩ := hcrypto.keyPair rootPrivateKey hroot
    exact ⟨⟨rootPrivateKey, publicKey⟩, hpair, hroot, hpublic⟩
  let keys : PrivateKeys := ⟨(List.range (stop - start + 1)).map draws.randomBytes, by
    rw [List.length_map, List.length_range]; exact hcount⟩
  have hlengthKeys : keys.val.length = stop - start + 1 := by
    rw [List.length_map, List.length_range]
  have hkeys : ∀ privateKey ∈ keys.val, privateKey.length = 32 := by
    intro privateKey hmem
    obtain ⟨i, -, rfl⟩ := List.mem_map.mp hmem
    exact hdraws.random i
  -- the sizes are exact
  have hitems : itemsOf start stop = ((stop - start + 1 : ℕ) : ℤ) := by
    rw [itemsOf, Doubles.round_eq_self (n := (stop : ℤ) - start) (by omega),
      Doubles.round_eq_self (by omega)]
    omega
  have hsize : totalSizeOf ((stop - start + 1 : ℕ) : ℤ) =
      ((80 + 96 * (stop - start + 1) : ℕ) : ℤ) := by
    rw [← hitems, totalSizeOf_itemsOf_eq_iff (by omega)]
    omega
  obtain ⟨empty, hempty, hzeros⟩ := zeros_ok (80 + 96 * (stop - start + 1)) (by omega)
  have hblank : Wrote (80 + 96 * (stop - start + 1)) [] (empty, 0) :=
    ⟨rfl, by rw [hzeros]; exact filled_nil⟩
  have hlength := length_headerBytes start stop hpublic
  obtain ⟨cursor, hheader, hwrote⟩ := insertHeader_wrote hconvert (hrange.trans_lt hstop) hstop
    hpublic (by omega) hblank
  obtain ⟨⟨file, index⟩, hloop, items, hall, hfile⟩ := insertItems_wrote draws.randomBytes
    hconvert hcrypto hstop hprivate hpublic hkeys (by omega) hwrote (by rw [hlength, hlengthKeys])
  rw [hlengthKeys] at hloop hall
  have hdrawn : (List.range (stop - start + 1)).foldlM (insertItem convert implementation
      draws.randomBytes root stop none) cursor = .ok (file, index) := by
    rw [← hloop]
    refine foldlM_congr fun i hi cursor => insertItem_drawn ?_ cursor
    rw [List.getElem?_map, List.getElem?_range (List.mem_range.mp hi)]
    rfl
  refine ⟨rootPrivateKey, _, file, items, hpair, hpublic, ?_, ?_, hall⟩
  · simp only [nativeProvider, createVotingFile, hsecret, hpair, hitems, hsize, hempty, hheader,
      bind, Except.bind, Int.toNat_natCast, hdrawn, pure, Except.pure]
  · refine hfile.filled.eq_of_full ?_
    rw [List.length_append, hlength, length_flatten hall.width, hall.count]

/-- What the provider writes signs, and is read as the epochs it was asked for. -/
theorem nativeProvider_signs (hconvert : ConvertLaws convert limit)
    (hcrypto : CryptoLaws implementation) (numberText : ℤ → String) {draws : NativeDraws}
    (hdraws : draws.Proper convert) {start stop : ℕ} (hrange : start ≤ stop)
    (hstop : stop < 2 ^ 53) (hlimit : stop < limit) (hcount : stop - start + 1 < 2 ^ 32) :
    ∃ file publicKey, nativeProvider convert implementation draws start stop = .ok file ∧
      readVotingFile convert numberText file = .ok ⟨start, stop, publicKey⟩ ∧
      Signs convert implementation numberText file := by
  obtain ⟨rootPrivateKey, root, file, items, hpair, hpublic, hcreated, hbytes, hitems⟩ :=
    nativeProvider_written hconvert hcrypto hdraws hrange hstop hcount
  have hlength := length_headerBytes start stop hpublic
  have hfull : file.length = 80 + 96 * (stop - start + 1) := by
    rw [Uint8Array.length, hbytes, List.length_append, hlength, length_flatten hitems.width,
      hitems.count]
  have hread := readVotingFile_header hconvert numberText (hrange.trans_lt hlimit) hlimit hpublic
    hbytes (by rw [hfull]; omega)
  refine ⟨file, _, hcreated, hread, rootPrivateKey, root, _, hpair, hread, rfl, ?_⟩
  intro epoch hfirst hlast
  dsimp only at hfirst hlast ⊢
  have hi : stop - epoch < items.length := by
    rw [hitems.count]
    omega
  have hkey : ((List.range (stop - start + 1)).map draws.randomBytes)[stop - epoch]? =
      some (draws.randomBytes (stop - epoch)) := by
    rw [List.getElem?_map, List.getElem?_range (by omega)]
    rfl
  have hitem := List.getElem?_eq_getElem hi
  have hrecord := hitems.item _ _ _ hkey hitem
  rw [show stop - (stop - epoch) = epoch by omega, ← take_drop_flatten hitems.width hitem]
    at hrecord
  refine ⟨draws.randomBytes (stop - epoch), ?_⟩
  rw [itemAt, hbytes, List.drop_append, hlength, List.drop_eq_nil_of_le (by omega),
    List.nil_append, Nat.add_sub_cancel_left]
  exact hrecord

end Native

section Updates

variable {Content : Type} (readVotingFile : Content → Except String VotingKeyAccount)
  (readdirSync : List (DirEntry Content) → List (DirEntry Content))
  (provider : ℕ → ℕ → ℕ → Except String Content) (presetData : VotingPreset) (params : LinkParams)
  (prompt : ℕ → ℕ → Bool)

/-- One update at an epoch, with a provider that can throw. -/
def votingStepProvided (number : ℕ) (state : VotingState Content) (epoch : ℕ) :
    Except String (VotingState Content) := do
  let result ← runProvided readVotingFile readdirSync (provider number) presetData true
    state.folder state.voting (some epoch) (some true)
  let files ← loadVotingFiles readVotingFile readdirSync result.folder
  return ⟨result.folder, result.voting, votingAfterAll state.linked
    (addVotingKeyLinkTransactions params (prompt number) state.linked
      (files.map (·.toVotingKeyAccount)) epoch 0)⟩

def votingStepsProvided : ℕ → VotingState Content → List ℕ → Except String (VotingState Content)
  | _, state, [] => return state
  | number, state, epoch :: rest => do
      let next ← votingStepProvided readVotingFile readdirSync provider presetData params prompt
        number state epoch
      votingStepsProvided (number + 1) next rest

variable {readVotingFile readdirSync provider presetData params prompt} {epoch later : ℕ}
  {state : VotingState Content} {P : Content → Prop}

variable (readVotingFile provider presetData P) in
/-- The provider gives what reads as the epochs it is asked for and has the property, for any
epochs of a lifetime up to a limit. -/
def Provides (limit : ℕ) : Prop :=
  ∀ number first last, first ≤ last → last + 1 = first + presetData.votingKeyDesiredLifetime →
    last ≤ limit → ∃ content publicKey, provider number first last = .ok content ∧
      readVotingFile content = .ok ⟨first, last, publicKey⟩ ∧ P content

theorem votingStepProvided_of_run {number : ℕ} {written : List (DirEntry Content)} {created : Bool}
    (hlist : ∀ entries, (readdirSync entries).Perm entries)
    (hlifetime : 1 ≤ presetData.votingKeyDesiredLifetime)
    (hwritten : WrittenFolder readVotingFile presetData.votingKeyDesiredLifetime written)
    (hrun : runProvided readVotingFile readdirSync (provider number) presetData true state.folder
      state.voting (some later) (some true) =
        .ok ⟨some written, filesIn readVotingFile written, created⟩) :
    votingStepProvided readVotingFile readdirSync provider presetData params prompt number state
        later =
      .ok (linkedAfter readVotingFile params (prompt number) state written
        later) := by
  have hload := (hwritten.numbered hlifetime).load hlist
  rw [votingStepProvided, hrun]
  change (loadVotingFiles readVotingFile readdirSync (some written)).bind _ = _
  rw [hload]
  rfl

/-- One update keeps what is kept up, and adds no content without the property. -/
theorem keptStep (h : Kept readVotingFile presetData epoch state)
    (hlist : ∀ entries, (readdirSync entries).Perm entries) {limit : ℕ}
    (hprovider : Provides readVotingFile provider presetData P limit)
    (hconfirmed : ∀ number, AllConfirmed params (prompt number))
    (hlifetime : 1 ≤ presetData.votingKeyDesiredLifetime)
    (hfuture : presetData.votingKeyDesiredFutureLifetime ≤ presetData.votingKeyDesiredLifetime)
    (number : ℕ) (hlater : epoch ≤ later) (hpositive : 1 ≤ later)
    (hlimit : later + 2 * presetData.votingKeyDesiredLifetime ≤ limit)
    (hcontents : ∀ entry ∈ mkdir state.folder, P entry.content) :
    ∃ next entries,
      votingStepProvided readVotingFile readdirSync provider presetData params prompt number
        state later = .ok next ∧
      next.folder = some entries ∧ Kept readVotingFile presetData later next ∧
      later ≤ lastEndEpoch (filesIn readVotingFile entries) ∧
      ∀ entry ∈ entries, P entry.content := by
  have hmax : maxVotingKeyEndEpoch readVotingFile later (mkdir state.folder) =
      max (lastEndEpoch (filesIn readVotingFile (mkdir state.folder))) (later - 1) := rfl
  have hepochs : networkEpochOf presetData (some later) = later := networkEpoch_eq hpositive _
  have hnumbered := h.folder.numbered hlifetime
  cases hnext : nextRequest presetData (some later) (some true)
      (filesIn readVotingFile (mkdir state.folder)) with
  | none =>
    have hrun := hnumbered.runProvided_none state.voting (provider number) hlist hfuture hnext
    refine ⟨_, mkdir state.folder, votingStepProvided_of_run hlist hlifetime h.folder hrun, rfl,
      h.unchanged (hconfirmed number) hlifetime hlater, ?_, hcontents⟩
    -- an update only asks for nothing when the files last long enough
    by_contra hshort
    have hdue : max (lastEndEpoch (filesIn readVotingFile (mkdir state.folder)))
        (networkEpochOf presetData (some later) - 1) ≤ networkEpochOf presetData (some later) +
          presetData.votingKeyDesiredFutureLifetime := by
      rw [hepochs]
      omega
    have hsome := nextRequest_eq_some.mpr ⟨hdue, Or.inl (show (some true).getD _ = true from rfl),
      rfl⟩
    rw [hnext] at hsome
    cases hsome
  | some request =>
    obtain ⟨hdue, -, hrequest⟩ := nextRequest_eq_some.mp hnext
    rw [hepochs] at hdue hrequest
    have hstart : request.votingKeyStartEpoch =
        maxVotingKeyEndEpoch readVotingFile later (mkdir state.folder) + 1 := by rw [hrequest, hmax]
    have hend : request.votingKeyEndEpoch =
        maxVotingKeyEndEpoch readVotingFile later (mkdir state.folder) +
          presetData.votingKeyDesiredLifetime := by rw [hrequest, hmax]
    obtain ⟨content, publicKey, hprovided, hread, hcontent⟩ := hprovider number
      request.votingKeyStartEpoch request.votingKeyEndEpoch (by omega) (by omega) (by omega)
    obtain ⟨written, rfl, hwritten, hfiles, hrun⟩ :=
      hnumbered.runProvided_some state.voting (provider number) hlist
      hlifetime hfuture hnext hprovided hread
    have hfolder := h.folder.add hwritten hfiles (by dsimp only; omega)
    obtain ⟨hkept, hreach⟩ := h.added (hconfirmed number) hlifetime hfuture hlater (by omega)
      hfolder hfiles hstart hend
    refine ⟨_, _, votingStepProvided_of_run hlist hlifetime hfolder hrun, rfl, hkept, hreach, ?_⟩
    intro entry hentry
    rcases List.mem_append.mp hentry with hold | hnew
    · exact hcontents entry hold
    · rw [List.mem_singleton.mp hnew]
      exact hcontent

/-- Any run of updates at increasing epochs keeps it up. -/
theorem keptSteps (h : Kept readVotingFile presetData epoch state)
    (hlist : ∀ entries, (readdirSync entries).Perm entries) {limit : ℕ}
    (hprovider : Provides readVotingFile provider presetData P limit)
    (hconfirmed : ∀ number, AllConfirmed params (prompt number))
    (hlifetime : 1 ≤ presetData.votingKeyDesiredLifetime)
    (hfuture : presetData.votingKeyDesiredFutureLifetime ≤ presetData.votingKeyDesiredLifetime)
    (hpositive : 1 ≤ epoch) (number : ℕ) (epochs : List ℕ)
    (hepochs : (epoch :: epochs).Pairwise (fun x y => x ≤ y)) (hnonempty : epochs ≠ [])
    (hlimit : ∀ x ∈ epochs, x + 2 * presetData.votingKeyDesiredLifetime ≤ limit)
    (hcontents : ∀ entry ∈ mkdir state.folder, P entry.content) :
    ∃ last entries,
      votingStepsProvided readVotingFile readdirSync provider presetData params prompt number state
        epochs = .ok last ∧
      last.folder = some entries ∧ Kept readVotingFile presetData (epochs.getLast hnonempty) last ∧
      epochs.getLast hnonempty ≤ lastEndEpoch (filesIn readVotingFile entries) ∧
      ∀ entry ∈ entries, P entry.content := by
  induction epochs generalizing epoch state number with
  | nil => exact absurd rfl hnonempty
  | cons later rest ih =>
    obtain ⟨hfirst, hrest⟩ := List.pairwise_cons.mp hepochs
    have hlater := hfirst later List.mem_cons_self
    obtain ⟨next, entries, hstep, hfolder, hkept, hreach, hentries⟩ := keptStep h hlist hprovider
      hconfirmed hlifetime hfuture number hlater (hpositive.trans hlater)
      (hlimit later List.mem_cons_self) hcontents
    rw [votingStepsProvided, hstep]
    change ∃ last entries', votingStepsProvided _ _ _ _ _ _ (number + 1) next rest = _ ∧ _
    by_cases hend : rest = []
    · subst hend
      exact ⟨next, entries, rfl, hfolder, hkept, hreach, hentries⟩
    · have hnext : mkdir next.folder = entries := by
        rw [hfolder]
        rfl
      obtain ⟨last, files, hsteps, hlast⟩ := ih hkept (hpositive.trans hlater) (number + 1)
        hrest hend (fun x hx => hlimit x (List.mem_cons_of_mem later hx)) (hnext ▸ hentries)
      rw [List.getLast_cons hend]
      exact ⟨last, files, hsteps, hlast⟩

end Updates

section Signing

variable {convert : Convert} {implementation : CryptoImplementation} {numberText : ℤ → String}
  {readdirSync : List (DirEntry Uint8Array) → List (DirEntry Uint8Array)}
  {presetData : VotingPreset} {params : LinkParams} {prompt : ℕ → ℕ → Bool}

variable (convert implementation numberText) in
/-- A node with these files can vote at an epoch with a key: one of its files is read as the key,
and has a private key for the epoch that the root key of the file has signed. -/
def CanVote (entries : List (DirEntry Uint8Array)) (key : VotingKeyAccount) (epoch : ℕ) : Prop :=
  ∃ entry ∈ entries, readVotingFile convert numberText entry.content = .ok key ∧
    ∃ rootPrivateKey root privateKey,
      implementation.createKeyPairFromPrivateKey rootPrivateKey = .ok root ∧
      key.publicKey = convert.uint8ToHex root.publicKey ∧
      IsItem implementation root privateKey epoch (itemAt entry.content key.endEpoch epoch)

/-- The key of a file that signs can be voted with all along. -/
theorem canVote_of_signs {entries : List (DirEntry Uint8Array)}
    (hsigns : ∀ entry ∈ entries, Signs convert implementation numberText entry.content)
    (hreadable : ∀ entry ∈ entries, loadEntry (readVotingFile convert numberText) entry =
      .ok (some (fileOf (readVotingFile convert numberText) entry)))
    {file : VotingKeyFile} (hfile : file ∈ filesIn (readVotingFile convert numberText) entries)
    {epoch : ℕ} (hstart : file.startEpoch ≤ epoch) (hend : epoch ≤ file.endEpoch) :
    CanVote convert implementation numberText entries file.toVotingKeyAccount epoch := by
  obtain ⟨entry, hentry, rfl⟩ := List.mem_map.mp hfile
  have hload := hreadable entry hentry
  obtain ⟨rootPrivateKey, root, account, hpair, hread, hpublic, hitems⟩ := hsigns entry hentry
  have hsame : (fileOf (readVotingFile convert numberText) entry).toVotingKeyAccount =
      account := by
    rw [loadEntry, hread] at hload
    split at hload
    · exact (congrArg VotingKeyFile.toVotingKeyAccount (Option.some.inj (Except.ok.inj hload))).symm
    · cases hload
  obtain ⟨privateKey, hitem⟩ := hitems epoch (hsame ▸ hstart) (hsame ▸ hend)
  rw [hsame]
  exact ⟨entry, hentry, hread, rootPrivateKey, root, privateKey, hpair, hpublic, hitem⟩

/-- After every run of updates the node can vote, with exactly one of its linked keys at the
last epoch, and with each linked key at every epoch of it. -/
theorem can_vote_after_updates (hconvert : ConvertLaws convert (2 ^ 32))
    (hcrypto : CryptoLaws implementation) {draws : ℕ → NativeDraws}
    (hdraws : ∀ number, (draws number).Proper convert)
    (hlist : ∀ entries, (readdirSync entries).Perm entries)
    (hconfirmed : ∀ number, AllConfirmed params (prompt number))
    (hlifetime : 1 ≤ presetData.votingKeyDesiredLifetime)
    (hfuture : presetData.votingKeyDesiredFutureLifetime ≤ presetData.votingKeyDesiredLifetime)
    {epochs : List ℕ} {epoch : ℕ} (hepochs : (epochs ++ [epoch]).Pairwise (fun x y => x ≤ y))
    (hpositive : ∀ x ∈ epochs ++ [epoch], 1 ≤ x)
    (hlimit : ∀ x ∈ epochs ++ [epoch], x + 2 * presetData.votingKeyDesiredLifetime < 2 ^ 32) :
    ∃ state entries,
      votingStepsProvided (readVotingFile convert numberText) readdirSync
        (fun number => nativeProvider convert implementation (draws number)) presetData params
        prompt 0 ⟨none, [], []⟩ (epochs ++ [epoch]) = .ok state ∧
      state.folder = some entries ∧
      state.linked.countP (coversEpoch epoch) = 1 ∧
      ∀ key ∈ state.linked, ∀ later, key.startEpoch ≤ later → later ≤ key.endEpoch →
        CanVote convert implementation numberText entries key later := by
  have hcount : presetData.votingKeyDesiredLifetime < 2 ^ 32 := by
    have hepoch := hlimit epoch (List.mem_append_right epochs (List.mem_singleton_self epoch))
    omega
  have hprovider : Provides (readVotingFile convert numberText)
      (fun number => nativeProvider convert implementation (draws number)) presetData
      (Signs convert implementation numberText) (2 ^ 32 - 1) := by
    intro number first last hrange hlength hlast
    exact nativeProvider_signs hconvert hcrypto numberText (hdraws number) hrange (by omega)
      (by omega) (by omega)
  obtain ⟨state, entries, hsteps, hfolder, hkept, hreach, hsigns⟩ := keptSteps
    (kept_start (Or.inl rfl)) hlist hprovider hconfirmed hlifetime hfuture le_rfl
    0 (epochs ++ [epoch]) (List.pairwise_cons.mpr ⟨hpositive, hepochs⟩) (by simp)
    (fun x hx => Nat.le_sub_one_of_lt (hlimit x hx)) (fun _ hmem => absurd hmem List.not_mem_nil)
  rw [List.getLast_append_singleton] at hkept hreach
  have hvoting := hkept.voting hfolder hreach
  refine ⟨state, entries, hsteps, hfolder, hvoting.one, ?_⟩
  intro key hkey later hstart hend
  obtain ⟨file, hfile, rfl⟩ := hvoting.from_file key hkey
  have hwritten := hkept.folder
  rw [hfolder] at hwritten
  exact canVote_of_signs hsigns hwritten.readable hfile hstart hend

/-- The keys of `private_key_tree3.dat`, drawn every time. -/
def treeDraws : NativeDraws := ⟨rootSecret, fun _ => boundPrivateKey⟩

theorem can_vote_after_updates_tree3 :
    ∃ state entries,
      votingStepsProvided (readVotingFile shiftConvert toString) id
        (fun _ => nativeProvider shiftConvert treeImplementation treeDraws)
        ⟨none, false, 2, 1⟩ ⟨false, true, none⟩ (fun _ _ => false) 0 ⟨none, [], []⟩
        ([9, 9] ++ [12]) = .ok state ∧
      state.folder = some entries ∧
      state.linked.countP (coversEpoch 12) = 1 ∧
      ∀ key ∈ state.linked, ∀ later, key.startEpoch ≤ later → later ≤ key.endEpoch →
        CanVote shiftConvert treeImplementation toString entries key later := by
  have hdraws : treeDraws.Proper shiftConvert := by
    refine ⟨⟨bytesOfHex rootSecret, by decide +kernel, by decide +kernel⟩, fun _ => ?_⟩
    show boundPrivateKey.length = 32
    decide +kernel
  exact can_vote_after_updates shiftConvert_laws treeImplementation_laws (fun _ => hdraws)
    (fun entries => List.Perm.refl entries) (fun _ => allConfirmed_of_ready _ _ rfl rfl)
    (by decide) (by decide) (by decide) (by decide) (by decide)

end Signing
end SymbolBootstrap.VotingProviders
