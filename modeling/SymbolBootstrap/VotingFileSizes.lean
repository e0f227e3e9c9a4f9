import SymbolBootstrap.VotingFileCodec
import SymbolBootstrap.Library.LittleEndian
import SymbolBootstrap.Library.Throwing

/-!
Which byte sequences are read as voting key files. The one check compares the length with
the size for the epochs of the header, so every file that is read has one key for each of
them; a header alone is read too, as a range that ends one epoch before it starts.
-/
namespace SymbolBootstrap.VotingFileSizes

open Library Library.Throwing LinkService VotingFileCodec

/-- Rounding does not make a size equal to a length that it is not. -/
theorem totalSizeOf_itemsOf_eq_iff {votingKeyStartEpoch votingKeyEndEpoch length : ℕ}
    (hlength : length < 2 ^ 53) :
    totalSizeOf (itemsOf votingKeyStartEpoch votingKeyEndEpoch) = length ↔
      80 + 96 * ((votingKeyEndEpoch : ℤ) - votingKeyStartEpoch + 1) = length := by
  have hheader : (headerSize : ℤ) = 80 := rfl
  have hitem : (itemSize : ℤ) = 96 := rfl
  rw [totalSizeOf, itemsOf, hheader, hitem]
  generalize (votingKeyEndEpoch : ℤ) - votingKeyStartEpoch = epochs
  constructor
  · intro hsize
    generalize hitems : Doubles.round (Doubles.round epochs + 1) = items at hsize
    generalize hproduct : Doubles.round (items * 96) = product at hsize
    rw [Doubles.round_eq_iff (by omega)] at hsize
    rw [Doubles.round_eq_iff (by omega)] at hproduct
    generalize hshifted : Doubles.round epochs = shifted at hitems
    rw [Doubles.round_eq_iff (by omega)] at hitems
    rw [Doubles.round_eq_iff (by omega)] at hshifted
    omega
  · intro hsize
    rw [Doubles.round_eq_self (n := epochs) (by omega),
      Doubles.round_eq_self (n := epochs + 1) (by omega),
      Doubles.round_eq_self (n := (epochs + 1) * 96) (by omega), Doubles.round_eq_self (by omega)]
    omega

section Read

variable (convert : Convert) (numberText : ℤ → String) (file : Uint8Array)

/-- The epochs in the header of a file, when they can be read. -/
def headerEpochs : Except String (ℕ × ℕ) := do
  let votingKeyStartEpoch ← convert.uintArray8ToNumber (file.slice 0 8)
  let votingKeyEndEpoch ← convert.uintArray8ToNumber (file.slice 8 16)
  return (votingKeyStartEpoch, votingKeyEndEpoch)

/-- A file is read exactly when it has the size for the epochs of its header. -/
theorem readVotingFile_ok {account : VotingKeyAccount} :
    readVotingFile convert numberText file = .ok account ↔
      headerEpochs convert file = .ok (account.startEpoch, account.endEpoch) ∧
      account.publicKey = convert.uint8ToHex (file.slice 32 64) ∧
      80 + 96 * ((account.endEpoch : ℤ) - account.startEpoch + 1) = file.length := by
  simp only [readVotingFile, headerEpochs, bind_ok, check_ok, not_not]
  constructor
  · rintro ⟨first, hfirst, last, hlast, hsize, hpure⟩
    cases hpure
    exact ⟨⟨first, hfirst, last, hlast, rfl⟩, rfl,
      (totalSizeOf_itemsOf_eq_iff file.bound).mp hsize.symm⟩
  · rintro ⟨⟨first, hfirst, last, hlast, hpure⟩, hkey, hsize⟩
    cases hpure
    refine ⟨_, hfirst, _, hlast, ?_, ?_⟩
    · exact ((totalSizeOf_itemsOf_eq_iff file.bound).mpr hsize).symm
    · rw [← hkey]
      rfl

/-- The file is the header and one item for each epoch of the account. -/
def HoldsKeyRange (account : VotingKeyAccount) : Prop :=
  account.startEpoch ≤ account.endEpoch ∧
    ∃ n, 1 ≤ n ∧ file.length = 80 + 96 * n ∧ account.startEpoch + n = account.endEpoch + 1

/-- The file is read as an account whose keys it holds, or reading it throws. -/
def ReadsKeyRange : Prop :=
  (∃ account, readVotingFile convert numberText file = .ok account ∧ HoldsKeyRange file account) ∨
    ∃ error, readVotingFile convert numberText file = .error error

/-- A header alone, whose end epoch is the one before its start epoch. -/
def EmptyRange : Prop :=
  file.length = 80 ∧ ∃ votingKeyEndEpoch,
    headerEpochs convert file = .ok (votingKeyEndEpoch + 1, votingKeyEndEpoch)

variable {convert numberText file}

theorem holdsKeyRange_iff {account : VotingKeyAccount}
    (hread : readVotingFile convert numberText file = .ok account) :
    HoldsKeyRange file account ↔ ¬ EmptyRange convert file := by
  obtain ⟨hepochs, -, hsize⟩ := (readVotingFile_ok convert numberText file).mp hread
  constructor
  · rintro ⟨hle, -⟩ ⟨-, last, hempty⟩
    rw [hempty, Except.ok.injEq, Prod.mk.injEq] at hepochs
    omega
  · intro hnonempty
    have hle : account.startEpoch ≤ account.endEpoch := by
      by_contra hbefore
      have hlast : account.startEpoch = account.endEpoch + 1 := by omega
      refine hnonempty ⟨by omega, account.endEpoch, ?_⟩
      rw [hepochs, hlast]
    exact ⟨hle, account.endEpoch + 1 - account.startEpoch, by omega, by omega, by omega⟩

/-- Every file but the empty range is read as its keys or rejected. -/
theorem reads_key_range_exactly (convert : Convert) (numberText : ℤ → String)
    (file : Uint8Array) :
    ReadsKeyRange convert numberText file ↔ ¬ EmptyRange convert file := by
  constructor
  · rintro (⟨account, hread, hrange⟩ | ⟨error, herror⟩) hempty
    · exact (holdsKeyRange_iff hread).mp hrange hempty
    · obtain ⟨hlength, last, hepochs⟩ := hempty
      have hread : readVotingFile convert numberText file =
          .ok ⟨last + 1, last, convert.uint8ToHex (file.slice 32 64)⟩ := by
        rw [readVotingFile_ok, hlength]
        exact ⟨hepochs, rfl, by push_cast; ring⟩
      rw [herror] at hread
      cases hread
  · intro hnonempty
    cases hread : readVotingFile convert numberText file with
    | error error => exact Or.inr ⟨error, hread⟩
    | ok account => exact Or.inl ⟨account, hread, (holdsKeyRange_iff hread).mpr hnonempty⟩

end Read

def hexDigit (digit : Char) : Option ℕ :=
  if '0' ≤ digit ∧ digit ≤ '9' then some (digit.toNat - '0'.toNat)
  else if 'A' ≤ digit ∧ digit ≤ 'F' then some (digit.toNat - 'A'.toNat + 10)
  else if 'a' ≤ digit ∧ digit ≤ 'f' then some (digit.toNat - 'a'.toNat + 10)
  else none

def hexBytes : List Char → Option (List UInt8)
  | [] => some []
  | high :: low :: rest => do
      let bytes ← hexBytes rest
      return UInt8.ofNat (16 * (← hexDigit high) + (← hexDigit low)) :: bytes
  | [_] => none

/-- Hexadecimal text with capitals, and numbers as little-endian bytes. -/
def littleEndianConvert : Convert where
  hexToUint8 text := ((hexBytes text.toList).map .ok).getD (.error "Unrecognized hex char")
  uint8ToHex bytes := String.ofList (bytes.flatMap fun byte =>
    [(byte.toNat / 16).digitChar.toUpper, (byte.toNat % 16).digitChar.toUpper])
  numberToUint8Array number width := .ok (LittleEndian.toBytes width number.toNat)
  uintArray8ToNumber bytes := .ok (LittleEndian.ofBytes bytes)

/-- The header of a file from epoch 5 to epoch 4, which has no keys. -/
def headerOnly : Uint8Array :=
  ⟨[5, 0, 0, 0, 0, 0, 0, 0, 4, 0, 0, 0, 0, 0, 0, 0] ++ List.replicate 16 255 ++
    List.replicate 32 161 ++ [5, 0, 0, 0, 0, 0, 0, 0, 4, 0, 0, 0, 0, 0, 0, 0], by decide⟩

/-- The header is read as an account that ends before it starts. -/
theorem header_only_read : ¬ ∀ file, ReadsKeyRange littleEndianConvert toString file := by
  intro hclaim
  have hepochs : headerEpochs littleEndianConvert headerOnly = .ok (4 + 1, 4) := rfl
  have hread : readVotingFile littleEndianConvert toString headerOnly =
      .ok ⟨5, 4, littleEndianConvert.uint8ToHex (headerOnly.slice 32 64)⟩ :=
    (readVotingFile_ok littleEndianConvert toString headerOnly).mpr ⟨hepochs, rfl, by decide⟩
  rcases hclaim headerOnly with ⟨account, hok, hrange⟩ | ⟨error, herror⟩
  · exact (holdsKeyRange_iff hok).mp hrange ⟨by decide, 4, hepochs⟩
  · rw [hread] at herror
    cases herror

end SymbolBootstrap.VotingFileSizes
