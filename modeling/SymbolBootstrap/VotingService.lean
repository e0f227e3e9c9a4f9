import SymbolBootstrap.VotingUtils

/-!
VotingService.ts: creating the next voting key file of a node. Numbers that the source
may find undefined are options, and `||` passes over zero as it does there. The
provider is a parameter: given the requested epochs, it says what it writes under the
file name it is told.
-/
namespace SymbolBootstrap.VotingService

open LinkService VotingUtils

/-- The fields of the preset that `run` reads. -/
structure VotingPreset where
  lastKnownNetworkEpoch : Option ℕ
  autoUpdateVotingKeys : Bool
  votingKeyDesiredLifetime : ℕ
  votingKeyDesiredFutureLifetime : ℕ
deriving DecidableEq, Repr

/-- A number `||` does not pass over. -/
def truthy (number : Option ℕ) : Option ℕ := number.filter (fun n => decide (n ≠ 0))

def privateKeyTreeFileName (number : ℕ) : String :=
  "private_key_tree" ++ toString number ++ ".dat"

/-- What a run leaves behind: the folder, the node's voting files, and whether a file
was created. -/
structure VotingRun (Content : Type) where
  folder : Option (List (DirEntry Content))
  voting : List VotingKeyFile
  created : Bool
deriving DecidableEq, Repr

section Run

variable {Content : Type} (readVotingFile : Content → Except String VotingKeyAccount)
  (readdirSync : List (DirEntry Content) → List (DirEntry Content))
  (createVotingFile : ℕ → ℕ → Content)

def mkdir (folder : Option (List (DirEntry Content))) : List (DirEntry Content) :=
  folder.getD []

def deleteFile (filename : String) (entries : List (DirEntry Content)) :
    List (DirEntry Content) :=
  entries.filter (fun entry => !(entry.isFile && entry.filename == filename))

/-- Writing a file takes the place of the file of that name. -/
def writeFile (filename : String) (content : Content) (entries : List (DirEntry Content)) :
    List (DirEntry Content) :=
  entries.filter (fun entry => !(entry.filename == filename)) ++ [⟨filename, true, content⟩]

/-- `currentVotingFiles[currentVotingFiles.length - 1]?.endEpoch || 0`. -/
def lastEndEpoch (currentVotingFiles : List VotingKeyFile) : ℕ :=
  (currentVotingFiles.getLast?.map (·.endEpoch)).getD 0

/-- `run` with a provider that can throw. The file is written only when it does not. -/
def runProvided (provider : ℕ → ℕ → Except String Content) (presetData : VotingPreset)
    (nodeIsVoting : Bool) (folder : Option (List (DirEntry Content))) (voting : List VotingKeyFile)
    (currentNetworkEpoch : Option ℕ) (updateVotingKey : Option Bool) :
    Except String (VotingRun Content) :=
  let networkEpoch :=
    ((truthy currentNetworkEpoch).or (truthy presetData.lastKnownNetworkEpoch)).getD 1
  let update := updateVotingKey.getD presetData.autoUpdateVotingKeys
  if !nodeIsVoting then return ⟨folder, voting, false⟩
  else if presetData.votingKeyDesiredFutureLifetime > presetData.votingKeyDesiredLifetime then
    throw ("votingKeyDesiredFutureLifetime (" ++
      toString presetData.votingKeyDesiredFutureLifetime ++
      ") cannot be greater than votingKeyDesiredLifetime (" ++
      toString presetData.votingKeyDesiredLifetime ++ ")")
  else do
    let entries := deleteFile "metadata.yml" (mkdir folder)
    let currentVotingFiles ← loadVotingFiles readVotingFile readdirSync (some entries)
    let maxVotingKeyEndEpoch := max (lastEndEpoch currentVotingFiles) (networkEpoch - 1)
    if maxVotingKeyEndEpoch > networkEpoch + presetData.votingKeyDesiredFutureLifetime then
      return ⟨some entries, currentVotingFiles, false⟩
    else if !update && decide (currentVotingFiles.length > 0) then
      return ⟨some entries, currentVotingFiles, false⟩
    else do
      let votingKeyStartEpoch := maxVotingKeyEndEpoch + 1
      let votingKeyEndEpoch := maxVotingKeyEndEpoch + presetData.votingKeyDesiredLifetime
      let content ← provider votingKeyStartEpoch votingKeyEndEpoch
      let written := writeFile (privateKeyTreeFileName (currentVotingFiles.length + 1)) content
        entries
      let reloaded ← loadVotingFiles readVotingFile readdirSync (some written)
      return ⟨some written, reloaded, true⟩

/-- `run` with a provider that does not throw. -/
def run : VotingPreset → Bool → Option (List (DirEntry Content)) → List VotingKeyFile →
    Option ℕ → Option Bool → Except String (VotingRun Content) :=
  runProvided readVotingFile readdirSync (fun first last => .ok (createVotingFile first last))

end Run
end SymbolBootstrap.VotingService
