import SymbolBootstrap.LinkService

/-!
The voting key folder of VotingUtils.ts. A folder that does not exist is `none`. What
is in a file only matters through `readVotingFile`, and the order in which a folder is
listed is left to the file system, so both are parameters.
-/
namespace SymbolBootstrap.VotingUtils

open LinkService

structure DirEntry (Content : Type) where
  filename : String
  isFile : Bool
  content : Content
deriving DecidableEq, Repr

structure VotingKeyFile extends VotingKeyAccount where
  filename : String
deriving DecidableEq, Repr

def startsWith (text start : String) : Bool := start.toList.isPrefixOf text.toList

def endsWith (text ending : String) : Bool := ending.toList.isSuffixOf text.toList

section Folder

variable {Content : Type} (readVotingFile : Content → Except String VotingKeyAccount)
  (readdirSync : List (DirEntry Content) → List (DirEntry Content))

/-- The body of the first `map`: entries that are no voting key files are `undefined`. -/
def loadEntry (entry : DirEntry Content) : Except String (Option VotingKeyFile) :=
  if entry.isFile && startsWith entry.filename "private_key_tree" &&
      endsWith entry.filename ".dat" then do
    let account ← readVotingFile entry.content
    return some { account with filename := entry.filename }
  else return none

/-- `sort((a, b) => a.startEpoch - b.startEpoch)`, a stable sort. -/
def sortByStartEpoch (files : List VotingKeyFile) : List VotingKeyFile :=
  files.mergeSort (fun a b => decide (a.startEpoch ≤ b.startEpoch))

def loadVotingFiles (folder : Option (List (DirEntry Content))) :
    Except String (List VotingKeyFile) :=
  match folder with
  | none => return []
  | some entries => do
      let loaded ← (readdirSync entries).mapM (loadEntry readVotingFile)
      return sortByStartEpoch (loaded.filterMap id)

end Folder
end SymbolBootstrap.VotingUtils
