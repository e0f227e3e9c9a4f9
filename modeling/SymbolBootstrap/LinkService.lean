import SymbolBootstrap.Library.ClosedIntervals

/-!
The link transaction planner of LinkService.ts. The planner compares the keys linked
on chain with the keys of a node and emits link and unlink transactions; each unlink
it proposes for a different or expired key is confirmed first.

Public keys are hexadecimal texts and are compared without regard to case, as the
source does. Epochs are natural numbers. The arrays of the source hold one object for
each key, so dropping an object by reference drops the one entry that was looked up.
An absent `voting` array is the empty list, which is how every reader takes it.
-/
namespace SymbolBootstrap.LinkService

open Library.ClosedIntervals

def toUpperCase (text : String) : String := String.ofList (text.toList.map Char.toUpper)

structure KeyAccount where
  publicKey : String
deriving DecidableEq, Repr

structure VotingKeyAccount where
  startEpoch : ℕ
  endEpoch : ℕ
  publicKey : String
deriving DecidableEq, Repr

inductive LinkAction
  | unlink
  | link
deriving DecidableEq, Repr

def LinkAction.value : LinkAction → ℕ
  | .unlink => 0
  | .link => 1

inductive Transaction
  | remote (account : KeyAccount) (action : LinkAction)
  | vrf (account : KeyAccount) (action : LinkAction)
  | voting (account : VotingKeyAccount) (action : LinkAction)
deriving DecidableEq, Repr

def Transaction.linkAction : Transaction → LinkAction
  | .remote _ action => action
  | .vrf _ action => action
  | .voting _ action => action

structure GenericNodeAccount where
  remote : Option KeyAccount
  vrf : Option KeyAccount
  voting : List VotingKeyAccount
deriving DecidableEq, Repr

structure LinkParams where
  unlink : Bool
  ready : Bool
  removeOldLinked : Option Bool
deriving DecidableEq, Repr

/-- The answer to a confirmation and the number of prompts shown so far. The prompt
is only shown when neither `removeOldLinked` nor `ready` decides. -/
def confirmUnlink (params : LinkParams) (prompt : ℕ → Bool) (asked : ℕ) : Bool × ℕ :=
  match params.removeOldLinked with
  | none => if params.ready then (true, asked) else (prompt asked, asked + 1)
  | some removeOldLinked => (removeOldLinked, asked)

def sameKey (x y : KeyAccount) : Bool := toUpperCase x.publicKey == toUpperCase y.publicKey

/-- The comparison both voting loops write out as `isAlreadyLinkedSameAccount`. -/
def isSameAccount (x y : VotingKeyAccount) : Bool :=
  toUpperCase x.publicKey == toUpperCase y.publicKey &&
    x.startEpoch == y.startEpoch && x.endEpoch == y.endEpoch

def overlapsVotingAccounts (x y : VotingKeyAccount) : Bool :=
  decide (x.endEpoch ≥ y.startEpoch) && decide (x.startEpoch ≤ y.endEpoch)

section Planner

variable (params : LinkParams) (prompt : ℕ → Bool)

/-- The remote and VRF branch: one slot, planned from the account linked in it. -/
def addTransaction (alreadyLinkedAccount : Option KeyAccount)
    (transactionFactory : KeyAccount → LinkAction → Transaction)
    (accountTobeLinked : KeyAccount) (asked : ℕ) : List Transaction × ℕ :=
  if params.unlink then
    match alreadyLinkedAccount with
    | some alreadyLinked =>
        if sameKey accountTobeLinked alreadyLinked then
          ([transactionFactory accountTobeLinked .unlink], asked)
        else
          let answer := confirmUnlink params prompt asked
          if answer.1 then ([transactionFactory alreadyLinked .unlink], answer.2)
          else ([], answer.2)
    | none => ([], asked)
  else
    match alreadyLinkedAccount with
    | some alreadyLinked =>
        if sameKey accountTobeLinked alreadyLinked then ([], asked)
        else
          let answer := confirmUnlink params prompt asked
          if answer.1 then
            ([transactionFactory alreadyLinked .unlink,
              transactionFactory accountTobeLinked .link], answer.2)
          else ([], answer.2)
    | none => ([transactionFactory accountTobeLinked .link], asked)

/-- The local variables of the voting loops. -/
structure VotingPlan where
  remainingVotingKeys : List VotingKeyAccount
  transactions : List Transaction
  asked : ℕ
deriving DecidableEq, Repr

/-- The first loop of `addVotingKeyLinkTransactions`: linked keys that ended before
the network epoch are unlinked when confirmed. -/
def unlinkExpired (lastKnownNetworkEpoch : ℕ) :
    List VotingKeyAccount → ℕ → VotingPlan
  | [], asked => ⟨[], [], asked⟩
  | alreadyLinkedAccount :: rest, asked =>
      if alreadyLinkedAccount.endEpoch < lastKnownNetworkEpoch then
        let answer := confirmUnlink params prompt asked
        let plan := unlinkExpired lastKnownNetworkEpoch rest answer.2
        if answer.1 then
          { plan with
            transactions :=
              .voting alreadyLinkedAccount .unlink :: plan.transactions }
        else
          { plan with
            remainingVotingKeys := alreadyLinkedAccount :: plan.remainingVotingKeys }
      else
        let plan := unlinkExpired lastKnownNetworkEpoch rest asked
        { plan with
          remainingVotingKeys := alreadyLinkedAccount :: plan.remainingVotingKeys }

/-- The end of the second loop's body, reached with `addTransaction` true. -/
def linkIfRoom (plan : VotingPlan) (accountTobeLinked : VotingKeyAccount) : VotingPlan :=
  if plan.remainingVotingKeys.length < 3 then
    { plan with
      transactions := plan.transactions ++ [.voting accountTobeLinked .link]
      remainingVotingKeys := plan.remainingVotingKeys ++ [accountTobeLinked] }
  else plan

/-- The body of the second loop of `addVotingKeyLinkTransactions`. Only the first
overlapping key is looked up. -/
def planVotingFile (plan : VotingPlan) (accountTobeLinked : VotingKeyAccount) :
    VotingPlan :=
  match plan.remainingVotingKeys.find? (overlapsVotingAccounts accountTobeLinked) with
  | some alreadyLinkedAccount =>
      if isSameAccount alreadyLinkedAccount accountTobeLinked then plan
      else
        let answer := confirmUnlink params prompt plan.asked
        if answer.1 then
          linkIfRoom
            { remainingVotingKeys :=
                plan.remainingVotingKeys.eraseP (overlapsVotingAccounts accountTobeLinked)
              transactions :=
                plan.transactions ++ [.voting alreadyLinkedAccount .unlink]
              asked := answer.2 } accountTobeLinked
        else { plan with asked := answer.2 }
  | none => linkIfRoom plan accountTobeLinked

def activeVotingKeyFiles (lastKnownNetworkEpoch : ℕ)
    (votingKeyFiles : List VotingKeyAccount) : List VotingKeyAccount :=
  votingKeyFiles.filter (fun a => decide (a.endEpoch ≥ lastKnownNetworkEpoch))

/-- Both loops of `addVotingKeyLinkTransactions`, with their final variables. -/
def votingLinkPlan (linkedVotingKeyAccounts votingKeyFiles : List VotingKeyAccount)
    (lastKnownNetworkEpoch asked : ℕ) : VotingPlan :=
  (activeVotingKeyFiles lastKnownNetworkEpoch votingKeyFiles).foldl
    (planVotingFile params prompt)
    (unlinkExpired params prompt lastKnownNetworkEpoch linkedVotingKeyAccounts asked)

def addVotingKeyLinkTransactions
    (linkedVotingKeyAccounts votingKeyFiles : List VotingKeyAccount)
    (lastKnownNetworkEpoch asked : ℕ) : List Transaction :=
  (votingLinkPlan params prompt linkedVotingKeyAccounts votingKeyFiles
    lastKnownNetworkEpoch asked).transactions

/-- The loop body of `addVotingKeyUnlinkTransactions`. -/
def unlinkVotingFile (plan : VotingPlan) (accountTobeLinked : VotingKeyAccount) :
    VotingPlan :=
  match plan.remainingVotingKeys.find? (overlapsVotingAccounts accountTobeLinked) with
  | some alreadyLinkedAccount =>
      if isSameAccount alreadyLinkedAccount accountTobeLinked then
        let answer := confirmUnlink params prompt plan.asked
        if answer.1 then
          { remainingVotingKeys :=
              plan.remainingVotingKeys.eraseP (overlapsVotingAccounts accountTobeLinked)
            transactions :=
              plan.transactions ++ [.voting alreadyLinkedAccount .unlink]
            asked := answer.2 }
        else { plan with asked := answer.2 }
      else plan
  | none => plan

def addVotingKeyUnlinkTransactions
    (linkedVotingKeyAccounts votingKeyFiles : List VotingKeyAccount) (asked : ℕ) :
    List Transaction :=
  (votingKeyFiles.foldl (unlinkVotingFile params prompt)
    ⟨linkedVotingKeyAccounts, [], asked⟩).transactions

/-- A slot the node does not configure is left alone. -/
def slotTransactions (alreadyLinkedAccount : Option KeyAccount)
    (transactionFactory : KeyAccount → LinkAction → Transaction)
    (configured : Option KeyAccount) (asked : ℕ) : List Transaction × ℕ :=
  match configured with
  | some accountTobeLinked =>
      addTransaction params prompt alreadyLinkedAccount transactionFactory
        accountTobeLinked asked
  | none => ([], asked)

def createGenericTransactions (currentMainAccountKeys nodeAccount : GenericNodeAccount)
    (latestFinalizedBlockEpoch : ℕ) : List Transaction :=
  let remote := slotTransactions params prompt currentMainAccountKeys.remote
    .remote nodeAccount.remote 0
  let vrf := slotTransactions params prompt currentMainAccountKeys.vrf
    .vrf nodeAccount.vrf remote.2
  remote.1 ++ vrf.1 ++
    if params.unlink then
      addVotingKeyUnlinkTransactions params prompt currentMainAccountKeys.voting
        nodeAccount.voting vrf.2
    else
      addVotingKeyLinkTransactions params prompt currentMainAccountKeys.voting
        nodeAccount.voting latestFinalizedBlockEpoch vrf.2

/-- `transactions.sort((t1, t2) => t1.linkAction - t2.linkAction)`: a stable sort that
puts unlinks first. -/
def sortByLinkAction (transactions : List Transaction) : List Transaction :=
  transactions.mergeSort
    (fun t1 t2 => decide (t1.linkAction.value ≤ t2.linkAction.value))

/-- `latestFinalizedBlockEpoch || presetData.lastKnownNetworkEpoch`. -/
def planningEpoch (latestFinalizedBlockEpoch : Option ℕ) (lastKnownNetworkEpoch : ℕ) : ℕ :=
  match latestFinalizedBlockEpoch with
  | some (epoch + 1) => epoch + 1
  | _ => lastKnownNetworkEpoch

def createTransactions (mainAccountKeys nodeAccount : GenericNodeAccount)
    (latestFinalizedBlockEpoch : Option ℕ) (lastKnownNetworkEpoch : ℕ) :
    List Transaction :=
  sortByLinkAction
    (createGenericTransactions params prompt mainAccountKeys nodeAccount
      (planningEpoch latestFinalizedBlockEpoch lastKnownNetworkEpoch))

end Planner
end SymbolBootstrap.LinkService
