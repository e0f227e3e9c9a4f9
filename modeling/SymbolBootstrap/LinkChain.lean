import Mathlib.Tactic.Tauto
import SymbolBootstrap.LinkService

/-!
The chain side of the link transactions: what each transaction does to the keys linked
to an account, and when the chain accepts it. This is what the planner's output is for;
nothing here is taken from the planner. A voting key is identified by its public key,
without regard to case, and its two epochs.
-/
namespace SymbolBootstrap.LinkChain

open Library.ClosedIntervals LinkService

/-- Linked keys never number more than this. -/
def maxVotingKeysPerAccount : ℕ := 3

def DisjointKeys (keys : List VotingKeyAccount) : Prop :=
  Apart VotingKeyAccount.startEpoch VotingKeyAccount.endEpoch keys

def ProperKeys (keys : List VotingKeyAccount) : Prop :=
  ∀ key ∈ keys, key.startEpoch ≤ key.endEpoch

instance (keys : List VotingKeyAccount) : Decidable (DisjointKeys keys) :=
  inferInstanceAs (Decidable (keys.Pairwise
    (fun x y => ¬ (y.startEpoch ≤ x.endEpoch ∧ x.startEpoch ≤ y.endEpoch))))

instance (keys : List VotingKeyAccount) : Decidable (ProperKeys keys) :=
  inferInstanceAs (Decidable (∀ key ∈ keys, key.startEpoch ≤ key.endEpoch))

section Effect

def slotAfter (slot : Option KeyAccount) (account : KeyAccount) :
    LinkAction → Option KeyAccount
  | .link => some account
  | .unlink => slot.filter (fun linked => !sameKey account linked)

def remoteAfter (slot : Option KeyAccount) : Transaction → Option KeyAccount
  | .remote account action => slotAfter slot account action
  | .vrf _ _ => slot
  | .voting _ _ => slot

def vrfAfter (slot : Option KeyAccount) : Transaction → Option KeyAccount
  | .remote _ _ => slot
  | .vrf account action => slotAfter slot account action
  | .voting _ _ => slot

/-- The voting keys are a set: linking a key that is there changes nothing. -/
def votingAfter (keys : List VotingKeyAccount) : Transaction → List VotingKeyAccount
  | .remote _ _ => keys
  | .vrf _ _ => keys
  | .voting account .link =>
      if keys.any (isSameAccount account) then keys else keys ++ [account]
  | .voting account .unlink => keys.filter (fun linked => !isSameAccount account linked)

def apply (state : GenericNodeAccount) (transaction : Transaction) : GenericNodeAccount :=
  { remote := remoteAfter state.remote transaction
    vrf := vrfAfter state.vrf transaction
    voting := votingAfter state.voting transaction }

def applyAll (state : GenericNodeAccount) (transactions : List Transaction) :
    GenericNodeAccount :=
  transactions.foldl apply state

def votingAfterAll (keys : List VotingKeyAccount) (transactions : List Transaction) :
    List VotingKeyAccount :=
  transactions.foldl votingAfter keys

end Effect

section Acceptance

def SlotAccepts (slot : Option KeyAccount) (account : KeyAccount) : LinkAction → Prop
  | .link => slot = none
  | .unlink => ∃ linked ∈ slot, sameKey account linked

def VotingAccepts (keys : List VotingKeyAccount) : Transaction → Prop
  | .remote _ _ => True
  | .vrf _ _ => True
  | .voting account .link => ∀ linked ∈ keys, ¬ isSameAccount account linked
  | .voting account .unlink => ∃ linked ∈ keys, isSameAccount account linked

/-- An unlink names a key that is linked, a link a key that is not, and a remote or
VRF link finds its slot empty. -/
def Accepts (state : GenericNodeAccount) : Transaction → Prop
  | .remote account action => SlotAccepts state.remote account action
  | .vrf account action => SlotAccepts state.vrf account action
  | .voting account action => VotingAccepts state.voting (.voting account action)

/-- Every transaction is accepted in the state the earlier ones leave, and no state
on the way has too many voting keys. -/
def Executable (state : GenericNodeAccount) : List Transaction → Prop
  | [] => state.voting.length ≤ maxVotingKeysPerAccount
  | transaction :: rest =>
      state.voting.length ≤ maxVotingKeysPerAccount ∧ Accepts state transaction ∧
        Executable (apply state transaction) rest

/-- The part of `Executable` that concerns voting keys. -/
def VotingExecutable (keys : List VotingKeyAccount) : List Transaction → Prop
  | [] => keys.length ≤ maxVotingKeysPerAccount
  | transaction :: rest =>
      keys.length ≤ maxVotingKeysPerAccount ∧ VotingAccepts keys transaction ∧
        VotingExecutable (votingAfter keys transaction) rest

/-- The part of `Executable` that concerns one slot, read off the transactions by
`slotOf`. -/
def SlotExecutable (slotOf : Transaction → Option (KeyAccount × LinkAction))
    (slot : Option KeyAccount) : List Transaction → Prop
  | [] => True
  | transaction :: rest =>
      match slotOf transaction with
      | some (account, action) =>
          SlotAccepts slot account action ∧
            SlotExecutable slotOf (slotAfter slot account action) rest
      | none => SlotExecutable slotOf slot rest

def remoteOf : Transaction → Option (KeyAccount × LinkAction)
  | .remote account action => some (account, action)
  | .vrf _ _ => none
  | .voting _ _ => none

def vrfOf : Transaction → Option (KeyAccount × LinkAction)
  | .remote _ _ => none
  | .vrf account action => some (account, action)
  | .voting _ _ => none

end Acceptance

theorem applyAll_voting (state : GenericNodeAccount) (transactions : List Transaction) :
    (applyAll state transactions).voting = votingAfterAll state.voting transactions := by
  induction transactions generalizing state with
  | nil => rfl
  | cons transaction rest ih => exact ih (apply state transaction)

theorem votingAfterAll_append (keys : List VotingKeyAccount)
    (first second : List Transaction) :
    votingAfterAll keys (first ++ second) =
      votingAfterAll (votingAfterAll keys first) second := by
  unfold votingAfterAll
  rw [List.foldl_append]

/-- The three kinds of link do not interfere on the chain. -/
theorem executable_iff (state : GenericNodeAccount) (transactions : List Transaction) :
    Executable state transactions ↔
      SlotExecutable remoteOf state.remote transactions ∧
      SlotExecutable vrfOf state.vrf transactions ∧
      VotingExecutable state.voting transactions := by
  induction transactions generalizing state with
  | nil => simp [Executable, SlotExecutable, VotingExecutable]
  | cons transaction rest ih =>
    rw [Executable, ih]
    cases transaction with
    | remote account action =>
      simp only [Accepts, SlotExecutable, VotingExecutable, remoteOf, vrfOf, apply,
        remoteAfter, vrfAfter, votingAfter, VotingAccepts, true_and]
      tauto
    | vrf account action =>
      simp only [Accepts, SlotExecutable, VotingExecutable, remoteOf, vrfOf, apply,
        remoteAfter, vrfAfter, votingAfter, VotingAccepts, true_and]
      tauto
    | voting account action =>
      simp only [Accepts, SlotExecutable, VotingExecutable, remoteOf, vrfOf, apply,
        remoteAfter, vrfAfter]
      tauto

end SymbolBootstrap.LinkChain
