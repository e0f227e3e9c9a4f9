import Mathlib.Data.List.Perm.Basic
import SymbolBootstrap.LinkUndo

/-!
The keys that the unlinking loop takes off an account. Transactions and remaining keys
together are always the keys of the account, and among disjoint keys those that go are the
ones some file finds: a foreign key that overlaps a file never stands before the file's
own. A key that ends before it starts is its file's own and is not found.
-/
namespace SymbolBootstrap.UnlinkOwnKeys

open LinkService LinkChain VotingPlan LinkUndo

section Loop

variable {params : LinkParams} {prompt : ℕ → Bool}

def unlinksOf (keys : List VotingKeyAccount) : List Transaction :=
  keys.map (fun key => .voting key .unlink)

theorem unlinksOf_perm {keys others : List VotingKeyAccount} :
    (unlinksOf keys).Perm (unlinksOf others) ↔ keys.Perm others := by
  apply List.map_perm_map_iff
  intro key other heq
  cases heq
  rfl

/-- A key that is unlinked leaves the remaining keys. -/
theorem unlinkStep_conserves {plan next : VotingPlan} {file : VotingKeyAccount}
    (h : UnlinkStep params prompt plan file next) :
    (next.transactions ++ unlinksOf next.remainingVotingKeys).Perm
      (plan.transactions ++ unlinksOf plan.remainingVotingKeys) := by
  cases h with
  | unlinked before key after hfirst hsame =>
    rw [hfirst.split, List.append_assoc]
    have hmiddle : (before ++ key :: after).Perm (key :: (before ++ after)) := List.perm_middle
    exact List.Perm.append_left plan.transactions (unlinksOf_perm.mpr hmiddle).symm
  | different before key after hfirst hdifferent => exact List.Perm.refl _
  | clear hclear => exact List.Perm.refl _

theorem foldl_unlinkVotingFile_conserves (hconfirmed : AllConfirmed params prompt)
    (files : List VotingKeyAccount) (plan : VotingPlan) :
    ((files.foldl (unlinkVotingFile params prompt) plan).transactions ++
      unlinksOf (files.foldl (unlinkVotingFile params prompt) plan).remainingVotingKeys).Perm
      (plan.transactions ++ unlinksOf plan.remainingVotingKeys) := by
  induction files generalizing plan with
  | nil => exact List.Perm.refl _
  | cons file rest ih =>
    exact (ih _).trans (unlinkStep_conserves (unlinkVotingFile_step hconfirmed plan file))

end Loop

section Own

variable {params : LinkParams} {prompt : ℕ → Bool}

/-- The key of one of the files. -/
def isOwn (files : List VotingKeyAccount) (key : VotingKeyAccount) : Bool :=
  files.any (fun file => isSameAccount key file)

def isFound (files : List VotingKeyAccount) (key : VotingKeyAccount) : Bool :=
  files.any (fun file => foundBy file key)

theorem isFound_eq (files : List VotingKeyAccount) (key : VotingKeyAccount) :
    isFound files key = (decide (key.startEpoch ≤ key.endEpoch) && isOwn files key) := by
  unfold isFound isOwn foundBy
  induction files with
  | nil => simp
  | cons file rest ih => rw [List.any_cons, List.any_cons, ih, Bool.and_or_distrib_left]

/-- Among disjoint keys exactly those that are found are unlinked, each once. -/
theorem unlinked_perm_found (hconfirmed : AllConfirmed params prompt)
    {linkedVotingKeyAccounts : List VotingKeyAccount}
    (hdisjoint : DisjointKeys linkedVotingKeyAccounts) (votingKeyFiles : List VotingKeyAccount)
    (asked : ℕ) :
    (addVotingKeyUnlinkTransactions params prompt linkedVotingKeyAccounts votingKeyFiles
      asked).Perm (unlinksOf (linkedVotingKeyAccounts.filter (isFound votingKeyFiles))) := by
  have hconserved := foldl_unlinkVotingFile_conserves hconfirmed votingKeyFiles
    ⟨linkedVotingKeyAccounts, [], asked⟩
  rw [foldl_unlinkVotingFile_remaining hconfirmed votingKeyFiles
    ⟨linkedVotingKeyAccounts, [], asked⟩ hdisjoint, List.nil_append] at hconserved
  have hsplit := unlinksOf_perm.mpr
    (List.filter_append_perm (isFound votingKeyFiles) linkedVotingKeyAccounts)
  rw [unlinksOf, List.map_append] at hsplit
  exact (List.perm_append_right_iff _).mp (hconserved.trans hsplit.symm)

/-- Among disjoint keys the own ones that do not end before they start are unlinked. -/
theorem unlinked_perm_own (hconfirmed : AllConfirmed params prompt)
    {linkedVotingKeyAccounts : List VotingKeyAccount}
    (hdisjoint : DisjointKeys linkedVotingKeyAccounts) (votingKeyFiles : List VotingKeyAccount)
    (asked : ℕ) :
    (addVotingKeyUnlinkTransactions params prompt linkedVotingKeyAccounts votingKeyFiles
      asked).Perm (unlinksOf ((linkedVotingKeyAccounts.filter (isOwn votingKeyFiles)).filter
        fun key => decide (key.startEpoch ≤ key.endEpoch))) := by
  have hfound : linkedVotingKeyAccounts.filter (isFound votingKeyFiles) =
      (linkedVotingKeyAccounts.filter (isOwn votingKeyFiles)).filter
        (fun key => decide (key.startEpoch ≤ key.endEpoch)) := by
    rw [List.filter_filter]
    exact List.filter_congr (fun key _ => isFound_eq votingKeyFiles key)
  rw [← hfound]
  exact unlinked_perm_found hconfirmed hdisjoint votingKeyFiles asked

/-- The keys of the node's files are unlinked, each once, and no others are touched. -/
def UnlinksOwnKeys (params : LinkParams) (prompt : ℕ → Bool)
    (linkedVotingKeyAccounts votingKeyFiles : List VotingKeyAccount) (asked : ℕ) : Prop :=
  (addVotingKeyUnlinkTransactions params prompt linkedVotingKeyAccounts votingKeyFiles
    asked).Perm (unlinksOf (linkedVotingKeyAccounts.filter (isOwn votingKeyFiles)))

/-- Where every linked key has an epoch, the own keys are unlinked. -/
theorem unlinksOwnKeys_of_proper (hconfirmed : AllConfirmed params prompt)
    {linkedVotingKeyAccounts : List VotingKeyAccount}
    (hdisjoint : DisjointKeys linkedVotingKeyAccounts)
    (hproper : ∀ key ∈ linkedVotingKeyAccounts, key.startEpoch ≤ key.endEpoch)
    (votingKeyFiles : List VotingKeyAccount) (asked : ℕ) :
    UnlinksOwnKeys params prompt linkedVotingKeyAccounts votingKeyFiles asked := by
  have hown := unlinked_perm_own hconfirmed hdisjoint votingKeyFiles asked
  have hall : (linkedVotingKeyAccounts.filter (isOwn votingKeyFiles)).filter
      (fun key => decide (key.startEpoch ≤ key.endEpoch)) =
        linkedVotingKeyAccounts.filter (isOwn votingKeyFiles) :=
    List.filter_eq_self.mpr fun key hkey =>
      decide_eq_true (hproper key (List.mem_filter.mp hkey).1)
  rw [hall] at hown
  exact hown

/-- The own keys are unlinked exactly when none of them ends before it starts. -/
theorem unlinks_own_keys_exactly (params : LinkParams) (prompt : ℕ → Bool)
    (hconfirmed : AllConfirmed params prompt)
    (linkedVotingKeyAccounts votingKeyFiles : List VotingKeyAccount)
    (hdisjoint : DisjointKeys linkedVotingKeyAccounts) (asked : ℕ) :
    UnlinksOwnKeys params prompt linkedVotingKeyAccounts votingKeyFiles asked ↔
      ∀ key ∈ linkedVotingKeyAccounts, isOwn votingKeyFiles key = true →
        key.startEpoch ≤ key.endEpoch := by
  have hfound := unlinked_perm_own hconfirmed hdisjoint votingKeyFiles asked
  unfold UnlinksOwnKeys
  generalize hown : linkedVotingKeyAccounts.filter (isOwn votingKeyFiles) = own at hfound ⊢
  have hall : (∀ key ∈ linkedVotingKeyAccounts, isOwn votingKeyFiles key = true →
      key.startEpoch ≤ key.endEpoch) ↔ ∀ key ∈ own, key.startEpoch ≤ key.endEpoch := by
    rw [← hown]
    simp only [List.mem_filter, and_imp]
  rw [hall]
  constructor
  · intro hperm
    have hlength := (unlinksOf_perm.mp (hfound.symm.trans hperm)).length_eq
    have hkeep := List.length_filter_eq_length_iff.mp hlength
    exact fun key hkey => of_decide_eq_true (hkeep key hkey)
  · intro hkeep
    have hself : own.filter (fun key => decide (key.startEpoch ≤ key.endEpoch)) = own :=
      List.filter_eq_self.mpr fun key hkey => decide_eq_true (hkeep key hkey)
    rw [hself] at hfound
    exact hfound

/-- An own key between foreign ones that overlap its file, the file being there twice. -/
theorem unlinks_own_keys_exactly_repeated :
    UnlinksOwnKeys ⟨true, true, none⟩ (fun _ => false)
        [⟨1, 10, "A1"⟩, ⟨11, 20, "b2"⟩, ⟨21, 30, "C3"⟩]
        [⟨5, 25, "B2"⟩, ⟨11, 20, "B2"⟩, ⟨11, 20, "B2"⟩] 0 ↔
      ∀ key ∈ [(⟨1, 10, "A1"⟩ : VotingKeyAccount), ⟨11, 20, "b2"⟩, ⟨21, 30, "C3"⟩],
        isOwn [⟨5, 25, "B2"⟩, ⟨11, 20, "B2"⟩, ⟨11, 20, "B2"⟩] key = true →
          key.startEpoch ≤ key.endEpoch :=
  unlinks_own_keys_exactly ⟨true, true, none⟩ (fun _ => false)
    (allConfirmed_of_ready _ _ rfl rfl) [⟨1, 10, "A1"⟩, ⟨11, 20, "b2"⟩, ⟨21, 30, "C3"⟩]
    [⟨5, 25, "B2"⟩, ⟨11, 20, "B2"⟩, ⟨11, 20, "B2"⟩] (by decide) 0

/-- An own key without a single epoch stays linked. -/
theorem own_empty_key_stays :
    ¬ ∀ (linkedVotingKeyAccounts votingKeyFiles : List VotingKeyAccount),
      DisjointKeys linkedVotingKeyAccounts →
      UnlinksOwnKeys ⟨true, true, none⟩ (fun _ => false) linkedVotingKeyAccounts votingKeyFiles
        0 := by
  intro hclaim
  have hperm := hclaim [⟨5, 4, "A1"⟩] [⟨5, 4, "A1"⟩] (by decide)
  exact absurd hperm.length_eq (by decide)

end Own

end SymbolBootstrap.UnlinkOwnKeys
