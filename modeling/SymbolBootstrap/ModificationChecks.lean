import Mathlib.Data.Finset.Card
import Mathlib.Data.Int.Order.Lemmas
import Mathlib.Tactic.Tauto
import SymbolBootstrap.ModifyMultisigService

/-!
What `validateParams` accepts, next to what the network asks of a multisig modification.
The source counts the entries of the address lists and compares thresholds with zero for
equality only; the network counts cosigners and has no negative thresholds. The two
agree unless a repeated address moves the count across a threshold, or a threshold that
falls below zero passes the remaining checks.
-/
namespace SymbolBootstrap.ModificationChecks

open Library.Throwing AnnounceService ModifyMultisigService

section Checks

variable (addressAdditions addressDeletions : Option (List Address))
  (minRemovalDelta minApprovalDelta : Option ℤ)
  (currentMultisigInfo : Option MultisigAccountInfo)

def cosignatories : List Address :=
  match currentMultisigInfo with
  | some info => info.cosignatoryAddresses
  | none => []

theorem isCosignatory_iff (address : Address) :
    isCosignatory currentMultisigInfo address = true ↔
      address ∈ cosignatories currentMultisigInfo := by
  cases currentMultisigInfo with
  | none => simp [isCosignatory, cosignatories]
  | some info => simp [isCosignatory, cosignatories]

theorem newCosignatoryNumber_eq :
    newCosignatoryNumber addressAdditions addressDeletions currentMultisigInfo =
      (cosignatories currentMultisigInfo).length + (addressAdditions.getD []).length -
        (addressDeletions.getD []).length := by
  cases currentMultisigInfo with
  | none => simp [newCosignatoryNumber, numberOfAddedCosigners, cosignatories]
  | some info =>
    simp only [newCosignatoryNumber, numberOfAddedCosigners, cosignatories]
    omega

/-- The first two checks: new cosigners are new, and removed ones are there. -/
structure MembersFit : Prop where
  additions : ∀ address ∈ addressAdditions.getD [], address ∉ cosignatories currentMultisigInfo
  deletions : ∀ address ∈ addressDeletions.getD [], address ∈ cosignatories currentMultisigInfo

/-- What is asked for when `validateParams` returns. -/
theorem validateParams_ok :
    validateParams addressAdditions addressDeletions minRemovalDelta minApprovalDelta
        currentMultisigInfo = .ok () ↔
      MembersFit addressAdditions addressDeletions currentMultisigInfo ∧
      newMinApproval minApprovalDelta currentMultisigInfo ≤
        newCosignatoryNumber addressAdditions addressDeletions currentMultisigInfo ∧
      newMinRemoval minRemovalDelta currentMultisigInfo ≤
        newCosignatoryNumber addressAdditions addressDeletions currentMultisigInfo ∧
      (0 < newCosignatoryNumber addressAdditions addressDeletions currentMultisigInfo →
        newMinApproval minApprovalDelta currentMultisigInfo ≠ 0 ∧
        newMinRemoval minRemovalDelta currentMultisigInfo ≠ 0) := by
  have haddition : ∀ address, checkAddition currentMultisigInfo address = .ok () ↔
      address ∉ cosignatories currentMultisigInfo := by
    intro address
    rw [← isCosignatory_iff]
    exact guard_ok
  have hdeletion : ∀ address, checkDeletion currentMultisigInfo address = .ok () ↔
      address ∈ cosignatories currentMultisigInfo := by
    intro address
    rw [← isCosignatory_iff, checkDeletion]
    refine guard_ok.trans ?_
    rw [Bool.not_eq_true', Bool.not_eq_false]
  have hmembers : MembersFit addressAdditions addressDeletions currentMultisigInfo ↔
      (∀ address ∈ addressAdditions.getD [], address ∉ cosignatories currentMultisigInfo) ∧
      ∀ address ∈ addressDeletions.getD [], address ∈ cosignatories currentMultisigInfo :=
    ⟨fun h => ⟨h.additions, h.deletions⟩, fun h => ⟨h.1, h.2⟩⟩
  simp only [validateParams, then_ok, forM_ok, check_ok, guard_ok, haddition, hdeletion, hmembers,
    not_lt, gt_iff_lt, not_and, not_or, and_assoc, ne_eq]

end Checks

section Valid

variable (addressAdditions addressDeletions : Option (List Address))
  (minRemovalDelta minApprovalDelta : Option ℤ)
  (currentMultisigInfo : Option MultisigAccountInfo)

/-- The thresholds the modification leads to; an account that is no multisig account has
none. -/
def approvalAfter : ℤ :=
  (currentMultisigInfo.elim 0 MultisigAccountInfo.minApproval : ℕ) + minApprovalDelta.getD 0

def removalAfter : ℤ :=
  (currentMultisigInfo.elim 0 MultisigAccountInfo.minRemoval : ℕ) + minRemovalDelta.getD 0

/-- The cosigners the modification leads to. -/
def cosignatoriesAfter : Finset Address :=
  ((cosignatories currentMultisigInfo).toFinset ∪ (addressAdditions.getD []).toFinset) \
    (addressDeletions.getD []).toFinset

/-- The entries of the lists, each counted as often as it is listed. -/
def listedAfter : ℤ :=
  (cosignatories currentMultisigInfo).length + (addressAdditions.getD []).length -
    (addressDeletions.getD []).length

/-- Either no cosigner is left and no threshold, or each threshold can be reached. -/
def ThresholdsFit (minApproval minRemoval cosigners : ℤ) : Prop :=
  (cosigners = 0 ∧ minApproval = 0 ∧ minRemoval = 0) ∨
    (1 ≤ minApproval ∧ minApproval ≤ cosigners ∧ 1 ≤ minRemoval ∧ minRemoval ≤ cosigners)

/-- What the network takes as a modification of the account. -/
structure ValidModification : Prop where
  members : MembersFit addressAdditions addressDeletions currentMultisigInfo
  thresholds : ThresholdsFit (approvalAfter minApprovalDelta currentMultisigInfo)
    (removalAfter minRemovalDelta currentMultisigInfo)
    (cosignatoriesAfter addressAdditions addressDeletions currentMultisigInfo).card

/-- Counting `listed` instead of `cosigners`, and comparing with zero for equality only,
makes no difference to the thresholds. The cases are those of the lower one. -/
def CountDecides (minApproval minRemoval listed cosigners : ℤ) : Prop :=
  (1 ≤ min minApproval minRemoval ∧
    (max minApproval minRemoval ≤ listed ↔ max minApproval minRemoval ≤ cosigners)) ∨
  (min minApproval minRemoval = 0 ∧
    (max minApproval minRemoval = 0 → (listed = 0 ↔ cosigners = 0))) ∨
  (min minApproval minRemoval < 0 ∧
    (listed < max minApproval minRemoval ∨ (max minApproval minRemoval = 0 ∧ 0 < listed)))

instance (minApproval minRemoval listed cosigners : ℤ) :
    Decidable (CountDecides minApproval minRemoval listed cosigners) := by
  unfold CountDecides
  infer_instance

theorem countDecides_iff (minApproval minRemoval listed cosigners : ℤ) :
    ((minApproval ≤ listed ∧ minRemoval ≤ listed ∧
        (0 < listed → minApproval ≠ 0 ∧ minRemoval ≠ 0)) ↔
      ThresholdsFit minApproval minRemoval cosigners) ↔
      CountDecides minApproval minRemoval listed cosigners := by
  unfold ThresholdsFit CountDecides
  rcases lt_trichotomy (min minApproval minRemoval) 0 with hneg | hzero | hpos
  · omega
  · omega
  · omega

theorem newMinApproval_eq : newMinApproval minApprovalDelta currentMultisigInfo =
    approvalAfter minApprovalDelta currentMultisigInfo := by
  cases currentMultisigInfo with
  | none => simp [newMinApproval, approvalAfter]
  | some info => rfl

theorem newMinRemoval_eq : newMinRemoval minRemovalDelta currentMultisigInfo =
    removalAfter minRemovalDelta currentMultisigInfo := by
  cases currentMultisigInfo with
  | none => simp [newMinRemoval, removalAfter]
  | some info => rfl

variable {addressAdditions addressDeletions currentMultisigInfo} in
/-- Where no address is repeated, the entries listed are the cosigners. -/
theorem listedAfter_of_nodup
    (hmembers : MembersFit addressAdditions addressDeletions currentMultisigInfo)
    (hcurrent : (cosignatories currentMultisigInfo).Nodup)
    (hadditions : (addressAdditions.getD []).Nodup)
    (hdeletions : (addressDeletions.getD []).Nodup) :
    listedAfter addressAdditions addressDeletions currentMultisigInfo =
      (cosignatoriesAfter addressAdditions addressDeletions currentMultisigInfo).card := by
  have hapart : Disjoint (cosignatories currentMultisigInfo).toFinset
      (addressAdditions.getD []).toFinset := by
    refine Finset.disjoint_right.mpr fun address haddress => ?_
    rw [List.mem_toFinset] at haddress ⊢
    exact hmembers.additions address haddress
  have hinside : (addressDeletions.getD []).toFinset ⊆
      (cosignatories currentMultisigInfo).toFinset ∪ (addressAdditions.getD []).toFinset := by
    intro address haddress
    rw [List.mem_toFinset] at haddress
    exact Finset.mem_union_left _ (List.mem_toFinset.mpr (hmembers.deletions address haddress))
  have hcard := Finset.card_sdiff_add_card_eq_card hinside
  rw [Finset.card_union_of_disjoint hapart, List.toFinset_card_of_nodup hcurrent,
    List.toFinset_card_of_nodup hadditions, List.toFinset_card_of_nodup hdeletions] at hcard
  unfold listedAfter cosignatoriesAfter
  omega

/-- `validateParams` accepts the modification exactly if it is a valid one. -/
def ChecksAgree : Prop :=
  validateParams addressAdditions addressDeletions minRemovalDelta minApprovalDelta
      currentMultisigInfo = .ok () ↔
    ValidModification addressAdditions addressDeletions minRemovalDelta minApprovalDelta
      currentMultisigInfo

/-- When `validateParams` accepts exactly the valid modifications: where the addresses do
not fit in the first place, or the count decides as the cosigners would. So it does when no
address is repeated and no threshold falls below zero. -/
theorem validateParams_exactly :
    (ChecksAgree addressAdditions addressDeletions minRemovalDelta minApprovalDelta
        currentMultisigInfo ↔
      (MembersFit addressAdditions addressDeletions currentMultisigInfo →
        CountDecides (approvalAfter minApprovalDelta currentMultisigInfo)
          (removalAfter minRemovalDelta currentMultisigInfo)
          (listedAfter addressAdditions addressDeletions currentMultisigInfo)
          (cosignatoriesAfter addressAdditions addressDeletions currentMultisigInfo).card)) ∧
    ((cosignatories currentMultisigInfo).Nodup → (addressAdditions.getD []).Nodup →
      (addressDeletions.getD []).Nodup → 0 ≤ approvalAfter minApprovalDelta currentMultisigInfo →
      0 ≤ removalAfter minRemovalDelta currentMultisigInfo →
      ChecksAgree addressAdditions addressDeletions minRemovalDelta minApprovalDelta
        currentMultisigInfo) := by
  have hvalid : ValidModification addressAdditions addressDeletions minRemovalDelta
      minApprovalDelta currentMultisigInfo ↔
      MembersFit addressAdditions addressDeletions currentMultisigInfo ∧
        ThresholdsFit (approvalAfter minApprovalDelta currentMultisigInfo)
          (removalAfter minRemovalDelta currentMultisigInfo)
          (cosignatoriesAfter addressAdditions addressDeletions currentMultisigInfo).card :=
    ⟨fun h => ⟨h.members, h.thresholds⟩, fun h => ⟨h.1, h.2⟩⟩
  have hcount := countDecides_iff (approvalAfter minApprovalDelta currentMultisigInfo)
    (removalAfter minRemovalDelta currentMultisigInfo)
    (listedAfter addressAdditions addressDeletions currentMultisigInfo)
    (cosignatoriesAfter addressAdditions addressDeletions currentMultisigInfo).card
  have hagree : ChecksAgree addressAdditions addressDeletions minRemovalDelta minApprovalDelta
      currentMultisigInfo ↔
      (MembersFit addressAdditions addressDeletions currentMultisigInfo →
        CountDecides (approvalAfter minApprovalDelta currentMultisigInfo)
          (removalAfter minRemovalDelta currentMultisigInfo)
          (listedAfter addressAdditions addressDeletions currentMultisigInfo)
          (cosignatoriesAfter addressAdditions addressDeletions currentMultisigInfo).card) := by
    rw [ChecksAgree, validateParams_ok, hvalid, newMinApproval_eq, newMinRemoval_eq,
      newCosignatoryNumber_eq]
    exact and_congr_right_iff.trans (imp_congr_right fun _ => hcount)
  refine ⟨hagree, fun hcurrent hadditions hdeletions happroval hremoval => ?_⟩
  refine hagree.mpr fun hmembers => ?_
  rw [listedAfter_of_nodup hmembers hcurrent hadditions hdeletions]
  rcases Int.lt_or_eq_of_le (le_min happroval hremoval) with hpos | hzero
  · exact Or.inl ⟨hpos, Iff.rfl⟩
  · exact Or.inr (Or.inl ⟨hzero.symm, fun _ => Iff.rfl⟩)

end Valid

/-- The same cosigner removed twice counts as two, so the thresholds may go to zero while
the other cosigner stays. -/
theorem repeated_removal_accepted :
    ¬ ∀ (addressAdditions addressDeletions : Option (List Address))
      (minRemovalDelta minApprovalDelta : Option ℤ)
      (currentMultisigInfo : Option MultisigAccountInfo),
      ChecksAgree addressAdditions addressDeletions minRemovalDelta minApprovalDelta
        currentMultisigInfo := by
  intro h
  have haccepted : validateParams (some []) (some ["TA", "TA"]) (some (-1)) (some (-1))
      (some ⟨1, 1, ["TA", "TB"]⟩) = .ok () := rfl
  have hvalid := (h (some []) (some ["TA", "TA"]) (some (-1)) (some (-1))
    (some ⟨1, 1, ["TA", "TB"]⟩)).mp haccepted
  rcases hvalid.thresholds with ⟨hnone, _, _⟩ | ⟨hpos, _, _, _⟩
  · exact absurd hnone (by decide)
  · exact absurd hpos (by decide)

end SymbolBootstrap.ModificationChecks
