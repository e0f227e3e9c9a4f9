import Mathlib.Tactic.Tauto
import SymbolBootstrap.Library.StableSort
import SymbolBootstrap.VotingPlan

/-!
A generic plan is its remote part, its VRF part and its voting part. On the chain the
three are independent, so a fact about a plan, in the planned or in the sorted order,
is a fact about each part. The two slot parts are settled here for every answer.
-/
namespace SymbolBootstrap.LinkParts

open Library LinkService LinkChain VotingPlan

inductive Kind
  | remote
  | vrf
  | voting
deriving DecidableEq

def kind : Transaction → Kind
  | .remote _ _ => .remote
  | .vrf _ _ => .vrf
  | .voting _ _ => .voting

/-- The transactions of one kind. -/
def part (which : Kind) (transactions : List Transaction) : List Transaction :=
  transactions.filter (fun transaction => decide (kind transaction = which))

def remoteAfterAll (slot : Option KeyAccount) (transactions : List Transaction) :
    Option KeyAccount :=
  transactions.foldl remoteAfter slot

def vrfAfterAll (slot : Option KeyAccount) (transactions : List Transaction) :
    Option KeyAccount :=
  transactions.foldl vrfAfter slot

section Parts

variable (state : GenericNodeAccount) (transactions : List Transaction)

theorem applyAll_remote :
    (applyAll state transactions).remote =
      remoteAfterAll state.remote (part .remote transactions) := by
  induction transactions generalizing state with
  | nil => rfl
  | cons transaction rest ih =>
    have hrest := ih (apply state transaction)
    cases transaction with
    | remote account action => exact hrest
    | vrf account action => exact hrest
    | voting account action => exact hrest

theorem applyAll_vrf :
    (applyAll state transactions).vrf =
      vrfAfterAll state.vrf (part .vrf transactions) := by
  induction transactions generalizing state with
  | nil => rfl
  | cons transaction rest ih =>
    have hrest := ih (apply state transaction)
    cases transaction with
    | remote account action => exact hrest
    | vrf account action => exact hrest
    | voting account action => exact hrest

theorem votingAfterAll_part (keys : List VotingKeyAccount) :
    votingAfterAll keys transactions = votingAfterAll keys (part .voting transactions) := by
  induction transactions generalizing keys with
  | nil => rfl
  | cons transaction rest ih =>
    have hrest := ih (votingAfter keys transaction)
    cases transaction with
    | remote account action => exact hrest
    | vrf account action => exact hrest
    | voting account action => exact hrest

theorem remoteExecutable_part (slot : Option KeyAccount) :
    SlotExecutable remoteOf slot transactions ↔
      SlotExecutable remoteOf slot (part .remote transactions) := by
  induction transactions generalizing slot with
  | nil => exact Iff.rfl
  | cons transaction rest ih =>
    cases transaction with
    | remote account action =>
      exact and_congr_right (fun _ => ih (slotAfter slot account action))
    | vrf account action => exact ih slot
    | voting account action => exact ih slot

theorem vrfExecutable_part (slot : Option KeyAccount) :
    SlotExecutable vrfOf slot transactions ↔
      SlotExecutable vrfOf slot (part .vrf transactions) := by
  induction transactions generalizing slot with
  | nil => exact Iff.rfl
  | cons transaction rest ih =>
    cases transaction with
    | remote account action => exact ih slot
    | vrf account action =>
      exact and_congr_right (fun _ => ih (slotAfter slot account action))
    | voting account action => exact ih slot

theorem votingExecutable_room {keys : List VotingKeyAccount}
    (h : VotingExecutable keys transactions) : keys.length ≤ maxVotingKeysPerAccount := by
  cases transactions with
  | nil => exact h
  | cons transaction rest => exact h.1

theorem votingExecutable_part (keys : List VotingKeyAccount) :
    VotingExecutable keys transactions ↔
      VotingExecutable keys (part .voting transactions) := by
  induction transactions generalizing keys with
  | nil => exact Iff.rfl
  | cons transaction rest ih =>
    cases transaction with
    | remote account action =>
      refine Iff.trans ?_ (ih keys)
      exact ⟨fun h => h.2.2, fun h => ⟨votingExecutable_room rest h, True.intro, h⟩⟩
    | vrf account action =>
      refine Iff.trans ?_ (ih keys)
      exact ⟨fun h => h.2.2, fun h => ⟨votingExecutable_room rest h, True.intro, h⟩⟩
    | voting account action =>
      exact and_congr_right (fun _ => and_congr_right (fun _ => ih _))

end Parts

section Sorted

def unlinks (transactions : List Transaction) : List Transaction :=
  transactions.filter (fun transaction => decide (transaction.linkAction.value = 0))

def links (transactions : List Transaction) : List Transaction :=
  transactions.filter (fun transaction => decide (transaction.linkAction.value = 1))

/-- The sorted plan is its unlinks, in planned order, and then its links. -/
theorem sortByLinkAction_eq (transactions : List Transaction) :
    sortByLinkAction transactions = unlinks transactions ++ links transactions := by
  apply StableSort.mergeSort_two (fun transaction : Transaction => transaction.linkAction.value)
  intro transaction _
  cases transaction.linkAction with
  | unlink => exact Nat.zero_lt_succ 1
  | link => exact Nat.lt_succ_self 1

theorem part_sorted (which : Kind) (transactions : List Transaction) :
    part which (sortByLinkAction transactions) =
      unlinks (part which transactions) ++ links (part which transactions) := by
  rw [sortByLinkAction_eq]
  unfold part unlinks links
  rw [List.filter_append]
  congr 1
  · exact List.filter_comm _ _ transactions
  · exact List.filter_comm _ _ transactions

end Sorted

section Voting

variable {params : LinkParams} {prompt : ℕ → Bool} {plan next : VotingPlan}
  {file : VotingKeyAccount}

theorem votingStep_kind (h : VotingStep params prompt plan file next)
    (hplan : ∀ transaction ∈ plan.transactions, kind transaction = .voting) :
    ∀ transaction ∈ next.transactions, kind transaction = .voting := by
  intro transaction hmem
  cases h with
  | same before key after hfirst hsame => exact hplan transaction hmem
  | refused before key after hfirst hdifferent hanswer => exact hplan transaction hmem
  | replaced before key after hfirst hdifferent hanswer =>
    rcases List.mem_append.mp hmem with hin | hin
    · exact hplan transaction hin
    · rcases List.mem_cons.mp hin with heq | hlast
      · rw [heq]
        rfl
      · rw [List.mem_singleton.mp hlast]
        rfl
  | linked hclear hroom =>
    rcases List.mem_append.mp hmem with hin | hin
    · exact hplan transaction hin
    · rw [List.mem_singleton.mp hin]
      rfl
  | full hclear hfull => exact hplan transaction hmem

variable (params prompt) in
theorem foldl_planVotingFile_kind (files : List VotingKeyAccount)
    (hroom : plan.remainingVotingKeys.length ≤ 3)
    (hplan : ∀ transaction ∈ plan.transactions, kind transaction = .voting) :
    ∀ transaction ∈ (files.foldl (planVotingFile params prompt) plan).transactions,
      kind transaction = .voting := by
  induction files generalizing plan with
  | nil => exact hplan
  | cons file rest ih =>
    have hstep := planVotingFile_step params prompt plan file hroom
    exact ih (hstep.length_le params prompt hroom) (votingStep_kind hstep hplan)

variable (params prompt plan) in
/-- The unlinking loop plans unlinks only. -/
theorem foldl_unlinkVotingFile_unlinks (files : List VotingKeyAccount)
    (hplan : ∀ transaction ∈ plan.transactions, ∃ key, transaction = .voting key .unlink) :
    ∀ transaction ∈ (files.foldl (unlinkVotingFile params prompt) plan).transactions,
      ∃ key, transaction = .voting key .unlink := by
  induction files generalizing plan with
  | nil => exact hplan
  | cons file rest ih =>
    apply ih
    unfold unlinkVotingFile
    split
    · rename_i key _
      split
      · by_cases hanswer : (confirmUnlink params prompt plan.asked).1 = true
        · simp only [hanswer, ↓reduceIte]
          intro transaction hmem
          rcases List.mem_append.mp hmem with hin | hin
          · exact hplan transaction hin
          · exact ⟨key, List.mem_singleton.mp hin⟩
        · simp only [hanswer, Bool.false_eq_true, ↓reduceIte]
          exact hplan
      · exact hplan
    · exact hplan

end Voting

section Generic

variable (params : LinkParams) (prompt : ℕ → Bool)

/-- The transactions planned for one slot: none, an unlink, a link, or an unlink of the
linked account before the link of the configured one. -/
theorem slotTransactions_cases (linked configured : Option KeyAccount)
    (factory : KeyAccount → LinkAction → Transaction) (asked : ℕ) :
    (slotTransactions params prompt linked factory configured asked).1 = [] ∨
    (∃ account ∈ linked, ∃ named, sameKey named account ∧
      (slotTransactions params prompt linked factory configured asked).1 =
        [factory named .unlink]) ∨
    (∃ account, linked = none ∧
      (slotTransactions params prompt linked factory configured asked).1 =
        [factory account .link]) ∨
    (∃ old ∈ linked, ∃ account,
      (slotTransactions params prompt linked factory configured asked).1 =
        [factory old .unlink, factory account .link]) := by
  have hself : ∀ account, sameKey account account = true := fun account => by simp [sameKey]
  cases configured with
  | none => exact Or.inl rfl
  | some account =>
    cases linked with
    | none =>
      by_cases hunlink : params.unlink = true
      · refine Or.inl ?_
        simp only [slotTransactions, addTransaction, hunlink, ↓reduceIte]
      · refine Or.inr (Or.inr (Or.inl ⟨account, rfl, ?_⟩))
        simp only [slotTransactions, addTransaction, hunlink, Bool.false_eq_true, ↓reduceIte]
    | some old =>
      by_cases hunlink : params.unlink = true
      · by_cases hsame : sameKey account old = true
        · refine Or.inr (Or.inl ⟨old, rfl, account, hsame, ?_⟩)
          simp only [slotTransactions, addTransaction, hunlink, hsame, ↓reduceIte]
        · by_cases hanswer : (confirmUnlink params prompt asked).1 = true
          · refine Or.inr (Or.inl ⟨old, rfl, old, hself old, ?_⟩)
            simp only [slotTransactions, addTransaction, hunlink, hsame, hanswer,
              Bool.false_eq_true, ↓reduceIte]
          · refine Or.inl ?_
            simp only [slotTransactions, addTransaction, hunlink, hsame, hanswer,
              Bool.false_eq_true, ↓reduceIte]
      · by_cases hsame : sameKey account old = true
        · refine Or.inl ?_
          simp only [slotTransactions, addTransaction, hunlink, hsame, Bool.false_eq_true,
            ↓reduceIte]
        · by_cases hanswer : (confirmUnlink params prompt asked).1 = true
          · refine Or.inr (Or.inr (Or.inr ⟨old, rfl, account, ?_⟩))
            simp only [slotTransactions, addTransaction, hunlink, hsame, hanswer,
              Bool.false_eq_true, ↓reduceIte]
          · refine Or.inl ?_
            simp only [slotTransactions, addTransaction, hunlink, hsame, hanswer,
              Bool.false_eq_true, ↓reduceIte]

/-- Sorting leaves a slot's transactions as they were planned. -/
theorem slotTransactions_sorted (linked configured : Option KeyAccount)
    (factory : KeyAccount → LinkAction → Transaction) (asked : ℕ)
    (hfactory : ∀ account action, (factory account action).linkAction = action) :
    unlinks (slotTransactions params prompt linked factory configured asked).1 ++
        links (slotTransactions params prompt linked factory configured asked).1 =
      (slotTransactions params prompt linked factory configured asked).1 := by
  rcases slotTransactions_cases params prompt linked configured factory asked with
    h | ⟨_, _, _, _, h⟩ | ⟨_, _, h⟩ | ⟨_, _, _, h⟩
  · rw [h]
    rfl
  · simp [h, unlinks, links, hfactory, LinkAction.value]
  · simp [h, unlinks, links, hfactory, LinkAction.value]
  · simp [h, unlinks, links, hfactory, LinkAction.value]

/-- A slot's transactions are accepted one after the other. -/
theorem slotTransactions_executable (linked configured : Option KeyAccount)
    (factory : KeyAccount → LinkAction → Transaction)
    (slotOf : Transaction → Option (KeyAccount × LinkAction)) (asked : ℕ)
    (hslot : ∀ account action, slotOf (factory account action) = some (account, action)) :
    SlotExecutable slotOf linked
      (slotTransactions params prompt linked factory configured asked).1 := by
  rcases slotTransactions_cases params prompt linked configured factory asked with
    h | ⟨account, haccount, named, hsame, h⟩ | ⟨account, hnone, h⟩ | ⟨old, hold, account, h⟩
  · rw [h]
    exact True.intro
  · simp only [h, SlotExecutable, hslot, SlotAccepts, and_true]
    exact ⟨account, haccount, hsame⟩
  · simp only [h, SlotExecutable, hslot, SlotAccepts, and_true]
    exact hnone
  · have hself : sameKey old old = true := by simp [sameKey]
    simp only [h, SlotExecutable, hslot, SlotAccepts, and_true]
    refine ⟨⟨old, hold, hself⟩, ?_⟩
    rw [Option.mem_def.mp hold]
    simp only [slotAfter, Option.filter_some, hself, Bool.not_true, Bool.false_eq_true,
      ↓reduceIte]

theorem slotTransactions_kind (linked configured : Option KeyAccount)
    (factory : KeyAccount → LinkAction → Transaction) (asked : ℕ) (which : Kind)
    (hkind : ∀ account action, kind (factory account action) = which) :
    ∀ transaction ∈ (slotTransactions params prompt linked factory configured asked).1,
      kind transaction = which := by
  intro transaction hmem
  rcases slotTransactions_cases params prompt linked configured factory asked with
    h | ⟨_, _, _, _, h⟩ | ⟨_, _, h⟩ | ⟨_, _, _, h⟩ <;> rw [h] at hmem
  · exact absurd hmem List.not_mem_nil
  · rw [List.mem_singleton.mp hmem, hkind]
  · rw [List.mem_singleton.mp hmem, hkind]
  · rcases List.mem_cons.mp hmem with hfirst | hrest
    · rw [hfirst, hkind]
    · rw [List.mem_singleton.mp hrest, hkind]

theorem unlinkExpired_kind (lastKnownNetworkEpoch : ℕ) (keys : List VotingKeyAccount)
    (asked : ℕ) :
    ∀ transaction ∈ (unlinkExpired params prompt lastKnownNetworkEpoch keys asked).transactions,
      ∃ key ∈ keys, key.endEpoch < lastKnownNetworkEpoch ∧
        transaction = .voting key .unlink := by
  induction keys generalizing asked with
  | nil => exact fun _ hmem => absurd hmem List.not_mem_nil
  | cons key rest ih =>
    intro transaction hmem
    have hrest : ∀ asked, transaction ∈
        (unlinkExpired params prompt lastKnownNetworkEpoch rest asked).transactions →
        ∃ other ∈ key :: rest, other.endEpoch < lastKnownNetworkEpoch ∧
          transaction = .voting other .unlink := by
      intro asked hin
      obtain ⟨other, hother, hend, heq⟩ := ih asked transaction hin
      exact ⟨other, List.mem_cons_of_mem key hother, hend, heq⟩
    unfold unlinkExpired at hmem
    by_cases hexpired : key.endEpoch < lastKnownNetworkEpoch
    · simp only [hexpired, ↓reduceIte] at hmem
      split at hmem
      · rcases List.mem_cons.mp hmem with heq | hin
        · exact ⟨key, List.mem_cons_self, hexpired, heq⟩
        · exact hrest _ hin
      · exact hrest _ hmem
    · simp only [hexpired, ↓reduceIte] at hmem
      exact hrest _ hmem

variable (currentMainAccountKeys nodeAccount : GenericNodeAccount)
  (latestFinalizedBlockEpoch : ℕ)

def remoteTransactions : List Transaction × ℕ :=
  slotTransactions params prompt currentMainAccountKeys.remote .remote nodeAccount.remote 0

def vrfTransactions : List Transaction × ℕ :=
  slotTransactions params prompt currentMainAccountKeys.vrf .vrf nodeAccount.vrf
    (remoteTransactions params prompt currentMainAccountKeys nodeAccount).2

/-- The confirmations asked for before the first voting key is looked at. -/
def askedBeforeVoting : ℕ :=
  (vrfTransactions params prompt currentMainAccountKeys nodeAccount).2

def votingTransactions : List Transaction :=
  if params.unlink then
    addVotingKeyUnlinkTransactions params prompt currentMainAccountKeys.voting
      nodeAccount.voting (askedBeforeVoting params prompt currentMainAccountKeys nodeAccount)
  else
    addVotingKeyLinkTransactions params prompt currentMainAccountKeys.voting
      nodeAccount.voting latestFinalizedBlockEpoch
      (askedBeforeVoting params prompt currentMainAccountKeys nodeAccount)

theorem createGenericTransactions_eq :
    createGenericTransactions params prompt currentMainAccountKeys nodeAccount
        latestFinalizedBlockEpoch =
      (remoteTransactions params prompt currentMainAccountKeys nodeAccount).1 ++
        (vrfTransactions params prompt currentMainAccountKeys nodeAccount).1 ++
        votingTransactions params prompt currentMainAccountKeys nodeAccount
          latestFinalizedBlockEpoch := rfl

theorem votingTransactions_kind (hlen : currentMainAccountKeys.voting.length ≤ 3) :
    ∀ transaction ∈ votingTransactions params prompt currentMainAccountKeys nodeAccount
      latestFinalizedBlockEpoch, kind transaction = .voting := by
  unfold votingTransactions
  split
  · intro transaction hmem
    obtain ⟨key, rfl⟩ := foldl_unlinkVotingFile_unlinks params prompt _ nodeAccount.voting
      (fun _ hnone => absurd hnone List.not_mem_nil) transaction hmem
    rfl
  · apply foldl_planVotingFile_kind
    · exact (unlinkExpired_sublist _ _ _).length_le.trans hlen
    · intro transaction hmem
      obtain ⟨key, _, _, rfl⟩ := unlinkExpired_kind params prompt _ _ _ transaction hmem
      rfl

theorem part_of_kind {which : Kind} {transactions : List Transaction}
    (h : ∀ transaction ∈ transactions, kind transaction = which) (other : Kind) :
    part other transactions = if which = other then transactions else [] := by
  unfold part
  split
  · rename_i heq
    apply List.filter_eq_self.mpr
    intro transaction hmem
    simp only [h transaction hmem, heq, decide_true]
  · rename_i hne
    apply List.filter_eq_nil_iff.mpr
    intro transaction hmem
    simp only [h transaction hmem, hne, decide_false, Bool.false_eq_true, not_false_eq_true]

/-- Each part of the generic plan is what was planned for it. -/
theorem part_createGeneric (hlen : currentMainAccountKeys.voting.length ≤ 3) :
    part .remote (createGenericTransactions params prompt currentMainAccountKeys nodeAccount
        latestFinalizedBlockEpoch) =
      (remoteTransactions params prompt currentMainAccountKeys nodeAccount).1 ∧
    part .vrf (createGenericTransactions params prompt currentMainAccountKeys nodeAccount
        latestFinalizedBlockEpoch) =
      (vrfTransactions params prompt currentMainAccountKeys nodeAccount).1 ∧
    part .voting (createGenericTransactions params prompt currentMainAccountKeys nodeAccount
        latestFinalizedBlockEpoch) =
      votingTransactions params prompt currentMainAccountKeys nodeAccount
        latestFinalizedBlockEpoch := by
  have hremote : ∀ transaction ∈ (remoteTransactions params prompt currentMainAccountKeys
      nodeAccount).1, kind transaction = .remote :=
    slotTransactions_kind params prompt _ _ _ _ .remote (fun _ _ => rfl)
  have hvrf : ∀ transaction ∈ (vrfTransactions params prompt currentMainAccountKeys
      nodeAccount).1, kind transaction = .vrf :=
    slotTransactions_kind params prompt _ _ _ _ .vrf (fun _ _ => rfl)
  have hvoting := votingTransactions_kind params prompt currentMainAccountKeys nodeAccount
    latestFinalizedBlockEpoch hlen
  have hparts : ∀ which, part which (createGenericTransactions params prompt
      currentMainAccountKeys nodeAccount latestFinalizedBlockEpoch) =
      part which (remoteTransactions params prompt currentMainAccountKeys nodeAccount).1 ++
        part which (vrfTransactions params prompt currentMainAccountKeys nodeAccount).1 ++
        part which (votingTransactions params prompt currentMainAccountKeys nodeAccount
          latestFinalizedBlockEpoch) := by
    intro which
    rw [createGenericTransactions_eq]
    unfold part
    rw [List.filter_append, List.filter_append]
  refine ⟨?_, ?_, ?_⟩
  · rw [hparts, part_of_kind hvoting, part_of_kind hremote, part_of_kind hvrf]
    simp
  · rw [hparts, part_of_kind hvoting, part_of_kind hremote, part_of_kind hvrf]
    simp
  · rw [hparts, part_of_kind hvoting, part_of_kind hremote, part_of_kind hvrf]
    simp

/-- Where the generic plan leads, part by part. -/
theorem applyAll_createGeneric (hlen : currentMainAccountKeys.voting.length ≤ 3) :
    applyAll currentMainAccountKeys (createGenericTransactions params prompt
        currentMainAccountKeys nodeAccount latestFinalizedBlockEpoch) =
      { remote := (remoteTransactions params prompt currentMainAccountKeys nodeAccount).1.foldl
          remoteAfter currentMainAccountKeys.remote
        vrf := (vrfTransactions params prompt currentMainAccountKeys nodeAccount).1.foldl
          vrfAfter currentMainAccountKeys.vrf
        voting := votingAfterAll currentMainAccountKeys.voting
          (votingTransactions params prompt currentMainAccountKeys nodeAccount
            latestFinalizedBlockEpoch) } := by
  obtain ⟨hremote, hvrf, hvoting⟩ := part_createGeneric params prompt currentMainAccountKeys
    nodeAccount latestFinalizedBlockEpoch hlen
  have hremoteAfter := applyAll_remote currentMainAccountKeys (createGenericTransactions params
    prompt currentMainAccountKeys nodeAccount latestFinalizedBlockEpoch)
  have hvrfAfter := applyAll_vrf currentMainAccountKeys (createGenericTransactions params
    prompt currentMainAccountKeys nodeAccount latestFinalizedBlockEpoch)
  have hvotingAfter := applyAll_voting currentMainAccountKeys (createGenericTransactions params
    prompt currentMainAccountKeys nodeAccount latestFinalizedBlockEpoch)
  rw [hremote] at hremoteAfter
  rw [hvrf] at hvrfAfter
  rw [votingAfterAll_part, hvoting] at hvotingAfter
  generalize applyAll currentMainAccountKeys _ = state at hremoteAfter hvrfAfter hvotingAfter ⊢
  cases state
  simp only [GenericNodeAccount.mk.injEq]
  exact ⟨hremoteAfter, hvrfAfter, hvotingAfter⟩

/-- The generic plan can be executed with all unlinks first, and comes to the same
state, exactly when its voting part can. -/
theorem sorted_iff_voting (hlen : currentMainAccountKeys.voting.length ≤ 3) :
    (Executable currentMainAccountKeys
        (sortByLinkAction (createGenericTransactions params prompt currentMainAccountKeys
          nodeAccount latestFinalizedBlockEpoch)) ∧
      applyAll currentMainAccountKeys
        (sortByLinkAction (createGenericTransactions params prompt currentMainAccountKeys
          nodeAccount latestFinalizedBlockEpoch)) =
        applyAll currentMainAccountKeys (createGenericTransactions params prompt
          currentMainAccountKeys nodeAccount latestFinalizedBlockEpoch)) ↔
    (VotingExecutable currentMainAccountKeys.voting
        (unlinks (votingTransactions params prompt currentMainAccountKeys nodeAccount
            latestFinalizedBlockEpoch) ++
          links (votingTransactions params prompt currentMainAccountKeys nodeAccount
            latestFinalizedBlockEpoch)) ∧
      votingAfterAll currentMainAccountKeys.voting
        (unlinks (votingTransactions params prompt currentMainAccountKeys nodeAccount
            latestFinalizedBlockEpoch) ++
          links (votingTransactions params prompt currentMainAccountKeys nodeAccount
            latestFinalizedBlockEpoch)) =
        votingAfterAll currentMainAccountKeys.voting (votingTransactions params prompt
          currentMainAccountKeys nodeAccount latestFinalizedBlockEpoch)) := by
  obtain ⟨hremote, hvrf, hparts⟩ := part_createGeneric params prompt currentMainAccountKeys
    nodeAccount latestFinalizedBlockEpoch hlen
  have hremoteSorted : unlinks (remoteTransactions params prompt currentMainAccountKeys
      nodeAccount).1 ++ links (remoteTransactions params prompt currentMainAccountKeys
      nodeAccount).1 = (remoteTransactions params prompt currentMainAccountKeys nodeAccount).1 :=
    slotTransactions_sorted params prompt _ _ _ _ (fun _ _ => rfl)
  have hvrfSorted : unlinks (vrfTransactions params prompt currentMainAccountKeys
      nodeAccount).1 ++ links (vrfTransactions params prompt currentMainAccountKeys
      nodeAccount).1 = (vrfTransactions params prompt currentMainAccountKeys nodeAccount).1 :=
    slotTransactions_sorted params prompt _ _ _ _ (fun _ _ => rfl)
  apply and_congr
  · rw [executable_iff, remoteExecutable_part, vrfExecutable_part, votingExecutable_part,
      part_sorted, part_sorted, part_sorted, hremote, hvrf, hparts, hremoteSorted, hvrfSorted]
    have hremoteExec : SlotExecutable remoteOf currentMainAccountKeys.remote
        (remoteTransactions params prompt currentMainAccountKeys nodeAccount).1 :=
      slotTransactions_executable params prompt _ _ _ _ _ (fun _ _ => rfl)
    have hvrfExec : SlotExecutable vrfOf currentMainAccountKeys.vrf
        (vrfTransactions params prompt currentMainAccountKeys nodeAccount).1 :=
      slotTransactions_executable params prompt _ _ _ _ _ (fun _ _ => rfl)
    exact ⟨fun h => h.2.2, fun h => ⟨hremoteExec, hvrfExec, h⟩⟩
  · have hext : ∀ x y : GenericNodeAccount,
        x = y ↔ x.remote = y.remote ∧ x.vrf = y.vrf ∧ x.voting = y.voting := by
      intro x y
      cases x
      cases y
      simp only [GenericNodeAccount.mk.injEq]
    rw [hext, applyAll_remote, applyAll_remote, applyAll_vrf, applyAll_vrf, applyAll_voting,
      applyAll_voting, votingAfterAll_part, part_sorted, part_sorted, part_sorted, hremote,
      hvrf, hparts, hremoteSorted, hvrfSorted]
    have hlast := votingAfterAll_part (createGenericTransactions params prompt
      currentMainAccountKeys nodeAccount latestFinalizedBlockEpoch) currentMainAccountKeys.voting
    rw [hparts] at hlast
    rw [hlast]
    exact ⟨fun h => h.2.2, fun h => ⟨rfl, rfl, h⟩⟩

end Generic
end SymbolBootstrap.LinkParts
