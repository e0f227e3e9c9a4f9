import Mathlib.Data.List.Perm.Subperm
import SymbolBootstrap.VotingPlan

/-!
The order of the planned voting transactions. A key that has not ended is only unlinked
right before a file that overlaps it is linked in its place, and the account never holds
more keys than it may. Keys of the account that are the same may be linked more than once,
so what the chain holds is compared with the remaining keys up to repetition.
-/
namespace SymbolBootstrap.VotingReplacement

open LinkService LinkChain VotingPlan

section Replacement

variable {params : LinkParams} {prompt : ℕ → Bool}

/-- Each unlink of a key that has not ended is followed by the link of a configured file
that has not ended and overlaps the key. -/
def Replaces (files : List VotingKeyAccount) (lastKnownNetworkEpoch : ℕ)
    (transactions : List Transaction) : Prop :=
  ∀ i key, transactions[i]? = some (.voting key .unlink) →
    lastKnownNetworkEpoch ≤ key.endEpoch →
    ∃ file ∈ files, transactions[i + 1]? = some (.voting file .link) ∧
      lastKnownNetworkEpoch ≤ file.endEpoch ∧ overlapsVotingAccounts file key = true

variable {files : List VotingKeyAccount} {lastKnownNetworkEpoch : ℕ}
  {transactions more : List Transaction}

theorem Replaces.append (h : Replaces files lastKnownNetworkEpoch transactions)
    (hmore : Replaces files lastKnownNetworkEpoch more) :
    Replaces files lastKnownNetworkEpoch (transactions ++ more) := by
  intro i key hunlink hvalid
  by_cases hi : i < transactions.length
  · rw [List.getElem?_append_left hi] at hunlink
    obtain ⟨file, hfile, hlink, hactive, hover⟩ := h i key hunlink hvalid
    refine ⟨file, hfile, ?_, hactive, hover⟩
    obtain ⟨hnext, -⟩ := List.getElem?_eq_some_iff.mp hlink
    rw [List.getElem?_append_left hnext]
    exact hlink
  · rw [List.getElem?_append_right (by omega)] at hunlink
    obtain ⟨file, hfile, hlink, hactive, hover⟩ := hmore _ key hunlink hvalid
    refine ⟨file, hfile, ?_, hactive, hover⟩
    rw [List.getElem?_append_right (by omega), Nat.sub_add_comm (by omega)]
    exact hlink

/-- Unlinks of keys that have ended replace nothing. -/
theorem replaces_of_ended
    (h : ∀ transaction ∈ transactions, ∃ key, transaction = .voting key .unlink ∧
      key.endEpoch < lastKnownNetworkEpoch) :
    Replaces files lastKnownNetworkEpoch transactions := by
  intro i key hunlink hvalid
  obtain ⟨other, heq, hended⟩ := h _ (List.mem_of_getElem? hunlink)
  cases heq
  omega

theorem replaces_link (file : VotingKeyAccount) :
    Replaces files lastKnownNetworkEpoch [.voting file .link] := by
  intro i key hunlink _
  have hmem := List.mem_of_getElem? hunlink
  cases List.mem_singleton.mp hmem

theorem replaces_replaced {file key : VotingKeyAccount} (hfile : file ∈ files)
    (hactive : lastKnownNetworkEpoch ≤ file.endEpoch)
    (hover : overlapsVotingAccounts file key = true) :
    Replaces files lastKnownNetworkEpoch [.voting key .unlink, .voting file .link] := by
  intro i other hunlink _
  rcases i with _ | _ | i
  · cases hunlink
    exact ⟨file, hfile, rfl, hactive, hover⟩
  · cases hunlink
  · cases hunlink

theorem unlinkExpired_ended (lastKnownNetworkEpoch : ℕ) (keys : List VotingKeyAccount)
    (asked : ℕ) :
    ∀ transaction ∈ (unlinkExpired params prompt lastKnownNetworkEpoch keys asked).transactions,
      ∃ key, transaction = .voting key .unlink ∧ key.endEpoch < lastKnownNetworkEpoch := by
  induction keys generalizing asked with
  | nil => exact fun _ hmem => absurd hmem List.not_mem_nil
  | cons key rest ih =>
    unfold unlinkExpired
    by_cases hexpired : key.endEpoch < lastKnownNetworkEpoch
    · simp only [hexpired, ↓reduceIte]
      split
      · intro transaction hmem
        rcases List.mem_cons.mp hmem with rfl | hin
        · exact ⟨key, rfl, hexpired⟩
        · exact ih _ transaction hin
      · exact ih _
    · simp only [hexpired, ↓reduceIte]
      exact ih asked

/-- What one iteration adds replaces what it unlinks. -/
theorem step_replaces {plan next : VotingPlan} {file : VotingKeyAccount}
    (h : VotingStep params prompt plan file next) (hfile : file ∈ files)
    (hactive : lastKnownNetworkEpoch ≤ file.endEpoch)
    (hplan : Replaces files lastKnownNetworkEpoch plan.transactions) :
    Replaces files lastKnownNetworkEpoch next.transactions := by
  cases h with
  | same before key after hfirst hsame => exact hplan
  | refused before key after hfirst hdifferent hanswer => exact hplan
  | replaced before key after hfirst hdifferent hanswer =>
    exact hplan.append (replaces_replaced hfile hactive hfirst.overlap)
  | linked hclear hroom => exact hplan.append (replaces_link file)
  | full hclear hfull => exact hplan

end Replacement

section Room

variable {params : LinkParams} {prompt : ℕ → Bool}

/-- What tells voting keys apart. -/
def identity (account : VotingKeyAccount) : String × ℕ × ℕ :=
  (toUpperCase account.publicKey, account.startEpoch, account.endEpoch)

theorem isSameAccount_identity {x y : VotingKeyAccount} :
    isSameAccount x y = true ↔ identity x = identity y := by
  rw [isSameAccount_iff, identity, identity, Prod.mk.injEq, Prod.mk.injEq]

/-- The chain holds at most the remaining keys, each at most as often. -/
def Covered (chain remaining : List VotingKeyAccount) : Prop :=
  (chain.map identity).Subperm (remaining.map identity)

variable {chain remaining : List VotingKeyAccount}

theorem Covered.length_le (h : Covered chain remaining) : chain.length ≤ remaining.length := by
  have hlength := List.Subperm.length_le h
  rwa [List.length_map, List.length_map] at hlength

theorem Covered.unlink {before after : List VotingKeyAccount} {key : VotingKeyAccount}
    (h : Covered chain (before ++ key :: after)) :
    Covered (votingAfter chain (.voting key .unlink)) (before ++ after) := by
  have hcommute : (votingAfter chain (.voting key .unlink)).map identity =
      (chain.map identity).filter (fun other => identity key != other) := by
    rw [votingAfter, List.filter_map]
    congr 1
    apply List.filter_congr
    intro other _
    rw [Function.comp_apply, Bool.eq_iff_iff, Bool.not_eq_true', Bool.eq_false_iff, ne_eq,
      isSameAccount_identity, bne_iff_ne, ne_eq]
  have hdrop : ((before ++ key :: after).map identity).filter (fun other => identity key != other) =
      ((before ++ after).map identity).filter (fun other => identity key != other) := by
    simp
  have hfilter := List.Subperm.filter (fun other => identity key != other) h
  rw [hdrop, ← hcommute] at hfilter
  exact hfilter.trans List.filter_sublist.subperm

theorem Covered.link (h : Covered chain remaining) (file : VotingKeyAccount) :
    Covered (votingAfter chain (.voting file .link)) (remaining ++ [file]) := by
  have hmore : Covered chain (remaining ++ [file]) := by
    rw [Covered, List.map_append]
    exact List.Subperm.trans h (List.sublist_append_left _ _).subperm
  rw [votingAfter]
  split
  · exact hmore
  · rw [Covered, List.map_append, List.map_append]
    exact (List.subperm_append_right _).mpr h

/-- The keys of the chain fit after every transaction. -/
def Fits (linked : List VotingKeyAccount) (transactions : List Transaction) : Prop :=
  ∀ n, (votingAfterAll linked (transactions.take n)).length ≤ maxVotingKeysPerAccount

theorem fits_concat {linked : List VotingKeyAccount} {transactions : List Transaction}
    {transaction : Transaction} (h : Fits linked transactions)
    (hlast : (votingAfterAll linked (transactions ++ [transaction])).length ≤
      maxVotingKeysPerAccount) :
    Fits linked (transactions ++ [transaction]) := by
  intro n
  by_cases hn : n ≤ transactions.length
  · rw [List.take_append_of_le_length hn]
    exact h n
  · rw [List.take_of_length_le (by rw [List.length_append, List.length_singleton]; omega)]
    exact hlast

/-- What the loops keep up. -/
structure HasRoom (linked : List VotingKeyAccount) (plan : VotingPlan) : Prop where
  covered : Covered (votingAfterAll linked plan.transactions) plan.remainingVotingKeys
  fits : Fits linked plan.transactions
  room : plan.remainingVotingKeys.length ≤ 3

variable {linked : List VotingKeyAccount} {plan next : VotingPlan} {file : VotingKeyAccount}

theorem HasRoom.unlink {before after : List VotingKeyAccount} {key : VotingKeyAccount}
    (h : HasRoom linked plan) (hsplit : plan.remainingVotingKeys = before ++ key :: after)
    (asked : ℕ) :
    HasRoom linked ⟨before ++ after, plan.transactions ++ [.voting key .unlink], asked⟩ := by
  have hcovered := h.covered
  have hroom := h.room
  rw [hsplit] at hcovered hroom
  have hchain : Covered (votingAfterAll linked (plan.transactions ++ [.voting key .unlink]))
      (before ++ after) := by
    rw [votingAfterAll_append]
    exact hcovered.unlink
  have hless : (before ++ after).length ≤ 3 := by
    simp only [List.length_append, List.length_cons] at hroom ⊢
    omega
  exact ⟨hchain, fits_concat h.fits (hchain.length_le.trans hless), hless⟩

theorem HasRoom.link (h : HasRoom linked plan) (hroom : plan.remainingVotingKeys.length < 3)
    (file : VotingKeyAccount) (asked : ℕ) :
    HasRoom linked ⟨plan.remainingVotingKeys ++ [file],
      plan.transactions ++ [.voting file .link], asked⟩ := by
  have hchain : Covered (votingAfterAll linked (plan.transactions ++ [.voting file .link]))
      (plan.remainingVotingKeys ++ [file]) := by
    rw [votingAfterAll_append]
    exact h.covered.link file
  have hless : (plan.remainingVotingKeys ++ [file]).length ≤ 3 := by
    rw [List.length_append, List.length_singleton]
    omega
  exact ⟨hchain, fits_concat h.fits (hchain.length_le.trans hless), hless⟩

/-- An unlink for a file leaves the room in which the file is then linked. -/
theorem step_hasRoom (hstep : VotingStep params prompt plan file next)
    (h : HasRoom linked plan) : HasRoom linked next := by
  cases hstep with
  | same before key after hfirst hsame => exact h
  | refused before key after hfirst hdifferent hanswer => exact ⟨h.covered, h.fits, h.room⟩
  | replaced before key after hfirst hdifferent hanswer =>
    have hunlinked := h.unlink hfirst.split (confirmUnlink params prompt plan.asked).2
    have hroom : (before ++ after).length < 3 := by
      have hlen := h.room
      rw [hfirst.split] at hlen
      simp only [List.length_append, List.length_cons] at hlen ⊢
      omega
    have hpair : plan.transactions ++ [.voting key .unlink, .voting file .link] =
        plan.transactions ++ [.voting key .unlink] ++ [.voting file .link] :=
      List.append_cons _ _ _
    rw [hpair]
    exact hunlinked.link hroom file _
  | linked hclear hroom => exact h.link hroom file plan.asked
  | full hclear hfull => exact h

/-- The expiry loop, run on the keys that come after those it has passed. -/
theorem unlinkExpired_hasRoom (lastKnownNetworkEpoch : ℕ) (keys : List VotingKeyAccount)
    (kept : List VotingKeyAccount) (done : List Transaction) (asked : ℕ)
    (h : HasRoom linked ⟨kept ++ keys, done, asked⟩) :
    HasRoom linked
      ⟨kept ++ (unlinkExpired params prompt lastKnownNetworkEpoch keys asked).remainingVotingKeys,
        done ++ (unlinkExpired params prompt lastKnownNetworkEpoch keys asked).transactions,
        (unlinkExpired params prompt lastKnownNetworkEpoch keys asked).asked⟩ := by
  induction keys generalizing kept done asked with
  | nil =>
    simp only [unlinkExpired, List.append_nil] at h ⊢
    exact h
  | cons key rest ih =>
    have hkeep : ∀ asked', HasRoom linked ⟨kept ++ [key] ++ rest, done, asked'⟩ := by
      intro asked'
      rw [← List.append_cons]
      exact ⟨h.covered, h.fits, h.room⟩
    unfold unlinkExpired
    by_cases hexpired : key.endEpoch < lastKnownNetworkEpoch
    · simp only [hexpired, ↓reduceIte]
      by_cases hanswer : (confirmUnlink params prompt asked).1 = true
      · have hunlinked := h.unlink rfl (confirmUnlink params prompt asked).2
        simp only [hanswer, ↓reduceIte]
        rw [List.append_cons done]
        exact ih kept _ _ hunlinked
      · simp only [hanswer, Bool.false_eq_true, ↓reduceIte]
        rw [List.append_cons kept]
        exact ih _ done _ (hkeep _)
    · simp only [hexpired, ↓reduceIte]
      rw [List.append_cons kept]
      exact ih _ done _ (hkeep asked)

end Room

section Plan

variable {params : LinkParams} {prompt : ℕ → Bool} {files : List VotingKeyAccount}
  {lastKnownNetworkEpoch : ℕ} {linked : List VotingKeyAccount}

theorem foldl_planVotingFile_keeps (active : List VotingKeyAccount)
    (hactive : ∀ file ∈ active, file ∈ files ∧ lastKnownNetworkEpoch ≤ file.endEpoch)
    {plan : VotingPlan} (hroom : HasRoom linked plan)
    (hreplaces : Replaces files lastKnownNetworkEpoch plan.transactions) :
    HasRoom linked (active.foldl (planVotingFile params prompt) plan) ∧
      Replaces files lastKnownNetworkEpoch
        (active.foldl (planVotingFile params prompt) plan).transactions := by
  induction active generalizing plan with
  | nil => exact ⟨hroom, hreplaces⟩
  | cons file rest ih =>
    have hstep := planVotingFile_step params prompt plan file hroom.room
    obtain ⟨hfile, hvalid⟩ := hactive file List.mem_cons_self
    exact ih (fun other hother => hactive other (List.mem_cons_of_mem file hother))
      (step_hasRoom hstep hroom) (step_replaces hstep hfile hvalid hreplaces)

/-- Keys that have not ended are only given up for a file that overlaps them, and there are
never more keys than an account may hold. -/
theorem valid_keys_replaced (params : LinkParams) (prompt : ℕ → Bool)
    (linkedVotingKeyAccounts votingKeyFiles : List VotingKeyAccount)
    (lastKnownNetworkEpoch asked : ℕ) (hlen : linkedVotingKeyAccounts.length ≤ 3) :
    Replaces votingKeyFiles lastKnownNetworkEpoch
      (addVotingKeyLinkTransactions params prompt linkedVotingKeyAccounts votingKeyFiles
        lastKnownNetworkEpoch asked) ∧
    Fits linkedVotingKeyAccounts
      (addVotingKeyLinkTransactions params prompt linkedVotingKeyAccounts votingKeyFiles
        lastKnownNetworkEpoch asked) := by
  have hstart : HasRoom linkedVotingKeyAccounts ⟨[] ++ linkedVotingKeyAccounts, [], asked⟩ :=
    ⟨List.Subperm.refl _, fun n => by rw [List.take_nil]; exact hlen, hlen⟩
  have hexpired : HasRoom linkedVotingKeyAccounts
      (unlinkExpired params prompt lastKnownNetworkEpoch linkedVotingKeyAccounts asked) :=
    unlinkExpired_hasRoom lastKnownNetworkEpoch linkedVotingKeyAccounts [] [] asked hstart
  have hended : Replaces votingKeyFiles lastKnownNetworkEpoch
      (unlinkExpired params prompt lastKnownNetworkEpoch linkedVotingKeyAccounts
        asked).transactions :=
    replaces_of_ended (unlinkExpired_ended lastKnownNetworkEpoch linkedVotingKeyAccounts asked)
  have hactive : ∀ file ∈ activeVotingKeyFiles lastKnownNetworkEpoch votingKeyFiles,
      file ∈ votingKeyFiles ∧ lastKnownNetworkEpoch ≤ file.endEpoch := by
    intro file hfile
    obtain ⟨hmem, hvalid⟩ := List.mem_filter.mp hfile
    exact ⟨hmem, of_decide_eq_true hvalid⟩
  obtain ⟨hroom, hreplaces⟩ := foldl_planVotingFile_keeps _ hactive hexpired hended
  exact ⟨hreplaces, hroom.fits⟩

/-- A full account of which one key is replaced. -/
theorem valid_keys_replaced_full :
    Replaces [⟨5, 30, "B2"⟩] 8
      (addVotingKeyLinkTransactions ⟨false, true, none⟩ (fun _ => false)
        [⟨1, 10, "A1"⟩, ⟨31, 40, "A2"⟩, ⟨41, 50, "A3"⟩] [⟨5, 30, "B2"⟩] 8 0) ∧
    Fits [⟨1, 10, "A1"⟩, ⟨31, 40, "A2"⟩, ⟨41, 50, "A3"⟩]
      (addVotingKeyLinkTransactions ⟨false, true, none⟩ (fun _ => false)
        [⟨1, 10, "A1"⟩, ⟨31, 40, "A2"⟩, ⟨41, 50, "A3"⟩] [⟨5, 30, "B2"⟩] 8 0) :=
  valid_keys_replaced ⟨false, true, none⟩ (fun _ => false)
    [⟨1, 10, "A1"⟩, ⟨31, 40, "A2"⟩, ⟨41, 50, "A3"⟩] [⟨5, 30, "B2"⟩] 8 0 (by decide)

end Plan

end SymbolBootstrap.VotingReplacement
