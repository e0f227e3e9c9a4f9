import SymbolBootstrap.Library.PrefixRuns
import SymbolBootstrap.LinkOrder

/-!
When the linking loop revises a link of its own plan: a file takes the place of a key
the plan has linked, or is linked a second time. Until then the plan can be executed
with its unlinks first and comes to the same keys; from then on it cannot. Files that
do not overlap one another never make it happen.
-/
namespace SymbolBootstrap.LinkRevision

open Library Library.ClosedIntervals LinkService LinkChain VotingPlan LinkParts LinkOrder

section Linking

variable (params : LinkParams) (prompt : ℕ → Bool)

/-- A file is about to take the place of the first key it overlaps, and the plan so far
links that key, or the file itself. -/
def RevisesOwnLink (plan : VotingPlan) (file : VotingKeyAccount) : Prop :=
  ∃ key, plan.remainingVotingKeys.find? (overlapsVotingAccounts file) = some key ∧
    isSameAccount key file = false ∧ (confirmUnlink params prompt plan.asked).1 = true ∧
    ∃ own, .voting own .link ∈ plan.transactions ∧
      (isSameAccount own key = true ∨ isSameAccount own file = true)

/-- The second loop is at no file about to revise a link of its own plan. -/
def NeverRevisesOwnLink (linked files : List VotingKeyAccount)
    (lastKnownNetworkEpoch asked : ℕ) : Prop :=
  PrefixRuns.EveryStep (planVotingFile params prompt)
    (unlinkExpired params prompt lastKnownNetworkEpoch linked asked)
    (activeVotingKeyFiles lastKnownNetworkEpoch files)
    (fun plan file => ¬ RevisesOwnLink params prompt plan file)

variable {params prompt}

/-- What a plan that has revised no link of its own keeps up: each remaining key is an
initial one or linked by the plan, what the plan links is new and stays, and each
initial key that has not ended still meets a remaining key. -/
structure Unrevised (linked : List VotingKeyAccount) (lastKnownNetworkEpoch : ℕ)
    (plan : VotingPlan) : Prop where
  voting : ∀ transaction ∈ plan.transactions, kind transaction = .voting
  origin : ∀ key ∈ plan.remainingVotingKeys,
    key ∈ linked ∨ .voting key .link ∈ plan.transactions
  stays : ∀ own, .voting own .link ∈ plan.transactions → own ∈ plan.remainingVotingKeys
  new : ∀ own, .voting own .link ∈ plan.transactions →
    ∀ key ∈ linked, isSameAccount own key = false
  met : ∀ key ∈ linked, key.endEpoch ≥ lastKnownNetworkEpoch →
    ∃ other ∈ plan.remainingVotingKeys, overlapsVotingAccounts other key = true
  ordered : plan.transactions.Pairwise (fun first second => ¬ TakesBack first second)
  executable : VotingExecutable linked plan.transactions
  tracks : Tracks linked plan
  room : plan.remainingVotingKeys.length ≤ 3

variable {linked before after : List VotingKeyAccount} {lastKnownNetworkEpoch : ℕ}
  {plan next : VotingPlan} {file key : VotingKeyAccount}

/-- A file about to replace a key without revising a link replaces an initial key. -/
theorem Unrevised.first_linked (h : Unrevised linked lastKnownNetworkEpoch plan)
    (hfirst : FirstOverlap plan.remainingVotingKeys file before key after)
    (hdifferent : isSameAccount key file = false)
    (hanswer : (confirmUnlink params prompt plan.asked).1 = true)
    (hkeeps : ¬ RevisesOwnLink params prompt plan file) : key ∈ linked := by
  rcases h.origin key hfirst.mem with hlinked | hown
  · exact hlinked
  · exact absurd ⟨key, hfirst.find, hdifferent, hanswer, key, hown,
      Or.inl (isSameAccount_self key)⟩ hkeeps

/-- A file that replaces an initial key is no initial key itself. -/
theorem new_of_replaces (hdisjoint : DisjointKeys linked)
    (hfirst : FirstOverlap plan.remainingVotingKeys file before key after)
    (hdifferent : isSameAccount key file = false) (hkey : key ∈ linked) :
    ∀ other ∈ linked, isSameAccount file other = false := by
  intro other hother
  by_contra hsame
  have hover := overlap_of_same (by simpa using hsame) (overlaps_iff.mp hfirst.overlap)
  have heq := hdisjoint.eq_of_overlap hother hkey hover
  subst heq
  rw [different_comm hdifferent] at hsame
  exact hsame rfl

/-- A file clear of the remaining keys is no initial key either. -/
theorem Unrevised.new_of_clear (h : Unrevised linked lastKnownNetworkEpoch plan)
    (hactive : file.endEpoch ≥ lastKnownNetworkEpoch)
    (hclear : ∀ other ∈ plan.remainingVotingKeys,
      overlapsVotingAccounts file other = false) :
    ∀ other ∈ linked, isSameAccount file other = false := by
  intro key hkey
  by_contra hsame
  have hsame' : isSameAccount key file = true := by
    rw [isSameAccount_comm]
    simpa using hsame
  have hend : key.endEpoch ≥ lastKnownNetworkEpoch := by
    rw [(isSameAccount_iff.mp hsame').2.2]
    exact hactive
  obtain ⟨other, hother, hover⟩ := h.met key hkey hend
  have hmeets := overlap_of_same hsame' (overlaps_iff.mp hover).symm
  exact not_overlaps_iff.mp (hclear other hother) hmeets

/-- A key other than all that are linked can be linked while there is room. -/
theorem votingExecutable_link {keys : List VotingKeyAccount} (hroom : keys.length < 3)
    (hother : ∀ other ∈ keys, isSameAccount file other = false) :
    VotingExecutable keys [.voting file .link] := by
  refine ⟨Nat.le_of_lt hroom, ?_, ?_⟩
  · intro other hmem
    simp only [hother other hmem, Bool.false_eq_true, not_false_eq_true]
  · rw [votingAfter_link hother]
    change (keys ++ [file]).length ≤ 3
    rw [List.length_append, List.length_singleton]
    exact hroom

/-- A linked key can be unlinked and a key other than the rest linked in its place. -/
theorem votingExecutable_replace (hdistinct : DistinctKeys (before ++ key :: after))
    (hroom : (before ++ key :: after).length ≤ 3)
    (hother : ∀ other ∈ before ++ after, isSameAccount file other = false) :
    VotingExecutable (before ++ key :: after) [.voting key .unlink, .voting file .link] := by
  refine ⟨hroom, ⟨key, List.mem_append_right _ List.mem_cons_self, isSameAccount_self key⟩, ?_⟩
  rw [votingAfter_unlink hdistinct]
  refine votingExecutable_link ?_ hother
  simp only [List.length_append, List.length_cons] at hroom ⊢
  omega

/-- A file linked next to the remaining keys. -/
theorem Unrevised.step_linked (h : Unrevised linked lastKnownNetworkEpoch plan)
    (hproper : file.startEpoch ≤ file.endEpoch)
    (hactive : file.endEpoch ≥ lastKnownNetworkEpoch)
    (hclear : ∀ other ∈ plan.remainingVotingKeys, overlapsVotingAccounts file other = false)
    (hroom : plan.remainingVotingKeys.length < 3)
    (htracks : Tracks linked ⟨plan.remainingVotingKeys ++ [file],
      plan.transactions ++ [.voting file .link], plan.asked⟩) :
    Unrevised linked lastKnownNetworkEpoch ⟨plan.remainingVotingKeys ++ [file],
      plan.transactions ++ [.voting file .link], plan.asked⟩ where
  voting := by
    intro transaction hmem
    rcases List.mem_append.mp hmem with hin | hin
    · exact h.voting transaction hin
    · rw [List.mem_singleton.mp hin]
      rfl
  origin := by
    intro key hkey
    rcases List.mem_append.mp hkey with hin | hin
    · exact (h.origin key hin).imp id (List.mem_append_left _)
    · rw [List.mem_singleton.mp hin]
      exact Or.inr (List.mem_append_right _ List.mem_cons_self)
  stays := by
    intro own hown
    rcases List.mem_append.mp hown with hin | hin
    · exact List.mem_append_left _ (h.stays own hin)
    · have heq : own = file := by simpa using hin
      rw [heq]
      exact List.mem_append_right _ List.mem_cons_self
  new := by
    intro own hown
    rcases List.mem_append.mp hown with hin | hin
    · exact h.new own hin
    · have heq : own = file := by simpa using hin
      rw [heq]
      exact h.new_of_clear hactive hclear
  met := by
    intro key hkey hend
    obtain ⟨other, hother, hover⟩ := h.met key hkey hend
    exact ⟨other, List.mem_append_left _ hother, hover⟩
  ordered := by
    refine List.pairwise_append.mpr ⟨h.ordered, List.pairwise_singleton _ _, ?_⟩
    intro first hfirst second hsecond htakes
    rw [List.mem_singleton.mp hsecond] at htakes
    cases first with
    | remote _ _ => exact htakes
    | vrf _ _ => exact htakes
    | voting _ action => cases action <;> exact htakes
  executable := by
    refine (votingExecutable_append _ _ _).mpr ⟨h.executable, ?_⟩
    rw [h.tracks.chain]
    exact votingExecutable_link hroom
      (fun other hmem => different_of_clear hproper (hclear other hmem))
  tracks := htracks
  room := by
    rw [List.length_append, List.length_singleton]
    omega

/-- A file that takes the place of an initial key. -/
theorem Unrevised.step_replaced (h : Unrevised linked lastKnownNetworkEpoch plan)
    (hdisjoint : DisjointKeys linked)
    (hfirst : FirstOverlap plan.remainingVotingKeys file before key after)
    (hdifferent : isSameAccount key file = false) (hkey : key ∈ linked)
    (hown : ∀ own, .voting own .link ∈ plan.transactions →
      isSameAccount own key = false ∧ isSameAccount own file = false)
    (hother : ∀ other ∈ before ++ after, isSameAccount file other = false) (asked : ℕ)
    (htracks : Tracks linked ⟨before ++ after ++ [file],
      plan.transactions ++ [.voting key .unlink, .voting file .link], asked⟩) :
    Unrevised linked lastKnownNetworkEpoch ⟨before ++ after ++ [file],
      plan.transactions ++ [.voting key .unlink, .voting file .link], asked⟩ where
  voting := by
    intro transaction hmem
    rcases List.mem_append.mp hmem with hin | hin
    · exact h.voting transaction hin
    · rcases List.mem_cons.mp hin with heq | hlast
      · rw [heq]
        rfl
      · rw [List.mem_singleton.mp hlast]
        rfl
  origin := by
    intro other hmem
    rcases List.mem_append.mp hmem with hin | hin
    · have hremains := hfirst.mem_iff.mpr (Or.inr hin)
      exact (h.origin other hremains).imp id (List.mem_append_left _)
    · rw [List.mem_singleton.mp hin]
      exact Or.inr (List.mem_append_right _ (List.mem_cons_of_mem _ List.mem_cons_self))
  stays := by
    intro own hmem
    rcases List.mem_append.mp hmem with hin | hin
    · have hremains := h.stays own hin
      have hne : own ≠ key := by
        intro heq
        have hfalse := (hown own hin).1
        rw [heq, isSameAccount_self] at hfalse
        exact Bool.noConfusion hfalse
      exact List.mem_append_left _ ((hfirst.mem_iff.mp hremains).resolve_left hne)
    · have heq : own = file := by simpa using hin
      rw [heq]
      exact List.mem_append_right _ List.mem_cons_self
  new := by
    intro own hmem
    rcases List.mem_append.mp hmem with hin | hin
    · exact h.new own hin
    · have heq : own = file := by simpa using hin
      rw [heq]
      exact new_of_replaces hdisjoint hfirst hdifferent hkey
  met := by
    intro other hmem hend
    obtain ⟨meeting, hmeeting, hover⟩ := h.met other hmem hend
    by_cases heq : meeting = key
    · subst heq
      have hsame := hdisjoint.eq_of_overlap hkey hmem (overlaps_iff.mp hover)
      rw [← hsame]
      exact ⟨file, List.mem_append_right _ List.mem_cons_self, hfirst.overlap⟩
    · have hstays := (hfirst.mem_iff.mp hmeeting).resolve_left heq
      exact ⟨meeting, List.mem_append_left _ hstays, hover⟩
  ordered := by
    refine List.pairwise_append.mpr ⟨h.ordered, ?_, ?_⟩
    · exact List.pairwise_cons.mpr ⟨fun _ _ htakes => htakes, List.pairwise_singleton _ _⟩
    · intro first hmem second hsecond htakes
      cases first with
      | remote _ _ => exact htakes
      | vrf _ _ => exact htakes
      | voting own action =>
        cases action with
        | unlink => exact htakes
        | link =>
          rcases List.mem_cons.mp hsecond with heq | hlast
          · rw [heq] at htakes
            have hsame : isSameAccount own key = true := htakes
            rw [(hown own hmem).1] at hsame
            exact Bool.noConfusion hsame
          · rw [List.mem_singleton.mp hlast] at htakes
            exact htakes
  executable := by
    refine (votingExecutable_append _ _ _).mpr ⟨h.executable, ?_⟩
    have hdistinct := h.tracks.distinct
    have hroom := h.room
    rw [hfirst.split] at hdistinct hroom
    rw [h.tracks.chain, hfirst.split]
    exact votingExecutable_replace hdistinct hroom hother
  tracks := htracks
  room := by
    have hroom := h.room
    rw [hfirst.split] at hroom
    simp only [List.length_append, List.length_cons, List.length_nil] at hroom ⊢
    omega

/-- One file that does not make the plan revise a link. -/
theorem Unrevised.step (h : Unrevised linked lastKnownNetworkEpoch plan)
    (hdisjoint : DisjointKeys linked) (hproper : file.startEpoch ≤ file.endEpoch)
    (hactive : file.endEpoch ≥ lastKnownNetworkEpoch)
    (hkeeps : ¬ RevisesOwnLink params prompt plan file) :
    Unrevised linked lastKnownNetworkEpoch (planVotingFile params prompt plan file) := by
  have hstep := planVotingFile_step params prompt plan file h.room
  generalize planVotingFile params prompt plan file = next at hstep
  cases hstep with
  | same before key after hfirst hsame => exact h
  | refused before key after hfirst hdifferent hanswer =>
    exact ⟨h.voting, h.origin, h.stays, h.new, h.met, h.ordered, h.executable,
      ⟨h.tracks.chain, h.tracks.distinct⟩, h.room⟩
  | replaced before key after hfirst hdifferent hanswer =>
    have hkey := h.first_linked hfirst hdifferent hanswer hkeeps
    have hown : ∀ own, .voting own .link ∈ plan.transactions →
        isSameAccount own key = false ∧ isSameAccount own file = false := by
      intro own hmem
      constructor
      · by_contra hsame
        exact hkeeps ⟨key, hfirst.find, hdifferent, hanswer, own, hmem,
          Or.inl (by simpa using hsame)⟩
      · by_contra hsame
        exact hkeeps ⟨key, hfirst.find, hdifferent, hanswer, own, hmem,
          Or.inr (by simpa using hsame)⟩
    have hother : ∀ other ∈ before ++ after, isSameAccount file other = false := by
      intro other hmem
      have hremains := hfirst.mem_iff.mpr (Or.inr hmem)
      rcases h.origin other hremains with hlinked | hmine
      · exact new_of_replaces hdisjoint hfirst hdifferent hkey other hlinked
      · exact different_comm (hown other hmine).2
    have hstep : VotingStep params prompt plan file _ :=
      .replaced before key after hfirst hdifferent hanswer
    have htracks := hstep.tracks h.tracks hproper
      (fun before' key' after' hfirst' _ => by
        have herase := hfirst'.eraseP
        rw [hfirst.eraseP] at herase
        rw [← herase]
        exact hother)
    exact h.step_replaced hdisjoint hfirst hdifferent hkey hown hother _ htracks
  | linked hclear hroom =>
    have hstep : VotingStep params prompt plan file _ := .linked hclear hroom
    have htracks := hstep.tracks h.tracks hproper
      (fun _ key' _ hfirst' _ => by
        have hover := hfirst'.overlap
        rw [hclear key' hfirst'.mem] at hover
        exact Bool.noConfusion hover)
    exact h.step_linked hproper hactive hclear hroom htracks
  | full hclear hfull => exact h

theorem unlinkExpired_keeps {keys : List VotingKeyAccount} (asked : ℕ) (hkey : key ∈ keys)
    (hactive : key.endEpoch ≥ lastKnownNetworkEpoch) :
    key ∈ (unlinkExpired params prompt lastKnownNetworkEpoch keys asked).remainingVotingKeys := by
  induction keys generalizing asked with
  | nil => exact hkey
  | cons head rest ih =>
    unfold unlinkExpired
    rcases List.mem_cons.mp hkey with rfl | hrest
    · have hunexpired : ¬ key.endEpoch < lastKnownNetworkEpoch := by omega
      simp only [hunexpired, ↓reduceIte]
      exact List.mem_cons_self
    · by_cases hexpired : head.endEpoch < lastKnownNetworkEpoch
      · simp only [hexpired, ↓reduceIte]
        split
        · exact ih _ hrest
        · exact List.mem_cons_of_mem head (ih _ hrest)
      · simp only [hexpired, ↓reduceIte]
        exact List.mem_cons_of_mem head (ih _ hrest)

theorem unlinkExpired_executable_from (kept keys : List VotingKeyAccount) (asked : ℕ)
    (h : DistinctKeys (kept ++ keys)) (hroom : (kept ++ keys).length ≤ 3) :
    VotingExecutable (kept ++ keys)
      (unlinkExpired params prompt lastKnownNetworkEpoch keys asked).transactions := by
  induction keys generalizing kept asked with
  | nil => exact hroom
  | cons key rest ih =>
    have hassoc : kept ++ key :: rest = (kept ++ [key]) ++ rest := by
      rw [List.append_assoc, List.singleton_append]
    have hkept : ∀ asked, VotingExecutable (kept ++ key :: rest)
        (unlinkExpired params prompt lastKnownNetworkEpoch rest asked).transactions := by
      intro asked
      rw [hassoc] at h hroom ⊢
      exact ih (kept ++ [key]) asked h hroom
    unfold unlinkExpired
    by_cases hexpired : key.endEpoch < lastKnownNetworkEpoch
    · simp only [hexpired, ↓reduceIte]
      split
      · refine ⟨hroom, ⟨key, List.mem_append_right _ List.mem_cons_self,
          isSameAccount_self key⟩, ?_⟩
        rw [votingAfter_unlink h]
        apply ih kept
        · exact List.Pairwise.sublist (List.Sublist.append (List.Sublist.refl kept)
            (List.sublist_cons_self key rest)) h
        · simp only [List.length_append, List.length_cons] at hroom ⊢
          omega
      · exact hkept _
    · simp only [hexpired, ↓reduceIte]
      exact hkept _

/-- The second loop starts from a plan of unlinks only. -/
theorem unrevised_start (asked : ℕ) (hlen : linked.length ≤ 3)
    (hdisjoint : DisjointKeys linked) (hproper : ProperKeys linked) :
    Unrevised linked lastKnownNetworkEpoch
      (unlinkExpired params prompt lastKnownNetworkEpoch linked asked) := by
  have hdistinct := distinct_of_disjoint hdisjoint hproper
  have hkind := unlinkExpired_kind params prompt lastKnownNetworkEpoch linked asked
  have hsub : (unlinkExpired params prompt lastKnownNetworkEpoch linked
      asked).remainingVotingKeys.Sublist linked :=
    unlinkExpired_sublist lastKnownNetworkEpoch linked asked
  have hnolink : ∀ own, .voting own .link ∉
      (unlinkExpired params prompt lastKnownNetworkEpoch linked asked).transactions := by
    intro own hmem
    obtain ⟨key, _, _, heq⟩ := hkind _ hmem
    exact absurd heq (by simp)
  refine ⟨?_, fun key hkey => Or.inl (hsub.subset hkey),
    fun own hmem => absurd hmem (hnolink own), fun own hmem => absurd hmem (hnolink own),
    ?_, ?_, ?_, unlinkExpired_tracks lastKnownNetworkEpoch linked asked hdistinct,
    hsub.length_le.trans hlen⟩
  · intro transaction hmem
    obtain ⟨key, _, _, rfl⟩ := hkind transaction hmem
    rfl
  · intro key hkey hactive
    exact ⟨key, unlinkExpired_keeps asked hkey hactive,
      overlaps_iff.mpr (overlap_self (hproper key hkey))⟩
  · apply List.pairwise_of_forall_mem_list
    intro first hfirst second _ htakes
    obtain ⟨key, _, _, rfl⟩ := hkind first hfirst
    exact htakes
  · exact unlinkExpired_executable_from [] linked asked hdistinct hlen

/-- A file that replaces the first key it overlaps plans two transactions. -/
theorem transactions_of_replaces (hroom : plan.remainingVotingKeys.length ≤ 3)
    (hfind : plan.remainingVotingKeys.find? (overlapsVotingAccounts file) = some key)
    (hdifferent : isSameAccount key file = false)
    (hanswer : (confirmUnlink params prompt plan.asked).1 = true) :
    (planVotingFile params prompt plan file).transactions =
      plan.transactions ++ [.voting key .unlink, .voting file .link] := by
  have hstep := planVotingFile_step params prompt plan file hroom
  generalize planVotingFile params prompt plan file = next at hstep
  cases hstep with
  | same before other after hfirst hequal =>
    rw [hfirst.find] at hfind
    rw [Option.some.inj hfind, hdifferent] at hequal
    exact Bool.noConfusion hequal
  | refused before other after hfirst _ hrefused =>
    rw [hanswer] at hrefused
    exact Bool.noConfusion hrefused
  | replaced before other after hfirst _ _ =>
    rw [hfirst.find] at hfind
    rw [Option.some.inj hfind]
  | linked hclear _ =>
    have hover := List.find?_some hfind
    rw [hclear key (List.mem_of_find?_eq_some hfind)] at hover
    exact Bool.noConfusion hover
  | full hclear _ =>
    have hover := List.find?_some hfind
    rw [hclear key (List.mem_of_find?_eq_some hfind)] at hover
    exact Bool.noConfusion hover

theorem linkAction_of_mem_links {transactions : List Transaction} {transaction : Transaction}
    (h : transaction ∈ links transactions) : transaction.linkAction = .link := by
  have hvalue := (List.mem_filter.mp h).2
  rw [decide_eq_true_eq] at hvalue
  cases haction : transaction.linkAction with
  | unlink =>
    rw [haction] at hvalue
    exact absurd hvalue (by decide)
  | link => rfl

/-- Once the plan revises a link of its own, its sorted form cannot be executed. -/
theorem Unrevised.not_revises (h : Unrevised linked lastKnownNetworkEpoch plan)
    (files : List VotingKeyAccount)
    (hexec : VotingExecutable linked
      (unlinks (files.foldl (planVotingFile params prompt)
          (planVotingFile params prompt plan file)).transactions ++
        links (files.foldl (planVotingFile params prompt)
          (planVotingFile params prompt plan file)).transactions)) :
    ¬ RevisesOwnLink params prompt plan file := by
  rintro ⟨key, hfind, hdifferent, hanswer, own, hown, hsame⟩
  have hstep := planVotingFile_step params prompt plan file h.room
  obtain ⟨more, hmore⟩ := foldl_planVotingFile_extends params prompt files
    (hstep.length_le params prompt h.room)
  have hplan := transactions_of_replaces h.room hfind hdifferent hanswer
  rw [hmore, hplan] at hexec
  rcases hsame with hkey | hfile
  · -- the key is the one the plan linked, so it is not linked when the unlinks go first
    have hunlink : .voting key .unlink ∈ unlinks
        (plan.transactions ++ [.voting key .unlink, .voting file .link] ++ more) := by
      refine mem_unlinks.mpr ⟨?_, rfl⟩
      exact List.mem_append_left _ (List.mem_append_right _ List.mem_cons_self)
    obtain ⟨initial, hinitial, hequal⟩ :=
      linked_of_unlinksFirst (fun _ hmem => (mem_unlinks.mp hmem).2) hexec hunlink
    have hnew := h.new own hown initial hinitial
    rw [isSameAccount_trans hkey hequal] at hnew
    exact Bool.noConfusion hnew
  · -- the file is linked a second time
    have hsplit : links (plan.transactions ++ [.voting key .unlink, .voting file .link] ++ more) =
        links plan.transactions ++ (.voting file .link :: links more) := by
      simp [links, Transaction.linkAction, LinkAction.value]
    rw [hsplit] at hexec
    have hlast := ((votingExecutable_append _ _ _).mp
      ((votingExecutable_append _ _ _).mp hexec).2).2.2.1
    have hownlink : .voting own .link ∈ links plan.transactions :=
      List.mem_filter.mpr ⟨hown, by simp [Transaction.linkAction, LinkAction.value]⟩
    have hheld : ∀ keys : List VotingKeyAccount, ∃ there ∈ votingAfterAll keys
        (links plan.transactions), isSameAccount own there = true :=
      fun keys => linked_after_links (fun _ hmem => linkAction_of_mem_links hmem) hownlink
    obtain ⟨there, hthere, hequal⟩ := hheld (votingAfterAll linked
      (unlinks (plan.transactions ++ [.voting key .unlink, .voting file .link] ++ more)))
    rw [isSameAccount_comm] at hfile
    exact hlast there hthere (isSameAccount_trans hfile hequal)

/-- The voting part of a linking plan can be executed with its unlinks first, and comes
to the same keys, exactly when it revises no link of its own. -/
theorem votingLink_sorted_iff (files : List VotingKeyAccount) (asked : ℕ)
    (hlen : linked.length ≤ 3) (hdisjoint : DisjointKeys linked)
    (hproper : ProperKeys linked) (hfiles : ProperKeys files) :
    (VotingExecutable linked
        (unlinks (addVotingKeyLinkTransactions params prompt linked files
            lastKnownNetworkEpoch asked) ++
          links (addVotingKeyLinkTransactions params prompt linked files
            lastKnownNetworkEpoch asked)) ∧
      votingAfterAll linked
        (unlinks (addVotingKeyLinkTransactions params prompt linked files
            lastKnownNetworkEpoch asked) ++
          links (addVotingKeyLinkTransactions params prompt linked files
            lastKnownNetworkEpoch asked)) =
        votingAfterAll linked (addVotingKeyLinkTransactions params prompt linked files
          lastKnownNetworkEpoch asked)) ↔
      NeverRevisesOwnLink params prompt linked files lastKnownNetworkEpoch asked := by
  have hstart : Unrevised linked lastKnownNetworkEpoch
      (unlinkExpired params prompt lastKnownNetworkEpoch linked asked) :=
    unrevised_start asked hlen hdisjoint hproper
  have hinputs : ∀ file ∈ activeVotingKeyFiles lastKnownNetworkEpoch files,
      file.startEpoch ≤ file.endEpoch ∧ file.endEpoch ≥ lastKnownNetworkEpoch := by
    intro file hmem
    obtain ⟨hin, hactive⟩ := List.mem_filter.mp hmem
    exact ⟨hfiles file hin, by simpa using hactive⟩
  constructor
  · rintro ⟨hexec, _⟩
    refine PrefixRuns.everyStep_of_invariant (planVotingFile params prompt) _ _ hstart
      (fun plan file hmem hplan hkeeps => hplan.step hdisjoint (hinputs file hmem).1
        (hinputs file hmem).2 hkeeps) ?_
    intro n file hfile hplan
    rw [addVotingKeyLinkTransactions, votingLinkPlan, PrefixRuns.foldl_eq_from _ _ hfile] at hexec
    exact hplan.not_revises _ hexec
  · intro hnever
    have hall := PrefixRuns.invariant_of_everyStep (planVotingFile params prompt) _ _ hstart
      (fun plan file hmem hplan hkeeps => hplan.step hdisjoint (hinputs file hmem).1
        (hinputs file hmem).2 hkeeps) hnever
      (activeVotingKeyFiles lastKnownNetworkEpoch files).length
    rw [PrefixRuns.stateAt_length] at hall
    exact unlinksFirst_of_ordered hall.voting hall.ordered hall.executable

/-- An iteration links no file but its own. -/
theorem link_cases (h : VotingStep params prompt plan file next) (own : VotingKeyAccount)
    (hown : .voting own .link ∈ next.transactions) :
    .voting own .link ∈ plan.transactions ∨ own = file := by
  cases h with
  | same before key after hfirst hsame => exact Or.inl hown
  | refused before key after hfirst hdifferent hanswer => exact Or.inl hown
  | replaced before key after hfirst hdifferent hanswer =>
    rcases List.mem_append.mp hown with hin | hin
    · exact Or.inl hin
    · exact Or.inr (by simpa using hin)
  | linked hclear hroom =>
    rcases List.mem_append.mp hown with hin | hin
    · exact Or.inl hin
    · exact Or.inr (by simpa using hin)
  | full hclear hfull => exact Or.inl hown

/-- The plan links only files the loop has come to. -/
structure LinksOnly (done : List VotingKeyAccount) (plan : VotingPlan) : Prop where
  links : ∀ own, .voting own .link ∈ plan.transactions → own ∈ done
  room : plan.remainingVotingKeys.length ≤ 3

theorem linksOnly_start (asked : ℕ) (hlen : linked.length ≤ 3) :
    LinksOnly [] (unlinkExpired params prompt lastKnownNetworkEpoch linked asked) where
  links := by
    intro own hown
    obtain ⟨key, _, _, heq⟩ := unlinkExpired_kind params prompt lastKnownNetworkEpoch linked
      asked _ hown
    exact absurd heq (by simp)
  room := (unlinkExpired_sublist _ _ _).length_le.trans hlen

theorem LinksOnly.step {done : List VotingKeyAccount} (h : LinksOnly done plan)
    (file : VotingKeyAccount) :
    LinksOnly (done ++ [file]) (planVotingFile params prompt plan file) where
  links := by
    intro own hown
    rcases link_cases (planVotingFile_step params prompt plan file h.room) own hown with hin | heq
    · exact List.mem_append_left _ (h.links own hin)
    · exact List.mem_append_right _ (List.mem_singleton.mpr heq)
  room := (planVotingFile_step params prompt plan file h.room).length_le params prompt h.room

/-- Disjoint files never make the plan revise a link. -/
theorem neverRevises_of_disjoint (files : List VotingKeyAccount) (asked : ℕ)
    (hlen : linked.length ≤ 3) (hfiles : ProperKeys files) (hdisjoint : DisjointKeys files) :
    NeverRevisesOwnLink params prompt linked files lastKnownNetworkEpoch asked := by
  have hactive : (activeVotingKeyFiles lastKnownNetworkEpoch files).Sublist files :=
    List.filter_sublist
  have hstart : LinksOnly []
      (unlinkExpired params prompt lastKnownNetworkEpoch linked asked) :=
    linksOnly_start asked hlen
  have hlinks := PrefixRuns.invariant_of_inputs (planVotingFile params prompt) _
    (activeVotingKeyFiles lastKnownNetworkEpoch files) hstart
    (fun done plan file _ hplan => hplan.step file)
  intro n file hfile hrevises
  obtain ⟨key, hfind, _, _, own, hown, hsame⟩ := hrevises
  have hbefore := (hlinks n).links own hown
  have hmem := List.mem_of_getElem? hfile
  have hafter : file ∈ (activeVotingKeyFiles lastKnownNetworkEpoch files).drop n := by
    obtain ⟨hlt, hget⟩ := List.getElem?_eq_some_iff.mp hfile
    rw [List.drop_eq_getElem_cons hlt, hget]
    exact List.mem_cons_self
  have happart := hdisjoint.sublist hactive
  rw [← List.take_append_drop n (activeVotingKeyFiles lastKnownNetworkEpoch files)] at happart
  refine (apart_append.mp happart).2.2 own hbefore file hafter ?_
  rcases hsame with hkey | hequal
  · have hover := overlaps_iff.mp (List.find?_some hfind)
    rw [isSameAccount_comm] at hkey
    exact overlap_of_same hkey hover.symm
  · rw [isSameAccount_comm] at hequal
    exact overlap_of_same hequal (overlap_self (hfiles file (hactive.subset hmem)))

end Linking

end SymbolBootstrap.LinkRevision
