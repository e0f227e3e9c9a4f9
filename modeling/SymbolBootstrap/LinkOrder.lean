import SymbolBootstrap.LinkParts

/-!
Voting transactions in another order. A link can be moved behind an unlink of another
key, so a plan that takes none of its links back does the same with its unlinks first.
A plan whose unlinks go first can only unlink keys that were there at the start, and
can link each key once.
-/
namespace SymbolBootstrap.LinkOrder

open LinkService LinkChain VotingPlan LinkParts

section Commuting

/-- The second transaction unlinks what the first one linked. -/
def TakesBack : Transaction → Transaction → Prop
  | .voting linked .link, .voting unlinked .unlink => isSameAccount linked unlinked = true
  | _, _ => False

theorem votingExecutable_append (keys : List VotingKeyAccount)
    (first second : List Transaction) :
    VotingExecutable keys (first ++ second) ↔
      VotingExecutable keys first ∧ VotingExecutable (votingAfterAll keys first) second := by
  induction first generalizing keys with
  | nil => exact ⟨fun h => ⟨votingExecutable_room second h, h⟩, fun h => h.2⟩
  | cons transaction rest ih =>
    constructor
    · rintro ⟨hroom, haccepts, hrest⟩
      obtain ⟨hfirst, hsecond⟩ := (ih _).mp hrest
      exact ⟨⟨hroom, haccepts, hfirst⟩, hsecond⟩
    · rintro ⟨⟨hroom, haccepts, hfirst⟩, hsecond⟩
      exact ⟨hroom, haccepts, (ih _).mpr ⟨hfirst, hsecond⟩⟩

theorem mem_unlinks {transaction : Transaction} {transactions : List Transaction} :
    transaction ∈ unlinks transactions ↔
      transaction ∈ transactions ∧ transaction.linkAction = .unlink := by
  unfold unlinks
  rw [List.mem_filter, decide_eq_true_eq]
  cases transaction.linkAction with
  | unlink => exact ⟨fun h => ⟨h.1, rfl⟩, fun h => ⟨h.1, rfl⟩⟩
  | link => exact ⟨fun h => absurd h.2 (by decide), fun h => absurd h.2 (by decide)⟩

variable {keys : List VotingKeyAccount} {file : VotingKeyAccount}

theorem votingAfter_unlink_append {unlinked : VotingKeyAccount}
    (h : isSameAccount unlinked file = false) :
    votingAfter (keys ++ [file]) (.voting unlinked .unlink) =
      votingAfter keys (.voting unlinked .unlink) ++ [file] := by
  have hkeep : [file].filter (fun linked => !isSameAccount unlinked linked) = [file] := by
    simp only [List.filter_cons, h, Bool.not_false, ↓reduceIte, List.filter_nil]
  rw [votingAfter, votingAfter, List.filter_append, hkeep]

/-- A link moves behind voting unlinks of other keys. -/
theorem link_behind_unlinks (before after : List Transaction)
    (hunlinks : ∀ transaction ∈ before, ∃ unlinked, transaction = .voting unlinked .unlink ∧
      isSameAccount unlinked file = false)
    (hnew : ∀ linked ∈ keys, isSameAccount file linked = false)
    (h : VotingExecutable (keys ++ [file]) (before ++ after)) :
    VotingExecutable keys (before ++ .voting file .link :: after) ∧
      votingAfterAll keys (before ++ .voting file .link :: after) =
        votingAfterAll (keys ++ [file]) (before ++ after) := by
  induction before generalizing keys with
  | nil =>
    have hlink := votingAfter_link hnew
    have hroom := votingExecutable_room after h
    simp only [List.length_append, List.length_singleton] at hroom
    refine ⟨⟨by omega, ?_, ?_⟩, ?_⟩
    · intro linked hlinked
      simp only [hnew linked hlinked, Bool.false_eq_true, not_false_eq_true]
    · rw [hlink]
      exact h
    · change votingAfterAll (votingAfter keys (.voting file .link)) after = _
      rw [hlink]
      rfl
  | cons transaction rest ih =>
    obtain ⟨unlinked, rfl, hother⟩ := hunlinks transaction List.mem_cons_self
    obtain ⟨hroom, ⟨named, hnamed, hsame⟩, hrest⟩ := h
    rw [votingAfter_unlink_append hother] at hrest
    have hnew' : ∀ linked ∈ votingAfter keys (.voting unlinked .unlink),
        isSameAccount file linked = false :=
      fun linked hlinked => hnew linked (List.mem_of_mem_filter hlinked)
    obtain ⟨hexec, hstate⟩ := ih
      (fun other hmem => hunlinks other (List.mem_cons_of_mem _ hmem)) hnew' hrest
    have hmem : named ∈ keys := by
      rcases List.mem_append.mp hnamed with hin | hin
      · exact hin
      · rw [List.mem_singleton.mp hin, hother] at hsame
        exact Bool.noConfusion hsame
    simp only [List.length_append, List.length_singleton] at hroom
    refine ⟨⟨by omega, ⟨named, hmem, hsame⟩, hexec⟩, ?_⟩
    change votingAfterAll (votingAfter keys (.voting unlinked .unlink)) _ =
      votingAfterAll (votingAfter (keys ++ [file]) (.voting unlinked .unlink)) _
    rw [votingAfter_unlink_append hother]
    exact hstate

/-- A voting plan that takes no link back can be executed with its unlinks first. -/
theorem unlinksFirst_of_ordered {transactions : List Transaction}
    (hvoting : ∀ transaction ∈ transactions, kind transaction = .voting)
    (hordered : transactions.Pairwise (fun first second => ¬ TakesBack first second))
    (h : VotingExecutable keys transactions) :
    VotingExecutable keys (unlinks transactions ++ links transactions) ∧
      votingAfterAll keys (unlinks transactions ++ links transactions) =
        votingAfterAll keys transactions := by
  induction transactions generalizing keys with
  | nil => exact ⟨h, rfl⟩
  | cons transaction rest ih =>
    obtain ⟨hroom, haccepts, hrest⟩ := h
    obtain ⟨hhead, htail⟩ := List.pairwise_cons.mp hordered
    obtain ⟨hexec, hstate⟩ := ih
      (fun other hmem => hvoting other (List.mem_cons_of_mem _ hmem)) htail hrest
    cases transaction with
    | remote account action => exact absurd (hvoting _ List.mem_cons_self) (by simp [kind])
    | vrf account action => exact absurd (hvoting _ List.mem_cons_self) (by simp [kind])
    | voting account action =>
      cases action with
      | unlink => exact ⟨⟨hroom, haccepts, hexec⟩, hstate⟩
      | link =>
        have hnew : ∀ linked ∈ keys, isSameAccount account linked = false := by
          intro linked hlinked
          simpa using haccepts linked hlinked
        have hlink := votingAfter_link hnew
        rw [hlink] at hexec hstate
        have hunlinks : ∀ other ∈ unlinks rest, ∃ unlinked,
            other = .voting unlinked .unlink ∧ isSameAccount unlinked account = false := by
          intro other hmem
          obtain ⟨hin, haction⟩ := mem_unlinks.mp hmem
          have hapart := hhead other hin
          have hkind := hvoting other (List.mem_cons_of_mem _ hin)
          cases other with
          | remote _ _ => exact absurd hkind (by simp [kind])
          | vrf _ _ => exact absurd hkind (by simp [kind])
          | voting unlinked action =>
            obtain rfl : action = .unlink := haction
            refine ⟨unlinked, rfl, ?_⟩
            rw [isSameAccount_comm]
            simpa [TakesBack] using hapart
        obtain ⟨hmoved, hsame⟩ := link_behind_unlinks (unlinks rest) (links rest) hunlinks
          hnew hexec
        refine ⟨hmoved, ?_⟩
        change votingAfterAll keys (unlinks rest ++ .voting account .link :: links rest) =
          votingAfterAll (votingAfter keys (.voting account .link)) rest
        rw [hsame, hstate, hlink]

/-- A plan of unlinks is already sorted. -/
theorem unlinksFirst_of_unlinks {transactions : List Transaction}
    (h : ∀ transaction ∈ transactions, ∃ key, transaction = .voting key .unlink) :
    unlinks transactions ++ links transactions = transactions := by
  have hunlinks : unlinks transactions = transactions := by
    apply List.filter_eq_self.mpr
    intro transaction hmem
    obtain ⟨key, rfl⟩ := h transaction hmem
    rfl
  have hlinks : links transactions = [] := by
    apply List.filter_eq_nil_iff.mpr
    intro transaction hmem
    obtain ⟨key, rfl⟩ := h transaction hmem
    exact Bool.false_ne_true
  rw [hunlinks, hlinks, List.append_nil]

end Commuting

section Rejection

variable {keys : List VotingKeyAccount} {key : VotingKeyAccount}

/-- An unlink can only go first if its key was linked at the start. -/
theorem linked_of_unlinksFirst
    {first second : List Transaction}
    (hunlinks : ∀ transaction ∈ first, transaction.linkAction = .unlink)
    (h : VotingExecutable keys (first ++ second)) (hkey : .voting key .unlink ∈ first) :
    ∃ linked ∈ keys, isSameAccount key linked = true := by
  induction first generalizing keys with
  | nil => exact absurd hkey List.not_mem_nil
  | cons transaction rest ih =>
    obtain ⟨_, haccepts, hrest⟩ := h
    rcases List.mem_cons.mp hkey with heq | hmem
    · rw [← heq] at haccepts
      exact haccepts
    · obtain ⟨linked, hlinked, hsame⟩ := ih
        (fun other hin => hunlinks other (List.mem_cons_of_mem _ hin)) hrest hmem
      refine ⟨linked, ?_, hsame⟩
      have haction := hunlinks transaction List.mem_cons_self
      cases transaction with
      | remote _ _ => exact hlinked
      | vrf _ _ => exact hlinked
      | voting _ action =>
        obtain rfl : action = .unlink := haction
        exact List.mem_of_mem_filter hlinked

theorem mem_votingAfter_link (hkey : key ∈ keys)
    {transaction : Transaction} (hlink : transaction.linkAction = .link) :
    key ∈ votingAfter keys transaction := by
  cases transaction with
  | remote _ _ => exact hkey
  | vrf _ _ => exact hkey
  | voting account action =>
    obtain rfl : action = .link := hlink
    rw [votingAfter]
    split
    · exact hkey
    · exact List.mem_append_left _ hkey

theorem mem_votingAfterAll_links (hkey : key ∈ keys)
    {transactions : List Transaction}
    (hlinks : ∀ transaction ∈ transactions, transaction.linkAction = .link) :
    key ∈ votingAfterAll keys transactions := by
  induction transactions generalizing keys with
  | nil => exact hkey
  | cons transaction rest ih =>
    exact ih (mem_votingAfter_link hkey (hlinks transaction List.mem_cons_self))
      (fun other hmem => hlinks other (List.mem_cons_of_mem _ hmem))

/-- What was linked stays linked while nothing is unlinked. -/
theorem linked_after_links {transactions : List Transaction}
    (hlinks : ∀ transaction ∈ transactions, transaction.linkAction = .link)
    (hkey : .voting key .link ∈ transactions) :
    ∃ linked ∈ votingAfterAll keys transactions, isSameAccount key linked = true := by
  induction transactions generalizing keys with
  | nil => exact absurd hkey List.not_mem_nil
  | cons transaction rest ih =>
    have hrest : ∀ other ∈ rest, other.linkAction = .link :=
      fun other hmem => hlinks other (List.mem_cons_of_mem _ hmem)
    rcases List.mem_cons.mp hkey with heq | hmem
    · rw [← heq]
      have hnow : ∃ linked ∈ votingAfter keys (.voting key .link),
          isSameAccount key linked = true := by
        rw [votingAfter]
        split
        · rename_i hany
          exact List.any_eq_true.mp hany
        · exact ⟨key, List.mem_append_right _ List.mem_cons_self, isSameAccount_self key⟩
      obtain ⟨linked, hlinked, hsame⟩ := hnow
      exact ⟨linked, mem_votingAfterAll_links hlinked hrest, hsame⟩
    · exact ih hrest hmem

end Rejection

end SymbolBootstrap.LinkOrder
