import SymbolBootstrap.Library.Records
import SymbolBootstrap.Library.Traces

/-!
Records that change entry by entry. A computation emits its changes and can read what they have
made of the record so far, so that it may be cut at any of them. What it keeps is said of the
records: at every moment, where it stops and where it returns.
-/
namespace Library.Changes

open Library.Records Library.Traces

inductive Change (α : Type)
  | write (name : String) (value : α)
  | remove (name : String)

section Records

variable {α : Type}

def Change.name : Change α → String
  | .write name _ => name
  | .remove name => name

def Change.value : Change α → Option α
  | .write _ value => some value
  | .remove _ => none

def removed (record : Record α) (name : String) : Record α where
  entries := record.entries.filter fun entry => entry.1 ≠ name
  distinct := record.distinct.sublist (List.filter_sublist.map _)

def Change.apply (record : Record α) : Change α → Record α
  | .write name value => record.set name value
  | .remove name => removed record name

/-- The record after some changes. -/
def after (start : Record α) (changes : List (Change α)) : Record α :=
  changes.foldl Change.apply start

theorem get_removed (record : Record α) (name name' : String) :
    (removed record name).get name' = if name = name' then none else record.get name' := by
  apply Option.ext
  intro value
  rw [← Record.mem_entries_iff, removed, List.mem_filter, Record.mem_entries_iff]
  by_cases h : name = name'
  · simp [h]
  · simp [h, Ne.symm h]

theorem get_apply (record : Record α) (change : Change α) (name : String) :
    (change.apply record).get name =
      if change.name = name then change.value else record.get name := by
  cases change with
  | write name' value => exact Record.get_set record name' name value
  | remove name' => exact get_removed record name' name

theorem after_concat (start : Record α) (changes : List (Change α)) (change : Change α) :
    after start (changes ++ [change]) = change.apply (after start changes) := by
  rw [after, List.foldl_append, List.foldl_cons, List.foldl_nil, after]

theorem after_append (start : Record α) (changes more : List (Change α)) :
    after start (changes ++ more) = after (after start changes) more :=
  List.foldl_append

/-- What no change names stays. -/
theorem get_after_other {start : Record α} {changes : List (Change α)} {name : String}
    (h : ∀ change ∈ changes, change.name ≠ name) :
    (after start changes).get name = start.get name := by
  induction changes using List.reverseRecOn with
  | nil => rfl
  | append_singleton rest change ih =>
    rw [after_concat, get_apply, if_neg (h change (by simp))]
    exact ih fun other hother => h other (List.mem_append_left _ hother)

/-- What is there once some changes are made stays, where no later change names it. -/
theorem get_after_later {start : Record α} {moment later : List (Change α)} {name : String}
    (hlater : moment <+: later)
    (h : ∀ front change back, later = front ++ change :: back → moment <+: front →
      change.name ≠ name) :
    (after start later).get name = (after start moment).get name := by
  obtain ⟨more, rfl⟩ := hlater
  rw [after_append]
  refine get_after_other fun change hchange => ?_
  obtain ⟨front, back, rfl⟩ := List.append_of_mem hchange
  exact h (moment ++ front) change back (by simp) (List.prefix_append moment front)

theorem get_after_removed (record : Record α) (names : List String) (name : String) :
    (after record (names.map .remove)).get name =
      if name ∈ names then none else record.get name := by
  induction names generalizing record with
  | nil => rfl
  | cons first rest ih =>
    have hrest := ih (Change.apply record (.remove first))
    rw [get_apply] at hrest
    rw [List.map_cons, after, List.foldl_cons, ← after, hrest]
    by_cases hname : name ∈ rest
    · rw [if_pos hname, if_pos (List.mem_cons_of_mem first hname)]
    · rw [if_neg hname]
      simp only [List.mem_cons, hname, or_false, eq_comm (a := name)]
      rfl

theorem mem_names_apply {record : Record α} {change : Change α} {name : String}
    (h : name ∈ (change.apply record).names) : name = change.name ∨ name ∈ record.names := by
  obtain ⟨value, hvalue⟩ := Record.mem_names_iff.mp h
  rw [get_apply] at hvalue
  by_cases hname : change.name = name
  · exact .inl hname.symm
  · rw [if_neg hname] at hvalue
    exact .inr (Record.mem_names_iff.mpr ⟨value, hvalue⟩)

/-- The entries of some names are the same. -/
def Agree (kept : String → Prop) (record later : Record α) : Prop :=
  ∀ name, kept name → later.get name = record.get name

theorem Agree.refl (kept : String → Prop) (record : Record α) : Agree kept record record :=
  fun _ _ => rfl

theorem Agree.change {kept : String → Prop} {record later : Record α} {change : Change α}
    (h : Agree kept record later) (hchange : ¬ kept change.name) :
    Agree kept record (change.apply later) := by
  intro name hname
  have hne : change.name ≠ name := by
    intro heq
    rw [heq] at hchange
    exact hchange hname
  rw [get_apply, if_neg hne]
  exact h name hname

/-- A change of an entry that is there writes what the entry is. -/
def Rewrites (kept : String → Prop) (start : Record α) (changes : List (Change α))
    (change : Change α) : Prop :=
  kept change.name → ∀ value, (after start changes).get change.name = some value →
    change.value = some value

/-- Where changes only rewrite, what is there stays. -/
theorem get_after_rewritten {kept : String → Prop} {start : Record α} {name : String} {value : α}
    (hname : kept name) {moment later : List (Change α)} (hlater : moment <+: later)
    (h : Always (Rewrites kept start) later) (hvalue : (after start moment).get name = some value) :
    (after start later).get name = some value := by
  obtain ⟨more, rfl⟩ := hlater
  induction more using List.reverseRecOn with
  | nil =>
    rw [List.append_nil]
    exact hvalue
  | append_singleton rest change ih =>
    rw [← List.append_assoc] at h ⊢
    obtain ⟨hbefore, hchange⟩ := always_concat.mp h
    have hthere := ih hbefore
    rw [after_concat, get_apply]
    by_cases heq : change.name = name
    · rw [if_pos heq]
      exact hchange (heq ▸ hname) value (heq ▸ hthere)
    · rw [if_neg heq]
      exact hthere

/-- What no change removes stays there. -/
theorem get_after_unremoved {start : Record α} {name : String} {moment later : List (Change α)}
    (hlater : moment <+: later)
    (h : Always (fun _ change => change.name = name → change.value ≠ none) later)
    (hthere : (after start moment).get name ≠ none) : (after start later).get name ≠ none := by
  obtain ⟨more, rfl⟩ := hlater
  induction more using List.reverseRecOn with
  | nil =>
    rw [List.append_nil]
    exact hthere
  | append_singleton rest change ih =>
    rw [← List.append_assoc] at h ⊢
    obtain ⟨hbefore, hchange⟩ := always_concat.mp h
    rw [after_concat, get_apply]
    by_cases heq : change.name = name
    · rw [if_pos heq]
      exact hchange heq
    · rw [if_neg heq]
      exact ih hbefore

end Records

section Computations

variable {α Stop β γ : Type}

/-- What a triple says of the records. -/
def Keeps (start : Record α) (I E P : Record α → Prop) (m : Traced (Change α) Stop β)
    (Q : β → Record α → Prop) : Prop :=
  Triple (fun changes => I (after start changes)) (fun changes => E (after start changes))
    (fun changes => P (after start changes)) m fun b changes => Q b (after start changes)

/-- The record as it is now. -/
def current (start : Record α) : Traced (Change α) Stop (Record α) := do
  let changes ← history
  return after start changes

/-- The record is emptied entry by entry. -/
def clear (start : Record α) : Traced (Change α) Stop Unit := do
  let record ← current start
  forEach record.names fun name => emit (.remove name)

variable {start : Record α} {I E P : Record α → Prop}

theorem Keeps.bind {m : Traced (Change α) Stop β} {k : β → Traced (Change α) Stop γ}
    {Q : β → Record α → Prop} {R : γ → Record α → Prop} (hm : Keeps start I E P m Q)
    (hk : ∀ b, Keeps start I E (Q b) (k b) R) : Keeps start I E P (m >>= k) R :=
  Triple.bind hm hk

theorem Keeps.change {change : Change α} {Q : Unit → Record α → Prop}
    (hmoment : ∀ record, P record → I record)
    (h : ∀ record, P record → I (change.apply record) ∧ Q () (change.apply record)) :
    Keeps start I E P (emit change : Traced (Change α) Stop Unit) Q := by
  refine Triple.emit (fun _ => hmoment _) fun changes hP => ?_
  rw [after_concat]
  exact h _ hP

/-- What is read is the record as it is. -/
theorem Keeps.current (h : ∀ record, P record → I record) :
    Keeps start I E P (Changes.current start : Traced (Change α) Stop (Record α))
      fun now record => now = record ∧ P record :=
  Triple.silent (fun _ => rfl) fun _ hP => ⟨h _ hP, rfl, hP⟩

theorem run_bind_current {k : Record α → Traced (Change α) Stop β} {changes : List (Change α)} :
    (current start >>= k) changes = k (after start changes) changes := by
  have hcurrent : (current start : Traced (Change α) Stop (Record α)) changes =
      ([], .ok (after start changes)) := rfl
  rw [run_bind_ok hcurrent, List.append_nil]
  rfl

theorem emits_current {R : Change α → Prop} {k : Record α → Traced (Change α) Stop β}
    (hk : ∀ record, Emits R (k record)) : Emits R (current start >>= k) := by
  intro changes
  rw [run_bind_current]
  exact hk _ changes

theorem clear_run (changes : List (Change α)) :
    (clear start : Traced (Change α) Stop Unit) changes =
      ((after start changes).names.map .remove, .ok ()) := by
  rw [clear, run_bind_current, forEach_emit]

theorem Keeps.clear {record : Record α}
    (hI : ∀ names : List String, I (after record (names.map .remove))) :
    Keeps start I I (· = record) (Changes.clear start : Traced (Change α) Stop Unit)
      fun _ later => ∀ name, later.get name = none := by
  rintro changes hnow
  rw [clear_run]
  constructor
  · intro more hmore
    obtain ⟨count, rfl⟩ : ∃ count, more = ((after start changes).names.take count).map .remove :=
      ⟨more.length, by rw [List.map_take]; exact List.prefix_iff_eq_take.mp hmore⟩
    rw [after_append, hnow]
    exact hI _
  · intro name
    rw [after_append, get_after_removed, ite_eq_left_iff]
    intro hname
    refine Option.eq_none_iff_forall_ne_some.mpr fun entry hentry => hname ?_
    exact Record.mem_names_iff.mpr ⟨entry, hentry⟩

/-- A computation that changes no entry of some names leaves them as they are. -/
theorem keeps_agree {kept : String → Prop} {record : Record α} {m : Traced (Change α) Stop β}
    (hm : ∀ changes, ∀ change ∈ (m changes).1, ¬ kept change.name) :
    Keeps start (Agree kept record) (Agree kept record) (Agree kept record) m
      fun _ => Agree kept record := by
  refine Triple.each fun changes change hchange now hagree => ?_
  rw [after_concat]
  exact hagree.change (hm changes change hchange)

end Computations
end Library.Changes
