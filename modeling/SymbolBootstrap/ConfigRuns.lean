import SymbolBootstrap.StoredUpgrade
import SymbolBootstrap.Library.Changes

/-!
`ConfigService.run` on the target folder, over any number of runs that may fail or be cut at any
change. The addresses are written when all else is generated, and the preset after them. A target
with the one and without the other is not configured again; a run on both only writes what is
there already, so that accounts drawn at random are never replaced by others.

A file is written in one step and can be read with the password of the run. What is generated
beside the two files is left open.
-/
namespace SymbolBootstrap.ConfigRuns

open Library.Changes Library.Records Library.Throwing Library.Traces
open CryptoUtils ConfigurationUtils NemesisBalances AddressesService AddressesDocuments
open AccountResolution AddressesUpgrade StoredUpgrade

inductive Entry
  | addresses (addresses : Addresses)
  | preset (presetData : ConfigPreset)
  | file (content : List UInt8)

/-- The target folder: the two files, and all else by its path. -/
abbrev Target := Record Entry

abbrev Changing (α : Type) := Traced (Change Entry) String α

def addressesLocation : String := "addresses.yml"
def presetLocation : String := "preset.yml"

theorem locations_ne : addressesLocation ≠ presetLocation := by
  decide

/-- Certificates, node configurations, gateways, explorers, seeds and reports: what is generated
from the preset and the addresses, on an upgrade or not, beside the two files. -/
structure Generation where
  generate : Bool → Target → ConfigPreset → Addresses → List (Change Entry) × Except String Unit
  beside : ∀ isUpgrade target presetData addresses,
    ∀ change ∈ (generate isUpgrade target presetData addresses).1,
      change.name ≠ addressesLocation ∧ change.name ≠ presetLocation

/-- A run: its parameters, how it resolves its preset, what it draws and generates, and how many
changes it gets to make. -/
structure Attempt where
  reset : Bool
  upgrade : Bool
  createPresetData : Option ConfigPreset → Except String ConfigPreset
  draws : Draws
  generation : Generation
  moment : ℕ

def loadExistingPresetDataIfPreset (target : Target) : Except String (Option ConfigPreset) :=
  match target.get presetLocation with
  | none => .ok none
  | some (.preset presetData) => .ok (some presetData)
  | some _ => .error "Cannot load the preset"

def loadExistingAddressesIfPreset (target : Target) : Except String (Option Addresses) :=
  match target.get addressesLocation with
  | none => .ok none
  | some (.addresses addresses) => .ok (some addresses)
  | some _ => .error "Cannot load the addresses"

/-- A file that has to be there. -/
def existing {α : Type} (location : String) : Option α → Except String α
  | some value => .ok value
  | none => .error ("The file " ++ location ++ " doesn't exist. Have you executed the 'config' " ++
      "command? Have you provided the right --target param?")

section Run

variable (services : Services) (start : Target)

def generateBeside (attempt : Attempt) (isUpgrade : Bool) (presetData : ConfigPreset)
    (addresses : Addresses) : Changing Unit :=
  fun changes => attempt.generation.generate isUpgrade (after start changes) presetData addresses

/-- The rest of `run`, once it is clear what was there before. -/
def configure (attempt : Attempt) (oldAddresses : Option Addresses)
    (oldPresetData : Option ConfigPreset) : Changing (ConfigPreset × Addresses) := do
  let presetData ← attempt.createPresetData oldPresetData
  let ((addresses, presetData), _) ←
    (resolveAddresses services oldAddresses oldPresetData presetData attempt.draws :
      Except String ((Addresses × ConfigPreset) × Draws))
  let privateKeySecurityMode ← getPrivateKeySecurityMode presetData.privateKeySecurityMode
  generateBeside start attempt (oldPresetData.isSome || oldAddresses.isSome) presetData addresses
  emit (.write addressesLocation (.addresses (storedAddresses privateKeySecurityMode addresses)))
  emit (.write presetLocation (.preset (storedPreset presetData)))
  return (presetData, addresses)

/-- `run` once the target is reset. -/
def runTarget (attempt : Attempt) : Changing (ConfigPreset × Addresses) := do
  let target ← current start
  if (target.get presetLocation).isSome && !attempt.upgrade then
    let presetData ← (loadExistingPresetDataIfPreset target >>= existing presetLocation :
      Except String ConfigPreset)
    let addresses ← (loadExistingAddressesIfPreset target >>= existing addressesLocation :
      Except String Addresses)
    return (presetData, addresses)
  else
    let oldPresetData ← loadExistingPresetDataIfPreset target
    let oldAddresses ← loadExistingAddressesIfPreset target
    match oldAddresses, oldPresetData with
    | some _, none =>
        stop ("Configuration cannot be upgraded without a previous " ++ presetLocation ++
          " file. (run -r to reset)")
    | none, some _ =>
        stop ("Configuration cannot be upgraded without a previous " ++ addressesLocation ++
          " file. (run -r to reset)")
    | _, _ => configure services start attempt oldAddresses oldPresetData

def run (attempt : Attempt) : Changing (ConfigPreset × Addresses) := do
  if attempt.reset then clear start
  runTarget services start attempt

/-- The runs one after another, each over or cut. -/
def runs (attempts : List Attempt) : Traced (Change Entry) Empty Unit :=
  forEach attempts fun attempt => cut attempt.moment (run services start attempt)

end Run

section Runs

variable {services : Services} {start : Target} {presetData : ConfigPreset}
  {mode : PrivateKeySecurityMode}

/-- The preset is resolved to the same every time; on an upgrade, where the custom preset is taken
from the stored preset, without its private keys. -/
structure Attempt.Resolves (attempt : Attempt) (presetData : ConfigPreset) : Prop where
  first : ∀ resolved, attempt.createPresetData none = .ok resolved → resolved = presetData
  again : ∀ old resolved, attempt.createPresetData (some old) = .ok resolved →
    resolved = storedPreset presetData

variable (services presetData) in
/-- What a first run makes of the preset. -/
def FirstRun (first : Addresses) (firstPreset : ConfigPreset) : Prop :=
  ∃ draws draws', resolveAddresses services none none presetData draws =
    .ok ((first, firstPreset), draws')

variable (mode) in
/-- The two files, as far as they are there, hold what is stored of one run. -/
structure Holds (first : Addresses) (firstPreset : ConfigPreset) (target : Target) : Prop where
  addresses : ∀ entry, target.get addressesLocation = some entry →
    entry = .addresses (storedAddresses mode first)
  preset : ∀ entry, target.get presetLocation = some entry →
    entry = .preset (storedPreset firstPreset)

variable (services presetData mode) in
/-- Neither of the two files, or files of one first run. -/
def Paired (target : Target) : Prop :=
  (target.get addressesLocation = none ∧ target.get presetLocation = none) ∨
    ∃ first firstPreset, FirstRun services presetData first firstPreset ∧
      Holds mode first firstPreset target

/-- One of the two files. -/
def IsFile (name : String) : Prop := name = addressesLocation ∨ name = presetLocation

variable (services start presetData mode) in
/-- What every moment has; where no run resets, a file that is there stays. -/
def Standing (keeps : Prop) (changes : List (Change Entry)) : Prop :=
  Paired services presetData mode (after start changes) ∧
    (keeps → Always (Rewrites IsFile start) changes)

theorem loadExistingAddressesIfPreset_ok {target : Target} {old : Option Addresses} :
    loadExistingAddressesIfPreset target = .ok old ↔
      target.get addressesLocation = old.map .addresses := by
  unfold loadExistingAddressesIfPreset
  split <;> rename_i h <;> rw [h] <;> cases old <;> simp_all

theorem loadExistingPresetDataIfPreset_ok {target : Target} {old : Option ConfigPreset} :
    loadExistingPresetDataIfPreset target = .ok old ↔
      target.get presetLocation = old.map .preset := by
  unfold loadExistingPresetDataIfPreset
  split <;> rename_i h <;> rw [h] <;> cases old <;> simp_all

/-- A run on both files or on neither stores what they hold, as far as they are there. -/
theorem resolved_same (hsdk : services.sdk.Lawful)
    (hmode : shouldCreateNemesis services.seedExists presetData = true → mode ≠ .promptAll)
    {attempt : Attempt} (hresolves : attempt.Resolves presetData) {target : Target}
    (hpaired : Paired services presetData mode target)
    {oldAddresses : Option Addresses} {oldPresetData : Option ConfigPreset}
    (haddresses : target.get addressesLocation = oldAddresses.map .addresses)
    (hpreset : target.get presetLocation = oldPresetData.map .preset)
    (hboth : oldAddresses.isSome = oldPresetData.isSome) {resolved secondPreset : ConfigPreset}
    {second : Addresses} {draws' : Draws}
    (hcreate : attempt.createPresetData oldPresetData = .ok resolved)
    (hrun : resolveAddresses services oldAddresses oldPresetData resolved attempt.draws =
      .ok ((second, secondPreset), draws')) :
    secondPreset.privateKeySecurityMode = presetData.privateKeySecurityMode ∧
    ∃ first firstPreset, FirstRun services presetData first firstPreset ∧
      Holds mode first firstPreset target ∧
      storedAddresses mode second = storedAddresses mode first ∧
      storedPreset secondPreset = storedPreset firstPreset := by
  have hsameMode : secondPreset.privateKeySecurityMode = resolved.privateKeySecurityMode :=
    congrArg (fun fields => fields.2.2.1) (resolveAddresses_unresolved hrun).1
  cases oldPresetData with
  | none =>
    cases oldAddresses with
    | some old => cases hboth
    | none =>
      obtain rfl := hresolves.first resolved hcreate
      refine ⟨hsameMode, second, secondPreset, ⟨_, _, hrun⟩, ⟨?_, ?_⟩, rfl, rfl⟩
      · intro entry hentry
        rw [haddresses] at hentry
        cases hentry
      · intro entry hentry
        rw [hpreset] at hentry
        cases hentry
  | some oldPreset =>
    cases oldAddresses with
    | none => cases hboth
    | some old =>
      obtain rfl := hresolves.again oldPreset resolved hcreate
      refine ⟨hsameMode, ?_⟩
      rcases hpaired with ⟨hnone, -⟩ | ⟨first, firstPreset, hfirst, hholds⟩
      · rw [haddresses] at hnone
        cases hnone
      · have hold := hholds.addresses _ haddresses
        have holdPreset := hholds.preset _ hpreset
        cases hold
        cases holdPreset
        obtain ⟨draws, draws'', hfirstRun⟩ := hfirst
        exact ⟨first, firstPreset, ⟨draws, draws'', hfirstRun⟩, hholds,
          resolveAddresses_same hsdk hmode hfirstRun hrun⟩

section Changes

variable {keeps : Prop} {first : Addresses} {firstPreset : ConfigPreset}
  {changes : List (Change Entry)} {change : Change Entry}

variable (start mode) in
/-- What holds while the files of a run are being written. -/
structure Writing (keeps : Prop) (first : Addresses) (firstPreset : ConfigPreset)
    (changes : List (Change Entry)) : Prop where
  holds : Holds mode first firstPreset (after start changes)
  rewrites : keeps → Always (Rewrites IsFile start) changes

theorem Writing.standing (h : Writing start mode keeps first firstPreset changes)
    (hfirst : FirstRun services presetData first firstPreset) :
    Standing services start presetData mode keeps changes :=
  ⟨.inr ⟨first, firstPreset, hfirst, h.holds⟩, h.rewrites⟩

/-- A change of one of the two files is a write of what is stored of the run. -/
theorem Writing.next (h : Writing start mode keeps first firstPreset changes)
    (haddresses : change.name = addressesLocation →
      change.value = some (.addresses (storedAddresses mode first)))
    (hpreset : change.name = presetLocation →
      change.value = some (.preset (storedPreset firstPreset))) :
    Writing start mode keeps first firstPreset (changes ++ [change]) := by
  refine ⟨⟨?_, ?_⟩, fun hkeeps => always_concat.mpr ⟨h.rewrites hkeeps, ?_⟩⟩
  · intro entry hentry
    rw [after_concat, get_apply] at hentry
    by_cases hname : change.name = addressesLocation
    · rw [if_pos hname, haddresses hname] at hentry
      exact (Option.some.inj hentry).symm
    · rw [if_neg hname] at hentry
      exact h.holds.addresses entry hentry
  · intro entry hentry
    rw [after_concat, get_apply] at hentry
    by_cases hname : change.name = presetLocation
    · rw [if_pos hname, hpreset hname] at hentry
      exact (Option.some.inj hentry).symm
    · rw [if_neg hname] at hentry
      exact h.holds.preset entry hentry
  · rintro (hname | hname) entry hentry
    · rw [hname] at hentry
      rw [haddresses hname, h.holds.addresses entry hentry]
    · rw [hname] at hentry
      rw [hpreset hname, h.holds.preset entry hentry]

/-- What is removed is no part of any run. -/
theorem Standing.removed {name : String}
    (h : Standing services start presetData mode keeps changes) (hkeeps : ¬ keeps) :
    Standing services start presetData mode keeps (changes ++ [.remove name]) := by
  refine ⟨?_, fun hyes => absurd hyes hkeeps⟩
  have hremoved : ∀ other entry, (after start (changes ++ [.remove name])).get other = some entry →
      (after start changes).get other = some entry := by
    intro other entry hentry
    rw [after_concat, get_apply] at hentry
    by_cases hname : (Change.remove name : Change Entry).name = other
    · rw [if_pos hname] at hentry
      cases hentry
    · rwa [if_neg hname] at hentry
  rcases h.1 with ⟨haddresses, hpreset⟩ | ⟨first, firstPreset, hfirst, hholds⟩
  · refine .inl ⟨?_, ?_⟩
    · refine Option.eq_none_iff_forall_ne_some.mpr fun entry hentry => ?_
      have hbefore := hremoved _ entry hentry
      rw [haddresses] at hbefore
      cases hbefore
    · refine Option.eq_none_iff_forall_ne_some.mpr fun entry hentry => ?_
      have hbefore := hremoved _ entry hentry
      rw [hpreset] at hbefore
      cases hbefore
  · refine .inr ⟨first, firstPreset, hfirst, ?_, ?_⟩
    · exact fun entry hentry => hholds.addresses entry (hremoved _ entry hentry)
    · exact fun entry hentry => hholds.preset entry (hremoved _ entry hentry)

end Changes

section Steps

variable {keeps : Prop} {attempt : Attempt} {oldAddresses : Option Addresses}
  {oldPresetData : Option ConfigPreset}

variable (start keeps) in
theorem configure_standing (hsdk : services.sdk.Lawful)
    (hgiven : getPrivateKeySecurityMode presetData.privateKeySecurityMode = .ok mode)
    (hmode : shouldCreateNemesis services.seedExists presetData = true → mode ≠ .promptAll)
    (hresolves : attempt.Resolves presetData) {target : Target}
    (haddresses : target.get addressesLocation = oldAddresses.map .addresses)
    (hpreset : target.get presetLocation = oldPresetData.map .preset)
    (hboth : oldAddresses.isSome = oldPresetData.isSome) :
    Triple (Standing services start presetData mode keeps)
      (Standing services start presetData mode keeps)
      (fun changes => Standing services start presetData mode keeps changes ∧
        after start changes = target)
      (configure services start attempt oldAddresses oldPresetData)
      fun _ => Standing services start presetData mode keeps := by
  refine .bindLift (fun _ h => ⟨h.1, h.1⟩) fun resolved hcreate => ?_
  refine .bindLift (fun _ h => ⟨h.1, h.1⟩) fun result hrun => ?_
  obtain ⟨⟨second, secondPreset⟩, draws'⟩ := result
  refine .bindLift (fun _ h => ⟨h.1, h.1⟩) fun resolvedMode hresolvedMode => ?_
  refine .at fun changes ⟨hstanding, htarget⟩ => ?_
  subst htarget
  obtain ⟨hsameMode, first, firstPreset, hfirst, hholds, hsecond, hsecondPreset⟩ :=
    resolved_same hsdk hmode hresolves hstanding.1 haddresses hpreset hboth hcreate hrun
  rw [hsameMode, hgiven] at hresolvedMode
  obtain rfl := Except.ok.inj hresolvedMode
  have hwritten : Triple (Writing start mode keeps first firstPreset)
      (Writing start mode keeps first firstPreset) (Writing start mode keeps first firstPreset)
      (do
        generateBeside start attempt (oldPresetData.isSome || oldAddresses.isSome) secondPreset
          second
        emit (.write addressesLocation (.addresses (storedAddresses mode second)))
        emit (.write presetLocation (.preset (storedPreset secondPreset)))
        return (secondPreset, second) : Changing (ConfigPreset × Addresses))
      fun _ => Writing start mode keeps first firstPreset := by
    refine .bind (Q := fun _ => Writing start mode keeps first firstPreset) ?_ fun _ =>
      .bind (Q := fun _ => Writing start mode keeps first firstPreset) ?_ fun _ =>
      .bind (Q := fun _ => Writing start mode keeps first firstPreset) ?_ fun _ =>
      .pure fun _ h => ⟨h, h⟩
    · refine Triple.each fun now change hchange later h => ?_
      obtain ⟨haddressesName, hpresetName⟩ := attempt.generation.beside _ _ _ _ change hchange
      exact h.next (fun hname => absurd hname haddressesName) fun hname =>
        absurd hname hpresetName
    · refine .emit (fun _ h => h) fun later h => ?_
      have hnext : Writing start mode keeps first firstPreset (later ++
          [.write addressesLocation (.addresses (storedAddresses mode second))]) :=
        h.next (fun _ => by rw [hsecond]; rfl) fun hname => absurd hname locations_ne
      exact ⟨hnext, hnext⟩
    · refine .emit (fun _ h => h) fun later h => ?_
      have hnext : Writing start mode keeps first firstPreset (later ++
          [.write presetLocation (.preset (storedPreset secondPreset))]) :=
        h.next (fun hname => absurd hname.symm locations_ne) fun _ => by rw [hsecondPreset]; rfl
      exact ⟨hnext, hnext⟩
  have hstands : ∀ later, Writing start mode keeps first firstPreset later →
      Standing services start presetData mode keeps later := fun _ h => h.standing hfirst
  refine (hwritten.mono hstands hstands).weaken ?_ fun _ => hstands
  rintro _ rfl
  exact ⟨hholds, hstanding.2⟩

/-- What every way of a run keeps: the removals of a reset, and the configuration of a target
that holds both files or neither. -/
theorem run_rule {I : List (Change Entry) → Prop}
    (hreset : attempt.reset = true → ∀ changes name, I changes → I (changes ++ [.remove name]))
    (hconfigure : ∀ (target : Target) oldAddresses oldPresetData,
      target.get addressesLocation = oldAddresses.map .addresses →
      target.get presetLocation = oldPresetData.map .preset →
      oldAddresses.isSome = oldPresetData.isSome →
      Triple I I (fun changes => I changes ∧ after start changes = target)
        (configure services start attempt oldAddresses oldPresetData) fun _ => I) :
    Triple I I I (run services start attempt) fun _ => I := by
  have htarget : Triple I I I (runTarget services start attempt) fun _ => I := by
    refine .bind (Q := fun target changes => I changes ∧ after start changes = target)
      (.silent (fun _ => rfl) fun _ h => ⟨h, h, rfl⟩) fun target => ?_
    split
    · refine .bindLift (fun _ h => ⟨h.1, h.1⟩) fun presetData' _ => ?_
      refine .bindLift (fun _ h => ⟨h.1, h.1⟩) fun addresses _ => ?_
      exact .pure fun _ h => ⟨h.1, h.1⟩
    · refine .bindLift (fun _ h => ⟨h.1, h.1⟩) fun oldPresetData hpreset => ?_
      refine .bindLift (fun _ h => ⟨h.1, h.1⟩) fun oldAddresses haddresses => ?_
      rw [loadExistingPresetDataIfPreset_ok] at hpreset
      rw [loadExistingAddressesIfPreset_ok] at haddresses
      have hboth := hconfigure target oldAddresses oldPresetData haddresses hpreset
      cases oldAddresses with
      | none =>
        cases oldPresetData with
        | none => exact hboth rfl
        | some oldPreset => exact .stop fun _ h => ⟨h.1, h.1⟩
      | some old =>
        cases oldPresetData with
        | none => exact .stop fun _ h => ⟨h.1, h.1⟩
        | some oldPreset => exact hboth rfl
  unfold run
  cases hattempt : attempt.reset with
  | false => exact htarget
  | true =>
    refine .bind (Triple.each fun now change hchange changes h => ?_) fun _ => htarget
    rw [clear_run] at hchange
    obtain ⟨name, -, rfl⟩ := List.mem_map.mp hchange
    exact hreset hattempt changes name h

/-- A configuration that returns generates from what it resolved and writes the two files. -/
theorem configure_returns {before changes : List (Change Entry)} {addresses : Addresses}
    (h : configure services start attempt oldAddresses oldPresetData before =
      (changes, .ok (presetData, addresses))) :
    ∃ generated isUpgrade resolved draws' written writtenPreset,
      attempt.createPresetData oldPresetData = .ok resolved ∧
      resolveAddresses services oldAddresses oldPresetData resolved attempt.draws =
        .ok ((addresses, presetData), draws') ∧
      attempt.generation.generate isUpgrade (after start before) presetData addresses =
        (generated, .ok ()) ∧
      changes = generated ++
        [.write addressesLocation written, .write presetLocation writtenPreset] := by
  obtain ⟨resolved, hcreate, hresolving⟩ := run_bind_lift_returns.mp h
  obtain ⟨⟨⟨second, secondPreset⟩, draws'⟩, hresolve, hsettled⟩ :=
    run_bind_lift_returns.mp hresolving
  obtain ⟨resolvedMode, -, hgenerating⟩ := run_bind_lift_returns.mp hsettled
  obtain ⟨generated, ⟨⟩, later, hgenerate, hwrites, rfl⟩ := run_bind_returns.mp hgenerating
  cases hwrites
  exact ⟨generated, _, resolved, draws', _, _, hcreate, hresolve, hgenerate, rfl⟩

/-- A run on a target that is not just loaded configures it, after a reset if there is one. -/
theorem run_configures {changes : List (Change Entry)} {addresses : Addresses}
    (h : run services start attempt [] = (changes, .ok (presetData, addresses)))
    (hconfigures : attempt.reset = true ∨ attempt.upgrade = true ∨
      start.get presetLocation = none) :
    ∃ before later oldAddresses oldPresetData,
      configure services start attempt oldAddresses oldPresetData before =
        (later, .ok (presetData, addresses)) ∧ changes = before ++ later := by
  have htarget : ∀ before later,
      runTarget services start attempt before = (later, .ok (presetData, addresses)) →
      (attempt.upgrade = true ∨ (after start before).get presetLocation = none) →
      ∃ oldAddresses oldPresetData, configure services start attempt oldAddresses oldPresetData
        before = (later, .ok (presetData, addresses)) := by
    intro before later hrun hgoes
    unfold runTarget at hrun
    rw [run_bind_current, if_neg] at hrun
    · obtain ⟨oldPresetData, -, hrun⟩ := run_bind_lift_returns.mp hrun
      obtain ⟨oldAddresses, -, hrun⟩ := run_bind_lift_returns.mp hrun
      refine ⟨oldAddresses, oldPresetData, ?_⟩
      split at hrun
      · cases hrun
      · cases hrun
      · exact hrun
    · intro hloads
      rw [Bool.and_eq_true, Bool.not_eq_true'] at hloads
      rcases hgoes with hupgrade | hnone
      · rw [hupgrade] at hloads
        cases hloads.2
      · rw [hnone] at hloads
        cases hloads.1
  unfold run at h
  cases hreset : attempt.reset with
  | false =>
    rw [hreset] at h hconfigures
    obtain ⟨oldAddresses, oldPresetData, hrun⟩ := htarget [] changes h
      (hconfigures.resolve_left Bool.false_ne_true)
    exact ⟨[], changes, oldAddresses, oldPresetData, hrun, rfl⟩
  | true =>
    rw [hreset] at h
    obtain ⟨cleared, ⟨⟩, later, hclear, hrun, rfl⟩ := run_bind_returns.mp h
    rw [clear_run] at hclear
    cases hclear
    have hnone : (after start ((after start []).names.map .remove)).get presetLocation = none := by
      rw [get_after_removed, ite_eq_left_iff]
      intro hname
      refine Option.eq_none_iff_forall_ne_some.mpr fun entry hentry => hname ?_
      exact Record.mem_names_iff.mpr ⟨entry, hentry⟩
    obtain ⟨oldAddresses, oldPresetData, hrun⟩ := htarget _ later hrun (.inr hnone)
    exact ⟨_, later, oldAddresses, oldPresetData, hrun, rfl⟩

variable (start) in
theorem run_standing (hsdk : services.sdk.Lawful)
    (hgiven : getPrivateKeySecurityMode presetData.privateKeySecurityMode = .ok mode)
    (hmode : shouldCreateNemesis services.seedExists presetData = true → mode ≠ .promptAll)
    (hresolves : attempt.Resolves presetData) (hreset : keeps → attempt.reset = false) :
    Triple (Standing services start presetData mode keeps)
      (Standing services start presetData mode keeps)
      (Standing services start presetData mode keeps)
      (run services start attempt) fun _ => Standing services start presetData mode keeps := by
  refine run_rule ?_ ?_
  · intro hattempt changes name h
    refine h.removed fun hkeeps => ?_
    rw [hreset hkeeps] at hattempt
    cases hattempt
  · intro target oldAddresses oldPresetData haddresses hpreset hboth
    exact configure_standing start keeps hsdk hgiven hmode hresolves haddresses hpreset hboth

end Steps

/-- In any runs of one preset, over or cut anywhere, the two files are never of two first runs;
where no run resets, each stays what it is from when it is written. -/
theorem configured_once (hsdk : services.sdk.Lawful)
    (hgiven : getPrivateKeySecurityMode presetData.privateKeySecurityMode = .ok mode)
    (hmode : shouldCreateNemesis services.seedExists presetData = true → mode ≠ .promptAll)
    {attempts : List Attempt} (hresolves : ∀ attempt ∈ attempts, attempt.Resolves presetData)
    (hstart : Paired services presetData mode start) {later : List (Change Entry)}
    (hlater : later <+: (runs services start attempts []).1) :
    Paired services presetData mode (after start later) ∧
      ((∀ attempt ∈ attempts, attempt.reset = false) → ∀ moment, moment <+: later →
        ∀ name, IsFile name → ∀ entry, (after start moment).get name = some entry →
          (after start later).get name = some entry) := by
  let keeps : Prop := ∀ attempt ∈ attempts, attempt.reset = false
  have hruns : Triple (Standing services start presetData mode keeps)
      (Standing services start presetData mode keeps)
      (Standing services start presetData mode keeps)
      (runs services start attempts) fun _ => Standing services start presetData mode keeps := by
    refine .forEach (fun _ h => h) fun attempt hattempt => ?_
    have hreset : keeps → attempt.reset = false := fun hkeeps => hkeeps attempt hattempt
    have hrun := run_standing start hsdk hgiven hmode (hresolves attempt hattempt) hreset
    exact .cut hrun fun _ h => h
  obtain ⟨hpaired, hrewrites⟩ := hruns.moment ⟨hstart, fun _ => always_nil⟩ later hlater
  refine ⟨hpaired, fun hkeeps moment hmoment name hname entry hentry => ?_⟩
  exact get_after_rewritten hname hmoment (hrewrites hkeeps) hentry

/-- Runs of a new network: one cut before its files, one that writes them and an upgrade. -/
def newAttempts : List Attempt :=
  [1, 3, 3].map fun moment => {
    reset := false
    upgrade := true
    createPresetData := fun old => .ok (if old.isSome then storedPreset newNetwork else newNetwork)
    draws := ⟨moment, []⟩
    generation := ⟨fun _ _ _ _ => ([.write "nodes" (.file [])], .ok ()), by
      intro isUpgrade target presetData addresses change hchange
      rw [List.mem_singleton.mp hchange]
      decide⟩
    moment }

example : (runs knownServices Record.empty newAttempts []).1.map Change.name =
    ["nodes", "nodes", addressesLocation, presetLocation, "nodes", addressesLocation,
      presetLocation] := by
  decide +kernel

theorem configured_once_cut :
    Paired knownServices newNetwork .encrypt
        (after Record.empty (runs knownServices Record.empty newAttempts []).1) ∧
      ((∀ attempt ∈ newAttempts, attempt.reset = false) →
        ∀ moment, moment <+: (runs knownServices Record.empty newAttempts []).1 →
          ∀ name, IsFile name → ∀ entry, (after Record.empty moment).get name = some entry →
            (after Record.empty (runs knownServices Record.empty newAttempts []).1).get name =
              some entry) := by
  refine configured_once KnownAccounts.knownSdk_lawful rfl (fun _ => by decide) ?_
    (.inl ⟨rfl, rfl⟩) (List.prefix_refl _)
  intro attempt hattempt
  obtain ⟨moment, -, rfl⟩ := List.mem_map.mp hattempt
  refine ⟨?_, ?_⟩
  · intro resolved hresolved
    exact (Except.ok.inj hresolved).symm
  · intro old resolved hresolved
    exact (Except.ok.inj hresolved).symm

end Runs
end SymbolBootstrap.ConfigRuns
