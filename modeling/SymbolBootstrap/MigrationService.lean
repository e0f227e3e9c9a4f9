import Mathlib.Data.Rat.Floor
import Mathlib.Tactic.Linarith
import SymbolBootstrap.Library.Throwing

/-!
Migration of a versioned object: the migrations from its version on are applied one after
the other and the object is stamped with the version after the last. An object with no
version has the first one.
-/
namespace SymbolBootstrap.MigrationService

open Library.Throwing

variable {α : Type}

/-- An object as a migration sees it: its version, and everything else it holds. -/
structure Versioned (α : Type) where
  version : Option ℚ
  data : α
deriving DecidableEq

/-- `none` is a migration that returns `undefined`. -/
structure Migration (α : Type) where
  description : String
  migrate : Versioned α → Except String (Option (Versioned α))

/-- Code that logs lines and may throw. -/
abbrev Logged := StateT (List String) (Except String)

def info (line : String) : Logged Unit := modify (· ++ [line])

/-- `versioned.version || 1`, where zero counts as missing. -/
def Versioned.versionOrFirst (versioned : Versioned α) : ℚ :=
  match versioned.version with
  | none => 1
  | some version => if version = 0 then 1 else version

/-- `items.slice(start)`: a fraction is cut off, and a negative start counts from the end. -/
def slice (items : List α) (start : ℚ) : List α :=
  let index := if start < 0 then ⌈start⌉ else ⌊start⌋
  if index < 0 then items.drop (items.length + index).toNat else items.drop index.toNat

def applyMigration (toMigrateData : Option (Versioned α)) (migration : Migration α) :
    Logged (Option (Versioned α)) :=
  match toMigrateData with
  | none => do
    info ("data to migrate is undefined, ignoring migration " ++ migration.description)
    return none
  | some data => do
    info ("Applying migration " ++ migration.description)
    liftM (migration.migrate data)

/-- `numberText` is the text of a number in a message. -/
def migrate (numberText : ℚ → String) (entityName : String) (versioned : Option (Versioned α))
    (migrations : List (Migration α)) : Logged (Option (Versioned α)) :=
  match versioned with
  | none => return none
  | some versioned => do
    let currentVersion : ℚ := migrations.length + 1
    let version := versioned.versionOrFirst
    if version = currentVersion then
      return some { versioned with version := some version }
    info ("Migrating object " ++ entityName ++ " from version " ++ numberText version ++
      " to version " ++ numberText currentVersion)
    if version > currentVersion then
      throw ("Current data version is " ++ numberText version ++ " but higher version is " ++
        numberText currentVersion)
    let migratedVersioned ← (slice migrations (version - 1)).foldlM applyMigration
      (some { versioned with version := some version })
    match migratedVersioned with
    | none => throw "Cannot set properties of undefined (setting 'version')"
    | some migratedVersioned =>
      info ("Object " ++ entityName ++ " migrated to version " ++ numberText currentVersion)
      return some { migratedVersioned with version := some currentVersion }

/-- Migrations that return data and neither read nor write the version: each has an effect
on the rest of the object. -/
def Transforms (migrations : List (Migration α)) (effects : List (α → α)) : Prop :=
  List.Forall₂ (fun migration effect => ∀ versioned, ∃ version,
    migration.migrate versioned = .ok (some ⟨version, effect versioned.data⟩)) migrations effects

/-- The effects one after the other. -/
def applied (effects : List (α → α)) (data : α) : α :=
  effects.foldl (fun data effect => effect data) data

theorem applied_append (first second : List (α → α)) (data : α) :
    applied (first ++ second) data = applied second (applied first data) :=
  List.foldl_append

/-- The effects from a version on are those of the first stage, then the others. -/
theorem applied_staged {effects : List (α → α)} {k index : ℕ} (hk : k ≤ effects.length)
    (h : index ≤ k) (data : α) :
    applied (effects.drop k) (applied ((effects.take k).drop index) data) =
      applied (effects.drop index) data := by
  have hlength : index ≤ (effects.take k).length := by rw [List.length_take]; omega
  rw [← applied_append, ← List.drop_append_of_le_length hlength, List.take_append_drop]

theorem slice_of_nonneg (items : List α) {start : ℚ} (h : 0 ≤ start) :
    slice items start = items.drop ⌊start⌋₊ := by
  have hfloor : 0 ≤ ⌊start⌋ := Int.floor_nonneg.mpr h
  unfold slice
  rw [if_neg (not_lt.mpr h), if_neg (not_lt.mpr hfloor), Int.floor_toNat]

theorem versionOrFirst_stamped (data : α) (n : ℕ) :
    (Versioned.mk (some (n + 1 : ℚ)) data).versionOrFirst = n + 1 :=
  if_neg (by positivity)

/-- The lines a step of the reduction logs, and the object it leaves. -/
theorem applyMigration_transforms {migration : Migration α} {effect : α → α}
    (h : ∀ versioned, ∃ version,
      migration.migrate versioned = .ok (some ⟨version, effect versioned.data⟩))
    (versioned : Versioned α) (log : List String) :
    ∃ version, applyMigration (some versioned) migration log =
      .ok (some ⟨version, effect versioned.data⟩,
        log ++ ["Applying migration " ++ migration.description]) := by
  obtain ⟨version, hversion⟩ := h versioned
  refine ⟨version, ?_⟩
  change (migration.migrate versioned >>= fun result => pure (result, _)) = _
  rw [hversion]
  rfl

/-- The reduction applies each migration once, in order. -/
theorem foldlM_transforms {migrations : List (Migration α)} {effects : List (α → α)}
    (h : Transforms migrations effects) (versioned : Versioned α) (log : List String) :
    ∃ version, migrations.foldlM applyMigration (some versioned) log =
      .ok (some ⟨version, applied effects versioned.data⟩,
        log ++ migrations.map fun migration => "Applying migration " ++ migration.description) := by
  induction h generalizing versioned log with
  | nil => exact ⟨versioned.version, by simp [applied]; rfl⟩
  | @cons migration effect migrations effects hmigration _ ih =>
    obtain ⟨version, hstep⟩ := applyMigration_transforms hmigration versioned log
    obtain ⟨version', hrest⟩ := ih ⟨version, effect versioned.data⟩
      (log ++ ["Applying migration " ++ migration.description])
    refine ⟨version', ?_⟩
    rw [List.foldlM_cons, run_bind_ok]
    refine ⟨_, _, hstep, hrest.trans ?_⟩
    rw [List.map_cons, List.append_assoc]
    rfl

section Migrate

variable (numberText : ℚ → String) (entityName : String)

/-- The lines logged by a migration that succeeds. -/
def migrationLog (versioned : Versioned α) (migrations : List (Migration α)) : List String :=
  let currentVersion : ℚ := migrations.length + 1
  let version := versioned.versionOrFirst
  if version = currentVersion then [] else
    ("Migrating object " ++ entityName ++ " from version " ++ numberText version ++
        " to version " ++ numberText currentVersion) ::
      ((slice migrations (version - 1)).map fun migration =>
        "Applying migration " ++ migration.description) ++
      ["Object " ++ entityName ++ " migrated to version " ++ numberText currentVersion]

/-- An object of the current version is returned with its version spelled out. -/
theorem migrate_current {versioned : Versioned α} {migrations : List (Migration α)}
    (h : versioned.versionOrFirst = migrations.length + 1) (log : List String) :
    migrate numberText entityName (some versioned) migrations log =
      .ok (some ⟨some (migrations.length + 1), versioned.data⟩, log) := by
  unfold migrate
  simp only [h, if_true]
  rfl

/-- An object of a later version is rejected. -/
theorem migrate_ahead {versioned : Versioned α} {migrations : List (Migration α)}
    (h : (migrations.length + 1 : ℚ) < versioned.versionOrFirst) (log : List String) :
    migrate numberText entityName (some versioned) migrations log =
      .error ("Current data version is " ++ numberText versioned.versionOrFirst ++
        " but higher version is " ++ numberText (migrations.length + 1)) := by
  unfold migrate
  simp only [if_neg (ne_of_gt h), if_pos h]
  rfl

/-- An object of an earlier version goes through the migrations from its version on. -/
theorem migrate_behind {versioned : Versioned α} {migrations : List (Migration α)}
    {effects : List (α → α)} (heffects : Transforms migrations effects)
    (hfirst : 1 ≤ versioned.versionOrFirst)
    (h : versioned.versionOrFirst < migrations.length + 1) (log : List String) :
    migrate numberText entityName (some versioned) migrations log =
      .ok (some ⟨some (migrations.length + 1),
          applied (effects.drop ⌊versioned.versionOrFirst - 1⌋₊) versioned.data⟩,
        log ++ migrationLog numberText entityName versioned migrations) := by
  have hslice : slice migrations (versioned.versionOrFirst - 1) =
      migrations.drop ⌊versioned.versionOrFirst - 1⌋₊ :=
    slice_of_nonneg migrations (sub_nonneg.mpr hfirst)
  have hdropped : Transforms (migrations.drop ⌊versioned.versionOrFirst - 1⌋₊)
      (effects.drop ⌊versioned.versionOrFirst - 1⌋₊) := List.forall₂_drop _ heffects
  obtain ⟨version, hreduce⟩ := foldlM_transforms hdropped
    { versioned with version := some versioned.versionOrFirst }
    (log ++ ["Migrating object " ++ entityName ++ " from version " ++
      numberText versioned.versionOrFirst ++ " to version " ++
      numberText (migrations.length + 1)])
  unfold migrate migrationLog
  simp only [if_neg (ne_of_lt h), if_neg (not_lt.mpr h.le), hslice]
  rw [run_bind_ok]
  refine ⟨(), _, rfl, ?_⟩
  rw [run_bind_ok]
  refine ⟨_, _, hreduce, run_bind_ok.mpr ⟨(), _, rfl, run_pure_ok.mpr ?_⟩⟩
  simp only [List.append_assoc, List.cons_append, List.nil_append]

/-- Every version up to the current one is migrated to it. -/
theorem migrate_transforms {versioned : Versioned α} {migrations : List (Migration α)}
    {effects : List (α → α)} (heffects : Transforms migrations effects)
    (hfirst : 1 ≤ versioned.versionOrFirst)
    (h : versioned.versionOrFirst ≤ migrations.length + 1) (log : List String) :
    migrate numberText entityName (some versioned) migrations log =
      .ok (some ⟨some (migrations.length + 1),
          applied (effects.drop ⌊versioned.versionOrFirst - 1⌋₊) versioned.data⟩,
        log ++ migrationLog numberText entityName versioned migrations) := by
  rcases h.eq_or_lt with heq | hlt
  · have hindex : ⌊versioned.versionOrFirst - 1⌋₊ = effects.length := by
      rw [heq, add_sub_cancel_right, Nat.floor_natCast]
      exact heffects.length_eq
    rw [migrate_current numberText entityName heq, hindex, List.drop_length, migrationLog,
      if_pos heq, List.append_nil]
    rfl
  · exact migrate_behind numberText entityName heffects hfirst hlt log

/-- An object left by the first `k` migrations goes through the others. -/
theorem migrate_stage {migrations : List (Migration α)} {effects : List (α → α)}
    (heffects : Transforms migrations effects) {k : ℕ} (hk : k ≤ migrations.length) (data : α)
    (log : List String) :
    ∃ log', migrate numberText entityName (some ⟨some (k + 1), data⟩) migrations log =
      .ok (some ⟨some (migrations.length + 1), applied (effects.drop k) data⟩, log') := by
  have hlast : (k + 1 : ℚ) ≤ migrations.length + 1 := by exact_mod_cast Nat.succ_le_succ hk
  have hfirst : (1 : ℚ) ≤ k + 1 := le_add_of_nonneg_left (Nat.cast_nonneg k)
  have hversion := versionOrFirst_stamped data k
  have h := @migrate_transforms α numberText entityName ⟨some (k + 1), data⟩ migrations effects
    heffects (hfirst.trans_eq hversion.symm) (hversion.trans_le hlast) log
  rw [hversion, add_sub_cancel_right, Nat.floor_natCast] at h
  exact ⟨_, h⟩

/-- Stopping after the first migrations and going on later is the same as migrating once,
and a migrated object stays as it is. -/
theorem migrations_compose {migrations : List (Migration α)} {effects : List (α → α)}
    (heffects : Transforms migrations effects) :
    (∀ k ≤ migrations.length, ∀ versioned : Versioned α, 1 ≤ versioned.versionOrFirst →
      versioned.versionOrFirst ≤ k + 1 → ∀ log, ∃ result : Versioned α,
        result.version = some (migrations.length + 1 : ℚ) ∧
        result.data = applied (effects.drop ⌊versioned.versionOrFirst - 1⌋₊) versioned.data ∧
        migrate numberText entityName (some versioned) migrations log =
          .ok (some result, log ++ migrationLog numberText entityName versioned migrations) ∧
        (∃ log', (migrate numberText entityName (some versioned) (migrations.take k) >>=
          fun half => migrate numberText entityName half migrations) log =
            .ok (some result, log')) ∧
        migrate numberText entityName (some result) migrations log = .ok (some result, log)) ∧
    ∀ versioned : Versioned α, (migrations.length + 1 : ℚ) < versioned.versionOrFirst → ∀ log,
      ∃ error, migrate numberText entityName (some versioned) migrations log = .error error := by
  refine ⟨?_, fun versioned h log => ⟨_, migrate_ahead numberText entityName h log⟩⟩
  intro k hk versioned hfirst hversion log
  have hlength : (migrations.take k).length = k := by rw [List.length_take]; omega
  have hlast : (k + 1 : ℚ) ≤ migrations.length + 1 := by exact_mod_cast Nat.succ_le_succ hk
  have honce := migrate_transforms numberText entityName heffects hfirst (hversion.trans hlast) log
  refine ⟨_, rfl, rfl, honce, ?_, ?_⟩
  · have htaken : Transforms (migrations.take k) (effects.take k) := List.forall₂_take k heffects
    have hhalf := migrate_transforms numberText entityName htaken hfirst
      (by rw [hlength]; exact hversion) log
    have hindex : ⌊versioned.versionOrFirst - 1⌋₊ ≤ k :=
      Nat.floor_le_of_le (by linarith)
    rw [hlength] at hhalf
    obtain ⟨log', hrest⟩ := migrate_stage numberText entityName heffects hk
      (applied ((effects.take k).drop ⌊versioned.versionOrFirst - 1⌋₊) versioned.data)
      (log ++ migrationLog numberText entityName versioned (migrations.take k))
    rw [applied_staged (heffects.length_eq ▸ hk) hindex] at hrest
    exact ⟨log', run_bind_ok.mpr ⟨_, _, hhalf, hrest⟩⟩
  · exact migrate_current numberText entityName (versionOrFirst_stamped _ _) log

/-- The text of a whole version. -/
def wholeText (version : ℚ) : String := toString version.num

/-- An object of the first version, migrated by one migration and later by both. -/
theorem migrations_compose_two :
    ∃ result : Versioned (List String), result.data = ["nodes", "main", "transport"] ∧
      ∃ log, (migrate wholeText "addresses.yml" (some ⟨none, ["nodes"]⟩)
          [⟨"main", fun object => .ok (some ⟨object.version, object.data ++ ["main"]⟩)⟩] >>=
        fun half => migrate wholeText "addresses.yml" half
          [⟨"main", fun object => .ok (some ⟨object.version, object.data ++ ["main"]⟩)⟩,
            ⟨"transport", fun object => .ok (some ⟨none, object.data ++ ["transport"]⟩)⟩]) [] =
        .ok (some result, log) := by
  have heffects : Transforms
      [⟨"main", fun object => .ok (some ⟨object.version, object.data ++ ["main"]⟩)⟩,
        ⟨"transport", fun object => .ok (some ⟨none, object.data ++ ["transport"]⟩)⟩]
      [(· ++ ["main"]), (· ++ ["transport"])] :=
    .cons (fun object => ⟨object.version, rfl⟩) (.cons (fun _ => ⟨none, rfl⟩) .nil)
  obtain ⟨result, -, hdata, -, hstaged, -⟩ :=
    (migrations_compose wholeText "addresses.yml" heffects).1
    1 (by decide) ⟨none, ["nodes"]⟩ le_rfl (by norm_num [Versioned.versionOrFirst]) []
  refine ⟨result, ?_, hstaged⟩
  rw [hdata]
  norm_num [Versioned.versionOrFirst, applied]

end Migrate

end SymbolBootstrap.MigrationService
