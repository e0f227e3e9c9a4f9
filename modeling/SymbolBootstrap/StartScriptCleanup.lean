import SymbolBootstrap.StartScriptFlags

/-!
When a script that ends has removed its started flag. It ends by its own command when it finds
the process gone, after a signal, and when the other application is to recover. On each way a
command that fails ends it at once where `set -e` is in effect, and the removal itself names
./data, not the data directory.
-/
namespace SymbolBootstrap.StartScriptCleanup

open Library StartScript StartScriptSteps StartScriptFlags

/-- The next command of the script ends it: the process has exited, a signal has come, or the
other application's recovery flag has been seen. -/
def Ends (config : Config) (s : System) (app : App) : Prop :=
  launched (s.script app).line = true ∧ ((lineStep config s app).script app).line = .ended

/-- A script that ends leaves no started flag. -/
def CleansUp (config : Config) (s : System) : Event → Prop
  | .line app => Ends config s app → (lineStep config s app).started app = false
  | _ => True

/-- The next command of the script does not fail while `set -e` is in effect, and what it
removes is the flag of the data directory. -/
def GoesOn (config : Config) (s : System) : Event → Prop
  | .line app =>
      match (s.script app).line with
      | .checkProcess => (s.script app).process = .running ∨ (s.script app).errexit = false
      | .cleanupKill => (s.script app).process = .running ∨ (s.script app).errexit = false
      | .yieldKill => (s.script app).process = .running ∨ (s.script app).errexit = false
      | .cleanupWait => (s.script app).process ≠ .exited false ∨ (s.script app).errexit = false
      | .exitedWait => (s.script app).process ≠ .exited false ∨ (s.script app).errexit = false
      | .yieldWait => (s.script app).process ≠ .exited false ∨ (s.script app).errexit = false
      | .cleanupRemove => config.dataDirectoryIsData = true
      | .exitedRemove => config.dataDirectoryIsData = true
      | .yieldRemove => config.dataDirectoryIsData = true
      | _ => True
  | _ => True

section

variable {config : Config} {s : System} {app : App}

/-- A command that ends the script where it fails leaves the flag as it is. -/
theorem orExit_cleans {failed : Bool} {line : Line} (hline : line ≠ .ended)
    (hstarted : s.started app = true) :
    (((orExit s app failed line).script app).line = .ended →
      (orExit s app failed line).started app = false) ↔
      (failed = false ∨ (s.script app).errexit = false) := by
  unfold orExit
  by_cases hexit : (failed && (s.script app).errexit) = true
  · rw [if_pos hexit]
    rw [Bool.and_eq_true] at hexit
    simp [hexit.1, hexit.2, hstarted]
  · rw [if_neg hexit]
    rw [Bool.and_eq_true, not_and_or, Bool.not_eq_true, Bool.not_eq_true] at hexit
    exact iff_of_true (by simp [hline]) hexit

theorem killProcess_cleans {line : Line} (hline : line ≠ .ended)
    (hstarted : s.started app = true) :
    (((killProcess s app line).script app).line = .ended →
      (killProcess s app line).started app = false) ↔
      ((s.script app).process = .running ∨ (s.script app).errexit = false) := by
  unfold killProcess
  rw [orExit_cleans hline hstarted]
  simp

theorem waitProcess_cleans {line : Line} (hline : line ≠ .ended)
    (hat : (s.script app).line ≠ .ended) (hstarted : s.started app = true) :
    (((waitProcess s app line).script app).line = .ended →
      (waitProcess s app line).started app = false) ↔
      ((s.script app).process ≠ .exited false ∨ (s.script app).errexit = false) := by
  unfold waitProcess
  cases hprocess : (s.script app).process with
  | none => simp [hline]
  | running => simp [hat]
  | exited success =>
    simp only
    rw [orExit_cleans hline hstarted]
    cases success <;> simp

theorem removeAndExit_cleans (hstarted : s.started app = true) :
    (((removeAndExit config s app).script app).line = .ended →
      (removeAndExit config s app).started app = false) ↔
      config.dataDirectoryIsData = true := by
  unfold removeAndExit
  by_cases hdata : config.dataDirectoryIsData = true
  · simp [hdata]
  · simp [hdata, hstarted]

/-- With the started flag there, the script leaves none exactly when its command goes on. -/
theorem cleansUp_iff (hflags : FlagsFollow s app) :
    CleansUp config s (.line app) ↔ GoesOn config s (.line app) := by
  rw [CleansUp, GoesOn, Ends]
  by_cases hlaunched : launched (s.script app).line = true
  · have hstarted : s.started app = true := by
      refine hflags.started true ?_
      cases hline : (s.script app).line <;>
        first | rfl | (rw [hline] at hlaunched; cases hlaunched)
    rw [and_iff_right hlaunched]
    unfold lineStep
    cases hline : (s.script app).line with
    | cleanupKill => exact killProcess_cleans Line.noConfusion hstarted
    | yieldKill => exact killProcess_cleans Line.noConfusion hstarted
    | cleanupWait =>
      exact waitProcess_cleans Line.noConfusion (by rw [hline]; exact Line.noConfusion) hstarted
    | exitedWait =>
      exact waitProcess_cleans Line.noConfusion (by rw [hline]; exact Line.noConfusion) hstarted
    | yieldWait =>
      exact waitProcess_cleans Line.noConfusion (by rw [hline]; exact Line.noConfusion) hstarted
    | cleanupRemove => exact removeAndExit_cleans hstarted
    | exitedRemove => exact removeAndExit_cleans hstarted
    | yieldRemove => exact removeAndExit_cleans hstarted
    | checkProcess =>
      simp only
      by_cases hrunning : (s.script app).process = .running
      · simp [hrunning]
      · simp only [hrunning, if_false, false_or]
        rw [orExit_cleans Line.noConfusion hstarted]
        simp
    | checkOtherRecovery =>
      simp only [iff_true]
      split <;> simp
    | _ =>
      rw [hline] at hlaunched
      cases hlaunched
  · refine iff_of_true (fun hends => absurd hends.1 hlaunched) ?_
    split <;> first
      | trivial
      | (rename_i hline; rw [hline] at hlaunched; exact absurd rfl hlaunched)

end

/-- In a run every script that ends leaves no started flag exactly when none of its commands
fails while `set -e` is in effect, and ./data is the data directory where it removes the flag. -/
theorem started_removed_exactly (config : Config) (start : System) (hstart : Starts start)
    (events : List Event) :
    PrefixRuns.EveryStep (step config) start events (CleansUp config) ↔
      PrefixRuns.EveryStep (step config) start events (GoesOn config) := by
  have hstep : ∀ n event, CleansUp config (PrefixRuns.stateAt (step config) start events n) event ↔
      GoesOn config (PrefixRuns.stateAt (step config) start events n) event := by
    intro n event
    cases event with
    | line app => exact cleansUp_iff ((consistent_run config hstart events n).flags app)
    | _ => exact Iff.rfl
  unfold PrefixRuns.EveryStep
  simp only [hstep]

section Exit

/-- Both scripts at their first line, no flags and no lock files. -/
def unlocked : System :=
  ⟨fun _ => ⟨.rmStarted, true, .none⟩, fun _ => false, fun _ => false, fun _ => false⟩

/-- A server without a broker starts, its process exits, and the script looks for it. -/
def processExits : List Event :=
  [.line .server, .line .server, .line .server, .line .server, .line .server, .line .server,
    .line .server, .processEnds .server true, .line .server]

theorem started_removed_exactly_exit :
    PrefixRuns.EveryStep (step (composeConfig false true)) unlocked processExits
        (CleansUp (composeConfig false true)) ↔
      PrefixRuns.EveryStep (step (composeConfig false true)) unlocked processExits
        (GoesOn (composeConfig false true)) :=
  started_removed_exactly _ unlocked (fun _ => rfl) processExits

/-- The script that finds its process gone ends with its started flag in place. -/
theorem started_left_behind :
    ¬PrefixRuns.EveryStep (step (composeConfig false true)) unlocked processExits
      (CleansUp (composeConfig false true)) := by
  intro hclean
  have hremoved := hclean 8 (.line .server) rfl ⟨by decide, by decide⟩
  exact absurd hremoved (by decide)

end Exit

end SymbolBootstrap.StartScriptCleanup
