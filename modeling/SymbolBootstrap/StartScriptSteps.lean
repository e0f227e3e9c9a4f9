import SymbolBootstrap.StartScript

/-!
What one event can do, said once. An event about one application leaves the other's
script and flags alone (`OnlyOwn`), and does one of seven things to its own (`OwnStep`),
as far as recovery and the launch of the process are concerned.
-/
namespace SymbolBootstrap.StartScriptSteps

open StartScript

section Lines

/-- Lines with the recovery flag touched and recovery not over. -/
def pending : Line → Bool
  | .whileOtherStarted => true
  | .runRecovery => true
  | .recovering => true
  | _ => false

/-- Lines with the other process found gone and recovery not over. -/
def committed : Line → Bool
  | .runRecovery => true
  | .recovering => true
  | _ => false

/-- Lines after the launch of the catapult process: the trap is set right after it, and
stays set. -/
def launched : Line → Bool := trapped

/-- Lines between the removal of the started flag and its touch. -/
def unstarted : Line → Bool
  | .rmStarted => false
  | .startProcess => false
  | .ended => false
  | line => !launched line

end Lines

section Own

variable (config : Config) {s s' : System} {app : App} {event : Event}

theorem other_ne (app : App) : app.other ≠ app := by cases app <;> decide

theorem other_other (app : App) : app.other.other = app := by cases app <;> rfl

@[simp] theorem goto_script (s : System) (app : App) (line : Line) :
    (s.goto app line).script app = { s.script app with line := line } :=
  Function.update_self _ _ _

@[simp] theorem exit_script (s : System) (app : App) :
    (s.exit app).script app = { s.script app with line := .ended, process := .none } :=
  Function.update_self _ _ _

@[simp] theorem setErrexit_script (s : System) (app : App) (errexit : Bool) :
    (s.setErrexit app errexit).script app = { s.script app with errexit := errexit } :=
  Function.update_self _ _ _

@[simp] theorem setProcess_script (s : System) (app : App) (process : ProcessState) :
    (s.setProcess app process).script app = { s.script app with process := process } :=
  Function.update_self _ _ _

@[simp] theorem setStarted_script (s : System) (app : App) (present : Bool) :
    (s.setStarted app present).script = s.script := rfl

@[simp] theorem setRecoveryStarted_script (s : System) (app : App) (present : Bool) :
    (s.setRecoveryStarted app present).script = s.script := rfl

@[simp] theorem setStarted_started (s : System) (app : App) (present : Bool) :
    (s.setStarted app present).started app = present :=
  Function.update_self _ _ _

@[simp] theorem goto_started (s : System) (app : App) (line : Line) :
    (s.goto app line).started = s.started := rfl

@[simp] theorem exit_started (s : System) (app : App) : (s.exit app).started = s.started := rfl

@[simp] theorem setErrexit_started (s : System) (app : App) (errexit : Bool) :
    (s.setErrexit app errexit).started = s.started := rfl

@[simp] theorem setProcess_started (s : System) (app : App) (process : ProcessState) :
    (s.setProcess app process).started = s.started := rfl

@[simp] theorem setRecoveryStarted_started (s : System) (app : App) (present : Bool) :
    (s.setRecoveryStarted app present).started = s.started := rfl

/-- What one event can do to a script and its started flag, as far as recovery and the
launch of the process are concerned. -/
inductive OwnStep (event : Event) (s : System) (app : App) (s' : System) : Prop
  | unchanged (hscript : s'.script app = s.script app) (hstarted : s'.started app = s.started app)
  | elsewhere (hpending : pending (s'.script app).line = false)
      (hline : (s'.script app).line ≠ .startProcess)
      (hprocess : (s'.script app).process = .running → (s.script app).process = .running ∧
        launched (s'.script app).line = true ∧ s'.started app = s.started app)
      (hunstarted : unstarted (s'.script app).line = true → s'.started app = false ∨
        (unstarted (s.script app).line = true ∧ s'.started app = s.started app))
  | touchesRecovery (hevent : event = .line app)
      (hat : (s.script app).line = .touchRecoveryStarted)
      (hscript : s'.script app = { s.script app with line := .whileOtherStarted })
      (hstarted : s'.started app = s.started app)
  | commits (hat : (s.script app).line = .whileOtherStarted)
      (hother : s.started app.other = false)
      (hscript : s'.script app = { s.script app with line := .runRecovery })
      (hstarted : s'.started app = s.started app)
  | recovers (hat : (s.script app).line = .runRecovery)
      (hscript : s'.script app = ⟨.recovering, false, (s.script app).process⟩)
      (hstarted : s'.started app = s.started app)
  | touchesStarted (hevent : event = .line app)
      (hat : (s.script app).line = .touchStarted)
      (hscript : s'.script app = { s.script app with line := .startProcess })
      (hstarted : s'.started app = true)
  | launches (hat : (s.script app).line = .startProcess)
      (hscript : s'.script app = ⟨.checkProcess, (s.script app).errexit, .running⟩)
      (hstarted : s'.started app = s.started app)

theorem OwnStep.of_exit (hscript : (s'.script app).line = .ended)
    (hprocess : (s'.script app).process = .none) : OwnStep event s app s' := by
  refine .elsewhere ?_ ?_ ?_ ?_
  · rw [hscript]
    rfl
  · rw [hscript]
    exact Line.noConfusion
  · intro hrunning
    rw [hprocess] at hrunning
    exact ProcessState.noConfusion hrunning
  · intro hunstarted
    rw [hscript] at hunstarted
    exact Bool.noConfusion hunstarted

theorem not_unstarted_of_launched {line : Line} (h : launched line = true) :
    unstarted line = false := by
  cases line <;> first | rfl | exact Bool.noConfusion h

theorem pending_of_launched {line : Line} (h : launched line = true) : pending line = false := by
  cases line <;> first | rfl | exact Bool.noConfusion h

/-- Going on to another line after the launch. -/
theorem OwnStep.of_launched (line : Line)
    (hscript : s'.script app = { s.script app with line := line })
    (hlaunched : launched line = true) (hstarted : s'.started app = s.started app) :
    OwnStep event s app s' := by
  refine .elsewhere ?_ ?_ ?_ ?_
  · rw [hscript]
    exact pending_of_launched hlaunched
  · rw [hscript]
    intro heq
    change line = .startProcess at heq
    rw [heq] at hlaunched
    exact Bool.noConfusion hlaunched
  · intro hrunning
    rw [hscript] at hrunning ⊢
    exact ⟨hrunning, hlaunched, hstarted⟩
  · intro hunstarted
    rw [hscript] at hunstarted
    change unstarted line = true at hunstarted
    rw [not_unstarted_of_launched hlaunched] at hunstarted
    exact Bool.noConfusion hunstarted

/-- Going on to another line before the launch. -/
theorem OwnStep.of_idle (hidle : ¬ (s.script app).process = .running) (line : Line)
    (hscript : s'.script app = { s.script app with line := line })
    (hpending : pending line = false) (hline : line ≠ .startProcess)
    (hunstarted : unstarted line = true → s'.started app = false ∨
      (unstarted (s.script app).line = true ∧ s'.started app = s.started app)) :
    OwnStep event s app s' := by
  refine .elsewhere ?_ ?_ ?_ ?_
  · rw [hscript]
    exact hpending
  · rw [hscript]
    exact hline
  · intro hrunning
    rw [hscript] at hrunning
    exact absurd hrunning hidle
  · rw [hscript]
    exact hunstarted

theorem orExit_own {failed : Bool} (line : Line) (hlaunched : launched line = true) :
    OwnStep event s app (orExit s app failed line) := by
  unfold orExit
  split
  · exact .of_exit (by simp) (by simp)
  · exact .of_launched line (goto_script s app line) hlaunched rfl

theorem killProcess_own (line : Line) (hlaunched : launched line = true) :
    OwnStep event s app (killProcess s app line) :=
  orExit_own line hlaunched

theorem waitProcess_own (line : Line) (hlaunched : launched line = true) :
    OwnStep event s app (waitProcess s app line) := by
  unfold waitProcess
  split
  · exact .unchanged rfl rfl
  · exact orExit_own line hlaunched
  · exact .of_launched line (goto_script s app line) hlaunched rfl

theorem removeAndExit_own : OwnStep event s app (removeAndExit config s app) := by
  unfold removeAndExit
  split
  · exact .of_exit (by simp) (by simp)
  · exact .of_exit (by simp) (by simp)

/-- The next command of a script, when its process only runs after its launch. -/
theorem lineStep_own (hbegun : (s.script app).process = .running →
    launched (s.script app).line = true) :
    OwnStep (.line app) s app (lineStep config s app) := by
  have hidle : launched (s.script app).line = false → ¬ (s.script app).process = .running := by
    intro hline hrunning
    rw [hbegun hrunning] at hline
    exact Bool.noConfusion hline
  unfold lineStep
  cases hline : (s.script app).line with
  | rmStarted =>
    exact .of_idle (hidle (by rw [hline]; rfl)) .rmRecoveryStarted (by simp) rfl
      Line.noConfusion (fun _ => Or.inl (by simp))
  | rmRecoveryStarted =>
    exact .of_idle (hidle (by rw [hline]; rfl)) .whileOtherRecovery (by simp) rfl
      Line.noConfusion (fun _ => Or.inr ⟨by rw [hline]; rfl, rfl⟩)
  | whileOtherRecovery =>
    by_cases hother : s.recoveryStarted app.other = true
    · simp only [hother, ↓reduceIte]
      exact .unchanged rfl rfl
    · simp only [hother, Bool.false_eq_true, ↓reduceIte]
      exact .of_idle (hidle (by rw [hline]; rfl)) .ifLock (by simp) rfl
        Line.noConfusion (fun _ => Or.inr ⟨by rw [hline]; rfl, rfl⟩)
  | ifLock =>
    by_cases hlock : s.lock app = true
    · simp only [hlock, ↓reduceIte]
      exact .of_idle (hidle (by rw [hline]; rfl)) .touchRecoveryStarted (by simp) rfl
        Line.noConfusion (fun _ => Or.inr ⟨by rw [hline]; rfl, rfl⟩)
    · simp only [hlock, Bool.false_eq_true, ↓reduceIte]
      exact .of_idle (hidle (by rw [hline]; rfl)) .clearRecoveryStarted (by simp) rfl
        Line.noConfusion (fun _ => Or.inr ⟨by rw [hline]; rfl, rfl⟩)
  | touchRecoveryStarted => exact .touchesRecovery rfl hline (by simp) rfl
  | whileOtherStarted =>
    by_cases hother : s.started app.other = true
    · simp only [hother, ↓reduceIte]
      exact .unchanged rfl rfl
    · simp only [hother, Bool.false_eq_true, ↓reduceIte]
      exact .commits hline (by simpa using hother) (by simp) rfl
  | runRecovery => exact .recovers hline (by simp) rfl
  | recovering => exact .unchanged rfl rfl
  | catchRecovery => exact .of_exit (by simp) (by simp)
  | clearRecoveryStarted =>
    by_cases hwait : config.waitForOther app = true
    · simp only [hwait, ↓reduceIte]
      exact .of_idle (hidle (by rw [hline]; rfl)) .untilOtherStarted (by simp) rfl
        Line.noConfusion (fun _ => Or.inr ⟨by rw [hline]; rfl, rfl⟩)
    · simp only [hwait, Bool.false_eq_true, ↓reduceIte]
      exact .of_idle (hidle (by rw [hline]; rfl)) .touchStarted (by simp) rfl
        Line.noConfusion (fun _ => Or.inr ⟨by rw [hline]; rfl, rfl⟩)
  | untilOtherStarted =>
    by_cases hother : s.started app.other = true
    · simp only [hother, ↓reduceIte]
      exact .of_idle (hidle (by rw [hline]; rfl)) .touchStarted (by simp) rfl
        Line.noConfusion (fun _ => Or.inr ⟨by rw [hline]; rfl, rfl⟩)
    · simp only [hother, Bool.false_eq_true, ↓reduceIte]
      exact .unchanged rfl rfl
  | touchStarted => exact .touchesStarted rfl hline (by simp) (by simp)
  | startProcess => exact .launches hline (by simp) (by simp)
  | cleanupKill => exact killProcess_own .cleanupWait rfl
  | cleanupWait => exact waitProcess_own .cleanupRemove rfl
  | cleanupRemove => exact removeAndExit_own config
  | checkProcess =>
    by_cases hrunning : (s.script app).process = .running
    · simp only [hrunning, ↓reduceIte]
      exact .of_launched .checkOtherRecovery (by simp) rfl rfl
    · simp only [hrunning, ↓reduceIte]
      exact orExit_own .exitedWait rfl
  | exitedWait => exact waitProcess_own .exitedRemove rfl
  | exitedRemove => exact removeAndExit_own config
  | checkOtherRecovery =>
    by_cases hother : s.recoveryStarted app.other = true
    · simp only [hother, ↓reduceIte]
      exact .of_launched .yieldKill (by simp) rfl rfl
    · simp only [hother, Bool.false_eq_true, ↓reduceIte]
      exact .of_launched .checkProcess (by simp) rfl rfl
  | yieldKill => exact killProcess_own .yieldWait rfl
  | yieldWait => exact waitProcess_own .yieldRemove rfl
  | yieldRemove => exact removeAndExit_own config
  | ended => exact .unchanged rfl rfl

/-- The application an event is about. -/
def appOf : Event → App
  | .line app => app
  | .recoveryEnds app _ => app
  | .processEnds app _ => app
  | .signal app => app
  | .crash app => app
  | .restart app => app
  | .lockChanges app _ => app

/-- What an event can do to the script it is about. -/
theorem step_own (event : Event)
    (hbegun : (s.script (appOf event)).process = .running →
      launched (s.script (appOf event)).line = true) :
    OwnStep event s (appOf event) (step config s event) := by
  cases event with
  | line app => exact lineStep_own config hbegun
  | recoveryEnds app success =>
    by_cases hline : (s.script app).line = .recovering
    · have hidle : ¬ (s.script app).process = .running := by
        intro hrunning
        have hlaunched : launched (s.script app).line = true := hbegun hrunning
        rw [hline] at hlaunched
        exact Bool.noConfusion hlaunched
      have hbefore : unstarted (s.script app).line = true := by
        rw [hline]
        rfl
      simp only [step, hline, ↓reduceIte]
      cases success with
      | true =>
        exact .of_idle hidle .clearRecoveryStarted (goto_script _ _ _) rfl Line.noConfusion
          (fun _ => Or.inr ⟨hbefore, rfl⟩)
      | false =>
        exact .of_idle hidle .catchRecovery (goto_script _ _ _) rfl Line.noConfusion
          (fun _ => Or.inr ⟨hbefore, rfl⟩)
    · simp only [step, hline, ↓reduceIte]
      exact .unchanged rfl rfl
  | processEnds app success =>
    by_cases hrunning : (s.script app).process = .running
    · have hlaunched : launched (s.script app).line = true := hbegun hrunning
      simp only [step, hrunning, ↓reduceIte]
      refine .elsewhere ?_ ?_ ?_ ?_
      · show pending ((s.setProcess app (.exited success)).script app).line = false
        rw [setProcess_script]
        exact pending_of_launched hlaunched
      · show ((s.setProcess app (.exited success)).script app).line ≠ .startProcess
        rw [setProcess_script]
        intro hline
        change (s.script app).line = .startProcess at hline
        rw [hline] at hlaunched
        exact Bool.noConfusion hlaunched
      · show ((s.setProcess app (.exited success)).script app).process = .running → _
        rw [setProcess_script]
        exact ProcessState.noConfusion
      · show unstarted ((s.setProcess app (.exited success)).script app).line = true → _
        rw [setProcess_script]
        exact fun hunstarted => Or.inr ⟨hunstarted, rfl⟩
    · simp only [step, hrunning, ↓reduceIte]
      exact .unchanged rfl rfl
  | signal app =>
    by_cases htrapped : trapped (s.script app).line = true
    · simp only [step, htrapped, ↓reduceIte]
      exact .of_launched .cleanupKill (goto_script _ _ _) rfl rfl
    · simp only [step, htrapped, Bool.false_eq_true, ↓reduceIte]
      exact .unchanged rfl rfl
  | crash app =>
    refine .of_exit ?_ ?_
    · show ((s.exit app).script app).line = .ended
      rw [exit_script]
    · show ((s.exit app).script app).process = .none
      rw [exit_script]
  | restart app =>
    by_cases hline : (s.script app).line = .ended
    · have hidle : ¬ (s.script app).process = .running := by
        intro hrunning
        have hlaunched : launched (s.script app).line = true := hbegun hrunning
        rw [hline] at hlaunched
        exact Bool.noConfusion hlaunched
      simp only [step, hline, ↓reduceIte]
      refine .elsewhere ?_ ?_ ?_ ?_
      · simp [appOf, pending]
      · simp [appOf]
      · intro hrunning
        simp only [appOf, goto_script, setErrexit_script] at hrunning
        exact absurd hrunning hidle
      · intro hunstarted
        simp [appOf, unstarted] at hunstarted
    · simp only [step, hline, ↓reduceIte]
      exact .unchanged rfl rfl
  | lockChanges app present => exact .unchanged rfl rfl

end Own

section Other

variable (config : Config)

/-- Nothing but the script, started flag, recovery flag and lock of one application
differs between the two states. -/
structure OnlyOwn (app : App) (s s' : System) : Prop where
  script : ∀ other, other ≠ app → s'.script other = s.script other
  started : ∀ other, other ≠ app → s'.started other = s.started other
  recoveryStarted : ∀ other, other ≠ app → s'.recoveryStarted other = s.recoveryStarted other

theorem OnlyOwn.refl (app : App) (s : System) : OnlyOwn app s s :=
  ⟨fun _ _ => rfl, fun _ _ => rfl, fun _ _ => rfl⟩

theorem OnlyOwn.trans {app : App} {s s' s'' : System} (h : OnlyOwn app s s')
    (h' : OnlyOwn app s' s'') : OnlyOwn app s s'' where
  script := fun other hne => (h'.script other hne).trans (h.script other hne)
  started := fun other hne => (h'.started other hne).trans (h.started other hne)
  recoveryStarted := fun other hne =>
    (h'.recoveryStarted other hne).trans (h.recoveryStarted other hne)

variable (s : System) (app : App)

theorem goto_onlyOwn (line : Line) : OnlyOwn app s (s.goto app line) :=
  ⟨fun _ hne => Function.update_of_ne hne _ _, fun _ _ => rfl, fun _ _ => rfl⟩

theorem exit_onlyOwn : OnlyOwn app s (s.exit app) :=
  ⟨fun _ hne => Function.update_of_ne hne _ _, fun _ _ => rfl, fun _ _ => rfl⟩

theorem setProcess_onlyOwn (process : ProcessState) : OnlyOwn app s (s.setProcess app process) :=
  ⟨fun _ hne => Function.update_of_ne hne _ _, fun _ _ => rfl, fun _ _ => rfl⟩

theorem setErrexit_onlyOwn (errexit : Bool) : OnlyOwn app s (s.setErrexit app errexit) :=
  ⟨fun _ hne => Function.update_of_ne hne _ _, fun _ _ => rfl, fun _ _ => rfl⟩

theorem setStarted_onlyOwn (present : Bool) : OnlyOwn app s (s.setStarted app present) :=
  ⟨fun _ _ => rfl, fun _ hne => Function.update_of_ne hne _ _, fun _ _ => rfl⟩

theorem setRecoveryStarted_onlyOwn (present : Bool) :
    OnlyOwn app s (s.setRecoveryStarted app present) :=
  ⟨fun _ _ => rfl, fun _ _ => rfl, fun _ hne => Function.update_of_ne hne _ _⟩

theorem setLock_onlyOwn (present : Bool) : OnlyOwn app s (s.setLock app present) :=
  ⟨fun _ _ => rfl, fun _ _ => rfl, fun _ _ => rfl⟩

theorem orExit_onlyOwn (failed : Bool) (next : Line) :
    OnlyOwn app s (orExit s app failed next) := by
  unfold orExit
  split
  · exact exit_onlyOwn s app
  · exact goto_onlyOwn s app next

theorem waitProcess_onlyOwn (next : Line) : OnlyOwn app s (waitProcess s app next) := by
  unfold waitProcess
  split
  · exact OnlyOwn.refl app s
  · exact orExit_onlyOwn s app _ next
  · exact goto_onlyOwn s app next

theorem removeAndExit_onlyOwn : OnlyOwn app s (removeAndExit config s app) := by
  unfold removeAndExit
  split
  · exact (setStarted_onlyOwn s app false).trans (exit_onlyOwn _ app)
  · exact exit_onlyOwn s app

theorem lineStep_onlyOwn : OnlyOwn app s (lineStep config s app) := by
  unfold lineStep
  split
  · exact (setStarted_onlyOwn s app false).trans (goto_onlyOwn _ app _)
  · exact (setRecoveryStarted_onlyOwn s app false).trans (goto_onlyOwn _ app _)
  · split
    · exact OnlyOwn.refl app s
    · exact goto_onlyOwn s app _
  · split
    · exact goto_onlyOwn s app _
    · exact goto_onlyOwn s app _
  · exact (setRecoveryStarted_onlyOwn s app true).trans (goto_onlyOwn _ app _)
  · split
    · exact OnlyOwn.refl app s
    · exact goto_onlyOwn s app _
  · exact (setErrexit_onlyOwn s app false).trans (goto_onlyOwn _ app _)
  · exact OnlyOwn.refl app s
  · exact (setRecoveryStarted_onlyOwn s app false).trans (exit_onlyOwn _ app)
  · exact (setRecoveryStarted_onlyOwn s app false).trans (goto_onlyOwn _ app _)
  · split
    · exact goto_onlyOwn s app _
    · exact OnlyOwn.refl app s
  · exact (setStarted_onlyOwn s app true).trans (goto_onlyOwn _ app _)
  · exact (setProcess_onlyOwn s app .running).trans (goto_onlyOwn _ app _)
  · exact orExit_onlyOwn s app _ _
  · exact waitProcess_onlyOwn s app _
  · exact removeAndExit_onlyOwn config s app
  · split
    · exact goto_onlyOwn s app _
    · exact orExit_onlyOwn s app _ _
  · exact waitProcess_onlyOwn s app _
  · exact removeAndExit_onlyOwn config s app
  · split
    · exact goto_onlyOwn s app _
    · exact goto_onlyOwn s app _
  · exact orExit_onlyOwn s app _ _
  · exact waitProcess_onlyOwn s app _
  · exact removeAndExit_onlyOwn config s app
  · exact OnlyOwn.refl app s

/-- An event about one application leaves the other's script and flags alone. -/
theorem step_onlyOwn (event : Event) : OnlyOwn (appOf event) s (step config s event) := by
  cases event with
  | line app => exact lineStep_onlyOwn config s app
  | recoveryEnds app success =>
    rw [step]
    split
    · exact goto_onlyOwn s app _
    · exact OnlyOwn.refl app s
  | processEnds app success =>
    rw [step]
    split
    · exact setProcess_onlyOwn s app _
    · exact OnlyOwn.refl app s
  | signal app =>
    rw [step]
    split
    · exact goto_onlyOwn s app _
    · exact OnlyOwn.refl app s
  | crash app => exact exit_onlyOwn s app
  | restart app =>
    rw [step]
    split
    · exact (setErrexit_onlyOwn s app true).trans (goto_onlyOwn _ app _)
    · exact OnlyOwn.refl app s
  | lockChanges app present => exact setLock_onlyOwn s app present

end Other
end SymbolBootstrap.StartScriptSteps
