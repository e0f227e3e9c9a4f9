import SymbolBootstrap.Library.PrefixRuns
import SymbolBootstrap.StartScriptSteps

/-!
What the flags of a script say about the line it is at, in every run. At each wait loop the
script's own flags are gone but for the recovery flag of one that waits to recover, which is
all that the other one can wait for: so the two never wait for each other.
-/
namespace SymbolBootstrap.StartScriptFlags

open Library StartScript StartScriptSteps

/-- What the started flag of a script is at a line, where the script has decided on it. -/
def startedAt : Line → Option Bool
  | .rmStarted => none
  | .startProcess => some true
  | .ended => none
  | line => some (launched line)

/-- What the recovery flag of a script is at a line, where the script has decided on it. -/
def recoveryAt : Line → Option Bool
  | .rmStarted => none
  | .rmRecoveryStarted => none
  | .whileOtherStarted => some true
  | .runRecovery => some true
  | .recovering => some true
  | .catchRecovery => some true
  | .clearRecoveryStarted => none
  | .ended => none
  | _ => some false

/-- The flags of an application are as its script has left them. -/
structure FlagsFollow (s : System) (app : App) : Prop where
  started : ∀ present, startedAt (s.script app).line = some present → s.started app = present
  recoveryStarted : ∀ present, recoveryAt (s.script app).line = some present →
    s.recoveryStarted app = present

section Steps

variable {config : Config} {s s' : System} {app : App}

@[simp] theorem setRecoveryStarted_recoveryStarted (s : System) (app : App) (present : Bool) :
    (s.setRecoveryStarted app present).recoveryStarted app = present :=
  Function.update_self _ _ _

@[simp] theorem goto_recoveryStarted (s : System) (app : App) (line : Line) :
    (s.goto app line).recoveryStarted = s.recoveryStarted := rfl

/-- A flag that is decided on before keeps its value while nothing touches or removes it. -/
theorem FlagsFollow.of_line (h : FlagsFollow s app) (line' : Line) {line : Line}
    (hline : (s.script app).line = line) (hline' : (s'.script app).line = line')
    (hstarted : startedAt line' = none ∨
      (startedAt line' = startedAt line ∧ s'.started app = s.started app) ∨
      startedAt line' = some (s'.started app))
    (hrecovery : recoveryAt line' = none ∨
      (recoveryAt line' = recoveryAt line ∧ s'.recoveryStarted app = s.recoveryStarted app) ∨
      recoveryAt line' = some (s'.recoveryStarted app)) : FlagsFollow s' app := by
  constructor
  · intro present hat
    rw [hline'] at hat
    rcases hstarted with hnone | ⟨hsame, hkept⟩ | hknown
    · rw [hnone] at hat
      cases hat
    · rw [hkept]
      exact h.started present (by rw [hline, ← hsame, hat])
    · rw [hknown] at hat
      exact Option.some.inj hat
  · intro present hat
    rw [hline'] at hat
    rcases hrecovery with hnone | ⟨hsame, hkept⟩ | hknown
    · rw [hnone] at hat
      cases hat
    · rw [hkept]
      exact h.recoveryStarted present (by rw [hline, ← hsame, hat])
    · rw [hknown] at hat
      exact Option.some.inj hat

theorem FlagsFollow.goto (h : FlagsFollow s app) (line' : Line) {line : Line}
    (hline : (s.script app).line = line)
    (hstarted : startedAt line' = none ∨ startedAt line' = startedAt line)
    (hrecovery : recoveryAt line' = none ∨ recoveryAt line' = recoveryAt line) :
    FlagsFollow (s.goto app line') app :=
  h.of_line line' hline (by simp) (hstarted.imp_right fun hsame => .inl ⟨hsame, rfl⟩)
    (hrecovery.imp_right fun hsame => .inl ⟨hsame, rfl⟩)

theorem flagsFollow_of_ended (hline : (s.script app).line = .ended) : FlagsFollow s app := by
  constructor
  · intro present hat
    rw [hline] at hat
    cases hat
  · intro present hat
    rw [hline] at hat
    cases hat

theorem FlagsFollow.orExit (h : FlagsFollow s app) (line' : Line) {line : Line}
    (hline : (s.script app).line = line) (failed : Bool)
    (hstarted : startedAt line' = startedAt line) (hrecovery : recoveryAt line' = recoveryAt line) :
    FlagsFollow (orExit s app failed line') app := by
  unfold StartScript.orExit
  split
  · exact flagsFollow_of_ended (by simp)
  · exact h.goto line' hline (.inr hstarted) (.inr hrecovery)

theorem FlagsFollow.waitProcess (h : FlagsFollow s app) (line' : Line) {line : Line}
    (hline : (s.script app).line = line) (hstarted : startedAt line' = startedAt line)
    (hrecovery : recoveryAt line' = recoveryAt line) :
    FlagsFollow (waitProcess s app line') app := by
  unfold StartScript.waitProcess
  split
  · exact h
  · exact h.orExit line' hline _ hstarted hrecovery
  · exact h.goto line' hline (.inr hstarted) (.inr hrecovery)

theorem flagsFollow_removeAndExit : FlagsFollow (removeAndExit config s app) app := by
  unfold removeAndExit
  split
  · exact flagsFollow_of_ended (by simp)
  · exact flagsFollow_of_ended (by simp)

/-- The next command of a script touches and removes the flags as its line says. -/
theorem FlagsFollow.lineStep (h : FlagsFollow s app) : FlagsFollow (lineStep config s app) app := by
  unfold StartScript.lineStep
  cases hline : (s.script app).line with
  | rmStarted =>
    exact h.of_line .rmRecoveryStarted hline (by simp) (.inr (.inr (by simp; rfl))) (.inl rfl)
  | rmRecoveryStarted =>
    exact h.of_line .whileOtherRecovery hline (by simp) (.inr (.inl ⟨rfl, rfl⟩))
      (.inr (.inr (by simp; rfl)))
  | whileOtherRecovery =>
    by_cases hother : s.recoveryStarted app.other = true
    · simpa only [hother, if_true] using h
    · simpa only [hother, Bool.false_eq_true, if_false] using
        h.goto .ifLock hline (.inr rfl) (.inr rfl)
  | ifLock =>
    by_cases hlock : s.lock app = true
    · simpa only [hlock, if_true] using h.goto .touchRecoveryStarted hline (.inr rfl) (.inr rfl)
    · simpa only [hlock, Bool.false_eq_true, if_false] using
        h.goto .clearRecoveryStarted hline (.inr rfl) (.inl rfl)
  | touchRecoveryStarted =>
    exact h.of_line .whileOtherStarted hline (by simp) (.inr (.inl ⟨rfl, rfl⟩))
      (.inr (.inr (by simp; rfl)))
  | whileOtherStarted =>
    by_cases hother : s.started app.other = true
    · simpa only [hother, if_true] using h
    · simpa only [hother, Bool.false_eq_true, if_false] using
        h.goto .runRecovery hline (.inr rfl) (.inr rfl)
  | runRecovery =>
    exact h.of_line .recovering hline (by simp) (.inr (.inl ⟨rfl, rfl⟩)) (.inr (.inl ⟨rfl, rfl⟩))
  | recovering => exact h
  | catchRecovery => exact flagsFollow_of_ended (by simp)
  | clearRecoveryStarted =>
    by_cases hwait : config.waitForOther app = true
    · simp only [hwait, if_true]
      exact h.of_line .untilOtherStarted hline (by simp) (.inr (.inl ⟨rfl, rfl⟩))
        (.inr (.inr (by simp; rfl)))
    · simp only [hwait, Bool.false_eq_true, if_false]
      exact h.of_line .touchStarted hline (by simp) (.inr (.inl ⟨rfl, rfl⟩))
        (.inr (.inr (by simp; rfl)))
  | untilOtherStarted =>
    by_cases hother : s.started app.other = true
    · simpa only [hother, if_true] using h.goto .touchStarted hline (.inr rfl) (.inr rfl)
    · simpa only [hother, Bool.false_eq_true, if_false] using h
  | touchStarted =>
    exact h.of_line .startProcess hline (by simp) (.inr (.inr (by simp; rfl)))
      (.inr (.inl ⟨rfl, rfl⟩))
  | startProcess =>
    exact h.of_line .checkProcess hline (by simp) (.inr (.inl ⟨rfl, rfl⟩)) (.inr (.inl ⟨rfl, rfl⟩))
  | cleanupKill => exact h.orExit .cleanupWait hline _ rfl rfl
  | cleanupWait => exact h.waitProcess .cleanupRemove hline rfl rfl
  | cleanupRemove => exact flagsFollow_removeAndExit
  | checkProcess =>
    by_cases hrunning : (s.script app).process = .running
    · simpa only [hrunning, if_true] using h.goto .checkOtherRecovery hline (.inr rfl) (.inr rfl)
    · simpa only [hrunning, if_false] using h.orExit .exitedWait hline true rfl rfl
  | exitedWait => exact h.waitProcess .exitedRemove hline rfl rfl
  | exitedRemove => exact flagsFollow_removeAndExit
  | checkOtherRecovery =>
    by_cases hother : s.recoveryStarted app.other = true
    · simpa only [hother, if_true] using h.goto .yieldKill hline (.inr rfl) (.inr rfl)
    · simpa only [hother, Bool.false_eq_true, if_false] using
        h.goto .checkProcess hline (.inr rfl) (.inr rfl)
  | yieldKill => exact h.orExit .yieldWait hline _ rfl rfl
  | yieldWait => exact h.waitProcess .yieldRemove hline rfl rfl
  | yieldRemove => exact flagsFollow_removeAndExit
  | ended => exact h

theorem FlagsFollow.of_same (h : FlagsFollow s app)
    (hline : (s'.script app).line = (s.script app).line)
    (hstarted : s'.started app = s.started app)
    (hrecovery : s'.recoveryStarted app = s.recoveryStarted app) : FlagsFollow s' app :=
  h.of_line _ rfl hline (.inr (.inl ⟨rfl, hstarted⟩)) (.inr (.inl ⟨rfl, hrecovery⟩))

theorem flags_of_trapped {line : Line} (h : trapped line = true) :
    startedAt line = some true ∧ recoveryAt line = some false := by
  cases line <;> first | exact Bool.noConfusion h | exact ⟨rfl, rfl⟩

/-- An event keeps the flags of the application it is about in line with its script. -/
theorem FlagsFollow.own_step (event : Event) (h : FlagsFollow s (appOf event)) :
    FlagsFollow (step config s event) (appOf event) := by
  cases event with
  | line app => exact h.lineStep
  | recoveryEnds app success =>
    change FlagsFollow s app at h
    change FlagsFollow (if _ then _ else _) app
    by_cases hline : (s.script app).line = .recovering
    · rw [if_pos hline]
      cases success with
      | true => exact h.goto .clearRecoveryStarted hline (.inr rfl) (.inl rfl)
      | false => exact h.goto .catchRecovery hline (.inr rfl) (.inr rfl)
    · rw [if_neg hline]
      exact h
  | processEnds app success =>
    change FlagsFollow s app at h
    change FlagsFollow (if _ then _ else _) app
    split
    · exact h.of_same (by simp) rfl rfl
    · exact h
  | signal app =>
    change FlagsFollow s app at h
    change FlagsFollow (if _ then _ else _) app
    by_cases htrapped : trapped (s.script app).line = true
    · rw [if_pos htrapped]
      obtain ⟨hstarted, hrecovery⟩ := flags_of_trapped htrapped
      exact h.goto .cleanupKill rfl (.inr hstarted.symm) (.inr hrecovery.symm)
    · rw [if_neg htrapped]
      exact h
  | crash app => exact flagsFollow_of_ended (by simp [StartScript.step, appOf])
  | restart app =>
    change FlagsFollow s app at h
    change FlagsFollow (if _ then _ else _) app
    by_cases hline : (s.script app).line = .ended
    · rw [if_pos hline]
      exact h.of_line .rmStarted hline (by simp) (.inl rfl) (.inl rfl)
    · rw [if_neg hline]
      exact h
  | lockChanges app present => exact h.of_same rfl rfl rfl

/-- Every step keeps the flags of both applications in line with their scripts. -/
theorem flagsFollow_step (h : ∀ app, FlagsFollow s app) (event : Event) (app : App) :
    FlagsFollow (step config s event) app := by
  by_cases happ : app = appOf event
  · rw [happ]
    exact (h _).own_step event
  · have honly := step_onlyOwn config s event
    exact (h app).of_same (by rw [honly.script app happ]) (honly.started app happ)
      (honly.recoveryStarted app happ)

theorem flagsFollow_start (h : Starts s) (app : App) : FlagsFollow s app := by
  constructor
  · intro present hat
    rw [h app] at hat
    cases hat
  · intro present hat
    rw [h app] at hat
    cases hat

end Steps

section Waiting

variable {config : Config} {s : System} {app : App}

theorem orExit_ne {failed : Bool} {line line' : Line} (hended : line' ≠ .ended)
    (hline : line ≠ line') : ((orExit s app failed line).script app).line ≠ line' := by
  unfold orExit
  split
  · simpa using hended.symm
  · simpa using hline

theorem waitProcess_ne {line line' : Line} (hat : (s.script app).line ≠ line')
    (hended : line' ≠ .ended) (hline : line ≠ line') :
    ((waitProcess s app line).script app).line ≠ line' := by
  unfold waitProcess
  split
  · exact hat
  · exact orExit_ne hended hline
  · simpa using hline

theorem removeAndExit_line : ((removeAndExit config s app).script app).line = .ended := by
  unfold removeAndExit
  split
  · simp
  · simp

/-- Only a script that is told to waits for the other one to start. -/
theorem lineStep_untilOtherStarted
    (h : ((lineStep config s app).script app).line = .untilOtherStarted)
    (hat : (s.script app).line ≠ .untilOtherStarted) : config.waitForOther app = true := by
  have hremove : ((removeAndExit config s app).script app).line ≠ .untilOtherStarted := by
    rw [removeAndExit_line]
    exact Line.noConfusion
  unfold lineStep at h
  cases hline : (s.script app).line with
  | clearRecoveryStarted =>
    by_contra hwait
    simp [hline, hwait] at h
  | untilOtherStarted => exact absurd hline hat
  | cleanupKill =>
    rw [hline] at h
    exact absurd h (orExit_ne Line.noConfusion Line.noConfusion)
  | cleanupWait =>
    rw [hline] at h
    exact absurd h (waitProcess_ne hat Line.noConfusion Line.noConfusion)
  | cleanupRemove =>
    rw [hline] at h
    exact absurd h hremove
  | exitedWait =>
    rw [hline] at h
    exact absurd h (waitProcess_ne hat Line.noConfusion Line.noConfusion)
  | exitedRemove =>
    rw [hline] at h
    exact absurd h hremove
  | yieldKill =>
    rw [hline] at h
    exact absurd h (orExit_ne Line.noConfusion Line.noConfusion)
  | yieldWait =>
    rw [hline] at h
    exact absurd h (waitProcess_ne hat Line.noConfusion Line.noConfusion)
  | yieldRemove =>
    rw [hline] at h
    exact absurd h hremove
  | checkProcess =>
    simp only [hline] at h
    split at h
    · simp at h
    · exact absurd h (orExit_ne Line.noConfusion Line.noConfusion)
  | _ =>
    simp only [hline] at h
    try split at h
    all_goals simp [hline] at h

theorem step_untilOtherStarted {event : Event}
    (h : ((step config s event).script app).line = .untilOtherStarted) :
    (s.script app).line = .untilOtherStarted ∨ config.waitForOther app = true := by
  by_cases happ : app = appOf event
  · refine or_iff_not_imp_left.mpr ?_
    intro hat
    cases event with
    | line _ =>
      obtain rfl : app = _ := happ
      exact lineStep_untilOtherStarted h hat
    | recoveryEnds _ success =>
      obtain rfl : app = _ := happ
      unfold step at h
      simp only at h
      split at h
      · cases success <;> simp at h
      · exact absurd h hat
    | processEnds _ success =>
      obtain rfl : app = _ := happ
      unfold step at h
      simp only at h
      split at h
      · exact absurd (by simpa using h) hat
      · exact absurd h hat
    | signal _ =>
      obtain rfl : app = _ := happ
      unfold step at h
      simp only at h
      split at h
      · simp at h
      · exact absurd h hat
    | crash _ =>
      obtain rfl : app = _ := happ
      simp [step] at h
    | restart _ =>
      obtain rfl : app = _ := happ
      unfold step at h
      simp only at h
      split at h
      · simp at h
      · exact absurd h hat
    | lockChanges _ present => exact absurd h hat
  · rw [(step_onlyOwn config s event).script app happ] at h
    exact .inl h

end Waiting

/-- What holds in every run: the flags are as the scripts have left them, and only a script
that is told to waits for the other one to start. -/
structure Consistent (config : Config) (s : System) : Prop where
  flags : ∀ app, FlagsFollow s app
  waits : ∀ app, (s.script app).line = .untilOtherStarted → config.waitForOther app = true

theorem consistent_start {config : Config} {s : System} (h : Starts s) : Consistent config s := by
  refine ⟨flagsFollow_start h, ?_⟩
  intro app hline
  rw [h app] at hline
  cases hline

theorem Consistent.step {config : Config} {s : System} (h : Consistent config s) (event : Event) :
    Consistent config (step config s event) := by
  refine ⟨flagsFollow_step h.flags event, ?_⟩
  intro app hline
  rcases step_untilOtherStarted hline with hbefore | hwait
  · exact h.waits app hbefore
  · exact hwait

theorem consistent_run (config : Config) {start : System} (hstart : Starts start)
    (events : List Event) (n : ℕ) :
    Consistent config (PrefixRuns.stateAt (step config) start events n) := by
  have hany : PrefixRuns.EveryStep (StartScript.step config) start events (fun _ _ => True) :=
    fun _ _ _ => True.intro
  exact PrefixRuns.invariant_of_everyStep (StartScript.step config) start events
    (consistent_start hstart) (fun _ event _ h _ => h.step event) hany n

section Deadlock

variable {s : System} {app : App}

/-- The script is in a wait loop, and stays there as long as the flags do. -/
def Blocked (s : System) (app : App) : Prop :=
  ((s.script app).line = .whileOtherRecovery ∧ s.recoveryStarted app.other = true) ∨
    ((s.script app).line = .whileOtherStarted ∧ s.started app.other = true) ∨
    ((s.script app).line = .untilOtherStarted ∧ s.started app.other = false)

/-- A script that waits has no started flag, and a recovery flag only where it is to recover. -/
theorem Blocked.own_flags (h : Blocked s app) (hflags : FlagsFollow s app) :
    s.started app = false ∧
      (s.recoveryStarted app = true → (s.script app).line = .whileOtherStarted) := by
  rcases h with ⟨hline, -⟩ | ⟨hline, -⟩ | ⟨hline, -⟩
  · have hrecovery := hflags.recoveryStarted false (by rw [hline]; rfl)
    exact ⟨hflags.started false (by rw [hline]; rfl), by simp [hrecovery]⟩
  · exact ⟨hflags.started false (by rw [hline]; rfl), fun _ => hline⟩
  · have hrecovery := hflags.recoveryStarted false (by rw [hline]; rfl)
    exact ⟨hflags.started false (by rw [hline]; rfl), by simp [hrecovery]⟩

/-- Next to a script that waits, the other one can only wait for it to start. -/
theorem Blocked.next_to_blocked (h : Blocked s app) (hother : Blocked s app.other)
    (hflags : ∀ app, FlagsFollow s app) : (s.script app).line = .untilOtherStarted := by
  obtain ⟨hstarted, hrecovery⟩ := hother.own_flags (hflags app.other)
  rcases h with ⟨hline, hflag⟩ | ⟨-, hflag⟩ | ⟨hline, -⟩
  · -- the other one is to recover, and waits for a started flag that is gone
    have hownStarted := hflags app |>.started false (by rw [hline]; rfl)
    rcases hother with ⟨hat, -⟩ | ⟨-, hflag'⟩ | ⟨hat, -⟩
    · rw [hrecovery hflag] at hat
      cases hat
    · rw [other_other, hownStarted] at hflag'
      cases hflag'
    · rw [hrecovery hflag] at hat
      cases hat
  · rw [hstarted] at hflag
    cases hflag
  · exact hline

end Deadlock

/-- The configuration that docker-compose starts the scripts with: only a server waits. -/
def composeConfig (hasBroker dataDirectoryIsData : Bool) : Config :=
  ⟨fun app => decide (app = .server) && hasBroker, dataDirectoryIsData⟩

/-- In no state of a run both scripts are in a wait loop that they cannot leave. -/
theorem never_deadlocked (hasBroker dataDirectoryIsData : Bool) (start : System)
    (hstart : Starts start) (events : List Event) (n : ℕ) :
    ¬∀ app, Blocked (PrefixRuns.stateAt
      (step (composeConfig hasBroker dataDirectoryIsData)) start events n) app := by
  intro hblocked
  have hconsistent :=
    consistent_run (composeConfig hasBroker dataDirectoryIsData) hstart events n
  have hline := (hblocked .broker).next_to_blocked (hblocked .server) hconsistent.flags
  have hwait := hconsistent.waits .broker hline
  exact absurd hwait (by simp [composeConfig])

/-- Both scripts found a recovery flag that an earlier run has left, and neither waits. -/
theorem never_deadlocked_leftovers :
    ¬∀ app, Blocked (PrefixRuns.stateAt (step (composeConfig true true))
      ⟨fun _ => ⟨.rmStarted, true, .none⟩, fun _ => true, fun _ => true, fun _ => true⟩
      [.line .server, .line .server, .line .server, .line .broker, .line .broker] 5) app :=
  never_deadlocked true true _ (fun _ => rfl) _ 5

end SymbolBootstrap.StartScriptFlags
