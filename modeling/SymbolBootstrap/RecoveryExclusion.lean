import SymbolBootstrap.Library.PrefixRuns
import SymbolBootstrap.StartScriptSteps

/-!
When the recovery of one application runs alone. Each script looks at the other's flags
before it touches its own, and acts on what it saw: two scripts can both find no
recovery flag and both recover, and a script that found none can start while the other
recovers. The exclusion holds in every run without those two touches, and each of them
can be followed by events that break it.
-/
namespace SymbolBootstrap.RecoveryExclusion

open Library StartScript StartScriptSteps

/-- No recovery runs next to the other application's process or recovery. -/
def Exclusive (s : System) : Prop :=
  ∀ app, recoveryRunning s app →
    ¬ processRunning s app.other ∧ ¬ recoveryRunning s app.other

/-- The catapult process runs or is about to be launched. -/
def Launching (script : Script) : Prop :=
  script.line = .startProcess ∨ script.process = .running

/-- A script touches its recovery flag only while the other is not between its own such
touch and the end of its recovery, and its started flag only while the other has not
gone on to recovery. -/
def TouchesInTime (s : System) : Event → Prop
  | .line app =>
      ((s.script app).line = .touchRecoveryStarted →
        pending (s.script app.other).line = false) ∧
      ((s.script app).line = .touchStarted → committed (s.script app.other).line = false)
  | _ => True

section Safety

variable {config : Config} {s s' : System} {event : Event} {app : App}

theorem pending_of_ownStep (h : OwnStep event s app s')
    (hpending : pending (s'.script app).line = true) :
    pending (s.script app).line = true ∨
      (event = .line app ∧ (s.script app).line = .touchRecoveryStarted) := by
  cases h with
  | unchanged hscript _ =>
    rw [hscript] at hpending
    exact Or.inl hpending
  | elsewhere hnot _ _ _ =>
    rw [hnot] at hpending
    exact Bool.noConfusion hpending
  | touchesRecovery hevent hat _ _ => exact Or.inr ⟨hevent, hat⟩
  | commits hat _ _ _ =>
    rw [hat]
    exact Or.inl rfl
  | recovers hat _ _ =>
    rw [hat]
    exact Or.inl rfl
  | touchesStarted _ _ hscript _ =>
    rw [hscript] at hpending
    exact Bool.noConfusion hpending
  | launches _ hscript _ =>
    rw [hscript] at hpending
    exact Bool.noConfusion hpending

theorem pending_of_committed {line : Line} (h : committed line = true) : pending line = true := by
  cases line <;> first | rfl | exact Bool.noConfusion h

theorem committed_of_ownStep (h : OwnStep event s app s')
    (hcommitted : committed (s'.script app).line = true) :
    committed (s.script app).line = true ∨ s.started app.other = false := by
  cases h with
  | unchanged hscript _ =>
    rw [hscript] at hcommitted
    exact Or.inl hcommitted
  | elsewhere hnot _ _ _ =>
    rw [pending_of_committed hcommitted] at hnot
    exact Bool.noConfusion hnot
  | touchesRecovery _ _ hscript _ =>
    rw [hscript] at hcommitted
    exact Bool.noConfusion hcommitted
  | commits _ hother _ _ => exact Or.inr hother
  | recovers hat _ _ =>
    rw [hat]
    exact Or.inl rfl
  | touchesStarted _ _ hscript _ =>
    rw [hscript] at hcommitted
    exact Bool.noConfusion hcommitted
  | launches _ hscript _ =>
    rw [hscript] at hcommitted
    exact Bool.noConfusion hcommitted

/-- The process of a script only runs after its launch. -/
def Begun (script : Script) : Prop := script.process = .running → launched script.line = true

theorem not_running_at {line : Line} (h : Begun (s.script app)) (hat : (s.script app).line = line)
    (hline : launched line = false) : ¬ (s.script app).process = .running := by
  intro hrunning
  have hlaunched := h hrunning
  rw [hat, hline] at hlaunched
  exact Bool.noConfusion hlaunched

theorem begun_of_ownStep (h : OwnStep event s app s') (hbegun : Begun (s.script app)) :
    Begun (s'.script app) := by
  intro hrunning
  cases h with
  | unchanged hscript _ =>
    rw [hscript] at hrunning ⊢
    exact hbegun hrunning
  | elsewhere _ _ hprocess _ => exact (hprocess hrunning).2.1
  | touchesRecovery _ hat hscript _ =>
    rw [hscript] at hrunning
    exact absurd hrunning (not_running_at hbegun hat rfl)
  | commits hat _ hscript _ =>
    rw [hscript] at hrunning
    exact absurd hrunning (not_running_at hbegun hat rfl)
  | recovers hat hscript _ =>
    rw [hscript] at hrunning
    exact absurd hrunning (not_running_at hbegun hat rfl)
  | touchesStarted _ hat hscript _ =>
    rw [hscript] at hrunning
    exact absurd hrunning (not_running_at hbegun hat rfl)
  | launches _ hscript _ =>
    rw [hscript]
    rfl

/-- A script launches its process only after it has touched its started flag, and keeps
the flag while the process runs. -/
theorem launching_of_ownStep (h : OwnStep event s app s') (hbegun : Begun (s.script app))
    (hlaunching : Launching (s'.script app)) :
    (Launching (s.script app) ∧ s'.started app = s.started app) ∨
      (event = .line app ∧ (s.script app).line = .touchStarted ∧ s'.started app = true) := by
  cases h with
  | unchanged hscript hstarted =>
    rw [hscript] at hlaunching
    exact Or.inl ⟨hlaunching, hstarted⟩
  | elsewhere _ hline hprocess _ =>
    rcases hlaunching with hat | hrunning
    · exact absurd hat hline
    · obtain ⟨hbefore, _, hstarted⟩ := hprocess hrunning
      exact Or.inl ⟨Or.inr hbefore, hstarted⟩
  | touchesRecovery _ hat hscript _ =>
    rw [hscript] at hlaunching
    rcases hlaunching with hline | hrunning
    · exact Line.noConfusion hline
    · exact absurd hrunning (not_running_at hbegun hat rfl)
  | commits hat _ hscript _ =>
    rw [hscript] at hlaunching
    rcases hlaunching with hline | hrunning
    · exact Line.noConfusion hline
    · exact absurd hrunning (not_running_at hbegun hat rfl)
  | recovers hat hscript _ =>
    rw [hscript] at hlaunching
    rcases hlaunching with hline | hrunning
    · exact Line.noConfusion hline
    · exact absurd hrunning (not_running_at hbegun hat rfl)
  | touchesStarted hevent hat _ hstarted => exact Or.inr ⟨hevent, hat, hstarted⟩
  | launches hat _ hstarted => exact Or.inl ⟨Or.inl hat, hstarted⟩

/-- What keeps recovery exclusive while every touch comes in time. -/
structure Safe (s : System) : Prop where
  begun : ∀ app, Begun (s.script app)
  flagged : ∀ app, Launching (s.script app) → s.started app = true
  alone : ∀ app, pending (s.script app).line = true →
    pending (s.script app.other).line = false
  apart : ∀ app, committed (s.script app).line = true → ¬ Launching (s.script app.other)

theorem safe_start (h : Starts s) : Safe s := by
  have hidle : ∀ app, ¬ Launching (s.script app) := by
    intro app hlaunching
    rw [h app] at hlaunching
    rcases hlaunching with hline | hrunning
    · exact Line.noConfusion hline
    · exact ProcessState.noConfusion hrunning
  have hpending : ∀ app, pending (s.script app).line = false := by
    intro app
    rw [h app]
    rfl
  refine ⟨?_, fun app hlaunching => absurd hlaunching (hidle app),
    fun app _ => hpending app.other, fun app _ => hidle app.other⟩
  intro app hrunning
  exact absurd (Or.inr hrunning) (hidle app)

theorem app_cases (app app' : App) : app' = app ∨ app' = app.other := by
  cases app <;> cases app' <;> first | exact Or.inl rfl | exact Or.inr rfl

/-- One event whose touch comes in time. -/
theorem Safe.step (h : Safe s) (hguard : TouchesInTime s event) :
    Safe (step config s event) := by
  have hown := step_own config event (h.begun (appOf event))
  have honly := step_onlyOwn config s event
  generalize StartScript.step config s event = s' at hown honly
  generalize hown_app : appOf event = own at hown honly
  have hother : s'.script own.other = s.script own.other := honly.script _ (other_ne own)
  have hstarted : s'.started own.other = s.started own.other := honly.started _ (other_ne own)
  have hpending := pending_of_ownStep hown
  have hcommitted := committed_of_ownStep hown
  have hlaunching := launching_of_ownStep hown (h.begun own)
  have hrecoveryInTime : event = .line own → (s.script own).line = .touchRecoveryStarted →
      pending (s.script own.other).line = false := by
    rintro rfl hat
    exact hguard.1 hat
  have hstartedInTime : event = .line own → (s.script own).line = .touchStarted →
      committed (s.script own.other).line = false := by
    rintro rfl hat
    exact hguard.2 hat
  constructor
  · intro app
    rcases app_cases own app with rfl | rfl
    · exact begun_of_ownStep hown (h.begun _)
    · rw [hother]
      exact h.begun _
  · intro app hlaunch
    rcases app_cases own app with rfl | rfl
    · rcases hlaunching hlaunch with ⟨hbefore, hsame⟩ | ⟨_, _, hset⟩
      · rw [hsame]
        exact h.flagged _ hbefore
      · exact hset
    · rw [hother] at hlaunch
      rw [hstarted]
      exact h.flagged _ hlaunch
  · intro app hpend
    rcases app_cases own app with rfl | rfl
    · rw [hother]
      rcases hpending hpend with hbefore | ⟨hevent, hat⟩
      · exact h.alone _ hbefore
      · exact hrecoveryInTime hevent hat
    · rw [hother] at hpend
      rw [other_other]
      by_contra hboth
      rcases hpending (by simpa using hboth) with hbefore | ⟨hevent, hat⟩
      · rw [h.alone _ hbefore] at hpend
        exact Bool.noConfusion hpend
      · rw [hrecoveryInTime hevent hat] at hpend
        exact Bool.noConfusion hpend
  · intro app hcommit hlaunch
    rcases app_cases own app with rfl | rfl
    · rw [hother] at hlaunch
      rcases hcommitted hcommit with hbefore | habsent
      · exact h.apart _ hbefore hlaunch
      · rw [h.flagged _ hlaunch] at habsent
        exact Bool.noConfusion habsent
    · rw [hother] at hcommit
      rw [other_other] at hlaunch
      rcases hlaunching hlaunch with ⟨hbefore, _⟩ | ⟨hevent, hat, _⟩
      · have hapart := h.apart own.other hcommit
        rw [other_other] at hapart
        exact hapart hbefore
      · rw [hstartedInTime hevent hat] at hcommit
        exact Bool.noConfusion hcommit

theorem Safe.exclusive (h : Safe s) : Exclusive s := by
  intro app hrecovering
  have hcommitted : committed (s.script app).line = true := by
    rw [hrecovering]
    rfl
  refine ⟨fun hrunning => h.apart app hcommitted (Or.inr hrunning), fun hother => ?_⟩
  have halone := h.alone app (pending_of_committed hcommitted)
  rw [hother] at halone
  exact Bool.noConfusion halone

end Safety
section Races

variable {config : Config} {s s' : System} {event : Event} {app : App}

/-- What holds in every run: processes only run after their launch, and a script between
the removal and the touch of its started flag has none. -/
structure Tracked (s : System) : Prop where
  begun : ∀ app, Begun (s.script app)
  unflagged : ∀ app, unstarted (s.script app).line = true → s.started app = false

theorem tracked_start (h : Starts s) : Tracked s := by
  refine ⟨(safe_start h).begun, ?_⟩
  intro app hunstarted
  rw [h app] at hunstarted
  exact Bool.noConfusion hunstarted

theorem unflagged_of_ownStep (h : OwnStep event s app s')
    (hbefore : unstarted (s.script app).line = true → s.started app = false)
    (hunstarted : unstarted (s'.script app).line = true) : s'.started app = false := by
  cases h with
  | unchanged hscript hstarted =>
    rw [hscript] at hunstarted
    rw [hstarted]
    exact hbefore hunstarted
  | elsewhere _ _ _ hcases =>
    rcases hcases hunstarted with habsent | ⟨hline, hsame⟩
    · exact habsent
    · rw [hsame]
      exact hbefore hline
  | touchesRecovery _ hat _ hstarted =>
    rw [hstarted]
    exact hbefore (by rw [hat]; rfl)
  | commits hat _ _ hstarted =>
    rw [hstarted]
    exact hbefore (by rw [hat]; rfl)
  | recovers hat _ hstarted =>
    rw [hstarted]
    exact hbefore (by rw [hat]; rfl)
  | touchesStarted _ _ hscript _ =>
    rw [hscript] at hunstarted
    exact Bool.noConfusion hunstarted
  | launches _ hscript _ =>
    rw [hscript] at hunstarted
    exact Bool.noConfusion hunstarted

theorem Tracked.step (h : Tracked s) (event : Event) : Tracked (step config s event) := by
  have hown := step_own config event (h.begun (appOf event))
  have honly := step_onlyOwn config s event
  constructor
  · intro app
    rcases app_cases (appOf event) app with rfl | rfl
    · exact begun_of_ownStep hown (h.begun _)
    · rw [honly.script _ (other_ne _)]
      exact h.begun _
  · intro app hunstarted
    rcases app_cases (appOf event) app with rfl | rfl
    · exact unflagged_of_ownStep hown (h.unflagged _) hunstarted
    · rw [honly.script _ (other_ne _)] at hunstarted
      rw [honly.started _ (other_ne _)]
      exact h.unflagged _ hunstarted

variable (config s app) in
/-- A script past the touch of its recovery flag is at recovery after two commands, if
the other has no started flag. -/
theorem recovers_in_two (hpending : pending (s.script app).line = true)
    (hother : (s.script app).line = .whileOtherStarted → s.started app.other = false) :
    recoveryRunning (lineStep config (lineStep config s app) app) app ∧
      (lineStep config (lineStep config s app) app).started = s.started ∧
      (lineStep config (lineStep config s app) app).script app.other = s.script app.other := by
  have hscript : (lineStep config (lineStep config s app) app).script app.other =
      s.script app.other :=
    ((lineStep_onlyOwn config s app).trans
      (lineStep_onlyOwn config (lineStep config s app) app)).script _ (other_ne app)
  refine ⟨?_, ?_, hscript⟩
  · cases hline : (s.script app).line with
    | whileOtherStarted =>
      have hstep : lineStep config s app = s.goto app .runRecovery := by
        simp only [lineStep, hline, hother hline, Bool.false_eq_true, ↓reduceIte]
      rw [hstep]
      simp [recoveryRunning, lineStep]
    | runRecovery =>
      simp [recoveryRunning, lineStep, hline]
    | recovering =>
      simp [recoveryRunning, lineStep, hline]
    | _ =>
      rw [hline] at hpending
      exact Bool.noConfusion hpending
  · cases hline : (s.script app).line with
    | whileOtherStarted =>
      have hstep : lineStep config s app = s.goto app .runRecovery := by
        simp only [lineStep, hline, hother hline, Bool.false_eq_true, ↓reduceIte]
      rw [hstep]
      simp [lineStep]
    | runRecovery =>
      simp [lineStep, hline]
    | recovering =>
      simp [lineStep, hline]
    | _ =>
      rw [hline] at hpending
      exact Bool.noConfusion hpending

/-- A recovery flag touched while the other application is about to recover: both
scripts can go on and recover. -/
theorem recovery_touch_breaks (h : Tracked s) (hat : (s.script app).line = .touchRecoveryStarted)
    (hother : pending (s.script app.other).line = true) :
    ¬ Exclusive ([.line app.other, .line app.other, .line app, .line app].foldl (step config)
      (step config s (.line app))) := by
  have hownFlag : s.started app = false := h.unflagged app (by rw [hat]; rfl)
  have hotherFlag : s.started app.other = false := by
    apply h.unflagged
    cases hline : (s.script app.other).line <;> first
      | rfl
      | (rw [hline] at hother; exact Bool.noConfusion hother)
  generalize hs' : step config s (.line app) = s'
  have htouched : s' = (s.setRecoveryStarted app true).goto app .whileOtherStarted := by
    rw [← hs']
    simp only [step, lineStep, hat]
  have hscript : s'.script app.other = s.script app.other := by
    rw [← hs']
    exact (step_onlyOwn config s (.line app)).script _ (other_ne app)
  have hstarted : s'.started = s.started := by rw [htouched]; rfl
  obtain ⟨hfirst, hflags, hsame⟩ := recovers_in_two config s' app.other
    (by rw [hscript]; exact hother) (fun _ => by rw [hstarted, other_other]; exact hownFlag)
  rw [other_other] at hsame
  generalize hs'' : lineStep config (lineStep config s' app.other) app.other = s''
    at hfirst hflags hsame
  obtain ⟨hsecond, _, hkept⟩ := recovers_in_two config s'' app
    (by rw [hsame, htouched]; simp [pending]) (fun _ => by rw [hflags, hstarted]; exact hotherFlag)
  intro hexclusive
  refine (hexclusive app ?_).2 ?_
  · simp only [List.foldl_cons, List.foldl_nil, step, hs'']
    exact hsecond
  · simp only [List.foldl_cons, List.foldl_nil, step, hs'', recoveryRunning]
    rw [hkept]
    exact hfirst

/-- A started flag touched while the other application has gone on to recovery: the
process can be launched next to that recovery. -/
theorem started_touch_breaks (hat : (s.script app).line = .touchStarted)
    (hother : committed (s.script app.other).line = true) :
    ¬ Exclusive ([.line app.other, .line app.other, .line app].foldl (step config)
      (step config s (.line app))) := by
  generalize hs' : step config s (.line app) = s'
  have htouched : s' = (s.setStarted app true).goto app .startProcess := by
    rw [← hs']
    simp only [step, lineStep, hat]
  have hscript : s'.script app.other = s.script app.other := by
    rw [← hs']
    exact (step_onlyOwn config s (.line app)).script _ (other_ne app)
  obtain ⟨hfirst, _, hsame⟩ := recovers_in_two config s' app.other
    (by rw [hscript]; exact pending_of_committed hother)
    (fun hline => by
      rw [hscript] at hline
      rw [hline] at hother
      exact Bool.noConfusion hother)
  rw [other_other] at hsame
  generalize hs'' : lineStep config (lineStep config s' app.other) app.other = s'' at hfirst hsame
  have hlaunch : (s''.script app).line = .startProcess := by
    rw [hsame, htouched]
    simp
  have hstep : lineStep config s'' app = (s''.setProcess app .running).goto app .checkProcess := by
    simp only [lineStep, hlaunch]
  have hother_kept := (lineStep_onlyOwn config s'' app).script _ (other_ne app)
  intro hexclusive
  refine (hexclusive app.other ?_).1 ?_
  · simp only [List.foldl_cons, List.foldl_nil, step, hs'', recoveryRunning]
    rw [hother_kept]
    exact hfirst
  · simp only [List.foldl_cons, List.foldl_nil, step, hs'', processRunning]
    rw [hstep, other_other]
    simp

end Races

/-- Recovery is exclusive in every run whose touches come in time, and any touch that
does not can be followed by events after which it is not exclusive. -/
theorem recovery_exclusive_exactly (config : Config) (start : System) (hstart : Starts start)
    (events : List Event) :
    (PrefixRuns.EveryStep (step config) start events TouchesInTime →
      ∀ n, Exclusive (PrefixRuns.stateAt (step config) start events n)) ∧
    (∀ n event, events[n]? = some event →
      ¬ TouchesInTime (PrefixRuns.stateAt (step config) start events n) event →
      ∃ more, ¬ Exclusive ((events.take (n + 1) ++ more).foldl (step config) start)) := by
  constructor
  · intro hguard n
    exact (PrefixRuns.invariant_of_everyStep (step config) start events (safe_start hstart)
      (fun _ _ _ hsafe htime => hsafe.step htime) hguard n).exclusive
  · intro n event hevent hlate
    have hany : PrefixRuns.EveryStep (step config) start events (fun _ _ => True) :=
      fun _ _ _ => True.intro
    have htracked := PrefixRuns.invariant_of_everyStep (step config) start events
      (tracked_start hstart) (fun _ event _ h _ => h.step event) hany n
    have hnext := PrefixRuns.stateAt_succ (step config) start hevent
    generalize PrefixRuns.stateAt (step config) start events n = s at hlate htracked hnext
    have hcontinue : ∀ more, (events.take (n + 1) ++ more).foldl (step config) start =
        more.foldl (step config) (step config s event) := by
      intro more
      rw [List.foldl_append, ← hnext]
      rfl
    cases event with
    | line app =>
      by_cases hrecovery : (s.script app).line = .touchRecoveryStarted ∧
          pending (s.script app.other).line = true
      · refine ⟨[.line app.other, .line app.other, .line app, .line app], ?_⟩
        rw [hcontinue]
        exact recovery_touch_breaks htracked hrecovery.1 hrecovery.2
      · by_cases hstarted : (s.script app).line = .touchStarted ∧
            committed (s.script app.other).line = true
        · refine ⟨[.line app.other, .line app.other, .line app], ?_⟩
          rw [hcontinue]
          exact started_touch_breaks hstarted.1 hstarted.2
        · exfalso
          apply hlate
          refine ⟨fun hat => ?_, fun hat => ?_⟩
          · by_contra hpending
            exact hrecovery ⟨hat, by simpa using hpending⟩
          · by_contra hcommitted
            exact hstarted ⟨hat, by simpa using hcommitted⟩
    | recoveryEnds _ _ => exact absurd True.intro hlate
    | processEnds _ _ => exact absurd True.intro hlate
    | signal _ => exact absurd True.intro hlate
    | crash _ => exact absurd True.intro hlate
    | restart _ => exact absurd True.intro hlate
    | lockChanges _ _ => exact absurd True.intro hlate

section Race

/-- A server that waits for its broker, and a broker that does not wait. -/
def serverWaits : Config := ⟨fun app => decide (app = .server), true⟩

/-- Both scripts at their first line, no flags, and both applications locked. -/
def bothLocked : System :=
  ⟨fun _ => ⟨.rmStarted, true, .none⟩, fun _ => false, fun _ => false, fun _ => true⟩

/-- Both scripts go through their tests before either touches its recovery flag. -/
def bothRecover : List Event :=
  [.line .server, .line .server, .line .server, .line .server,
    .line .broker, .line .broker, .line .broker, .line .broker,
    .line .server, .line .broker, .line .server, .line .broker,
    .line .server, .line .broker]

/-- The server reaches its recovery, and the broker waits for the end of it. -/
def serverRecovers : List Event :=
  [.line .server, .line .server, .line .server, .line .server, .line .server, .line .server,
    .line .server, .line .broker, .line .broker, .line .broker]

/-- The server recovers while the broker waits at its first loop. -/
theorem recovery_exclusive_exactly_server_first :
    Exclusive (PrefixRuns.stateAt (step serverWaits) bothLocked serverRecovers 10) ∧
      recoveryRunning (PrefixRuns.stateAt (step serverWaits) bothLocked serverRecovers 10)
        .server ∧
      ((PrefixRuns.stateAt (step serverWaits) bothLocked serverRecovers 10).script
        .broker).line = .whileOtherRecovery := by
  refine ⟨?_, by decide, by decide⟩
  apply (recovery_exclusive_exactly serverWaits bothLocked (fun _ => rfl) serverRecovers).1
  intro n event hevent
  match n, hevent with
  | 0, hevent => cases hevent; exact ⟨by decide, by decide⟩
  | 1, hevent => cases hevent; exact ⟨by decide, by decide⟩
  | 2, hevent => cases hevent; exact ⟨by decide, by decide⟩
  | 3, hevent => cases hevent; exact ⟨by decide, by decide⟩
  | 4, hevent => cases hevent; exact ⟨by decide, by decide⟩
  | 5, hevent => cases hevent; exact ⟨by decide, by decide⟩
  | 6, hevent => cases hevent; exact ⟨by decide, by decide⟩
  | 7, hevent => cases hevent; exact ⟨by decide, by decide⟩
  | 8, hevent => cases hevent; exact ⟨by decide, by decide⟩
  | 9, hevent => cases hevent; exact ⟨by decide, by decide⟩
  | n + 10, hevent => simp [serverRecovers] at hevent

/-- Two recoveries run at once. -/
theorem recovery_not_exclusive :
    ¬ ∀ (config : Config) (start : System) (events : List Event), Starts start →
      config.waitForOther .server = true → config.waitForOther .broker = false →
      Exclusive (events.foldl (step config) start) := by
  intro h
  have hexclusive := h serverWaits bothLocked bothRecover (fun _ => rfl) rfl rfl
  exact (hexclusive .server (by decide)).2 (by decide)

end Race

end SymbolBootstrap.RecoveryExclusion
