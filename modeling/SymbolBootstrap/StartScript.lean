import Mathlib.Logic.Function.Basic

/-!
The server and broker copies of config/docker/server/start.sh on one data directory.
A script is at one of its lines; each step runs one atomic command: a file test, a
touch, a rm, a kill, a wait, or the launch of a program. Echo lines have no effect.
The script is the main process of its container, so when it ends, what it launched
ends too, and a signal reaches it only once its trap is set. A command that fails
where the script does not expect it ends the script; the `crash` event stands for
that, for a kill of the container and for a failure of the debug setup alike.
-/
namespace SymbolBootstrap.StartScript

inductive App
  | server
  | broker
deriving DecidableEq, Repr

/-- `theOtherApplication`. -/
def App.other : App → App
  | .server => .broker
  | .broker => .server

/-- The commands of the script, in its order. -/
inductive Line
  /-- line 37 -/
  | rmStarted
  /-- line 38 -/
  | rmRecoveryStarted
  /-- line 47 -/
  | whileOtherRecovery
  /-- line 54 -/
  | ifLock
  /-- line 57 -/
  | touchRecoveryStarted
  /-- line 59 -/
  | whileOtherStarted
  /-- line 68, before the launch -/
  | runRecovery
  /-- line 68, while catapult.recovery runs -/
  | recovering
  /-- line 74 -/
  | catchRecovery
  /-- line 79 -/
  | clearRecoveryStarted
  /-- line 82 -/
  | untilOtherStarted
  /-- line 89 -/
  | touchStarted
  /-- line 93 -/
  | startProcess
  /-- line 98 -/
  | cleanupKill
  /-- line 99 -/
  | cleanupWait
  /-- line 101 -/
  | cleanupRemove
  /-- line 109 -/
  | checkProcess
  /-- line 113 -/
  | exitedWait
  /-- line 115 -/
  | exitedRemove
  /-- line 119 -/
  | checkOtherRecovery
  /-- line 121 -/
  | yieldKill
  /-- line 122 -/
  | yieldWait
  /-- line 123 -/
  | yieldRemove
  | ended
deriving DecidableEq, Repr

/-- The catapult process of an application. -/
inductive ProcessState
  | none
  | running
  | exited (success : Bool)
deriving DecidableEq, Repr

structure Script where
  line : Line
  /-- whether `set -e` is in effect -/
  errexit : Bool
  process : ProcessState
deriving DecidableEq, Repr

structure System where
  script : App → Script
  started : App → Bool
  recoveryStarted : App → Bool
  lock : App → Bool

/-- What is fixed when the scripts are launched. The rm commands at the end of the
script name ./data, which need not be the data directory. -/
structure Config where
  waitForOther : App → Bool
  dataDirectoryIsData : Bool

namespace System

variable (s : System) (app : App)

def goto (line : Line) : System :=
  { s with
    script := Function.update s.script app { s.script app with line := line } }

/-- The script ends, and with it whatever it has launched. -/
def exit : System :=
  { s with
    script := Function.update s.script app { s.script app with line := .ended, process := .none } }

def setProcess (process : ProcessState) : System :=
  { s with
    script := Function.update s.script app { s.script app with process := process } }

def setErrexit (errexit : Bool) : System :=
  { s with
    script := Function.update s.script app { s.script app with errexit := errexit } }

def setStarted (present : Bool) : System :=
  { s with started := Function.update s.started app present }

def setRecoveryStarted (present : Bool) : System :=
  { s with recoveryStarted := Function.update s.recoveryStarted app present }

def setLock (present : Bool) : System :=
  { s with lock := Function.update s.lock app present }

end System

/-- A failing command ends the script where `set -e` is in effect. -/
def orExit (s : System) (app : App) (failed : Bool) (next : Line) : System :=
  if failed && (s.script app).errexit then s.exit app else s.goto app next

/-- `rm -f "./data/$application.started"`, the last command before an exit. -/
def removeAndExit (config : Config) (s : System) (app : App) : System :=
  if config.dataDirectoryIsData then (s.setStarted app false).exit app else s.exit app

/-- `wait $applicationPid`, which has the exit status of the process. -/
def waitProcess (s : System) (app : App) (next : Line) : System :=
  match (s.script app).process with
  | .running => s
  | .exited success => orExit s app (!success) next
  | .none => s.goto app next

/-- `kill -s SIGTERM $applicationPid` fails when the process is gone. When the process
ends after it is left open. -/
def killProcess (s : System) (app : App) (next : Line) : System :=
  orExit s app (decide ((s.script app).process ≠ .running)) next

/-- The next command of a script. -/
def lineStep (config : Config) (s : System) (app : App) : System :=
  match (s.script app).line with
  | .rmStarted => (s.setStarted app false).goto app .rmRecoveryStarted
  | .rmRecoveryStarted => (s.setRecoveryStarted app false).goto app .whileOtherRecovery
  | .whileOtherRecovery =>
      if s.recoveryStarted app.other then s else s.goto app .ifLock
  | .ifLock =>
      if s.lock app then s.goto app .touchRecoveryStarted
      else s.goto app .clearRecoveryStarted
  | .touchRecoveryStarted => (s.setRecoveryStarted app true).goto app .whileOtherStarted
  | .whileOtherStarted => if s.started app.other then s else s.goto app .runRecovery
  -- `try` turns `set -e` off, and `catch` does not turn it on again
  | .runRecovery => (s.setErrexit app false).goto app .recovering
  | .recovering => s
  | .catchRecovery => (s.setRecoveryStarted app false).exit app
  | .clearRecoveryStarted =>
      (s.setRecoveryStarted app false).goto app
        (if config.waitForOther app then .untilOtherStarted else .touchStarted)
  | .untilOtherStarted => if s.started app.other then s.goto app .touchStarted else s
  | .touchStarted => (s.setStarted app true).goto app .startProcess
  | .startProcess => (s.setProcess app .running).goto app .checkProcess
  | .cleanupKill => killProcess s app .cleanupWait
  | .cleanupWait => waitProcess s app .cleanupRemove
  | .cleanupRemove => removeAndExit config s app
  | .checkProcess =>
      if (s.script app).process = .running then s.goto app .checkOtherRecovery
      else orExit s app true .exitedWait
  | .exitedWait => waitProcess s app .exitedRemove
  | .exitedRemove => removeAndExit config s app
  | .checkOtherRecovery =>
      if s.recoveryStarted app.other then s.goto app .yieldKill else s.goto app .checkProcess
  | .yieldKill => killProcess s app .yieldWait
  | .yieldWait => waitProcess s app .yieldRemove
  | .yieldRemove => removeAndExit config s app
  | .ended => s

/-- The lines at which SIGTERM and SIGINT are trapped. The cleanup does not reset the trap:
a signal within it enters it again, at its kill. -/
def trapped : Line → Bool
  | .cleanupKill => true
  | .cleanupWait => true
  | .cleanupRemove => true
  | .checkProcess => true
  | .exitedWait => true
  | .exitedRemove => true
  | .checkOtherRecovery => true
  | .yieldKill => true
  | .yieldWait => true
  | .yieldRemove => true
  | _ => false

inductive Event
  | line (app : App)
  | recoveryEnds (app : App) (success : Bool)
  | processEnds (app : App) (success : Bool)
  | signal (app : App)
  | crash (app : App)
  | restart (app : App)
  | lockChanges (app : App) (present : Bool)
deriving DecidableEq, Repr

/-- One event. An event that cannot happen in a state leaves it unchanged. -/
def step (config : Config) (s : System) : Event → System
  | .line app => lineStep config s app
  | .recoveryEnds app success =>
      if (s.script app).line = .recovering then
        s.goto app (if success then .clearRecoveryStarted else .catchRecovery)
      else s
  | .processEnds app success =>
      if (s.script app).process = .running then s.setProcess app (.exited success) else s
  | .signal app => if trapped (s.script app).line then s.goto app .cleanupKill else s
  | .crash app => s.exit app
  | .restart app =>
      if (s.script app).line = .ended then (s.setErrexit app true).goto app .rmStarted else s
  | .lockChanges app present => s.setLock app present

/-- Both scripts are at their first line; what earlier runs left in the data directory
is arbitrary. -/
def Starts (s : System) : Prop := ∀ app, s.script app = ⟨.rmStarted, true, .none⟩

/-- catapult.recovery of the application is running. -/
def recoveryRunning (s : System) (app : App) : Prop := (s.script app).line = .recovering

/-- The catapult process of the application is running. -/
def processRunning (s : System) (app : App) : Prop := (s.script app).process = .running

instance (s : System) (app : App) : Decidable (recoveryRunning s app) :=
  inferInstanceAs (Decidable ((s.script app).line = .recovering))

instance (s : System) (app : App) : Decidable (processRunning s app) :=
  inferInstanceAs (Decidable ((s.script app).process = .running))

end SymbolBootstrap.StartScript
