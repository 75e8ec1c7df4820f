import Septet.CommandLine.Run
import Septet.Proofs.Store.Session

/-!
# What runs report

A failure of a command that can be reported is reported as one line, and the run ends
with exit code 1.  What comes before the command is outside of this: if the log that
the command line names cannot be started, or if no log is named and the settings of the
store cannot be followed, then the failure leaves the run, whatever it is
(`Unprepared`).  These are all the ways for a failure that can be reported to leave a
run (`run_reports`), although the same settings make a reported failure where a command
reads them for itself (`run_leaves_settings`).
-/

set_option autoImplicit false

namespace Septet.CommandLine

/-! ## Failures before a command -/

/-- Why the log cannot go to the file that the settings of the store with a path name. -/
inductive Unfollowed (machine : Machine) (path : Path) : RunError → Prop where
  | unread {cause : SetupError}
      (failed : Store.loadSettings machine.disk.files path = .error cause) :
      Unfollowed machine path (.setup cause)
  /-- The path in the settings is a number that is too long to be written. -/
  | unwritable {settings : Settings}
      (read : Store.loadSettings machine.disk.files path = .ok settings)
      (given : (settings.get logPathKey .null).isTruthy = true)
      (failed : (settings.get logPathKey .null).display? = none) :
      Unfollowed machine path .logUnwritable
  | unstarted {settings : Settings} {name : String} {cause : FileError} {after : Machine}
      (read : Store.loadSettings machine.disk.files path = .ok settings)
      (given : (settings.get logPathKey .null).isTruthy = true)
      (written : (settings.get logPathKey .null).display? = some name)
      (failed : Machine.startLog name machine.log.level machine.stopLog = .error cause after) :
      Unfollowed machine path (.file cause)

/-- Why the log cannot go where an invocation wants it to go. -/
inductive Unprepared (surroundings : Surroundings) (machine : Machine) (invocation : Invocation) :
    RunError → Prop where
  /-- The log that the command line names cannot be started. -/
  | log {file : String} {cause : FileError} {after : Machine}
      (named : logFileOf invocation = some file)
      (failed : Machine.startLog file (invocation.logLevel.getD .info) machine =
        .error cause after) :
      Unprepared surroundings machine invocation (.file cause)
  /-- The command line names no log, and the settings of the store cannot be followed. -/
  | settings {path : Path} {cause : RunError} (unnamed : logFileOf invocation = none)
      (found : storePathOf? surroundings machine invocation = some path)
      (failed : Unfollowed machine path cause) :
      Unprepared surroundings machine invocation cause

variable {surroundings : Surroundings} {machine : Machine} {invocation : Invocation}
  {cause : RunError}

/-! ## Preparing -/

theorem startLog_ok {file : String} {level : Level} {after : Machine}
    (started : Machine.startLog file level machine = .ok () after) :
    startLog file level machine = .ok () after := by
  rw [startLog, started]

theorem startLog_error {file : String} {level : Level} {problem : FileError} {after : Machine}
    (failed : Machine.startLog file level machine = .error problem after) :
    startLog file level machine = .error (.file problem) after := by
  rw [startLog, failed]

/-- A log is followed when the settings that name it are read. -/
theorem followSettings_ok {path : Path} {settings : Settings}
    (read : Store.loadSettings machine.disk.files path = .ok settings) :
    followSettings path machine =
      if (settings.get logPathKey .null).isTruthy then
        match (settings.get logPathKey .null).display? with
        | none => .error .logUnwritable machine.stopLog
        | some name => startLog name machine.log.level machine.stopLog
      else .ok () machine := by
  rw [followSettings, EStateM.get_bind, read]
  dsimp only
  split
  · cases (settings.get logPathKey .null).display? <;> rfl
  · rfl

theorem followSettings_error {path : Path} {problem : SetupError}
    (failed : Store.loadSettings machine.disk.files path = .error problem) :
    followSettings path machine = .error (.setup problem) machine := by
  rw [followSettings, EStateM.get_bind, failed]
  rfl

theorem followSettings_error_iff {path : Path} :
    (∃ after, followSettings path machine = .error cause after) ↔
      Unfollowed machine path cause := by
  constructor
  · rintro ⟨after, failed⟩
    cases read : Store.loadSettings machine.disk.files path with
    | error problem =>
        cases (followSettings_error read).symm.trans failed
        exact .unread read
    | ok settings =>
        rw [followSettings_ok read] at failed
        split at failed
        · next given =>
            split at failed
            · next unwritten =>
                cases failed
                exact .unwritable read given unwritten
            · next name written =>
                cases started : Machine.startLog name machine.log.level machine.stopLog with
                | ok value later =>
                    cases (startLog_ok started).symm.trans failed
                | error problem later =>
                    cases (startLog_error started).symm.trans failed
                    exact .unstarted read given written started
        · cases failed
  · rintro (failed | ⟨read, given, unwritten⟩ | ⟨read, given, written, failed⟩)
    · exact ⟨_, followSettings_error failed⟩
    · refine ⟨machine.stopLog, ?_⟩
      rw [followSettings_ok read, if_pos given, unwritten]
    · rw [followSettings_ok read, if_pos given, written]
      exact ⟨_, startLog_error failed⟩

/-- Where the command line names a log, only this log is started. -/
theorem prepare_of_named {file : String} (named : logFileOf invocation = some file) :
    prepare surroundings invocation machine =
      match startLog file (invocation.logLevel.getD .info) machine with
      | .error cause after => .error cause after
      | .ok _ after =>
          match storePathOf? surroundings after invocation with
          | none => .error .pathMissing after
          | some path => .ok path after := by
  rw [prepare, named]
  cases started : startLog file (invocation.logLevel.getD .info) machine with
  | error cause after => exact EStateM.bind_error started
  | ok value after =>
      refine (EStateM.bind_ok started).trans ((EStateM.get_bind _ after).trans ?_)
      dsimp only
      cases storePathOf? surroundings after invocation <;> rfl

/-- Where the command line names no log, the settings of the store are followed. -/
theorem prepare_of_unnamed (unnamed : logFileOf invocation = none) :
    prepare surroundings invocation machine =
      match storePathOf? surroundings machine invocation with
      | none => .error .pathMissing machine
      | some path =>
          match followSettings path machine with
          | .error cause after => .error cause after
          | .ok _ after => .ok path after := by
  rw [prepare, unnamed]
  refine (EStateM.get_bind _ machine).trans ?_
  cases storePathOf? surroundings machine invocation with
  | none => rfl
  | some path =>
      dsimp only
      cases followed : followSettings path machine with
      | error cause after => exact EStateM.bind_error followed
      | ok value after => exact EStateM.bind_ok followed

/-- **Nothing that can be reported keeps a run from its command** but what keeps its log from where it
is to go. -/
theorem prepare_error_iff (reported : cause.isReported = true) :
    (∃ after, prepare surroundings invocation machine = .error cause after) ↔
      Unprepared surroundings machine invocation cause := by
  constructor
  · rintro ⟨after, failed⟩
    cases named : logFileOf invocation with
    | some file =>
        rw [prepare_of_named named] at failed
        cases started : Machine.startLog file (invocation.logLevel.getD .info) machine with
        | error problem later =>
            rw [startLog_error started] at failed
            cases failed
            exact .log named started
        | ok value later =>
            rw [startLog_ok started] at failed
            dsimp only at failed
            split at failed <;> cases failed
            cases reported
    | none =>
        rw [prepare_of_unnamed named] at failed
        cases found : storePathOf? surroundings machine invocation with
        | none =>
            rw [found] at failed
            cases failed
            cases reported
        | some path =>
            rw [found] at failed
            refine .settings named found (followSettings_error_iff.mp ⟨after, ?_⟩)
            dsimp only at failed
            split at failed
            · next followed =>
                cases failed
                exact followed
            · cases failed
  · rintro (⟨named, failed⟩ | ⟨unnamed, found, failed⟩)
    · rw [prepare_of_named named, startLog_error failed]
      exact ⟨_, rfl⟩
    · obtain ⟨after, unfollowed⟩ := followSettings_error_iff.mpr failed
      rw [prepare_of_unnamed unnamed, found]
      dsimp only
      rw [unfollowed]
      exact ⟨after, rfl⟩

/-! ## Runs -/

/-- Whether a run ends with a failure that could have been reported and is not. -/
def Ending.leaks : Ending → Bool
  | .exit _ => false
  | .failed cause => cause.isReported

/-- A failure of a command is reported if it can be. -/
theorem leaks_conclude (surroundings : Surroundings) (machine : Machine) (path : Path)
    (command : Command) :
    (conclude surroundings machine path command).1.ending.leaks = false := by
  rw [conclude]
  split
  · rfl
  · split
    · rfl
    · next unreported => exact Bool.eq_false_iff.mpr unreported

/-- **What can be reported leaves a run only before the command**, where the log cannot go to where it
is to go, and then always.  Behind that, it is reported as one line, and the run ends with exit
code 1. -/
theorem run_reports {strings : List String} (read : Invocation.read strings = .ok invocation)
    (reported : cause.isReported = true) :
    ((run surroundings strings machine).1.ending = .failed cause ↔
        Unprepared surroundings machine invocation cause) ∧
      ∀ path ready desk, prepare surroundings invocation machine = .ok path ready →
        perform surroundings path invocation.command { machine := ready } = .error cause desk →
          (run surroundings strings machine).1 = {
            printed := desk.printed
            reported := "vlqdb: " ++ cause.message ++ "\n"
            ending := .exit 1 } := by
  constructor
  · rw [← prepare_error_iff reported, run, read]
    dsimp only
    cases prepare surroundings invocation machine with
    | ok path ready =>
        refine iff_of_false (fun left => ?_) (by simp)
        have kept := leaks_conclude surroundings ready path invocation.command
        rw [left] at kept
        cases reported.symm.trans kept
    | error problem after => simp
  · intro path ready desk prepared failed
    rw [run, read]
    dsimp only
    rw [prepared]
    dsimp only
    rw [conclude, failed]
    dsimp only
    rw [if_pos reported]
    rfl

/-- A machine with one store, whose settings are not a text. -/
def Machine.unsettled : Machine where
  disk := { files := {
    workingDirectory := []
    nodes := [([".vlqdb", "settings.toml"], .file [255]), ([".vlqdb"], .directory)] } }

/-- Surroundings that name no store. -/
def Surroundings.plain : Surroundings where
  storePath := none
  time := ""
  hash := fun _ => .zeros

theorem run_reports_log :
    (run .plain ["--log-file", "missing/l", "encode", "300"] .unsettled).1.ending =
      .failed (.file ⟨.missing, "/missing/l"⟩) :=
  (run_reports rfl rfl).1.mpr (.log rfl rfl)

/-- Settings that cannot be read make a failure that leaves a run, and the same settings one that is
reported where a log is named. -/
theorem run_leaves_settings :
    (run .plain ["put", "a"] .unsettled).1.ending.leaks = true ∧
      (run .plain ["--log-file", "l", "put", "a"] .unsettled).1.reported =
        "vlqdb: 'utf-8' codec can't decode byte 0xff in position 0: invalid start byte\n" := by
  decide +kernel

end Septet.CommandLine
