import Rewards.Config.CommandLine

/-!
# The program

Reads the configuration from the command line and the environment, checks it and shows it.
-/

namespace Rewards

/-- The wording of a refused command line. -/
def CommandLineError.message : CommandLineError → String
  | .unknownArgument => "unexpected argument"
  | .missingValue => "a value is required"
  | .invalidValue => "a value is not a number in range"
  | .repeated => "an argument cannot be used more than once"
  | .help =>
      "Usage: [OPTIONS]\n" ++ String.join (Setting.all.map fun s =>
        (match s.letter? with
          | some letter => "  -" ++ String.singleton letter ++ ", --"
          | none => "      --") ++ s.flag ++ "\n")

/-- The exit code of a refused command line. -/
def CommandLineError.exitCode : CommandLineError → UInt32
  | .help => 0
  | _ => 2

/-- The lines that show a configuration. The secret is not shown. -/
def Config.lines (c : Config) : List String :=
  [ "run address: " ++ c.runAddress,
    "log level: " ++ c.logLevel,
    "store: " ++ (if c.databaseUri.isSome then "database" else "memory"),
    "accrual system: " ++ c.accrualSystemAddress,
    s!"workers: {c.workers}",
    s!"delay of jobs: {c.jobsDelaySeconds} s",
    s!"timeout of jobs: {c.jobTimeoutSeconds} s",
    s!"capacity of the queue: {c.queueCapacity}",
    s!"timeout of the shutdown: {c.shutdownTimeoutSeconds} s" ]

/-- The variables of the environment that give settings. -/
def readEnvironment : IO (List (String × String)) :=
  (Setting.all.filterMap (·.envName?)).filterMapM fun name => do
    return (← IO.getEnv name).map (name, ·)

end Rewards

open Rewards in
/-- Show the configuration, or say why it cannot be used. -/
def main (words : List String) : IO UInt32 := do
  match CommandLine.read words (← readEnvironment) with
  | .error e => do
      if e = .help then IO.print e.message else IO.eprintln ("error: " ++ e.message)
      return e.exitCode
  | .ok config =>
      match config.check with
      | .error e => do
          IO.eprintln ("Error: " ++ e.message)
          return 1
      | .ok () => do
          config.lines.forM IO.println
          return 0
