import Encumbrance.Cli.Args
import Encumbrance.Cli.Replay
import Encumbrance.Config.Load

/-!
# Running the command

One run of the command reads its settings, reads the script, replays it and prints the
report:

1. The arguments are parsed; a usage error ends the run with exit code 2.
2. Settings are loaded from `config/default.toml` and `config/RUN_MODE.toml` when they exist
   (`RUN_MODE` defaults to `development`), then from `LEDGERLOCK__*` environment variables,
   and checked. A `--workers` argument then replaces the worker count and the settings are
   checked again.
3. The script file is read and parsed.
4. The script is replayed and the report printed, as text or as JSON.

A failure in steps 2 to 4 prints nothing on standard output and ends with exit code 1. An
arithmetic overflow anywhere in the replay, in an event or in the final report, aborts the
process: it prints nothing and ends without an exit code of its own. Otherwise the exit
code is 0 when every event succeeded and 1 when any failed.

The run reads files through a function it is given, so the same definition runs against the
real file system and against files held in memory.
-/

namespace Encumbrance

/-- How a run ended: its exit code, `none` when it aborted, and what it wrote to standard
    output and standard error. -/
structure Exit where
  code : Option Nat
  stdout : String
  stderr : String
  deriving Repr

namespace Cli

/-- The program's name and version. -/
def versionText : String := "ledgerlock 0.1.0\n"

/-- The usage summary. -/
def usageText : String :=
  "Usage: ledgerlock [OPTIONS] <SCRIPT>\n"

/-- The help text. -/
def helpText : String :=
  "Replay budget lifecycle events against an in-memory ledger\n\n" ++ usageText ++
  "\nArguments:\n  <SCRIPT>  JSON script with reference data and events\n\nOptions:\n" ++
  "  -f, --format <FORMAT>    Output format [default: text] [possible values: text, json]\n" ++
  "      --workers <WORKERS>  Override the number of dispatcher workers\n" ++
  "      --log-json           Emit logs as JSON lines\n" ++
  "  -h, --help               Print help (see more with --help)\n" ++
  "  -V, --version            Print version\n"

/-- A failed run. -/
def failure (code : Nat) (message : String) : Exit :=
  { code := some code, stdout := "", stderr := message ++ "\n" }

/-- An aborted run. -/
def aborted (message : String) : Exit := { code := none, stdout := "", stderr := message ++ "\n" }

/-- The value of an environment variable. -/
def lookupEnv (env : List (String × String)) (name : String) : Option String :=
  (env.find? (·.1 == name)).map (·.2)

/-- Runs the command with its arguments and environment, reading files with `read`. -/
def run {m : Type → Type} [Monad m] (read : String → m (Option String)) (argv : List String)
    (env : List (String × String)) : m Exit := do
  match Args.parse argv with
  | .help => pure { code := some 0, stdout := helpText, stderr := "" }
  | .version => pure { code := some 0, stdout := versionText, stderr := "" }
  | .usage msg =>
    pure (failure 2 ("error: " ++ msg ++ "\n\n" ++ usageText ++ "\nFor more information, try --help."))
  | .run args =>
    let mode := (lookupEnv env "RUN_MODE").getD "development"
    let defaults ← read "config/default.toml"
    let modeFile ← read ("config/" ++ mode ++ ".toml")
    match BudgetConfig.load ([defaults, modeFile].filterMap id) env with
    | .error crash => pure (aborted ("panicked: " ++ crash.message))
    | .ok (.error e) => pure (failure 1 ("Error: Failed to load configuration\n\nCaused by:\n    " ++ e.message))
    | .ok (.ok config) =>
      let config := match args.workers with
        | some w => { config with dispatchWorkers := w }
        | none => config
      match config.validate with
      | .error e => pure (failure 1 ("Error: " ++ e.message))
      | .ok () =>
        match ← read args.script with
        | none => pure (failure 1 ("Error: Failed to read script " ++ args.script))
        | some text =>
          match Script.read text with
          | none => pure (failure 1 ("Error: Failed to parse script " ++ args.script))
          | some script =>
            match replay config script with
            | .error (.overflow a) => pure (aborted ("panicked: " ++ a.message))
            | .error e => pure (failure 1 ("Error: " ++ e.message))
            | .ok report =>
              let out := match args.format with
                | .json => (report.toJson.pretty 0) ++ "\n"
                | .text => report.toText
              pure { code := some (if report.failures = 0 then 0 else 1), stdout := out, stderr := "" }

end Cli

end Encumbrance
