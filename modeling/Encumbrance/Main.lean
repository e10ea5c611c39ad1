import Encumbrance.Cli.Run

/-!
# The command

Reads the arguments, the environment and the files a run asks for, runs the command, and
hands its output and exit code to the operating system.
-/

open Encumbrance

/-- The text of a file, or `none` when it cannot be read as UTF-8 text. -/
def readText (path : String) : IO (Option String) := do
  try
    let bytes ← IO.FS.readBinFile path
    pure (String.fromUTF8? bytes)
  catch _ => pure none

/-- Splits `NAME=VALUE` at the first `=`. -/
def envPair (kv : String) : Option (String × String) :=
  match kv.splitOn "=" with
  | k :: rest => if k.isEmpty then none else some (k, "=".intercalate rest)
  | [] => none

/-- The process environment, as the kernel records it. -/
def environment : IO (List (String × String)) := do
  match ← readText "/proc/self/environ" with
  | none => pure []
  | some text => pure ((text.splitOn (String.singleton (Char.ofNat 0))).filterMap envPair)

/-- Runs the command. An aborted run ends with the status a shell reports for an abort. -/
def main (argv : List String) : IO UInt32 := do
  let env ← environment
  let exit ← Cli.run readText argv env
  IO.print exit.stdout
  IO.eprint exit.stderr
  pure (exit.code.getD 134).toUInt32
