import Encumbrance.Decimal.Parse

/-!
# Command-line arguments

    ledgerlock [OPTIONS] <SCRIPT>

* `<SCRIPT>`: the JSON script to replay;
* `-f, --format <FORMAT>`: `text` (the default) or `json`;
* `--workers <WORKERS>`: the number of dispatcher workers, overriding the settings;
* `--log-json`: write logs as JSON lines;
* `-h, --help` and `-V, --version`.

An option's value follows it as the next argument, or after `=`; a short option's value may
also be glued to it (`-fjson`). A value may not look like an option. After `--` every
argument is positional. An option given twice, an unknown option, a second positional
argument, a missing script and a value that does not parse are usage errors.
-/

namespace Encumbrance

/-- How the report is written. -/
inductive OutputFormat where
  | text
  | json
  deriving DecidableEq, Repr

/-- The parsed command line. -/
structure Args where
  script : String
  format : OutputFormat := .text
  workers : Option Nat := none
  logJson : Bool := false
  deriving Repr

/-- What the command line asks for. -/
inductive Command where
  | run (a : Args)
  | help
  | version
  | usage (message : String)
  deriving Repr

namespace Args

/-- Options read so far. -/
structure Partial where
  script : Option String := none
  format : Option OutputFormat := none
  workers : Option Nat := none
  logJson : Bool := false

/-- Reads an output format. -/
def readFormat : String → Option OutputFormat
  | "text" => some .text
  | "json" => some .json
  | _ => none

/-- Reads a count the way unsigned integers are read: an optional `+` and digits. -/
def readCount (s : String) : Option Nat :=
  let cs := match s.toList with
    | '+' :: rest => rest
    | cs => cs
  if cs.isEmpty || !cs.all Char.isDigit then none
  else
    let n := cs.foldl (fun n c => n * 10 + (c.toNat - 48)) 0
    if n < Nat.pow 2 64 then some n else none

/-- Whether an argument looks like an option rather than a value. -/
def looksLikeOption (s : String) : Bool := s.startsWith "-" && s.length > 1

/-- Sets an option's value, refusing a repeat or a bad value. -/
def setValue (p : Partial) (name value : String) : Except String Partial :=
  match name with
  | "format" =>
    if p.format.isSome then .error ("the argument '--format <FORMAT>' cannot be used multiple times")
    else match readFormat value with
      | some f => .ok { p with format := some f }
      | none => .error ("invalid value '" ++ value ++ "' for '--format <FORMAT>'")
  | _ =>
    if p.workers.isSome then .error ("the argument '--workers <WORKERS>' cannot be used multiple times")
    else match readCount value with
      | some n => .ok { p with workers := some n }
      | none => .error ("invalid value '" ++ value ++ "' for '--workers <WORKERS>'")

/-- The long name an option is known by, if it takes a value. -/
def valueOption : String → Option String
  | "format" => some "format"
  | "workers" => some "workers"
  | _ => none

/-- Reads the arguments one by one. -/
def scan (p : Partial) (positionalOnly : Bool) : List String → Except String (Option Command × Partial)
  | [] => .ok (none, p)
  | arg :: rest =>
    let positional : Except String (Option Command × Partial) :=
      if p.script.isSome then .error ("unexpected argument '" ++ arg ++ "' found")
      else scan { p with script := some arg } positionalOnly rest
    if positionalOnly then positional
    else if arg = "--" then scan p true rest
    else if arg.startsWith "--" then
      let body := String.ofList (arg.toList.drop 2)
      let name := String.ofList (body.toList.takeWhile (· ≠ '='))
      let inline := if body.toList.contains '=' then
          some (String.ofList ((body.toList.dropWhile (· ≠ '=')).drop 1)) else none
      match name, inline with
      | "help", none => .ok (some .help, p)
      | "version", none => .ok (some .version, p)
      | "log-json", none =>
        if p.logJson then .error "the argument '--log-json' cannot be used multiple times"
        else scan { p with logJson := true } positionalOnly rest
      | n, some v =>
        match valueOption n with
        | some o => do scan (← setValue p o v) positionalOnly rest
        | none => .error ("unexpected argument '" ++ arg ++ "' found")
      | n, none =>
        match valueOption n, rest with
        | some o, v :: more =>
          if looksLikeOption v then .error ("a value is required for '--" ++ o ++ "' but none was supplied")
          else do scan (← setValue p o v) positionalOnly more
        | some o, [] => .error ("a value is required for '--" ++ o ++ "' but none was supplied")
        | none, _ => .error ("unexpected argument '" ++ arg ++ "' found")
    else if looksLikeOption arg then
      match arg.toList with
      | ['-', 'h'] => .ok (some .help, p)
      | ['-', 'V'] => .ok (some .version, p)
      | ['-', 'f'] =>
        match rest with
        | v :: more =>
          if looksLikeOption v then .error "a value is required for '--format' but none was supplied"
          else do scan (← setValue p "format" v) positionalOnly more
        | [] => .error "a value is required for '--format' but none was supplied"
      | '-' :: 'f' :: glued =>
        let v := match glued with
          | '=' :: more => more
          | cs => cs
        do scan (← setValue p "format" (String.ofList v)) positionalOnly rest
      | _ => .error ("unexpected argument '" ++ arg ++ "' found")
    else positional

/-- Parses the arguments after the program name. -/
def parse (argv : List String) : Command :=
  match scan {} false argv with
  | .error msg => .usage msg
  | .ok (some c, _) => c
  | .ok (none, p) =>
    match p.script with
    | none => .usage "the following required arguments were not provided:\n  <SCRIPT>"
    | some s => .run { script := s, format := p.format.getD .text, workers := p.workers, logJson := p.logJson }

end Args

end Encumbrance
