import LoadGenerator.CommandLine.Arguments
import LoadGenerator.CommandLine.Duration
import LoadGenerator.Configuration.Environment
import LoadGenerator.Text.Integer

/-!
# Reading the command line

Options are read from left to right, each at most once, with the value after an equals sign or in the next argument. A few options can come from the environment where the command line does not have them. Asking for the version or for help ends the reading.
-/

namespace LoadGenerator.CommandLine

inductive Notice where
  | help
  | version
  /-- The command line cannot be understood. -/
  | usage
  /-- Reading a value broke off, and nothing is said about it. -/
  | abort
  deriving DecidableEq

/-- An option: its name, the variable that stands in for it, and how its value is taken. -/
structure Flag where
  name : String
  environmentKey : Option String := none
  take : String → Arguments → Except Notice Arguments

def Flag.ofReader (name : String) (environmentKey : Option String) (read : String → Except Notice α)
    (put : α → Arguments → Arguments) : Flag where
  name := name
  environmentKey := environmentKey
  take value arguments := (read value).map fun a => put a arguments

def Flag.of (name : String) (environmentKey : Option String) (read? : String → Option α) (put : α → Arguments → Arguments) :
    Flag :=
  .ofReader name environmentKey (fun value => (read? value).elim (.error .usage) .ok) put

def Flag.ofDuration (name : String) (environmentKey : Option String) (put : Nat → Arguments → Arguments) : Flag :=
  let notice : DurationFault → Notice
    | .malformed => .usage
    | .overrun => .abort
  .ofReader name environmentKey (fun value => (duration value).mapError notice) put

def flags : List Flag := [
  .of "addr" (some "BURNER_CLIENT_ADDR") some fun v a => { a with address := v },
  .ofDuration "timeout" (some "BURNER_CLIENT_TIMEOUT") fun v a => { a with timeout := v },
  .of "mode" (some "BURNER_CLIENT_MODE") CallMode.ofName? fun v a => { a with mode := v },
  .of "work-mode" none Load.Mode.ofName? fun v a => { a with workMode := v },
  .ofDuration "work-duration" none fun v a => { a with workDuration := v },
  .of "alloc-mb" none Text.signed32? fun v a => { a with allocMb := v },
  .of "parallelism" none Text.signed32? fun v a => { a with parallelism := v },
  .of "io-bytes" none Text.signed32? fun v a => { a with ioBytes := v },
  .ofDuration "latency" none fun v a => { a with latency := v },
  .of "error-rate" none Binary64.parse? fun v a => { a with errorRate := v },
  .of "repeat" none Text.signed32? fun v a => { a with times := v }]

/-- Arguments so far, with the names of the options that occurred. -/
structure Reading where
  arguments : Arguments := {}
  seen : List String := []

/-- Takes the value of an option that has not occurred before. -/
def Reading.put (reading : Reading) (flag : Flag) (value : String) : Except Notice Reading :=
  if reading.seen.contains flag.name then .error .usage
  else (flag.take value reading.arguments).map fun arguments => { arguments, seen := flag.name :: reading.seen }

inductive Word where
  | separator
  /-- An option, with the value after its equals sign if it has one. -/
  | option (name : String) (value : Option String)
  /-- One letter or more after a single hyphen. -/
  | letters (first : Char)
  | value (text : String)

def Word.of (argument : String) : Word :=
  match argument.toList with
  | ['-', '-'] => .separator
  | '-' :: '-' :: rest =>
    let after := match rest.dropWhile (· != '=') with
      | '=' :: text => some (String.ofList text)
      | _ => none
    .option (String.ofList (rest.takeWhile (· != '='))) after
  | '-' :: c :: _ => .letters c
  | _ => .value argument

def readArguments (reading : Reading) : List String → Except Notice Reading
  | [] => .ok reading
  | argument :: rest =>
    match Word.of argument with
    | .value _ => .error .usage
    | .separator => if rest.isEmpty then .ok reading else .error .usage
    | .letters c => .error (if c = 'V' then .version else if c = 'h' then .help else .usage)
    | .option name value =>
      match flags.find? fun flag => flag.name == name, value, rest with
      | none, none, _ =>
        .error (if name = "version" then .version else if name = "help" then .help else .usage)
      | none, some _, _ => .error .usage
      | some flag, some value, rest => do readArguments (← reading.put flag value) rest
      | some _, none, [] => .error .usage
      | some flag, none, next :: rest =>
        match Word.of next with
        | .value value => do readArguments (← reading.put flag value) rest
        | _ => .error .usage

/-- Takes options from the environment that the command line does not have. -/
def readEnvironment (env : Environment) (reading : Reading) : List Flag → Except Notice Reading
  | [] => .ok reading
  | flag :: rest =>
    match flag.environmentKey.bind env with
    | some value => do
      let reading ← if reading.seen.contains flag.name then .ok reading else reading.put flag value
      readEnvironment env reading rest
    | none => readEnvironment env reading rest

def parse (arguments : List String) (env : Environment) : Except Notice Arguments := do
  let reading ← readArguments {} arguments
  let reading ← readEnvironment env reading flags
  return reading.arguments

end LoadGenerator.CommandLine
