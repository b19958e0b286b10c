import MeshControl.Config.Reader
import MeshControl.Daemon

/-!
# The command line

The program runs the daemon, or checks a configuration and tells what it says.

## Main definitions

* `CommandLine.Invocation` — what is asked for.
* `CommandLine.parse` — what arguments ask for.
* `CommandLine.Invocation.perform` — the result, for the text of the configuration.
* `CommandLine.Result.exitCode`, `CommandLine.Result.output`, `CommandLine.Result.errors`.
-/

namespace MeshControl.CommandLine

inductive LogFormat where
  | text
  | json
  deriving DecidableEq, Inhabited

inductive Command where
  | run (config : Option String) (listen : Option SocketAddress)
  | checkConfig (config : String)
  deriving DecidableEq, Inhabited

structure Invocation where
  logFormat : LogFormat
  command : Command
  deriving DecidableEq, Inhabited

/-- Why arguments ask for nothing. -/
inductive Halt where
  /-- Help is asked for. -/
  | help
  /-- The arguments do not make sense. -/
  | usage
  deriving DecidableEq, Inhabited

/-! ## Arguments -/

/-- The form of an argument. -/
inductive Argument where
  /-- An option with a long name, and a value after an equals sign. -/
  | long (name : String) (value : Option String)
  /-- One or more letters after a dash. -/
  | short (letters : List Char)
  /-- Two dashes alone. -/
  | separator
  | plain (s : String)
  deriving DecidableEq

def Argument.ofString (s : String) : Argument :=
  match s.toList with
  | ['-', '-'] => separator
  | '-' :: '-' :: rest =>
    let name := String.ofList (rest.takeWhile (· ≠ '='))
    match rest.dropWhile (· ≠ '=') with
    | [] => long name none
    | _ :: value => long name (some (String.ofList value))
  | '-' :: c :: rest => short (c :: rest)
  | _ => plain s

/-- Whether an argument may be the value of the option before it. -/
def isValue (s : String) : Bool :=
  match Argument.ofString s with
  | .plain _ => true
  | _ => false

/-- The options that have been given. -/
structure Options where
  logFormat : Option LogFormat
  config : Option String
  listen : Option SocketAddress
  deriving DecidableEq, Inhabited

def Options.none : Options := ⟨.none, .none, .none⟩

/-- Give an option that may be given once. -/
def once {α : Type} (before : Option α) (value : Option α) : Except Halt (Option α) :=
  match before, value with
  | .none, some a => .ok (some a)
  | _, _ => .error .usage

def logFormat? (s : String) : Option LogFormat := [("text", .text), ("json", .json)].lookup s

def path? (s : String) : Option String := if s = "" then none else some s

def Options.give (o : Options) (name value : String) : Except Halt Options := do
  match name with
  | "log-format" => return { o with logFormat := ← once o.logFormat (logFormat? value) }
  | "config" => return { o with config := ← once o.config (path? value) }
  | "listen" => return { o with listen := ← once o.listen (SocketAddress.parse? value) }
  | _ => throw .usage

def shortOption : List Char → Halt
  | 'h' :: _ => .help
  | _ => .usage

/-- Take the options at the beginning of the arguments, as far as their names are known. -/
def takeOptions (names : List String) (o : Options) :
    List String → Except Halt (Options × List String)
  | [] => .ok (o, [])
  | arg :: rest =>
    match Argument.ofString arg with
    | .plain _ | .separator => .ok (o, arg :: rest)
    | .short letters => .error (shortOption letters)
    | .long "help" .none => .error .help
    | .long name value =>
      if !names.contains name then .error .usage
      else
        match value, rest with
        | some v, rest => (o.give name v).bind (takeOptions names · rest)
        | .none, v :: rest =>
          if isValue v then (o.give name v).bind (takeOptions names · rest) else .error .usage
        | .none, [] => .error .usage

/-- The options of a command, after which nothing may follow. -/
def commandOptions (names : List String) (args : List String) : Except Halt Options := do
  match ← takeOptions names .none args with
  | (o, []) => return o
  | (o, ["--"]) => return o
  | _ => throw .usage

/-- The commands that can be asked about. -/
def commandNames : List String := ["run", "check-config", "help"]

def parse (args : List String) : Except Halt Invocation := do
  let (before, rest) ← takeOptions ["log-format"] .none args
  let finish (o : Options) (command : Command) : Invocation :=
    ⟨(o.logFormat.or before.logFormat).getD .text, command⟩
  match rest with
  | "run" :: rest =>
    let o ← commandOptions ["log-format", "config", "listen"] rest
    return finish o (.run o.config o.listen)
  | "check-config" :: rest =>
    let o ← commandOptions ["log-format", "config"] rest
    match o.config with
    | some config => return finish o (.checkConfig config)
    | .none => throw .usage
  | ["help"] => throw .help
  | ["help", name] => if commandNames.contains name then throw .help else throw .usage
  | _ => throw .usage

/-! ## Results -/

/-- What comes of an invocation. -/
inductive Result where
  /-- A configuration was checked. -/
  | checked (path : String) (c : Config)
  | noConfig (problem : Config.Problem)
  | notStarted (failure : Daemon.StartFailure)
  | started (d : Daemon)
  deriving DecidableEq, Inhabited

def Invocation.configPath? (i : Invocation) : Option String :=
  match i.command with
  | .run config _ => config
  | .checkConfig config => some config

def configOf (path : String) (text : Except FileProblem String) : Except Config.Problem Config :=
  match text with
  | .error problem => .error (.unreadable path problem)
  | .ok text => Config.parse text

def startResult (host : Daemon.Host) (c : Config) : Result :=
  match Daemon.start host c with
  | .ok d => .started d
  | .error failure => .notStarted failure

/-- The result of an invocation, given the text of the file that it names. -/
def Invocation.perform (i : Invocation) (host : Daemon.Host) (text : Except FileProblem String) :
    Result :=
  match i.command with
  | .checkConfig path =>
    match configOf path text with
    | .ok c => .checked path c
    | .error problem => .noConfig problem
  | .run path listen =>
    match path.elim (.ok Config.standard) (configOf · text) with
    | .ok c => startResult host { c with listen := listen.getD c.listen }
    | .error problem => .noConfig problem

/-! ## What is shown -/

def exitSuccess : Nat := 0

def exitFailure : Nat := 1

def exitUsage : Nat := 2

def Halt.exitCode : Halt → Nat
  | help => exitSuccess
  | usage => exitUsage

def Result.exitCode : Result → Nat
  | checked _ _ | started _ => exitSuccess
  | noConfig _ | notStarted _ => exitFailure

/-- What a configuration says, in one line. -/
def summary (c : Config) : String :=
  let scheduler := c.scheduler.url.getD "none"
  s!"listen {c.listen.text}, scheduler {scheduler}, " ++
    s!"{c.certificates.fixed.length} cert pairs, {c.policies.length} policies"

def Result.output : Result → String
  | checked path c => s!"{path}: ok ({summary c})\n"
  | noConfig _ | notStarted _ | started _ => ""

/-- The report of a failure, with what it was caused by. -/
def report (message : String) (cause : Option String) : String :=
  s!"Error: {message}\n" ++ cause.elim "" fun c => s!"\nCaused by:\n    {c}\n"

def problemReport : Config.Problem → String
  | .unreadable path problem => report s!"read {path}: {problem.message}" problem.message
  | .malformed detail => report ("parse config: " ++ detail.getD "not a configuration") none
  | .invalid why => report s!"invalid config: {why.message}" none

def Result.errors : Result → String
  | checked _ _ | started _ => ""
  | noConfig problem => problemReport problem
  | notStarted failure => report failure.message none

end MeshControl.CommandLine
