import Multidomain.Config.File

/-!
# The command line

A node is started with a list of words. An option that takes a value has it after an equals sign or
in the next word; a value is judged when the next option is met or the line ends, so that of two
mistakes the earlier one in that order is reported. No word stands on its own. Options override the
configuration file, and children add to those of the file.

The configuration that a node starts with is that of the file which the command line names, or the
defaults where it names none, with the options of the command line on top.
-/

namespace Multidomain

structure CommandLine where
  configFile : Option String := none
  listenPort : Option Nat := none
  abstraction : Option Abstraction := none
  children : List String := []
  seedTopology : Option String := none
  logJson : Bool := false
  deriving DecidableEq, Repr, Inhabited

namespace CommandLine

/-- What can be wrong with a command line. -/
inductive Fault where
  | helpWanted
  | unknownArgument
  | missingValue
  | invalidValue
  | repeated
  | unwantedValue
  deriving DecidableEq, Repr

/-- The options that take a value. -/
inductive Setting where
  | config | port | abstraction | child | seed
  deriving DecidableEq, Repr

def Setting.ofName? : String → Option Setting
  | "config" => some config
  | "port" => some port
  | "abstraction" => some abstraction
  | "child" => some child
  | "seed" => some seed
  | _ => none

def path? (value : String) : Except Fault String :=
  if value.isEmpty then .error .missingValue else .ok value

/-- A port, a sign allowed before it. -/
def port? (value : String) : Except Fault Nat :=
  match Text.readSigned value with
  | some i => if 0 ≤ i ∧ i.toNat ≤ Text.greatest 16 then .ok i.toNat else .error .invalidValue
  | none => .error .invalidValue

def abstraction? (value : String) : Except Fault Abstraction :=
  match Abstraction.ofName? value with
  | some a => .ok a
  | none => .error .invalidValue

def once {α : Type} (before : Option α) (read : String → Except Fault α) (value : String) :
    Except Fault (Option α) :=
  if before.isSome then .error .repeated else (read value).map some

def set (line : CommandLine) (setting : Setting) (value : String) : Except Fault CommandLine :=
  match setting with
  | .config => (once line.configFile path? value).map fun x => { line with configFile := x }
  | .port => (once line.listenPort port? value).map fun x => { line with listenPort := x }
  | .abstraction =>
    (once line.abstraction abstraction? value).map fun x => { line with abstraction := x }
  | .child => .ok { line with children := line.children ++ [value] }
  | .seed => (once line.seedTopology path? value).map fun x => { line with seedTopology := x }

/-- An option that has been named, and its value if that has been met. -/
abbrev Pending := Option (Setting × Option String)

/-- Judge the option that was named last. -/
def settle (line : CommandLine) : Pending → Except Fault CommandLine
  | none => .ok line
  | some (_, none) => .error .missingValue
  | some (setting, some value) => line.set setting value

inductive Word where
  /-- Two hyphens alone, after which no options follow. -/
  | separator
  /-- An option, and the value joined to it. -/
  | long (name : String) (value : Option String)
  /-- Letters after a single hyphen. -/
  | short (letters : List Char)
  | plain (text : String)
  deriving DecidableEq, Repr

def Word.of (text : String) : Word :=
  match text.toList with
  | ['-', '-'] => .separator
  | '-' :: '-' :: rest =>
    let name := String.ofList (rest.takeWhile (· ≠ '='))
    match rest.dropWhile (· ≠ '=') with
    | [] => .long name none
    | _ :: value => .long name (some (String.ofList value))
  | '-' :: c :: rest => .short (c :: rest)
  | _ => .plain text

/-- Read the words after those whose options are in `line`. -/
def readWords (line : CommandLine) (pending : Pending) : List String → Except Fault CommandLine
  | [] => settle line pending
  | word :: rest =>
    match Word.of word with
    | .separator => if rest.isEmpty then settle line pending else .error .unknownArgument
    | .plain value =>
      match pending with
      | some (setting, none) => readWords line (some (setting, some value)) rest
      | _ => .error .unknownArgument
    | .short letters =>
      if letters.head? = some 'h' then do
        let _ ← settle line pending
        .error .helpWanted
      else .error .unknownArgument
    | .long name value? =>
      match Setting.ofName? name, value? with
      | some setting, none => do readWords (← settle line pending) (some (setting, none)) rest
      | some setting, some value => do
        let line ← settle line pending
        readWords (← line.set setting value) none rest
      | none, some _ =>
        if name = "log-json" ∨ name = "help" then .error .unwantedValue else .error .unknownArgument
      | none, none =>
        if name = "log-json" then do
          let line ← settle line pending
          if line.logJson then .error .repeated
          else readWords { line with logJson := true } none rest
        else if name = "help" then do
          let _ ← settle line pending
          .error .helpWanted
        else .error .unknownArgument

def ofWords (words : List String) : Except Fault CommandLine := readWords {} none words

/-- The configuration of the file with the options on top. -/
def override (line : CommandLine) (c : Config) : Config :=
  { c with
    listenPort := line.listenPort.getD c.listenPort
    abstraction := line.abstraction.getD c.abstraction
    children := c.children ++ line.children
    seedTopology := line.seedTopology <|> c.seedTopology }

end CommandLine

inductive StartupFault where
  | commandLine (fault : CommandLine.Fault)
  /-- The configuration file is missing or ill formed. -/
  | configFile
  deriving DecidableEq, Repr

namespace CommandLine

def configuration (line : CommandLine) (files : String → Option String) :
    Except StartupFault Config :=
  match line.configFile with
  | none => .ok (line.override {})
  | some name =>
    match (files name).bind Config.ofToml? with
    | some base => .ok (line.override base)
    | none => .error .configFile

/-- The configuration that the words after the program's name lead to, given the texts of files. -/
def startup (words : List String) (files : String → Option String) : Except StartupFault Config :=
  match ofWords words with
  | .ok line => line.configuration files
  | .error fault => .error (.commandLine fault)

end CommandLine

end Multidomain
