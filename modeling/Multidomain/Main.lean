import Multidomain.Config.CommandLine
import Multidomain.Rest.Dialogue
import Multidomain.Topology.Seed

/-!
# The node as a program

Reads the configuration that the command line leads to, plants the seed, adds the configured
children and then acts on the lines of standard input until they end.
-/

open Multidomain

namespace Multidomain.Program

/-- The text of a file, if it can be read. -/
def fileText? (name : String) : IO (Option String) := do
  try
    return some (← IO.FS.readFile name)
  catch _ =>
    return none

/-- The session that a configuration starts with; none if its seed cannot be read. -/
def openSession? (config : Config) : IO (Option Session) := do
  let session := Session.ofConfig config
  match config.seedTopology with
  | none => return some session
  | some name =>
    match ((← fileText? name).bind Json.ofText?).bind Seed.read? with
    | none => return none
    | some seed =>
      let (topology, events, _) := seed.plant session.domain.topology
      return some (session.onTopology fun _ => (topology, events)).1

/-- Put lines out. -/
def putLines (lines : List String) : IO Unit := do
  for line in lines do
    IO.println line
  (← IO.getStdout).flush

/-- Act on the lines of standard input until they end. -/
partial def run (session : Session) : IO Unit := do
  let line ← (← IO.getStdin).getLine
  if line.isEmpty then return
  match NodeInput.ofLine? line with
  | none => run session
  | some input =>
    let (session, lines) := session.act input
    putLines lines
    run session

end Multidomain.Program

open Multidomain.Program in
/-- Start a node with the words after the program's name. -/
def main (words : List String) : IO UInt32 := do
  match CommandLine.ofWords words with
  | .error .helpWanted =>
    IO.println "options: --config FILE --port PORT --abstraction WORD --child ADDRESS --seed FILE"
    return 0
  | .error _ =>
    IO.eprintln "the command line is not understood"
    return 2
  | .ok line =>
    let text ← match line.configFile with
      | none => pure none
      | some name => fileText? name
    match line.configuration fun _ => text with
    | .error _ =>
      IO.eprintln "the configuration cannot be read"
      return 1
    | .ok config =>
      match ← openSession? config with
      | none =>
        IO.eprintln "the seed topology cannot be read"
        return 1
      | some session =>
        if config.children.isEmpty then run session
        else
          let (session, inquiries) := session.addChildren config.children
          putLines (inquiries.map session.inquiryLine)
          run session
        return 0
