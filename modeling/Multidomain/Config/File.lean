import Multidomain.Config.Basic
import Multidomain.Toml.Reader
import Multidomain.Toml.Writer

/-!
# Configuration files

A configuration file is a TOML document. In TOML a record may also be an array of its fields that
runs on past the declared ones, a date counts as a record of no fields, and a choice of a word may
be a table whose only key is the word and whose value is empty.
-/

namespace Multidomain.Config

def isEmptyToml : Toml → Bool
  | .table _ [] => true
  | .array [] => true
  | _ => false

def tomlSource : Source Toml where
  record? names
    | .table _ fields => some fields
    | .array items => some (names.zip items)
    | .tables elements => some (names.zip elements)
    | .moment _ => some []
    | _ => none
  nat? limit
    | .integer value => if 0 ≤ value ∧ value.toNat ≤ limit then some value.toNat else none
    | _ => none
  text?
    | .text s => some s
    | _ => none
  word?
    | .text s => some s
    | .table _ [(name, value)] => if isEmptyToml value then some name else none
    | _ => none
  list?
    | .array items => some items
    | .tables elements => some elements
    | _ => none
  isNull _ := false

def ofToml? (text : String) : Option Config := (Toml.parse? text).bind tomlSource.config?

/-- A section of a file: its name in brackets and a line for each setting. -/
def fileSection (name : String) (settings : List (String × String)) : String :=
  "[" ++ name ++ "]\n"
    ++ String.join (settings.map fun (key, value) => key ++ " = " ++ value ++ "\n")

/-- The text of a file that holds the configuration. -/
def toToml (c : Config) : String :=
  "\n".intercalate [
    fileSection "server" [("listen_port", Text.decimal c.listenPort)],
    fileSection "orchestration" [
      ("child_port", Text.decimal c.childPort),
      ("abstraction", Toml.quote c.abstraction.name),
      ("children", Toml.quoteList c.children),
      ("settle_delay_ms", Text.decimal c.settleDelayMillis),
      ("poll_interval_secs", Text.decimal c.pollIntervalSeconds),
      ("request_timeout_ms", Text.decimal c.requestTimeoutMillis),
      ("worker_pool_size", Text.decimal c.workerPoolSize)],
    fileSection "provisioning" [("app_name", Toml.quote c.appName)],
    fileSection "seed" ((c.seedTopology.map fun path => ("topology", Toml.quote path)).toList)]

end Multidomain.Config
