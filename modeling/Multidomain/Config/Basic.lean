import Multidomain.Json.Record
import Multidomain.Orchestration.Abstraction
import Multidomain.Toml.Basic

/-!
# Configuration

The settings of a node, in four sections. Every section and every setting may be left out and then
has its default. A configuration is read alike from JSON and from TOML; a `Source` says how the
values of such a format are taken apart.
-/

namespace Multidomain

structure Config where
  listenPort : Nat := 8888
  /-- The port of children whose address carries none. -/
  childPort : Nat := 8888
  abstraction : Abstraction := .explicit
  children : List String := []
  settleDelayMillis : Nat := 500
  /-- The time between two polls; zero means that the children are not polled. -/
  pollIntervalSeconds : Nat := 10
  requestTimeoutMillis : Nat := 5000
  workerPoolSize : Nat := 128
  /-- The application that generated flow rules belong to. -/
  appName : String := "strata.orch"
  seedTopology : Option String := none
  deriving DecidableEq, Repr, Inhabited

namespace Config

/-- How the values of a format are taken apart. -/
structure Source (ν : Type) where
  /-- The fields of a record with these declared names. -/
  record? : List String → ν → Option (List (String × ν))
  nat? : Nat → ν → Option Nat
  text? : ν → Option String
  word? : ν → Option String
  list? : ν → Option (List ν)
  isNull : ν → Bool

namespace Source

variable {ν α : Type} (source : Source ν)

/-- A field of a record, or what stands in for it when it is absent. -/
def field (fields : List (String × ν)) (name : String) (standIn : α) (read : ν → Option α) :
    Option α :=
  match fields.lookup name with
  | none => some standIn
  | some value => read value

/-- A section, which is a record of settings; `[]` stands in for it when it is absent. -/
def sectionFields (fields : List (String × ν)) (name : String) (names : List String) :
    Option (List (String × ν)) :=
  field fields name [] (source.record? names)

def abstraction? (value : ν) : Option Abstraction := (source.word? value).bind Abstraction.ofName?

/-- A setting that may be said to be absent. -/
def optionalText? (value : ν) : Option (Option String) :=
  if source.isNull value then some none else (source.text? value).map some

def config? (value : ν) : Option Config := do
  let standard : Config := {}
  let sections ← source.record? ["server", "orchestration", "provisioning", "seed"] value
  let server ← source.sectionFields sections "server" ["listen_port"]
  let orchestration ← source.sectionFields sections "orchestration"
    ["child_port", "abstraction", "children", "settle_delay_ms", "poll_interval_secs",
      "request_timeout_ms", "worker_pool_size"]
  let provisioning ← source.sectionFields sections "provisioning" ["app_name"]
  let seed ← source.sectionFields sections "seed" ["topology"]
  let port? := source.nat? (Text.greatest 16)
  let count? := source.nat? (Text.greatest 64)
  let children? (value : ν) := (source.list? value).bind (·.mapM source.text?)
  return {
    listenPort := ← field server "listen_port" standard.listenPort port?
    childPort := ← field orchestration "child_port" standard.childPort port?
    abstraction := ← field orchestration "abstraction" standard.abstraction source.abstraction?
    children := ← field orchestration "children" standard.children children?
    settleDelayMillis := ← field orchestration "settle_delay_ms" standard.settleDelayMillis count?
    pollIntervalSeconds := ←
      field orchestration "poll_interval_secs" standard.pollIntervalSeconds count?
    requestTimeoutMillis := ←
      field orchestration "request_timeout_ms" standard.requestTimeoutMillis count?
    workerPoolSize := ← field orchestration "worker_pool_size" standard.workerPoolSize count?
    appName := ← field provisioning "app_name" standard.appName source.text?
    seedTopology := ← field seed "topology" standard.seedTopology source.optionalText? }

end Source

def jsonSource : Source Json where
  record? names value := Json.record? names value
  nat? := Json.nat?
  text? := Json.text?
  word? := Json.word?
  list? := Json.list? some
  isNull value := value == .null

def read? (value : Json) : Option Config := jsonSource.config? value

def toJson (c : Config) : Json :=
  .object [
    ("server", .object [("listen_port", .nat c.listenPort)]),
    ("orchestration", .object [
      ("child_port", .nat c.childPort),
      ("abstraction", .string c.abstraction.name),
      ("children", .array (c.children.map .string)),
      ("settle_delay_ms", .nat c.settleDelayMillis),
      ("poll_interval_secs", .nat c.pollIntervalSeconds),
      ("request_timeout_ms", .nat c.requestTimeoutMillis),
      ("worker_pool_size", .nat c.workerPoolSize)]),
    ("provisioning", .object [("app_name", .string c.appName)]),
    ("seed", .object [("topology", (c.seedTopology.map Json.string).getD .null)])]

end Config

end Multidomain
