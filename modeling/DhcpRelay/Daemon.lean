import DhcpRelay.Config.File
import DhcpRelay.Manager.Basic
import DhcpRelay.Watch.Feed

/-!
# The daemon

Starting reads the command line and the configuration file, lists the interfaces once, and applies
the configuration of both families, IPv4 first. A listing that fails does not keep the daemon from
starting; the interfaces come with a later one. While it runs it takes interface events, and on
request reads the file again and applies what changed since the last file that could be loaded. A
file that cannot be loaded changes nothing.
-/

namespace DhcpRelay

open Watch (Feed PollAnswer)

/-! ## The command line -/

/-- Why the command line is refused. -/
inductive ArgumentError where
  /-- An option that takes a path stands last. -/
  | missingPath (option : String)
  | unknown (argument : String)
  deriving DecidableEq, Repr

/-- The wording of a refusal. -/
def ArgumentError.message : ArgumentError → String
  | .missingPath option => option ++ " requires a path"
  | .unknown argument => "unknown argument: " ++ argument

/-- What the command line says. -/
structure Arguments where
  configPath : String
  /-- Whether recording processors stand in for the protocol processors. -/
  dryRun : Bool := false
  deriving DecidableEq, Repr

/-- Reads the arguments one after another; later ones win. -/
def Arguments.read (a : Arguments) : List String → Except ArgumentError Arguments
  | [] => .ok a
  | argument :: rest =>
    if argument = "-c" ∨ argument = "--config" then
      match rest with
      | [] => .error (.missingPath argument)
      | path :: rest => read { a with configPath := path } rest
    else if argument = "--dry-run" then read { a with dryRun := true } rest
    else .error (.unknown argument)

/-- Reads the command line, given the value of the environment variable that names the file. -/
def Arguments.parse (fromEnvironment : Option String) (arguments : List String) :
    Except ArgumentError Arguments :=
  Arguments.read ⟨configPathOrDefault fromEnvironment, false⟩ arguments

/-! ## Running -/

/-- The state of the daemon. -/
structure Daemon (σ₄ σ₆ : Type) where
  manager : Manager σ₄ σ₆
  feed : Feed := {}
  config : DaemonConfig

/-- What a step of the daemon was. -/
inductive Step where
  | started
  | reloaded
  | reloadFailed
  deriving DecidableEq, Repr

/-- The wording of a step. -/
def Step.text : Step → String
  | .started => "started"
  | .reloaded => "reloaded"
  | .reloadFailed => "reload failed"

/-- What a step rejected, with the family of each record. -/
abbrev Rejections := List (Family × Rejection)

namespace Daemon

variable {σ₄ σ₆ : Type}

/-- Lists the interfaces and takes the events. -/
def observe (l : Lifecycles σ₄ σ₆) (d : Daemon σ₄ σ₆) (answer : PollAnswer) : Daemon σ₄ σ₆ :=
  match d.feed.poll answer with
  | (.error _, feed) => { d with feed }
  | (.ok events, feed) => { d with feed, manager := d.manager.notifyAll l events }

/-- An operation on the agent of each family in turn. -/
def onFamilies (f : Family → Manager σ₄ σ₆ → List Rejection × Manager σ₄ σ₆)
    (m : Manager σ₄ σ₆) : Rejections × Manager σ₄ σ₆ :=
  let (rejected₄, m) := f .v4 m
  let (rejected₆, m) := f .v6 m
  (rejected₄.map (.v4, ·) ++ rejected₆.map (.v6, ·), m)

/-- Starts with the given configuration and the first listing. -/
def start (l : Lifecycles σ₄ σ₆) (manager : Manager σ₄ σ₆) (config : DaemonConfig)
    (answer : PollAnswer) : Rejections × Daemon σ₄ σ₆ :=
  let d := observe l { manager, config } answer
  let (rejected, manager) := onFamilies (fun f m => m.init l f (config.family f)) d.manager
  (rejected, { d with manager })

/-- Reads the configuration file again. -/
def reload (l : Lifecycles σ₄ σ₆) (d : Daemon σ₄ σ₆) (file : FileContent) :
    Step × Rejections × Daemon σ₄ σ₆ :=
  match DaemonConfig.load file with
  | .error _ => (.reloadFailed, [], d)
  | .ok config =>
    let (rejected, manager) :=
      onFamilies (fun f m => m.reload l f (d.config.family f) (config.family f)) d.manager
    (.reloaded, rejected, { d with manager, config })

end Daemon

end DhcpRelay
