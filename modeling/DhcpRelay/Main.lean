import DhcpRelay.Daemon
import DhcpRelay.Json.Printer
import DhcpRelay.Manager.Status

/-!
# The command line program

The outer layer: it reads the arguments, the environment and the configuration file, and then takes
its standard input line by line. A line is `reload`, `status`, or an interface listing; the first
line is the listing with which the daemon starts. Each step is reported on standard output.
-/

namespace DhcpRelay

open Watch (PollAnswer)

/-- Reads a file. -/
def readContent (path : String) : IO FileContent := do
  try
    return .octets (← IO.FS.readBinFile path).toList
  catch
    | .noFileOrDirectory .. => return .missing
    | e => return .unreadable (toString e)

/-- The listing that a line holds. -/
def listingOfLine (line : String) : PollAnswer := .exited 0 (Utf8.encode line) []

/-- Reports what was rejected. -/
def reportRejections (rejected : Rejections) : IO Unit :=
  rejected.forM fun (family, e) =>
    IO.eprintln ("Rejected " ++ family.name ++ " relay config: " ++ e.message)

/-- Takes lines until there are no more. -/
partial def serve {σ₄ σ₆ : Type} (l : Lifecycles σ₄ σ₆) (status : Manager σ₄ σ₆ → Json)
    (path : String) (d : Daemon σ₄ σ₆) : IO Unit := do
  let line ← (← IO.getStdin).getLine
  if line.isEmpty then return
  match line.trimAscii.toString with
  | "reload" =>
    let (step, rejected, d) := d.reload l (← readContent path)
    reportRejections rejected
    IO.println step.text
    serve l status path d
  | "status" =>
    IO.println (status d.manager).render
    serve l status path d
  | listing => serve l status path (d.observe l (listingOfLine listing))

/-- Starts with the given processors and serves. -/
def runWith {σ₄ σ₆ : Type} (l : Lifecycles σ₄ σ₆) (report₄ : σ₄ → Report) (report₆ : σ₆ → Report)
    (manager : Manager σ₄ σ₆) (path : String) (config : DaemonConfig) : IO Unit := do
  let line ← (← IO.getStdin).getLine
  let (rejected, d) := Daemon.start l manager config (listingOfLine line)
  reportRejections rejected
  IO.println Step.started.text
  serve l (Manager.status l report₄ report₆) path d

/-- Reports a failure and gives the exit code that goes with it. -/
def failWith (message : String) : IO UInt32 := do
  IO.eprintln ("Error: " ++ message)
  return 1

/-- The program. -/
def runDaemon (arguments : List String) : IO UInt32 := do
  match Arguments.parse (← IO.getEnv "DHCRELAYD_CONFIG") arguments with
  | .error e => failWith e.message
  | .ok a =>
    match DaemonConfig.load (← readContent a.configPath) with
    | .error e => failWith (e.message a.configPath)
    | .ok config =>
      if a.dryRun then
        runWith .dryRun Recorder.report Recorder.report (.fresh {} {}) a.configPath config
      else
        runWith .offline V4.Processor.report V6.Processor.report (.fresh {} {}) a.configPath config
      return 0

end DhcpRelay

/-- The entry point. -/
def main (arguments : List String) : IO UInt32 := DhcpRelay.runDaemon arguments
