import MarketTape.Replay
import MarketTape.Settings.Text
import MarketTape.Text.Terminal

/-!
# The command line

The program takes the path of the settings and, optionally, a path for the report.  It prints the
report unless it is written to a file.

* `CommandLine.parse` reads the arguments.
* `CommandLine.run` is the whole program on a file tree; `Exit` is what a caller sees of it.
-/

namespace MarketTape

namespace CommandLine

/-- What the arguments ask for. -/
structure Request where
  settingsPath : String
  reportPath : Option String
  deriving DecidableEq, Repr

def usage : String := "usage: tick-replay <config.json> [--output report.json]"

/-- Reads arguments one after the other, given what was found so far. -/
def parseFrom (settings report : Option String) : List String → Except String Request
  | [] =>
    match settings with
    | some settingsPath => .ok ⟨settingsPath, report⟩
    | none => .error usage
  | arg :: rest =>
    if arg = "--output" ∨ arg = "-o" then
      match rest with
      | [] => .error "--output requires a path"
      | path :: rest => parseFrom settings (some path) rest
    else if arg = "--help" ∨ arg = "-h" then .error usage
    else if settings.isNone then parseFrom (some arg) report rest
    else .error ("unexpected argument '" ++ arg ++ "'")

def parse (args : List String) : Except String Request := parseFrom none none args

/-- What a caller sees of the program.  The exit status is 0 for a clean report, 1 for one with
violations and 2 for none; the files are those afterwards. -/
structure Exit where
  status : Nat
  output : String
  errors : List String
  files : FileTree

/-- An error together with what caused it.  A problem with a file is its own cause. -/
def chain (e : Error) : String :=
  match e.kind, e.detail with
  | .file, some detail => e.message ++ ": " ++ detail
  | _, _ => e.message

/-- The end without a report; the message is logged. -/
def stopped (files : FileTree) (message : String) : Exit :=
  ⟨2, "", [Text.forTerminal message], files⟩

/-- The end without a report because of an error in one of the steps. -/
def failed (files : FileTree) (step error : String) : Exit :=
  stopped files (step ++ ": " ++ error)

def load (files : FileTree) (path : String) : Except Error Settings :=
  match files.readText path with
  | .error problem => .error (.file none problem)
  | .ok text =>
    match Settings.read? text with
    | some settings => .ok settings
    | none => .error .unreadableSettings

/-- The end with a report whose text was printed or written. -/
def reported (files : FileTree) (output : String) (isClean : Bool) : Exit :=
  if isClean then ⟨0, output, [], files⟩
  else ⟨1, output, ["run finished with invariant violations"], files⟩

/-- Prints the report or writes it to a file. -/
def deliver (files : FileTree) (request : Request) (report : Report Float) : Exit :=
  let text := report.toJson.prettyText
  match request.reportPath with
  | none => reported files (text ++ "\n") report.isClean
  | some path =>
    match files.write path (Node.bytesOf text) with
    | .ok files => reported files "" report.isClean
    | .error problem => failed files ("writing report " ++ path) problem.message

/-- The program.  A count that leaves its range ends it without a report and without a message. -/
def run (args : List String) (files : FileTree) : Exit :=
  match parse args with
  | .error message => stopped files message
  | .ok request =>
    match load files request.settingsPath with
    | .error e => failed files ("loading config " ++ request.settingsPath) (chain e)
    | .ok settings =>
      match Replay.make settings builtins with
      | .error e => failed files "invalid configuration" (chain e)
      | .ok replay =>
        match replay.run files with
        | (files, .error e) => failed files "replay failed" (chain e)
        | (files, .ok .overflowed) => ⟨101, "", [], files⟩
        | (files, .ok (.finished report _)) => deliver files request report

end CommandLine

end MarketTape
