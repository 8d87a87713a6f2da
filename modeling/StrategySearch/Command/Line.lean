import StrategySearch.Command.Arguments
import StrategySearch.Command.Basic

/-! Command lines: which command they ask for, with which settings, and how a command ends. -/

set_option autoImplicit false

namespace StrategySearch

structure CommandLine where
  command : Command
  overrides : Settings

namespace CommandLine

def word? (s : String) : Option Nat := Text.unsigned? UInt64.size s

def path? (s : String) : Option String := if s.isEmpty then none else some s

/-- A number of 32 bits; zero may have either sign. -/
def foldCount? (s : String) : Option Nat :=
  match s.toList with
  | '-' :: digits => (Text.natural? digits).filter (· == 0)
  | _ => Text.unsigned? UInt32.size s

def analyzeNames : ArgumentNames := ⟨["json"], ["top"], []⟩

def searchNames : ArgumentNames :=
  ⟨[], ["space", "iterations", "proposer", "seed", "folds", "start", "end", "output"],
    [('n', "iterations"), ('o', "output")]⟩

def cancelNames : ArgumentNames := ⟨[], [], []⟩

def strategiesNames : ArgumentNames := ⟨["current"], [], []⟩

def plain (command : Command) : CommandLine := ⟨command, ∅⟩

def analyze? (args : Arguments) : Option CommandLine :=
  match args.positional with
  | [job] => do
    let top ← args.value? "top" word?
    return plain (.analyze job (top.getD 10) (args.hasFlag "json"))
  | _ => none

def overrides? (args : Arguments) : Option Settings := do
  let folds ← args.value? "folds" foldCount?
  let start ← args.value? "start" Date.ofSpaced?
  let stop ← args.value? "end" Date.ofSpaced?
  return ByName.ofList ((folds.map fun n => (Settings.foldsKey, toString n)).toList ++
    (start.map fun d => (Settings.startKey, d.text)).toList ++
    (stop.map fun d => (Settings.stopKey, d.text)).toList)

def search? (args : Arguments) : Option CommandLine :=
  match args.positional with
  | [strategy] => do
    let space ← (← args.value? "space" path?)
    let iterations ← args.value? "iterations" word?
    let proposer ← args.value? "proposer" fun s => (ProposerKind.parse s).toOption
    let seed ← args.value? "seed" word?
    let output ← args.value? "output" path?
    return ⟨.search ⟨strategy, space, iterations.getD 50, proposer.getD .standard,
      seed.map UInt64.ofNat, output⟩, ← overrides? args⟩
  | _ => none

def cancel? (args : Arguments) : Option CommandLine :=
  if args.positional.isEmpty then none else some (plain (.cancel args.positional))

def strategies? (args : Arguments) : Option CommandLine :=
  if args.positional.isEmpty then some (plain (.strategies (args.hasFlag "current"))) else none

def ofWords? : List String → Option CommandLine
  | "analyze" :: rest => (Arguments.ofWords? analyzeNames rest).bind analyze?
  | "search" :: rest => (Arguments.ofWords? searchNames rest).bind search?
  | "cancel" :: rest => (Arguments.ofWords? cancelNames rest).bind cancel?
  | "strategies" :: rest => (Arguments.ofWords? strategiesNames rest).bind strategies?
  | _ => none

end CommandLine

structure Ending where
  code : Nat
  message : Option String
  deriving DecidableEq

namespace Ending

def success : Ending := ⟨0, none⟩

def misused : Ending :=
  ⟨2, some "usage: analyze JOB [--top N] [--json] | search STRATEGY --space PATH [options] | cancel JOB... | strategies [--current]"⟩

/-- A fault has a code of its own. -/
def ofComplaint (c : Complaint) : Ending :=
  if c.cause = .stop .fault then ⟨101, some s!"fatal: {c.cause.message}"⟩ else ⟨1, some c.text⟩

end Ending

namespace Machine

variable {m : Type → Type} [Monad m]

def session (machine : Machine m) (overrides : Settings) : Session m :=
  ⟨machine, (Settings.ofEnvironment machine.environment).override overrides⟩

def execute (machine : Machine m) (words : List String) : m Ending :=
  match CommandLine.ofWords? words with
  | none => pure .misused
  | some line => do
    match ← ((machine.session line.overrides).run line.command).run with
    | .ok () => pure .success
    | .error complaint => pure (.ofComplaint complaint)

end Machine
end StrategySearch
