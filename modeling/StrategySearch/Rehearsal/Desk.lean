import StrategySearch.Command.Machine
import StrategySearch.Rehearsal.Place
import StrategySearch.Rehearsal.Switchboard

/-! A machine whose files and host are prepared and whose output is kept. Files lie in the working
directory and in directories below it; what else there is on the machine is empty. -/

set_option autoImplicit false

namespace StrategySearch.Rehearsal

structure Desk where
  switchboard : Switchboard
  files : List (Place × String)
  printed : String

namespace Desk

def missing : String := "No such file or directory (os error 2)"
def notDirectory : String := "Not a directory (os error 20)"
def isDirectory : String := "Is a directory (os error 21)"
def tooLong : String := "File name too long (os error 36)"
def brokenName : String := "file name contained an unexpected NUL byte"

def maxPath : Nat := 4095

def maxName : Nat := 255

inductive Entry where
  | directory
  | file (text : String)
  | nothing

/-- Every ground is a directory, and so is what has a file below it. -/
def entry (d : Desk) (p : Place) : Entry :=
  if p.names.isEmpty || d.files.any fun file =>
      file.1.ground == p.ground && file.1.names != p.names && p.names.isPrefixOf file.1.names then
    .directory
  else match d.files.lookup p with
    | some text => .file text
    | none => .nothing

def child (p : Place) (name : String) : Except String Place :=
  if maxName < name.utf8ByteSize then .error tooLong else .ok (p.child name)

def enter (d : Desk) (p : Place) (name : String) : Except String Place :=
  if name = "." then .ok p
  else if name = ".." then .ok p.parent
  else do
    let place ← child p name
    match d.entry place with
    | .directory => return place
    | .file _ => .error notDirectory
    | .nothing => .error missing

inductive Target where
  | directory
  | named (parent : Place) (name : String) (slashed : Bool)

/-- Walks down to the last name, which need not exist. -/
def target (d : Desk) (path : String) : Except String Target :=
  if path.toList.contains '\x00' then .error brokenName
  else if path.isEmpty then .error missing
  else if maxPath < path.utf8ByteSize then .error tooLong
  else do
    let p := Path.ofString path
    let parent ← p.names.dropLast.foldlM d.enter p.start
    match p.names.getLast? with
    | none | some "." | some ".." => return .directory
    | some name => return .named parent name p.slashed

def read (d : Desk) (path : String) : Except String String := do
  match ← d.target path with
  | .directory => .error isDirectory
  | .named parent name slashed =>
    match d.entry (← child parent name) with
    | .directory => .error isDirectory
    | .nothing => .error missing
    | .file text => if slashed then .error notDirectory else return text

def write (d : Desk) (path text : String) : Except String Desk := do
  match ← d.target path with
  | .directory => .error isDirectory
  | .named parent name slashed =>
    if slashed then .error isDirectory
    else
      let place ← child parent name
      match d.entry place with
      | .directory => .error isDirectory
      | _ => return { d with files := d.files.filter (·.1 != place) ++ [(place, text)] }

def listing (d : Desk) : List (String × String) :=
  d.files.filterMap fun (place, text) =>
    if place.ground = .above 0 then some ("/".intercalate place.names, text) else none

def onSwitchboard {α : Type} (step : StateM Switchboard α) : StateM Desk α := fun d =>
  let (a, switchboard) := step d.switchboard
  (a, { d with switchboard := switchboard })

def transport : Http.Transport (StateM Desk) where
  send request := onSwitchboard (Switchboard.send request)
  pause _ := pure ()

def machine (environment : String → Option String) : Machine (StateM Desk) where
  environment := environment
  print text := modify fun d => { d with printed := d.printed ++ text }
  content path := return (← get).read path
  store path text := fun d =>
    match d.write path text with
    | .ok d' => (.ok (), d')
    | .error reason => (.error reason, d)
  connect _ _ := transport
  entropy := pure 0
  verbose := false
  wording := .brief

end Desk
end StrategySearch.Rehearsal
