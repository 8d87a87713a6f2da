import StrategySearch.Text

/-! Arguments of a command line, sorted into positional ones, flags, and options with values. A name
stands at most once. Behind a bare double hyphen all arguments are positional. -/

set_option autoImplicit false

namespace StrategySearch

structure ArgumentNames where
  flags : List String
  options : List String
  letters : List (Char × String)

inductive Argument where
  | positional (text : String)
  | flag (name : String)
  | option (name : String) (value : Option String)
  deriving DecidableEq

namespace Argument

/-- A hyphen with something behind it. A lone hyphen is a value like any other. -/
def isOption (arg : String) : Bool :=
  match arg.toList with
  | '-' :: _ :: _ => true
  | _ => false

def splitValue (cs : List Char) : String × Option String :=
  let name := cs.takeWhile (· != '=')
  match cs.drop name.length with
  | _ :: value => (String.ofList name, some (String.ofList value))
  | [] => (String.ofList name, none)

def ofLong? (names : ArgumentNames) (cs : List Char) : Option Argument :=
  let (name, value) := splitValue cs
  if names.options.contains name then some (.option name value)
  else if names.flags.contains name ∧ value = none then some (.flag name)
  else none

def ofLetter? (names : ArgumentNames) (letter : Char) (cs : List Char) : Option Argument :=
  (names.letters.lookup letter).map fun name =>
    .option name (match cs with
      | [] => none
      | '=' :: value => some (String.ofList value)
      | value => some (String.ofList value))

def ofString? (names : ArgumentNames) (arg : String) : Option Argument :=
  match arg.toList with
  | '-' :: '-' :: cs => ofLong? names cs
  | '-' :: letter :: cs => ofLetter? names letter cs
  | _ => some (.positional arg)

end Argument

structure Arguments where
  positional : List String
  flags : List String
  options : List (String × String)
  deriving DecidableEq

namespace Arguments

def empty : Arguments := ⟨[], [], []⟩

def addFlag? (found : Arguments) (name : String) : Option Arguments :=
  if found.flags.contains name then none else some { found with flags := name :: found.flags }

def addOption? (found : Arguments) (name value : String) : Option Arguments :=
  if (found.options.lookup name).isSome then none
  else some { found with options := (name, value) :: found.options }

/-- Reads words on, first of them the value of an option that waits for one. Such a value looks
like no option. -/
def read? (names : ArgumentNames) : Option String → Arguments → List String → Option Arguments
  | none, found, [] => some found
  | some _, _, [] => none
  | some name, found, word :: rest =>
    if Argument.isOption word then none
    else do read? names none (← found.addOption? name word) rest
  | none, found, word :: rest =>
    if word = "--" then some { found with positional := found.positional ++ rest }
    else
      match Argument.ofString? names word with
      | none => none
      | some (.positional text) =>
        read? names none { found with positional := found.positional ++ [text] } rest
      | some (.flag name) => do read? names none (← found.addFlag? name) rest
      | some (.option name (some value)) => do
        read? names none (← found.addOption? name value) rest
      | some (.option name none) => read? names (some name) found rest

def ofWords? (names : ArgumentNames) (words : List String) : Option Arguments :=
  read? names none empty words

def hasFlag (found : Arguments) (name : String) : Bool := found.flags.contains name

def value? {α : Type} (found : Arguments) (name : String) (read : String → Option α) :
    Option (Option α) :=
  match found.options.lookup name with
  | none => some none
  | some text => (read text).map some

end Arguments
end StrategySearch
