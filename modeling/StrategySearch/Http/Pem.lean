import StrategySearch.Text

/-! Text files with certificates and keys in labelled sections. What stands between sections is
ignored. -/

set_option autoImplicit false

namespace StrategySearch.Pem

def beginMark : List Char := "-----BEGIN ".toList
def endMark : List Char := "-----END ".toList
def rule : List Char := "-----".toList

/-- Line feeds and carriage returns both end a line. -/
def lines (text : String) : List (List Char) :=
  Text.splitOff '\n' (text.toList.map fun c => if c = '\r' then '\n' else c)

def isRuleChar (c : Char) : Bool := c == '-' || c == ' '

/-- The label of a first line, which ends in five hyphens; blanks between and behind them do not
count. -/
def label? (line : List Char) : Option (List Char) :=
  let body := Text.dropEndWhile isRuleChar line
  let tail := line.drop body.length
  if tail.count '-' = rule.length then
    some ((body ++ tail.takeWhile (· != '-')).drop beginMark.length)
  else none

/-- The labels of the sections, given the label of the open one. A section without an end and a
bad first line spoil the text. -/
def labels? : Option (List Char) → List (List Char) → Option (List String)
  | none, [] => some []
  | some _, [] => none
  | current, line :: rest =>
    if beginMark.isPrefixOf line then
      match label? line with
      | some label => labels? (some label) rest
      | none => none
    else
      match current with
      | none => labels? none rest
      | some label =>
        if (endMark ++ label ++ rule).isPrefixOf line then
          (labels? none rest).map (String.ofList label :: ·)
        else labels? current rest

def certificate : String := "CERTIFICATE"

def keys : List String := ["PRIVATE KEY", "EC PRIVATE KEY", "RSA PRIVATE KEY"]

def isIdentity (text : String) : Bool :=
  match labels? none (lines text) with
  | none => false
  | some labels => labels.contains certificate && labels.any keys.contains

end StrategySearch.Pem
