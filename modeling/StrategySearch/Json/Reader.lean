import StrategySearch.Json.Skip

/-! Reading JSON text: one value between blanks, nothing after it. Lists and records below the
deepest level that is read are passed over and count as unreadable. -/

set_option autoImplicit false

namespace StrategySearch.Json

def maxDepth : Nat := 127

mutual

/-- One value after blanks. The first number is spent at every call and starts above twice the
length of the text; the second is the depth that is left. -/
def readValue : Nat → Nat → List Char → Option (Json × List Char)
  | 0, _, _ => none
  | fuel + 1, depth, cs =>
    match skipSpace cs with
    | '"' :: rest => (scanString [] true rest).map fun (s, rest) =>
      (match s with | some s => .text s | none => .unreadable, rest)
    | '[' :: rest =>
      if depth = 0 then (skip fuel .item [.list] rest).map (.unreadable, ·)
      else match skipSpace rest with
        | ']' :: rest => some (.list [], rest)
        | _ => readItems fuel (depth - 1) [] rest
    | '\x7b' :: rest =>
      if depth = 0 then (skip fuel .entry [.record] rest).map (.unreadable, ·)
      else match skipSpace rest with
        | '\x7d' :: rest => some (.record [], rest)
        | _ => readFields fuel (depth - 1) [] true rest
    | 'n' :: rest => (scanWord ['u', 'l', 'l'] rest).map (.null, ·)
    | 't' :: rest => (scanWord ['r', 'u', 'e'] rest).map (.bool true, ·)
    | 'f' :: rest => (scanWord ['a', 'l', 's', 'e'] rest).map (.bool false, ·)
    | cs => (scanNumber cs).map fun (token, rest) => (token.toJson, rest)

def readItems : Nat → Nat → List Json → List Char → Option (Json × List Char)
  | 0, _, _, _ => none
  | fuel + 1, depth, acc, cs =>
    match readValue fuel depth cs with
    | none => none
    | some (item, rest) =>
      match skipSpace rest with
      | ',' :: rest => readItems fuel depth (item :: acc) rest
      | ']' :: rest => some (.list (item :: acc).reverse, rest)
      | _ => none

/-- The rest of a record, at least one field. A field without a readable name spoils it. -/
def readFields : Nat → Nat → List (String × Json) → Bool → List Char → Option (Json × List Char)
  | 0, _, _, _, _ => none
  | fuel + 1, depth, acc, named, cs =>
    match skipSpace cs with
    | '"' :: rest =>
      match scanString [] true rest with
      | none => none
      | some (name, rest) =>
        match skipSpace rest with
        | ':' :: rest =>
          match readValue fuel depth rest with
          | none => none
          | some (value, rest) =>
            let acc := (name.getD "", value) :: acc
            let named := named && name.isSome
            match skipSpace rest with
            | ',' :: rest => readFields fuel depth acc named rest
            | '\x7d' :: rest => some (if named then .record acc.reverse else .unreadable, rest)
            | _ => none
        | _ => none
    | _ => none

end

def parse? (s : String) : Option Json :=
  let cs := s.toList
  match readValue (2 * cs.length + 2) maxDepth cs with
  | some (j, rest) => if (skipSpace rest).isEmpty then some j else none
  | none => none

def decode? {α : Type} (read : Json → Option α) (s : String) : Option α := (parse? s).bind read

def Wording.brief : Wording where
  refusal _ s := if (parse? s).isNone then "malformed JSON" else "unexpected structure"

end StrategySearch.Json
