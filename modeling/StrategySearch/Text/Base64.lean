/-! Base 64: three bytes as four characters, with a mark for each character that the last bytes
leave over. -/

set_option autoImplicit false

namespace StrategySearch.Base64

def alphabet : List Char :=
  "ABCDEFGHIJKLMNOPQRSTUVWXYZabcdefghijklmnopqrstuvwxyz0123456789+/".toList

def symbol (n : Nat) : Char := alphabet.getD (n % 64) '='

def symbols (n : Nat) : List Char :=
  [symbol (n / 0x40000), symbol (n / 0x1000), symbol (n / 0x40), symbol n]

def encode : List UInt8 → List Char
  | [] => []
  | [a] => (symbols (a.toNat * 0x10000)).take 2 ++ ['=', '=']
  | [a, b] => (symbols (a.toNat * 0x10000 + b.toNat * 0x100)).take 3 ++ ['=']
  | a :: b :: c :: rest =>
    symbols (a.toNat * 0x10000 + b.toNat * 0x100 + c.toNat) ++ encode rest

def ofText (s : String) : String := String.ofList (encode s.toUTF8.data.toList)

end StrategySearch.Base64
