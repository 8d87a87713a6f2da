import StrategySearch.Random.Source

/-! Random words from a seed: the ChaCha stream of twelve rounds, its blocks numbered from zero,
under a key that a linear recurrence expands from the seed. -/

set_option autoImplicit false

namespace StrategySearch

abbrev Block := Vector UInt32 16

structure Keystream where
  key : Vector UInt32 8
  counter : UInt64
  pending : List UInt64

namespace Keystream

def rotateLeft (w : UInt32) (n : UInt32) : UInt32 := (w <<< n) ||| (w >>> (32 - n))

def quarterRound (a b c d : Fin 16) (s : Block) : Block :=
  let s := s.set a (s[a] + s[b])
  let s := s.set d (rotateLeft (s[d] ^^^ s[a]) 16)
  let s := s.set c (s[c] + s[d])
  let s := s.set b (rotateLeft (s[b] ^^^ s[c]) 12)
  let s := s.set a (s[a] + s[b])
  let s := s.set d (rotateLeft (s[d] ^^^ s[a]) 8)
  let s := s.set c (s[c] + s[d])
  s.set b (rotateLeft (s[b] ^^^ s[c]) 7)

def doubleRound (s : Block) : Block :=
  let s := quarterRound 3 7 11 15 (quarterRound 2 6 10 14
    (quarterRound 1 5 9 13 (quarterRound 0 4 8 12 s)))
  quarterRound 3 4 9 14 (quarterRound 2 7 8 13 (quarterRound 1 6 11 12 (quarterRound 0 5 10 15 s)))

def start (key : Vector UInt32 8) (counter : UInt64) : Block :=
  #v[0x61707865, 0x3320646e, 0x79622d32, 0x6b206574, key[0], key[1], key[2], key[3],
    key[4], key[5], key[6], key[7], counter.toUInt32, (counter >>> 32).toUInt32, 0, 0]

def block (key : Vector UInt32 8) (counter : UInt64) : Block :=
  let s := start key counter
  (Nat.repeat doubleRound 6 s).zipWith (· + ·) s

/-- Pairs of words, the low half first. -/
def pairs : List UInt32 → List UInt64
  | low :: high :: rest => (low.toUInt64 ||| (high.toUInt64 <<< 32)) :: pairs rest
  | _ => []

def next (s : Keystream) : UInt64 × Keystream :=
  match s.pending with
  | w :: rest => (w, { s with pending := rest })
  | [] =>
    match pairs (block s.key s.counter).toList with
    | w :: rest => (w, ⟨s.key, s.counter + 1, rest⟩)
    | [] => (0, s)

instance : WordSource Keystream := ⟨next⟩

def advance (state : UInt64) : UInt64 := state * 6364136223846793005 + 11634580027462260723

def output (state : UInt64) : UInt32 :=
  let x := (((state >>> 18) ^^^ state) >>> 27).toUInt32
  let turn := (state >>> 59).toUInt32
  (x >>> turn) ||| (x <<< ((32 - turn) &&& 31))

def expand : Nat → UInt64 → List UInt32
  | 0, _ => []
  | n + 1, state => output (advance state) :: expand n (advance state)

theorem length_expand (n : Nat) (state : UInt64) : (expand n state).length = n := by
  induction n generalizing state with
  | zero => rfl
  | succ n ih => simp [expand, ih]

def ofSeed (seed : UInt64) : Keystream :=
  ⟨⟨(expand 8 seed).toArray, by simp [length_expand]⟩, 0, []⟩

end Keystream
end StrategySearch
