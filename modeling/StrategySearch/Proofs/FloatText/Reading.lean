import StrategySearch.FloatText.Layout
import StrategySearch.FloatText.Literal
import StrategySearch.Proofs.FloatText.Basin

/-! Reading laid out digits back. As a literal they stand for the number they were taken from, whether
their places are filled up with zeros or given by an exponent. -/

set_option autoImplicit false

namespace StrategySearch.FloatText

variable {whole fraction tail : List Char} {c : Digits}

def Literal.value (l : Literal) : ℚ :=
  Text.digitsValue (l.whole ++ l.fraction) * 10 ^ (l.exponent - l.fraction.length)

theorem digitsValue_eq (cs : List Char) : Text.digitsValue cs = Nat.ofDigitChars 10 cs 0 := by
  simp only [Text.digitsValue, Text.digitValue, Nat.ofDigitChars_eq_foldl, Nat.mul_comm 10]

theorem digitsValue_toDigits (n : Nat) : Text.digitsValue (Nat.toDigits 10 n) = n := by
  rw [digitsValue_eq, Nat.ofDigitChars_ten_toDigits]

theorem isDigit_toDigits (n : Nat) : ∀ ch ∈ Nat.toDigits 10 n, ch.isDigit := fun _ =>
  Nat.isDigit_of_mem_toDigits (by decide) (by decide)

/-! ## Literals -/

def exponentDigits (e : Int) : List Char :=
  (if e < 0 then ['-'] else []) ++ Nat.toDigits 10 e.natAbs

theorem integer?_exponentDigits (e : Int) : integer? (exponentDigits e) = some e := by
  have number : Text.natural? (Nat.toDigits 10 e.natAbs) = some e.natAbs := by
    have digits := isDigit_toDigits e.natAbs
    rw [Text.natural?, if_pos (by simpa [Nat.toDigits_ne_nil] using digits), digitsValue_toDigits]
  unfold exponentDigits
  split
  · have negated : integer? (['-'] ++ Nat.toDigits 10 e.natAbs) = some (-(e.natAbs : Int)) := by
      simp [integer?, number]
    rw [negated]
    congr 1
    omega
  · -- A digit comes first, so there is no sign to read.
    have unsigned : integer? (Nat.toDigits 10 e.natAbs) = some (e.natAbs : Int) := by
      have digits := isDigit_toDigits e.natAbs
      unfold integer?
      split
      · next rest same => exact absurd (digits '-' (by simp [same])) (by decide)
      · next rest same => exact absurd (digits '+' (by simp [same])) (by decide)
      · simp [number]
    rw [List.nil_append, unsigned]
    congr 1
    omega

/-- What may stand behind the digits: nothing, or the mark and an exponent. -/
inductive Ending : List Char → Int → Prop where
  | none : Ending [] 0
  | marked (e : Int) : Ending ('e' :: exponentDigits e) e

variable {e : Int}

theorem Ending.takeWhile (ending : Ending tail e) : tail.takeWhile Char.isDigit = [] := by
  cases ending <;> rfl

theorem Ending.dropWhile (ending : Ending tail e) : tail.dropWhile Char.isDigit = tail := by
  cases ending <;> rfl

theorem takeWhile_digits (digits : ∀ ch ∈ whole, ch.isDigit)
    (stop : tail.takeWhile Char.isDigit = []) :
    (whole ++ tail).takeWhile Char.isDigit = whole := by
  rw [List.takeWhile_append_of_pos digits, stop, List.append_nil]

theorem dropWhile_digits (digits : ∀ ch ∈ whole, ch.isDigit)
    (stop : tail.dropWhile Char.isDigit = tail) :
    (whole ++ tail).dropWhile Char.isDigit = tail := by
  rw [List.dropWhile_append_of_pos digits, stop]

theorem literal?_point (digits : ∀ ch ∈ whole, ch.isDigit) (some : whole ≠ [])
    (places : ∀ ch ∈ fraction, ch.isDigit) (ending : Ending tail e) :
    literal? (whole ++ '.' :: (fraction ++ tail)) = .some ⟨whole, fraction, e⟩ := by
  unfold literal?
  rw [takeWhile_digits digits rfl, dropWhile_digits digits rfl]
  simp only [takeWhile_digits places ending.takeWhile, dropWhile_digits places ending.dropWhile]
  cases ending with
  | none => simp [some]
  | marked e => simp [some, integer?_exponentDigits]

theorem literal?_whole (digits : ∀ ch ∈ whole, ch.isDigit) (some : whole ≠ [])
    (ending : Ending tail e) : literal? (whole ++ tail) = .some ⟨whole, [], e⟩ := by
  unfold literal?
  rw [takeWhile_digits digits ending.takeWhile, dropWhile_digits digits ending.dropWhile]
  cases ending with
  | none => simp [some]
  | marked e => simp [some, integer?_exponentDigits]

theorem literal?_minus (cs : List Char) : literal? ('-' :: cs) = none := by
  simp [literal?, Char.isDigit]

/-! ## Texts of digits -/

theorem isDigit_zeros (n : Nat) : ∀ ch ∈ List.replicate n '0', ch.isDigit := fun _ member =>
  List.eq_of_mem_replicate member ▸ rfl

theorem isDigit_append (first : ∀ ch ∈ whole, ch.isDigit) (second : ∀ ch ∈ fraction, ch.isDigit) :
    ∀ ch ∈ whole ++ fraction, ch.isDigit := fun ch member =>
  (List.mem_append.mp member).elim (first ch) (second ch)

theorem digitsValue_padded (zeros n : Nat) :
    Text.digitsValue (List.replicate zeros '0' ++ Nat.toDigits 10 n) = n := by
  rw [digitsValue_eq, Nat.ofDigitChars_append, Nat.ofDigitChars_replicate_zero, Nat.mul_zero,
    Nat.ofDigitChars_ten_toDigits]

theorem digitsValue_zeros (n zeros : Nat) :
    Text.digitsValue (Nat.toDigits 10 n ++ List.replicate zeros '0') = 10 ^ zeros * n := by
  rw [digitsValue_eq, Nat.ofDigitChars_append, Nat.ofDigitChars_replicate_zero,
    Nat.ofDigitChars_ten_toDigits]

theorem literal?_positionalText (c : Digits) :
    ∃ l, literal? (positionalText ".0" c).toList = some l ∧ l.value = c.value := by
  have digits := isDigit_toDigits c.digits
  unfold positionalText
  simp only
  split
  · next nonneg =>
    refine ⟨⟨Nat.toDigits 10 c.digits ++ List.replicate c.exponent.toNat '0', ['0'], 0⟩, ?_, ?_⟩
    · have read := literal?_point (isDigit_append digits (isDigit_zeros c.exponent.toNat))
        (by simp [Nat.toDigits_ne_nil]) (isDigit_zeros 1) .none
      simpa using read
    · have whole := digitsValue_zeros c.digits (c.exponent.toNat + 1)
      rw [List.replicate_succ', ← List.append_assoc] at whole
      simp only [Literal.value, Digits.value, whole, List.length_singleton]
      conv_rhs => rw [← Int.toNat_of_nonneg nonneg]
      push_cast
      rw [zpow_natCast, pow_succ]
      norm_num
      ring
  · next negative =>
    -- The digits are padded up to the point, which then divides them.
    generalize places_eq : (-c.exponent).toNat = places
    have padded := isDigit_append (isDigit_zeros (places + 1 - (Nat.toDigits 10 c.digits).length)) digits
    have value := digitsValue_padded (places + 1 - (Nat.toDigits 10 c.digits).length) c.digits
    have long : places + 1 ≤ (List.replicate (places + 1 - (Nat.toDigits 10 c.digits).length) '0' ++
        Nat.toDigits 10 c.digits).length := by
      rw [List.length_append, List.length_replicate]
      omega
    generalize List.replicate (places + 1 - (Nat.toDigits 10 c.digits).length) '0' ++
      Nat.toDigits 10 c.digits = text at padded value long
    refine ⟨⟨text.take (text.length - places), text.drop (text.length - places), 0⟩, ?_, ?_⟩
    · have whole : ∀ ch ∈ text.take (text.length - places), ch.isDigit := fun ch member =>
        padded ch (List.mem_of_mem_take member)
      have fraction : ∀ ch ∈ text.drop (text.length - places), ch.isDigit := fun ch member =>
        padded ch (List.mem_of_mem_drop member)
      have read := literal?_point whole
        (List.ne_nil_of_length_pos (by rw [List.length_take]; omega)) fraction .none
      simpa using read
    · have length : (text.drop (text.length - places)).length = places := by
        rw [List.length_drop]
        omega
      have exponent : c.exponent = 0 - (places : Int) := by omega
      simp only [Literal.value, Digits.value, List.take_append_drop, value, length, exponent]

theorem zeroPadded_one (n : Nat) : (Text.zeroPadded 1 n).toList = Nat.toDigits 10 n := by
  have some := Nat.length_toDigits_pos (b := 10) (n := n)
  simp only [Text.zeroPadded, Nat.toString_eq_ofList_toDigits, String.toList_ofList]
  rw [show 1 - (Nat.toDigits 10 n).length = 0 by omega]
  rfl

theorem toList_marked (mantissa : String) (e : Int) :
    (mantissa ++ "e" ++ (if e < 0 then "-" else "") ++ Text.zeroPadded 1 e.natAbs).toList =
      mantissa.toList ++ 'e' :: exponentDigits e := by
  simp only [String.toList_append, zeroPadded_one, exponentDigits]
  split <;> simp

theorem literal?_exponentText (c : Digits) :
    ∃ l, literal? (exponentText "" 1 c).toList = some l ∧ l.value = c.value := by
  have digits := isDigit_toDigits c.digits
  have value := digitsValue_toDigits c.digits
  have some : Nat.toDigits 10 c.digits ≠ [] := Nat.toDigits_ne_nil
  unfold exponentText
  simp only [toList_marked]
  generalize Nat.toDigits 10 c.digits = ds at digits value some
  match ds with
  | [] => exact absurd rfl some
  | [d] =>
    -- A single digit has no point behind it.
    refine ⟨⟨[d], [], c.exponent + ([d].length : Nat) - 1⟩, ?_, ?_⟩
    · have read := literal?_whole digits some (.marked (c.exponent + ([d].length : Nat) - 1))
      simpa using read
    · simp only [Literal.value, Digits.value, List.append_nil, value, List.length_singleton,
        List.length_nil]
      congr 2
      omega
  | d :: d' :: rest =>
    refine ⟨⟨[d], d' :: rest, c.exponent + ((d :: d' :: rest).length : Nat) - 1⟩, ?_, ?_⟩
    · have first : ∀ ch ∈ [d], ch.isDigit := by simpa using digits d List.mem_cons_self
      have others : ∀ ch ∈ d' :: rest, ch.isDigit := fun ch member =>
        digits ch (List.mem_cons_of_mem d member)
      have read := literal?_point first (by simp) others
        (.marked (c.exponent + ((d :: d' :: rest).length : Nat) - 1))
      simpa using read
    · simp only [Literal.value, Digits.value, List.singleton_append, value, List.length_cons]
      congr 2
      omega

end StrategySearch.FloatText
