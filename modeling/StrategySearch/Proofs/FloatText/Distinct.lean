import StrategySearch.Proofs.Double.Integers
import StrategySearch.Proofs.FloatText.Reading
import StrategySearch.Proofs.FloatText.Shortest

/-! The text of a double tells it from all others.

Read as a literal, the text stands for the digits that were chosen. These lie in the basin of the
double and of no other. What is no finite number is written in words, which are no literals.
-/

set_option autoImplicit false

namespace StrategySearch.FloatText

variable {cs : List Char} {c : Digits} {l : Literal} {x y : Float}

def decimal? : List Char → Option (Bool × ℚ)
  | '-' :: rest => (literal? rest).map fun l => (true, l.value)
  | cs => (literal? cs).map fun l => (false, l.value)

theorem decimal?_of_literal? (read : literal? cs = some l) : decimal? cs = some (false, l.value) := by
  unfold decimal?
  split
  · rw [literal?_minus] at read
    cases read
  · rw [read, Option.map_some]

theorem decimal?_signed (negative : Bool) (read : literal? cs = some l) :
    decimal? ((if negative then "-" else "").toList ++ cs) = some (negative, l.value) := by
  cases negative with
  | false => exact decimal?_of_literal? read
  | true =>
    show (literal? cs).map (fun l => (true, l.value)) = _
    rw [read, Option.map_some]

def Dyadic.written (d : Dyadic) : ℚ := if d.mantissa = 0 then 0 else (shortest .up d).value

theorem decimal?_text {d : Dyadic} (finite : value x = .finite d) :
    decimal? (tagged.text x).toList = some (d.negative, d.written) := by
  have sorted (body : String) (read : ∃ l, literal? body.toList = some l ∧ l.value = d.written) :
      decimal? ((if d.negative then "-" else "") ++ body).toList = some (d.negative, d.written) := by
    obtain ⟨l, read, value⟩ := read
    rw [String.toList_append, decimal?_signed d.negative read, value]
  unfold Layout.text
  rw [finite]
  simp only
  split
  · next zero =>
    rw [String.append_assoc]
    refine sorted _ ⟨⟨['0'], ['0'], 0⟩, rfl, ?_⟩
    rw [Dyadic.written, if_pos zero]
    simp [Literal.value, Text.digitsValue, Text.digitValue]
  · next nonzero =>
    have value : d.written = (shortest .up d).stripped.value := by
      rw [stripped_value, Dyadic.written, if_neg nonzero]
    refine sorted _ ?_
    rw [value]
    split
    · exact literal?_positionalText _
    · exact literal?_exponentText _

theorem text_cases (x : Float) :
    (∃ d, value x = .finite d) ∨ value x = .nan ∧ tagged.text x = "NaN" ∨
      value x = .infinite false ∧ tagged.text x = "inf" ∨
      value x = .infinite true ∧ tagged.text x = "-inf" := by
  cases kept : value x with
  | nan => exact .inr (.inl ⟨rfl, by simp only [Layout.text, kept]; rfl⟩)
  | infinite negative =>
    cases negative with
    | false => exact .inr (.inr (.inl ⟨rfl, by simp only [Layout.text, kept]; rfl⟩))
    | true => exact .inr (.inr (.inr ⟨rfl, by simp only [Layout.text, kept]; rfl⟩))
  | finite d => exact .inl ⟨d, rfl⟩

theorem decimal?_word (word : value x = .nan ∧ tagged.text x = "NaN" ∨
    value x = .infinite false ∧ tagged.text x = "inf" ∨
      value x = .infinite true ∧ tagged.text x = "-inf") :
    decimal? (tagged.text x).toList = none := by
  rcases word with ⟨-, text⟩ | ⟨-, text⟩ | ⟨-, text⟩ <;> rw [text] <;> rfl

theorem finite_cases {d : Dyadic} (finite : value x = .finite d) :
    d.mantissa = 0 ∧ d.exponent = -1074 ∨ Double.Canonical d.mantissa d.exponent := by
  rw [Double.value_eq] at finite
  cases unpacked : x.toModel.unpack with
  | infinity s => simp [unpacked, Double.kept] at finite
  | notANumber => simp [unpacked, Double.kept] at finite
  | zero s =>
    simp only [unpacked, Double.kept, Value.finite.injEq] at finite
    exact .inl ⟨finite ▸ rfl, finite ▸ rfl⟩
  | finite s m e pos =>
    simp only [unpacked, Double.kept, Value.finite.injEq] at finite
    exact .inr (finite ▸ Double.canonical_of_unpack unpacked)

theorem written_contains {d : Dyadic} (canonical : Double.Canonical d.mantissa d.exponent) :
    (basin d).Contains d.exponent d.written := by
  rw [Dyadic.written, if_neg canonical.pos.ne']
  exact shortest_contains canonical

theorem written_pos {d : Dyadic} (canonical : Double.Canonical d.mantissa d.exponent) :
    0 < d.written := by
  have inside := written_contains canonical
  have low : 0 < (basin d).low := by
    have := canonical.pos
    simp only [basin]
    split <;> omega
  have begins : (0 : ℚ) < (basin d).low * 2 ^ (d.exponent - 2) := by positivity
  unfold Basin.Contains at inside
  split at inside
  · exact begins.trans_le inside.1
  · exact begins.trans inside.1

theorem dyadic_eq {d d' : Dyadic} (finite : value x = .finite d) (finite' : value y = .finite d')
    (sign : d.negative = d'.negative) (written : d.written = d'.written) : d = d' := by
  obtain ⟨negative, mantissa, exponent⟩ := d
  obtain ⟨negative', mantissa', exponent'⟩ := d'
  obtain rfl : negative = negative' := sign
  rcases finite_cases finite with zero | canonical
  · rcases finite_cases finite' with zero' | canonical'
    · obtain ⟨rfl, rfl⟩ := zero
      obtain ⟨rfl, rfl⟩ := zero'
      rfl
    · have positive := written_pos canonical'
      rw [← written, Dyadic.written, if_pos zero.1] at positive
      exact absurd positive (lt_irrefl 0)
  · rcases finite_cases finite' with zero' | canonical'
    · have positive := written_pos canonical
      rw [written, Dyadic.written, if_pos zero'.1] at positive
      exact absurd positive (lt_irrefl 0)
    · have inside := written_contains canonical'
      rw [← written] at inside
      obtain ⟨rfl, rfl⟩ := eq_of_contains canonical canonical' (written_contains canonical) inside
      rfl

theorem mem_positionalText {ch : Char} (member : ch ∈ (positionalText ".0" c).toList) :
    ch.isDigit ∨ ch ∈ ['.', 'e', '-'] := by
  have digits := isDigit_toDigits c.digits
  unfold positionalText at member
  simp only at member
  split at member
  · simp only [String.toList_append, String.toList_ofList, List.mem_append] at member
    rcases member with (member | member) | member
    · exact .inl (digits ch member)
    · exact .inl (isDigit_zeros _ ch member)
    · rcases List.mem_cons.mp member with rfl | member
      · exact .inr (by decide)
      · exact .inl (isDigit_zeros 1 ch member)
  · have padded := isDigit_append
      (isDigit_zeros ((-c.exponent).toNat + 1 - (Nat.toDigits 10 c.digits).length)) digits
    simp only [String.toList_ofList, List.mem_append, List.mem_cons] at member
    rcases member with member | rfl | member
    · exact .inl (padded ch (List.mem_of_mem_take member))
    · exact .inr (by decide)
    · exact .inl (padded ch (List.mem_of_mem_drop member))

theorem mem_exponentText {ch : Char} (member : ch ∈ (exponentText "" 1 c).toList) :
    ch.isDigit ∨ ch ∈ ['.', 'e', '-'] := by
  have digits := isDigit_toDigits c.digits
  have signed (e : Int) (inside : ch ∈ exponentDigits e) : ch.isDigit ∨ ch ∈ ['.', 'e', '-'] := by
    rcases List.mem_append.mp inside with sign | number
    · split at sign
      · obtain rfl := List.mem_singleton.mp sign
        exact .inr (by decide)
      · cases sign
    · exact .inl (isDigit_toDigits _ ch number)
  unfold exponentText at member
  simp only [toList_marked, List.mem_append, List.mem_cons] at member
  generalize Nat.toDigits 10 c.digits = ds at digits member
  rcases member with front | rfl | inside
  · match ds with
    | [] => cases front
    | [d] => exact .inl (digits ch (by simpa using front))
    | d :: d' :: rest =>
      simp only [String.toList_ofList, List.mem_cons] at front
      rcases front with rfl | rfl | front
      · exact .inl (digits ch List.mem_cons_self)
      · exact .inr (by decide)
      · exact .inl (digits ch (List.mem_cons_of_mem d (List.mem_cons.mpr front)))
  · exact .inr (by decide)
  · exact signed _ inside

/-- The text of a double holds digits, points, marks, signs and letters, and nothing that could end
it. -/
theorem paren_notMem_text (x : Float) : ')' ∉ (tagged.text x).toList := by
  have apart {ch : Char} (plain : ch.isDigit ∨ ch ∈ ['.', 'e', '-']) : ch ≠ ')' := by
    rintro rfl
    simp at plain
  rcases text_cases x with ⟨d, finite⟩ | word
  · unfold Layout.text
    rw [finite]
    simp only
    intro member
    have sign : ')' ∉ (if d.negative then "-" else "").toList := by split <;> simp
    split at member
    · simp only [String.toList_append, List.mem_append] at member
      rcases member with (member | member) | member
      · exact sign member
      · simp at member
      · simp [tagged] at member
    · rcases List.mem_append.mp (String.toList_append ▸ member) with member | member
      · exact sign member
      · split at member
        · exact apart (mem_positionalText member) rfl
        · exact apart (mem_exponentText member) rfl
  · rcases word with ⟨-, text⟩ | ⟨-, text⟩ | ⟨-, text⟩ <;> rw [text] <;> decide

/-- Doubles of one text are one double. -/
theorem text_injective (same : tagged.text x = tagged.text y) : x = y := by
  apply Double.value_injective
  rcases text_cases x with ⟨d, finite⟩ | word
  · rcases text_cases y with ⟨d', finite'⟩ | word
    · have read := decimal?_text finite
      rw [same, decimal?_text finite'] at read
      simp only [Option.some.injEq, Prod.mk.injEq] at read
      rw [finite, finite', dyadic_eq finite finite' read.1.symm read.2.symm]
    · exact absurd (decimal?_text finite) (by simp [same, decimal?_word word])
  · rcases text_cases y with ⟨d', finite'⟩ | word'
    · exact absurd (decimal?_text finite') (by simp [← same, decimal?_word word])
    · -- The three words differ.
      rcases word with ⟨kept, text⟩ | ⟨kept, text⟩ | ⟨kept, text⟩ <;>
        rcases word' with ⟨kept', text'⟩ | ⟨kept', text'⟩ | ⟨kept', text'⟩ <;>
        first
          | exact kept.trans kept'.symm
          | exact absurd (text.symm.trans (same.trans text')) (by decide)

end StrategySearch.FloatText
