import StrategySearch.Json.Number
import StrategySearch.Json.Token

/-! A token ends where it ends, whatever follows it.

Reading a token from the front of a longer text gives the same token, and leaves the longer rest.
Only a number has no end of its own, so that no digit, point or exponent may follow.
-/

set_option autoImplicit false

namespace StrategySearch.Json

variable {extra : List Char}

section Span

variable {p : Char → Bool} {c : Char} {cs rest : List Char}

def Bounds (p : Char → Bool) (extra : List Char) : Prop := ∀ c ∈ extra.head?, p c = false

theorem Bounds.takeWhile_append (bounds : Bounds p extra) (cs : List Char) :
    (cs ++ extra).takeWhile p = cs.takeWhile p := by
  induction cs with
  | nil =>
    cases extra with
    | nil => rfl
    | cons c rest => simp [bounds c rfl]
  | cons c cs ih => simp [List.takeWhile_cons, ih]

theorem Bounds.dropWhile_append (bounds : Bounds p extra) (cs : List Char) :
    (cs ++ extra).dropWhile p = cs.dropWhile p ++ extra := by
  induction cs with
  | nil =>
    cases extra with
    | nil => rfl
    | cons c rest => simp [bounds c rfl]
  | cons c cs ih =>
    simp only [List.cons_append, List.dropWhile_cons, ih]
    split <;> rfl

theorem skipSpace_append (found : skipSpace cs = c :: rest) :
    skipSpace (cs ++ extra) = c :: (rest ++ extra) := by
  induction cs with
  | nil => cases found
  | cons d cs ih =>
    simp only [skipSpace, List.cons_append, List.dropWhile_cons] at found ih ⊢
    split at found
    · next blank => rw [if_pos blank, ih found]
    · next solid =>
      cases found
      rw [if_neg solid]

theorem skipSpace_append_of_nil (blank : skipSpace cs = []) :
    skipSpace (cs ++ extra) = skipSpace extra := by
  induction cs with
  | nil => rfl
  | cons d cs ih =>
    simp only [skipSpace, List.cons_append, List.dropWhile_cons] at blank ih ⊢
    split at blank
    · next space => rw [if_pos space, ih blank]
    · cases blank

end Span

section Strings

variable {acc : List Char} {whole : Bool} {found : Option String} {cs rest : List Char}

theorem scanWord_append {word : List Char} (scanned : scanWord word cs = some rest) :
    scanWord word (cs ++ extra) = some (rest ++ extra) := by
  unfold scanWord at scanned ⊢
  split at scanned
  · next isPrefix =>
    cases scanned
    obtain ⟨tail, rfl⟩ := List.isPrefixOf_iff_prefix.mp isPrefix
    simp
  · cases scanned

theorem lowSurrogate?_append {v : Nat} (low : lowSurrogate? cs = some v) :
    lowSurrogate? (cs ++ extra) = some v ∧ (cs ++ extra).drop 6 = cs.drop 6 ++ extra := by
  unfold lowSurrogate? at low
  split at low
  · exact ⟨low, rfl⟩
  · cases low

theorem scanString_short {tail : List Char} (short : tail.length < 4) :
    scanString acc whole ('\\' :: 'u' :: tail) = none := by
  rw [scanString]
  · rfl
  · rintro a b c d rest - rfl
    simp at short
    omega

theorem lowSurrogate?_append_of_none (missing : lowSurrogate? cs = none)
    (scanned : scanString acc whole cs = some (found, rest)) :
    lowSurrogate? (cs ++ extra) = none := by
  unfold lowSurrogate?
  split
  · next a b c d tail same =>
    rcases cs with _ | ⟨x, _ | ⟨y, cs⟩⟩
    · simp [scanString] at scanned
    · obtain ⟨rfl, -⟩ := List.cons.inj same
      simp [scanString] at scanned
    · obtain ⟨rfl, rfl, same⟩ : x = '\\' ∧ y = 'u' ∧ cs ++ extra = a :: b :: c :: d :: tail := by
        simpa using same
      by_cases short : cs.length < 4
      · rw [scanString_short short] at scanned
        cases scanned
      · obtain ⟨a', b', c', d', cs, rfl⟩ : ∃ a' b' c' d' cs', cs = a' :: b' :: c' :: d' :: cs' := by
          rcases cs with _ | ⟨a', _ | ⟨b', _ | ⟨c', _ | ⟨d', cs⟩⟩⟩⟩ <;> simp at short ⊢
        obtain ⟨rfl, rfl, rfl, rfl, -⟩ :
            a' = a ∧ b' = b ∧ c' = c ∧ d' = d ∧ cs ++ extra = tail := by
          simpa using same
        exact missing
  · rfl

theorem scanString_append (scanned : scanString acc whole cs = some (found, rest)) :
    scanString acc whole (cs ++ extra) = some (found, rest ++ extra) := by
  fun_induction scanString acc whole cs with
  | case1 | case3 | case9 | case10 => cases scanned
  | case2 acc whole tail =>
    cases scanned
    rw [List.cons_append, scanString]
  | case4 acc whole a b c d tail u unit high v low ih =>
    have low' : lowSurrogate? (tail ++ extra) = some v := (lowSurrogate?_append low).1
    have dropped : (tail ++ extra).drop 6 = tail.drop 6 ++ extra := (lowSurrogate?_append low).2
    simp only [List.cons_append, scanString, unit, high, low', if_true, dropped, ih scanned]
  | case5 acc whole a b c d tail u unit high none' ih =>
    -- The string goes on, so that its end is no half of an escape that more text completes.
    have missing : lowSurrogate? (tail ++ extra) = none :=
      lowSurrogate?_append_of_none none' scanned
    simp only [List.cons_append, scanString, unit, high, missing, if_true, ih scanned]
  | case6 acc whole a b c d tail u unit notHigh low ih =>
    simp only [List.cons_append, scanString, unit, notHigh, low, if_true, ih scanned]
    rfl
  | case7 acc whole a b c d tail u unit notHigh notLow ih =>
    simp only [List.cons_append, scanString, unit, notHigh, notLow, ih scanned]
    rfl
  | case8 acc whole c tail short e escape ih =>
    have other : c ≠ 'u' := by
      rintro rfl
      cases escape
    rw [List.cons_append, List.cons_append, scanString]
    · simp only [escape, ih scanned]
    · intro _ _ _ _ _ same
      exact absurd same other
  | case11 acc whole c tail notQuote notUnit notEscape printable ih =>
    have notBackslash : c ≠ '\\' := by
      rintro rfl
      cases tail with
      | nil => simp [scanString] at scanned
      | cons d tail => exact notEscape d tail rfl rfl
    rw [List.cons_append, scanString]
    · rw [if_neg printable, ih scanned]
    · exact notQuote
    · intro _ _ _ _ _ same
      exact absurd same notBackslash
    · intro _ _ same
      exact absurd same notBackslash

end Strings

section Numbers

variable {cs rest : List Char}

def isNumberChar (c : Char) : Bool := c.isDigit || c == '.' || c == 'e' || c == 'E'

theorem Bounds.digits (bounds : Bounds isNumberChar extra) : Bounds Char.isDigit extra := by
  intro c first
  have ends := bounds c first
  simp only [isNumberChar, Bool.or_eq_false_iff] at ends
  exact ends.1.1.1

theorem scanSign_append (some : cs ≠ []) :
    scanSign (cs ++ extra) = ((scanSign cs).1, (scanSign cs).2 ++ extra) := by
  cases cs with
  | nil => exact absurd rfl some
  | cons c cs =>
    by_cases minus : c = '-'
    · subst minus
      rfl
    · simp [scanSign, minus]

theorem scanDirection_append (some : cs ≠ []) :
    scanDirection (cs ++ extra) = ((scanDirection cs).1, (scanDirection cs).2 ++ extra) := by
  cases cs with
  | nil => exact absurd rfl some
  | cons c cs =>
    by_cases minus : c = '-'
    · subst minus
      rfl
    by_cases plus : c = '+'
    · subst plus
      rfl
    · simp [scanDirection, minus, plus]

theorem scanFraction_append {fraction : List Char} (bounds : Bounds isNumberChar extra)
    (scanned : scanFraction cs = some (fraction, rest)) :
    scanFraction (cs ++ extra) = some (fraction, rest ++ extra) := by
  cases cs with
  | nil =>
    cases scanned
    cases extra with
    | nil => rfl
    | cons c extra =>
      have ends := bounds c rfl
      have noPoint : c ≠ '.' := by
        rintro rfl
        cases ends
      simp [scanFraction, noPoint]
  | cons c cs =>
    by_cases point : c = '.'
    · subst point
      simp only [scanFraction, List.cons_append, bounds.digits.takeWhile_append,
        bounds.digits.dropWhile_append] at scanned ⊢
      split at scanned
      · cases scanned
      · next digits =>
        cases scanned
        rw [if_neg digits]
    · have none' : ∀ tail, scanFraction (c :: tail) = some ([], c :: tail) := by
        simp [scanFraction, point]
      rw [none'] at scanned
      cases scanned
      exact none' _

theorem scanExponent_append {exponent : Option Int} (bounds : Bounds isNumberChar extra)
    (scanned : scanExponent cs = some (exponent, rest)) :
    scanExponent (cs ++ extra) = some (exponent, rest ++ extra) := by
  cases cs with
  | nil =>
    cases scanned
    cases extra with
    | nil => rfl
    | cons c extra =>
      -- Without a mark nothing is read, and the added text brings none.
      have ends := bounds c rfl
      have noMark : ¬ (c = 'e' ∨ c = 'E') := by
        rintro (rfl | rfl) <;> cases ends
      simp [scanExponent, noMark]
  | cons mark tail =>
    simp only [scanExponent, List.cons_append] at scanned ⊢
    split at scanned
    · next marked =>
      have some' : tail ≠ [] := by
        rintro rfl
        cases scanned
      simp only [marked, if_true, scanDirection_append some', bounds.digits.takeWhile_append,
        bounds.digits.dropWhile_append]
      obtain ⟨n, read, found⟩ := Option.map_eq_some_iff.mp scanned
      cases found
      rw [read]
      rfl
    · next other =>
      cases scanned
      rw [if_neg other]
      rfl

theorem scanNumber_append {token : NumberToken} (bounds : Bounds isNumberChar extra)
    (scanned : scanNumber cs = some (token, rest)) :
    scanNumber (cs ++ extra) = some (token, rest ++ extra) := by
  have some' : cs ≠ [] := by
    rintro rfl
    simp [scanNumber, scanSign] at scanned
  simp only [scanNumber, scanSign_append some', bounds.digits.takeWhile_append,
    bounds.digits.dropWhile_append] at scanned ⊢
  split at scanned
  · cases scanned
  · next digits =>
    rw [if_neg digits]
    obtain ⟨⟨fraction, afterFraction⟩, first, scanned⟩ := Option.bind_eq_some_iff.mp scanned
    obtain ⟨⟨exponent, afterExponent⟩, second, scanned⟩ := Option.bind_eq_some_iff.mp scanned
    cases scanned
    simp [scanFraction_append bounds first, scanExponent_append bounds second]

end Numbers
end StrategySearch.Json
