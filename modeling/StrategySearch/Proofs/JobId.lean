import Mathlib
import StrategySearch.JobId
import StrategySearch.Proofs.Text.Trim

/-! An identifier is read back from its text.

The text is of digits and hyphens alone. The hyphens divide the digits into their groups, and each
further digit brings the number by four bits closer to that of the identifier.
-/

set_option autoImplicit false

namespace StrategySearch

namespace Text

variable {sep : Char} {front rest : List Char}

theorem splitOff_cons {c : Char} (other : c ≠ sep) {part : List Char} {parts : List (List Char)}
    (split : splitOff sep rest = part :: parts) :
    splitOff sep (c :: rest) = (c :: part) :: parts := by
  rw [splitOff] at split
  rw [splitOff, List.foldr_cons, if_neg other, split]

theorem splitOff_of_notMem (bare : sep ∉ front) : splitOff sep front = [front] := by
  induction front with
  | nil => rfl
  | cons c front ih =>
    obtain ⟨other, bare⟩ := List.ne_and_not_mem_of_not_mem_cons bare
    exact splitOff_cons other.symm (ih bare)

theorem splitOff_append (bare : sep ∉ front) :
    splitOff sep (front ++ sep :: rest) = front :: splitOff sep rest := by
  induction front with
  | nil => rw [List.nil_append, splitOff, List.foldr_cons, if_pos rfl]; rfl
  | cons c front ih =>
    obtain ⟨other, bare⟩ := List.ne_and_not_mem_of_not_mem_cons bare
    exact splitOff_cons other.symm (ih bare)

end Text

namespace JobId

def hexChars : List Char := "0123456789abcdef".toList

theorem hexChar_mem (n : Nat) : hexChar n ∈ hexChars := by
  rw [hexChar, List.getD_eq_getElem?_getD]
  cases found : "0123456789abcdef".toList[n]? with
  | none => decide
  | some c => exact List.mem_of_getElem? found

theorem hexValue?_hexChar : ∀ n < 16, Text.hexValue? (hexChar n) = some n := by decide

variable {id : JobId} {c : Char} {ns : List Nat} {ds : List Char}

theorem length_digits (id : JobId) : id.digits.length = 32 := by
  rw [digits, List.length_map, List.length_range]

theorem mem_digits (member : c ∈ id.digits) : c ∈ hexChars := by
  obtain ⟨i, -, rfl⟩ := List.mem_map.mp member
  exact hexChar_mem _

theorem hyphen_notMem_digits (id : JobId) : '-' ∉ id.digits :=
  fun member => absurd (mem_digits member) (by decide)

/-- The number that the first digits write is the one of the identifier without its last bits. -/
theorem foldlM_digits (id : JobId) : ∀ k ≤ 32,
    ((List.range k).map fun i => hexChar (id.number / twoTo (4 * (31 - i)) % 16)).foldlM
      (fun n c => (Text.hexValue? c).map (n * 16 + ·)) 0 =
      some (id.number / twoTo (4 * (32 - k))) := by
  intro k
  -- Of `k` digits, the bits behind the first `4 * k` are still to come.
  induction k with
  | zero =>
    intro _
    exact congrArg some (Nat.div_eq_of_lt id.number_lt).symm
  | succ k ih =>
    intro bound
    rw [List.range_succ, List.map_append, List.foldlM_append, ih (Nat.le_of_succ_le bound)]
    have digit := hexValue?_hexChar _ (Nat.mod_lt (id.number / twoTo (4 * (31 - k))) (by decide))
    have scale : twoTo (4 * (32 - k)) = twoTo (4 * (31 - k)) * 16 := by
      rw [show 4 * (32 - k) = 4 * (31 - k) + 1 + 1 + 1 + 1 by omega]
      simp only [twoTo_succ, Nat.mul_assoc]
    simp only [List.map_cons, List.map_nil, List.foldlM_cons, List.foldlM_nil, digit]
    rw [scale, ← Nat.div_div_eq_div_mul]
    simp [Nat.div_add_mod']

theorem ofDigits?_digits (id : JobId) : ofDigits? id.digits = some id := by
  have whole := foldlM_digits id 32 le_rfl
  rw [ofDigits?, if_pos id.length_digits, digits, whole, Option.bind_some, make?]
  simp [twoTo_zero, id.number_lt]

/-- The digits are divided at the hyphens as they were before, and none gets lost. -/
theorem splitOff_hyphenate (some' : ns ≠ []) (bare : '-' ∉ ds) (sum : ds.length = ns.sum) :
    (Text.splitOff '-' (hyphenate ns ds)).map List.length = ns ∧
      (Text.splitOff '-' (hyphenate ns ds)).flatten = ds := by
  fun_induction hyphenate ns ds with
  | case1 ds => exact absurd rfl some'
  | case2 ds n =>
    rw [Text.splitOff_of_notMem bare]
    simpa using sum
  | case3 n rest ds more ih =>
    have front : '-' ∉ ds.take n := fun member => bare (List.mem_of_mem_take member)
    have behind : '-' ∉ ds.drop n := fun member => bare (List.mem_of_mem_drop member)
    have fits : n ≤ ds.length := by simp [sum]
    obtain ⟨lengths, flat⟩ := ih (by simpa using more) behind (by simp [sum])
    rw [Text.splitOff_append front, List.map_cons, List.flatten_cons, lengths, flat]
    exact ⟨by rw [List.length_take_of_le fits], List.take_append_drop n ds⟩

theorem ofHyphenated?_hyphenate (id : JobId) :
    ofHyphenated? (hyphenate groups id.digits) = some id := by
  obtain ⟨lengths, flat⟩ :=
    @splitOff_hyphenate groups id.digits (by decide) id.hyphen_notMem_digits id.length_digits
  rw [ofHyphenated?, if_pos lengths, flat, ofDigits?_digits]

theorem length_hyphenate (some' : ns ≠ []) :
    (hyphenate ns ds).length + 1 = ds.length + ns.length := by
  fun_induction hyphenate ns ds with
  | case1 ds => exact absurd rfl some'
  | case2 ds n => rfl
  | case3 n rest ds more ih =>
    have behind := ih (by simpa using more)
    simp only [List.length_append, List.length_cons, List.length_take, List.length_drop] at behind ⊢
    omega

theorem mem_hyphenate (member : c ∈ hyphenate ns ds) : c = '-' ∨ c ∈ ds := by
  fun_induction hyphenate ns ds with
  | case1 ds => exact .inr member
  | case2 ds n => exact .inr member
  | case3 n rest ds more ih =>
    rcases List.mem_append.mp member with front | behind
    · exact .inr (List.mem_of_mem_take front)
    · rcases List.mem_cons.mp behind with rfl | behind
      · exact .inl rfl
      · exact (ih behind).imp_right List.mem_of_mem_drop

theorem mem_text (member : c ∈ id.text.toList) : c ∈ '-' :: hexChars := by
  rw [text, String.toList_ofList] at member
  exact List.mem_cons.mpr ((mem_hyphenate member).imp_right mem_digits)

theorem length_text (id : JobId) : id.text.toList.length = 36 := by
  have grouped := @length_hyphenate groups id.digits (by decide)
  rw [length_digits] at grouped
  rw [text, String.toList_ofList]
  exact Nat.succ_injective grouped

theorem trimmed_text (id : JobId) : Text.trimmed id.text.toList = id.text.toList := by
  have blanks : ('-' :: hexChars).any Text.isBlank = false := by decide
  have plain : ∀ c ∈ id.text.toList, Text.isBlank c = false := fun c member =>
    Bool.eq_false_iff.mpr (List.any_eq_false.mp blanks c (mem_text member))
  refine Text.trimmed_eq_iff.mpr ⟨⟨[], [], by simp, nofun, nofun⟩, fun c first => ?_, fun c last => ?_⟩
  · exact plain c (List.mem_of_mem_head? first)
  · exact plain c (List.mem_of_getLast? last)

theorem ofString?_text (id : JobId) : ofString? id.text = some id := by
  have length := id.length_text
  rw [ofString?, trimmed_text, ofChars?, if_neg (by omega), if_pos length, text,
    String.toList_ofList, ofHyphenated?_hyphenate]

end JobId
end StrategySearch
