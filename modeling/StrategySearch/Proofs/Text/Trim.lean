import Mathlib.Data.List.DropRight
import StrategySearch.Text

/-! What is cut off a text at its ends, and what stays: a text is cut to the one part of it that has
no such end itself. What stands behind the last separator of a text has none. -/

set_option autoImplicit false

namespace StrategySearch.Text

variable {p : Char → Bool} {cs t : List Char}

theorem dropWhile_eq_iff : cs.dropWhile p = t ↔
    (∃ front, cs = front ++ t ∧ ∀ c ∈ front, p c) ∧ ∀ c ∈ t.head?, p c = false := by
  constructor
  · rintro rfl
    refine ⟨⟨cs.takeWhile p, List.takeWhile_append_dropWhile.symm, ?_⟩, ?_⟩
    · exact fun c member => List.mem_takeWhile_imp member
    · intro c first
      have := List.head?_dropWhile_not p cs
      simp_all
  · rintro ⟨⟨front, rfl, dropped⟩, kept⟩
    rw [List.dropWhile_append_of_pos dropped]
    cases t with
    | nil => rfl
    | cons c rest => exact List.dropWhile_cons_of_neg (by simp [kept c rfl])

theorem dropEndWhile_eq_iff : dropEndWhile p cs = t ↔
    (∃ tail, cs = t ++ tail ∧ ∀ c ∈ tail, p c) ∧ ∀ c ∈ t.getLast?, p c = false := by
  have turned := @dropWhile_eq_iff p cs.reverse t.reverse
  rw [dropEndWhile, List.reverse_eq_iff, turned, List.head?_reverse]
  refine and_congr_left fun _ => ?_
  constructor
  · rintro ⟨front, whole, dropped⟩
    refine ⟨front.reverse, ?_, by simpa using dropped⟩
    rw [← List.reverse_inj, whole]
    simp
  · rintro ⟨tail, rfl, dropped⟩
    exact ⟨tail.reverse, by simp, by simpa using dropped⟩

/-- The text without the blanks at its ends is the part between blanks that begins and ends with
none. -/
theorem trimmed_eq_iff : trimmed cs = t ↔
    (∃ front tail, cs = front ++ t ++ tail ∧ (∀ c ∈ front, isBlank c) ∧ ∀ c ∈ tail, isBlank c) ∧
      (∀ c ∈ t.head?, isBlank c = false) ∧ ∀ c ∈ t.getLast?, isBlank c = false := by
  rw [trimmed, dropEndWhile_eq_iff]
  constructor
  · rintro ⟨⟨tail, rest, blank⟩, last⟩
    obtain ⟨⟨front, whole, blank'⟩, first⟩ := dropWhile_eq_iff.mp rest
    refine ⟨⟨front, tail, ?_, blank', blank⟩, ?_, last⟩
    · rw [whole, List.append_assoc]
    · intro c isFirst
      exact first c (by simp [List.head?_append, Option.mem_def.mp isFirst])
  · rintro ⟨⟨front, tail, rfl, blank, blank'⟩, first, last⟩
    refine ⟨?_, last⟩
    cases t with
    | nil =>
      -- Of blanks alone nothing is left, wherever they are thought to be divided.
      refine ⟨[], dropWhile_eq_iff.mpr ⟨⟨front ++ tail, by simp, ?_⟩, nofun⟩, nofun⟩
      simpa [or_imp, forall_and] using ⟨blank, blank'⟩
    | cons c rest =>
      refine ⟨tail, dropWhile_eq_iff.mpr ⟨⟨front, by simp, blank⟩, ?_⟩, blank'⟩
      exact fun c' isFirst => first c' isFirst

theorem trimmed_trimmed (cs : List Char) : trimmed (trimmed cs) = trimmed cs :=
  trimmed_eq_iff.mpr ⟨⟨[], [], by simp, nofun, nofun⟩, (trimmed_eq_iff.mp rfl).2⟩

theorem trimmed_eq_nil_iff : trimmed cs = [] ↔ ∀ c ∈ cs, isBlank c := by
  rw [trimmed_eq_iff]
  constructor
  · rintro ⟨⟨front, tail, rfl, blank, blank'⟩, -⟩
    simpa [or_imp, forall_and] using ⟨blank, blank'⟩
  · intro blank
    exact ⟨⟨[], cs, by simp, nofun, blank⟩, nofun, nofun⟩

theorem hasPart_iff {part : List Char} : hasPart part cs ↔ part <:+: cs := by
  induction cs with
  | nil => simp [hasPart]
  | cons c rest ih => simp [hasPart, List.infix_cons_iff, ih]

section Separated

variable {sep : Char} {front rest : List Char}

theorem behindLast_of_notMem (bare : sep ∉ cs) : behindLast sep cs = cs := by
  have passed : ∀ c ∈ cs.reverse, (c != sep) = true := by
    intro c member
    simpa using fun same : c = sep => bare (same ▸ List.mem_reverse.mp member)
  rw [behindLast, List.takeWhile_eq_self_iff.mpr passed, List.reverse_reverse]

theorem behindLast_append (last : sep ∉ rest) : behindLast sep (front ++ sep :: rest) = rest := by
  have passed : ∀ c ∈ rest.reverse, (c != sep) = true := by
    intro c member
    simpa using fun same : c = sep => last (same ▸ List.mem_reverse.mp member)
  rw [behindLast, List.reverse_append, List.reverse_cons, List.append_assoc,
    List.takeWhile_append_of_pos passed]
  simp

theorem exists_last (member : sep ∈ cs) : ∃ front rest, cs = front ++ sep :: rest ∧ sep ∉ rest := by
  obtain ⟨front, rest, whole, first⟩ :=
    List.eq_append_cons_of_mem (List.mem_reverse.mpr member)
  refine ⟨rest.reverse, front.reverse, ?_, by simpa using first⟩
  rw [← List.reverse_inj, whole]
  simp

end Separated

@[simp] theorem toList_trim (s : String) : (trim s).toList = trimmed s.toList :=
  String.toList_ofList

theorem trim_trim (s : String) : trim (trim s) = trim s := by
  rw [trim, toList_trim, trimmed_trimmed, trim]

theorem trim_eq_empty_iff {s : String} : trim s = "" ↔ isBlankText s := by
  rw [← String.toList_inj, toList_trim, String.toList_empty, trimmed_eq_nil_iff, isBlankText,
    List.all_eq_true]

end StrategySearch.Text
