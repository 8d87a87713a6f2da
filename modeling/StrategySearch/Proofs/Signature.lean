import StrategySearch.Parameters
import StrategySearch.Proofs.FloatText.Distinct

/-! A signature tells a candidate from all others.

Every part of a signature ends in a place that can be seen: quoted text at the first quote that is not
escaped, a number at the parenthesis behind it. So the text of one entry never begins that of another,
and entries are read off one by one.
-/

set_option autoImplicit false

namespace StrategySearch

namespace Signature

variable {α β : Type}

/-- A code that can be read without knowing what follows. -/
def SelfDelimiting (code : α → List Char) : Prop :=
  ∀ {a b rest rest'}, code a ++ rest = code b ++ rest' → a = b ∧ rest = rest'

theorem append_cons_inj {stop : Char} {left right rest rest' : List Char} (before : stop ∉ left)
    (before' : stop ∉ right) (same : left ++ stop :: rest = right ++ stop :: rest') :
    left = right ∧ rest = rest' := by
  induction left generalizing right with
  | nil =>
    cases right with
    | nil => exact ⟨rfl, (List.cons.inj same).2⟩
    | cons c right => exact absurd ((List.cons.inj same).1 ▸ List.mem_cons_self) before'
  | cons c left ih =>
    cases right with
    | nil => exact absurd ((List.cons.inj same).1 ▸ List.mem_cons_self) before
    | cons c' right =>
      obtain ⟨rfl, tails⟩ := List.cons.inj same
      obtain ⟨rfl, rests⟩ := ih (fun member => before (List.mem_cons_of_mem _ member))
        (fun member => before' (List.mem_cons_of_mem _ member)) tails
      exact ⟨rfl, rests⟩

theorem SelfDelimiting.until {code : α → List Char} (stop : Char)
    (injective : ∀ a b, code a = code b → a = b) (avoids : ∀ a, stop ∉ code a) :
    SelfDelimiting fun a => code a ++ [stop] := by
  intro a b rest rest' same
  simp only [List.append_assoc, List.singleton_append] at same
  obtain ⟨texts, rests⟩ := append_cons_inj (avoids a) (avoids b) same
  exact ⟨injective a b texts, rests⟩

/-! ## Quoted texts -/

/-- The characters that are escaped by a letter or by themselves, each with what stands for it. -/
def marks : List (Char × Char) :=
  [('"', '"'), ('\\', '\\'), ('\t', 't'), ('\n', 'n'), ('\r', 'r'), ('\x00', '0')]

theorem escape_cases (c : Char) :
    (escape c = [c] ∧ c ≠ '"' ∧ c ≠ '\\') ∨
      (∃ mark ∈ marks, c = mark.1 ∧ escape c = ['\\', mark.2]) ∨
      escape c = '\\' :: 'u' :: '\x7b' :: (Nat.toDigits 16 c.toNat ++ ['\x7d']) := by
  by_cases marked : c ∈ marks.map Prod.fst
  · obtain ⟨mark, member, rfl⟩ := List.mem_map.mp marked
    have each : ∀ mark ∈ marks, escape mark.1 = ['\\', mark.2] := by decide
    exact .inr (.inl ⟨mark, member, rfl, each mark member⟩)
  · simp only [marks, List.map_cons, List.map_nil, List.mem_cons, List.not_mem_nil, or_false,
      not_or] at marked
    obtain ⟨quote, slash, tab, line, turn, none⟩ := marked
    unfold escape
    simp only [quote, slash, tab, line, turn, none, if_false]
    split
    · exact .inr (.inr rfl)
    · exact .inl ⟨rfl, quote, slash⟩

theorem digitChar_injective {a b : Nat} (left : a < 16) (right : b < 16)
    (same : a.digitChar = b.digitChar) : a = b := by
  have each : ∀ a b : Fin 16, a.val.digitChar = b.val.digitChar → a = b := by decide
  exact congrArg Fin.val (each ⟨a, left⟩ ⟨b, right⟩ same)

theorem toDigits_injective {m n : Nat} (same : Nat.toDigits 16 m = Nat.toDigits 16 n) : m = n := by
  induction m using Nat.strongRecOn generalizing n with
  | ind m ih =>
    have some (n : Nat) : Nat.toDigits 16 n ≠ [] := Nat.toDigits_ne_nil
    rw [Nat.toDigits_eq_if (by decide), Nat.toDigits_eq_if (n := n) (by decide)] at same
    split at same <;> split at same
    · next short short' => exact digitChar_injective short short' (List.cons.inj same).1
    · have tails := List.append_inj' ((List.nil_append [_]).trans same) rfl
      exact absurd tails.1.symm (some _)
    · have tails := List.append_inj' (same.trans (List.nil_append [_]).symm) rfl
      exact absurd tails.1 (some _)
    · obtain ⟨front, last⟩ := List.append_inj' same rfl
      have quotients := ih (m / 16) (by omega) front
      have remainders := digitChar_injective (Nat.mod_lt m (by decide)) (Nat.mod_lt n (by decide))
        (List.cons.inj last).1
      omega

theorem brace_notMem_toDigits (n : Nat) : '\x7d' ∉ Nat.toDigits 16 n := by
  have digit {a : Nat} (less : a < 16) : '\x7d' ≠ a.digitChar := by
    have each : ∀ a : Fin 16, '\x7d' ≠ a.val.digitChar := by decide
    exact each ⟨a, less⟩
  induction n using Nat.strongRecOn with
  | ind n ih =>
    rw [Nat.toDigits_eq_if (by decide)]
    split
    · next short => exact fun member => digit short (List.mem_singleton.mp member)
    · intro member
      rcases List.mem_append.mp member with front | last
      · exact ih (n / 16) (by omega) front
      · exact digit (Nat.mod_lt n (by decide)) (List.mem_singleton.mp last)

theorem hex_selfDelimiting : SelfDelimiting fun c : Char => Nat.toDigits 16 c.toNat ++ ['\x7d'] :=
  SelfDelimiting.until _ (fun _ _ same => Char.toNat_inj.mp (toDigits_injective same))
    fun c => brace_notMem_toDigits c.toNat

theorem escape_selfDelimiting : SelfDelimiting escape := by
  have marks_injective : ∀ mark ∈ marks, ∀ mark' ∈ marks, mark.2 = mark'.2 → mark.1 = mark'.1 := by
    decide
  have letter : ∀ mark ∈ marks, mark.2 ≠ 'u' := by decide
  intro a b rest rest' same
  rcases escape_cases a with ⟨code, -, plain⟩ | ⟨mark, member, rfl, code⟩ | code <;>
    rcases escape_cases b with ⟨code', -, plain'⟩ | ⟨mark', member', rfl, code'⟩ | code' <;>
    rw [code, code'] at same <;>
    simp only [List.cons_append, List.nil_append, List.cons.injEq] at same
  · exact same
  · exact absurd same.1 plain
  · exact absurd same.1 plain
  · exact absurd same.1.symm plain'
  · exact ⟨marks_injective mark member mark' member' same.2.1, same.2.2⟩
  · exact absurd same.2.1 (letter mark member)
  · exact absurd same.1.symm plain'
  · exact absurd same.2.1.symm (letter mark' member')
  · exact hex_selfDelimiting same.2.2.2

theorem head_escape (c : Char) (rest : List Char) : ∃ d tail, escape c ++ rest = d :: tail ∧ d ≠ '"' := by
  rcases escape_cases c with ⟨code, quote, -⟩ | ⟨mark, -, -, code⟩ | code
  · exact ⟨c, rest, by rw [code]; rfl, quote⟩
  · exact ⟨'\\', mark.2 :: rest, by rw [code]; rfl, by decide⟩
  · exact ⟨'\\', _, by rw [code]; rfl, by decide⟩

theorem escaped_inj {s t rest rest' : List Char}
    (same : s.flatMap escape ++ '"' :: rest = t.flatMap escape ++ '"' :: rest') :
    s = t ∧ rest = rest' := by
  induction s generalizing t with
  | nil =>
    cases t with
    | nil => exact ⟨rfl, (List.cons.inj same).2⟩
    | cons c t =>
      obtain ⟨d, tail, head, other⟩ := head_escape c (t.flatMap escape ++ '"' :: rest')
      rw [List.flatMap_cons, List.append_assoc, head] at same
      exact absurd (List.cons.inj same).1.symm other
  | cons c s ih =>
    cases t with
    | nil =>
      obtain ⟨d, tail, head, other⟩ := head_escape c (s.flatMap escape ++ '"' :: rest)
      rw [List.flatMap_cons, List.append_assoc, head] at same
      exact absurd (List.cons.inj same).1 other
    | cons c' t =>
      rw [List.flatMap_cons, List.flatMap_cons, List.append_assoc, List.append_assoc] at same
      obtain ⟨rfl, tails⟩ := escape_selfDelimiting same
      obtain ⟨rfl, rests⟩ := ih tails
      exact ⟨rfl, rests⟩

theorem toList_quoted (s : String) :
    (quoted s).toList = '"' :: (s.toList.flatMap escape ++ ['"']) := by
  simp [quoted, String.toList_append]

theorem quoted_selfDelimiting : SelfDelimiting fun s => (quoted s).toList := by
  intro s t rest rest' same
  simp only [toList_quoted, List.cons_append, List.append_assoc, List.nil_append, List.cons.injEq,
    true_and] at same
  obtain ⟨texts, rests⟩ := escaped_inj same
  exact ⟨String.toList_injective texts, rests⟩

/-! ## Values and entries -/

theorem paren_notMem_int (n : Int) : ')' ∉ (toString n).toList := by
  have digits (k : Nat) : ')' ∉ k.repr.toList := fun member => by
    rw [Nat.repr_eq_ofList_toDigits, String.toList_ofList] at member
    exact absurd (Nat.isDigit_of_mem_toDigits (by decide) (by decide) member) (by decide)
  rw [Int.toString_eq_repr, Int.repr_eq_if]
  split
  · exact digits _
  · rw [String.toList_append, List.mem_append]
    exact fun member => member.elim (by decide) (digits _)

theorem value_selfDelimiting : SelfDelimiting fun v => (value v).toList := by
  have integer : SelfDelimiting fun n : Int => (toString n).toList ++ [')'] :=
    SelfDelimiting.until _ (fun _ _ same => Int.repr_injective (String.toList_injective same)) paren_notMem_int
  have real : SelfDelimiting fun x : Float => (FloatText.tagged.text x).toList ++ [')'] :=
    SelfDelimiting.until _ (fun _ _ same => FloatText.text_injective (String.toList_injective same))
      FloatText.paren_notMem_text
  intro v w rest rest' same
  -- The kinds differ in their first letters.
  cases v with
  | integer n =>
    cases w with
    | integer n' =>
      simp only [value, String.toList_append, List.append_assoc] at same
      obtain ⟨rfl, rests⟩ := integer (by simpa using List.append_cancel_left same)
      exact ⟨rfl, rests⟩
    | real _ => exact absurd (congrArg List.head? same) (by simp [value])
    | category _ => exact absurd (congrArg List.head? same) (by simp [value])
  | real x =>
    cases w with
    | integer _ => exact absurd (congrArg List.head? same) (by simp [value])
    | real x' =>
      simp only [value, String.toList_append, List.append_assoc] at same
      obtain ⟨rfl, rests⟩ := real (by simpa using List.append_cancel_left same)
      exact ⟨rfl, rests⟩
    | category _ => exact absurd (congrArg List.head? same) (by simp [value])
  | category name =>
    cases w with
    | integer _ => exact absurd (congrArg List.head? same) (by simp [value])
    | real _ => exact absurd (congrArg List.head? same) (by simp [value])
    | category name' =>
      simp only [value, String.toList_append, List.append_assoc] at same
      obtain ⟨rfl, rests⟩ := quoted_selfDelimiting (List.append_cancel_left same)
      exact ⟨rfl, List.append_cancel_left rests⟩

theorem entry_selfDelimiting : SelfDelimiting fun e => (entry e).toList := by
  intro e e' rest rest' same
  simp only [entry, String.toList_append, List.append_assoc] at same
  obtain ⟨names, tails⟩ := quoted_selfDelimiting same
  obtain ⟨values, rests⟩ := value_selfDelimiting (List.append_cancel_left tails)
  exact ⟨Prod.ext names values, rests⟩

def following : List (String × ParameterValue) → List Char
  | [] => ['\x7d']
  | e :: rest => ',' :: ' ' :: ((entry e).toList ++ following rest)

theorem following_injective {es fs : List (String × ParameterValue)}
    (same : following es = following fs) : es = fs := by
  induction es generalizing fs with
  | nil =>
    cases fs with
    | nil => rfl
    | cons f fs => exact absurd (List.cons.inj same).1 (by decide)
  | cons e es ih =>
    cases fs with
    | nil => exact absurd (List.cons.inj same).1 (by decide)
    | cons f fs =>
      simp only [following, List.cons.injEq, true_and] at same
      obtain ⟨rfl, tails⟩ := entry_selfDelimiting same
      rw [ih tails]

theorem intercalate_following (e : String × ParameterValue) (es : List (String × ParameterValue)) :
    (", ".intercalate ((e :: es).map entry)).toList ++ ['\x7d'] =
      (entry e).toList ++ following es := by
  induction es generalizing e with
  | nil => simp [following]
  | cons f es ih =>
    rw [List.map_cons, List.map_cons, String.intercalate_cons_cons, String.toList_append,
      String.toList_append, List.append_assoc, List.append_assoc, ← List.map_cons, ih f]
    simp [following]

end Signature

namespace ByName

variable {first second : ParameterSet}

theorem toList_signature (parameters : ParameterSet) :
    parameters.signature.toList = '\x7b' :: match parameters.entries with
      | [] => ['\x7d']
      | e :: rest => (Signature.entry e).toList ++ Signature.following rest := by
  rw [signature, String.toList_append, String.toList_append]
  split
  · next none => simp [none]
  · next e rest entries =>
    rw [entries, List.append_assoc]
    exact congrArg (List.cons _) (Signature.intercalate_following e rest)

/-- Candidates of one signature are one candidate. -/
theorem signature_injective (same : first.signature = second.signature) : first = second := by
  have texts := congrArg String.toList same
  rw [toList_signature, toList_signature, List.cons.injEq] at texts
  replace texts := texts.2
  ext1
  cases entries : first.entries with
  | nil =>
    cases entries' : second.entries with
    | nil => rfl
    | cons e' rest' =>
      simp [entries, entries', Signature.entry, Signature.toList_quoted] at texts
  | cons e rest =>
    cases entries' : second.entries with
    | nil => simp [entries, entries', Signature.entry, Signature.toList_quoted] at texts
    | cons e' rest' =>
      simp only [entries, entries'] at texts
      obtain ⟨rfl, rests⟩ := Signature.entry_selfDelimiting texts
      rw [Signature.following_injective rests]

end ByName
end StrategySearch
