import StrategySearch.Json.Reader
import StrategySearch.Proofs.Json.Token

/-! A value is read alike wherever it stands.

What is read from a text is read from the front of any longer one too, with more to spend and at any
depth that leaves room for it. So a document may be put into a larger one and means there what it
meant alone, as long as it is not nested too deep for its new place.
-/

set_option autoImplicit false

namespace StrategySearch.Json

/-- All parts are readable, and lists and records are nested so deep at most. -/
inductive Within : Nat → Json → Prop where
  | null {depth : Nat} : Within depth .null
  | bool {depth : Nat} {value : Bool} : Within depth (.bool value)
  | integer {depth : Nat} {value : Int} : Within depth (.integer value)
  | real {depth : Nat} {value : Float} : Within depth (.real value)
  | text {depth : Nat} {value : String} : Within depth (.text value)
  | list {depth : Nat} {items : List Json} :
      (∀ item ∈ items, Within depth item) → Within (depth + 1) (.list items)
  | record {depth : Nat} {fields : List (String × Json)} :
      (∀ field ∈ fields, Within depth field.2) → Within (depth + 1) (.record fields)

variable {extra cs tail rest : List Char} {fuel fuel' depth depth' : Nat} {j : Json}

namespace Within

attribute [simp] Within.null Within.bool Within.integer Within.real Within.text

@[simp] theorem list_iff {items : List Json} :
    Within (depth + 1) (.list items) ↔ ∀ item ∈ items, Within depth item :=
  ⟨fun within => by cases within; assumption, .list⟩

@[simp] theorem record_iff {fields : List (String × Json)} :
    Within (depth + 1) (.record fields) ↔ ∀ field ∈ fields, Within depth field.2 :=
  ⟨fun within => by cases within; assumption, .record⟩

end Within

theorem allReadable_iff {items : List Json} :
    allReadable items ↔ ∀ item ∈ items, item.readable := by
  induction items with
  | nil => simp [allReadable]
  | cons item items ih => simp [allReadable, ih]

theorem fieldsReadable_iff {fields : List (String × Json)} :
    fieldsReadable fields ↔ ∀ field ∈ fields, field.2.readable := by
  induction fields with
  | nil => simp [fieldsReadable]
  | cons field fields ih => simp [fieldsReadable, ih]

theorem Within.readable (within : Within depth j) : j.readable := by
  induction within with
  | null | bool | integer | real | text => rfl
  | list _ ih => exact allReadable_iff.mpr ih
  | record _ ih => exact fieldsReadable_iff.mpr ih

section Blank

variable (blank : skipSpace cs = [])
include blank

theorem readValue_of_blank : readValue fuel depth cs = none := by
  cases fuel with
  | zero => rfl
  | succ fuel => simp [readValue, blank, scanNumber, scanSign]

theorem readItems_of_blank {acc : List Json} : readItems fuel depth acc cs = none := by
  cases fuel with
  | zero => rfl
  | succ fuel => rw [readItems, readValue_of_blank blank]

theorem readFields_of_blank {acc : List (String × Json)} {named : Bool} :
    readFields fuel depth acc named cs = none := by
  cases fuel with
  | zero => rfl
  | succ fuel => rw [readFields, blank]

end Blank

theorem readItems_eq_list {acc : List Json}
    (found : readItems fuel depth acc cs = some (j, rest)) :
    ∃ items, j = .list (acc.reverse ++ items) := by
  induction fuel generalizing acc cs with
  | zero => cases found
  | succ fuel ih =>
    rw [readItems] at found
    split at found
    · cases found
    · next item after read =>
      split at found
      · obtain ⟨items, rfl⟩ := ih found
        exact ⟨item :: items, by simp⟩
      · cases found
        exact ⟨[item], by simp⟩
      · cases found

theorem readFields_eq_record {acc : List (String × Json)} {named : Bool}
    (found : readFields fuel depth acc named cs = some (j, rest)) :
    j = .unreadable ∨ ∃ fields, j = .record (acc.reverse ++ fields) := by
  induction fuel generalizing acc named cs with
  | zero => cases found
  | succ fuel ih =>
    rw [readFields] at found
    split at found
    · split at found
      · cases found
      · next name _ _ =>
        split at found
        · split at found
          · cases found
          · next value after read =>
            split at found
            · refine (ih found).imp id ?_
              rintro ⟨fields, rfl⟩
              exact ⟨(name.getD "", value) :: fields, by simp⟩
            · cases found
              split
              · exact .inr ⟨[(name.getD "", value)], by simp⟩
              · exact .inl rfl
            · cases found
        · cases found
    · cases found

/-- What this much reads, more reads too from a longer text, if there is room for the value. -/
structure ReadsOn (extra : List Char) (fuel : Nat) : Prop where
  value : ∀ {fuel' depth depth' cs rest j}, fuel ≤ fuel' → Within depth' j →
    readValue fuel depth cs = some (j, rest) →
    readValue fuel' depth' (cs ++ extra) = some (j, rest ++ extra)
  items : ∀ {fuel' depth depth' acc cs rest j}, fuel ≤ fuel' → Within (depth' + 1) j →
    readItems fuel depth acc cs = some (j, rest) →
    readItems fuel' depth' acc (cs ++ extra) = some (j, rest ++ extra)
  fields : ∀ {fuel' depth depth' acc named cs rest j}, fuel ≤ fuel' → Within (depth' + 1) j →
    readFields fuel depth acc named cs = some (j, rest) →
    readFields fuel' depth' acc named (cs ++ extra) = some (j, rest ++ extra)

namespace ReadsOn

theorem list_succ (ih : ReadsOn extra fuel) (start : skipSpace cs = '[' :: tail)
    (within : Within depth' j) (found : readValue (fuel + 1) depth cs = some (j, rest))
    (more : fuel ≤ fuel') :
    readValue (fuel' + 1) depth' (cs ++ extra) = some (j, rest ++ extra) := by
  simp only [readValue, start, skipSpace_append start] at found ⊢
  split at found
  · -- A list that is passed over has no place anywhere.
    obtain ⟨after, -, same⟩ := Option.map_eq_some_iff.mp found
    cases same
    cases within
  split at found
  · next closes =>
    cases found
    cases within
    simp [skipSpace_append closes]
  · next isOpen =>
    obtain ⟨items, rfl⟩ := readItems_eq_list found
    cases first : skipSpace tail with
    | nil =>
      rw [readItems_of_blank first] at found
      cases found
    | cons c after =>
      have notClosed : c ≠ ']' := fun same => isOpen after (same ▸ first)
      cases within with
      | list parts =>
        simp only [skipSpace_append first]
        simpa [notClosed] using ih.items more (.list parts) found

theorem record_succ (ih : ReadsOn extra fuel) (start : skipSpace cs = '\x7b' :: tail)
    (within : Within depth' j) (found : readValue (fuel + 1) depth cs = some (j, rest))
    (more : fuel ≤ fuel') :
    readValue (fuel' + 1) depth' (cs ++ extra) = some (j, rest ++ extra) := by
  simp only [readValue, start, skipSpace_append start] at found ⊢
  split at found
  · obtain ⟨after, -, same⟩ := Option.map_eq_some_iff.mp found
    cases same
    cases within
  split at found
  · next closes =>
    cases found
    cases within
    simp [skipSpace_append closes]
  · next isOpen =>
    rcases readFields_eq_record found with rfl | ⟨fields, rfl⟩
    · cases within
    cases first : skipSpace tail with
    | nil =>
      rw [readFields_of_blank first] at found
      cases found
    | cons c after =>
      have notClosed : c ≠ '\x7d' := fun same => isOpen after (same ▸ first)
      cases within with
      | record parts =>
        simp only [skipSpace_append first]
        simpa [notClosed] using ih.fields more (.record parts) found

theorem word_append {word : List Char} {value : Json}
    (found : (scanWord word cs).map (value, ·) = some (j, rest)) :
    (scanWord word (cs ++ extra)).map (value, ·) = some (j, rest ++ extra) := by
  obtain ⟨after, scanned, same⟩ := Option.map_eq_some_iff.mp found
  cases same
  simp only [scanWord_append scanned]
  rfl

theorem value_succ (bounds : Bounds isNumberChar extra) (ih : ReadsOn extra fuel)
    (within : Within depth' j) (found : readValue (fuel + 1) depth cs = some (j, rest))
    (more : fuel ≤ fuel') :
    readValue (fuel' + 1) depth' (cs ++ extra) = some (j, rest ++ extra) := by
  -- The first character decides what is read, and it stands before what is added.
  cases start : skipSpace cs with
  | nil =>
    rw [readValue_of_blank start] at found
    cases found
  | cons c tail =>
    by_cases isList : c = '['
    · exact ih.list_succ (isList ▸ start) within found more
    by_cases isRecord : c = '\x7b'
    · exact ih.record_succ (isRecord ▸ start) within found more
    simp only [readValue, start, skipSpace_append start] at found ⊢
    split at found
    · next after same =>
      obtain ⟨rfl, rfl⟩ := List.cons.inj same
      obtain ⟨⟨s, after⟩, scanned, same⟩ := Option.map_eq_some_iff.mp found
      cases same
      simp only [scanString_append scanned]
      rfl
    · next same => exact absurd (List.head_eq_of_cons_eq same) isList
    · next same => exact absurd (List.head_eq_of_cons_eq same) isRecord
    iterate 3
      next after same =>
        obtain ⟨rfl, rfl⟩ := List.cons.inj same
        exact word_append found
    · next notString _ _ notNull notTrue notFalse =>
      obtain ⟨⟨token, after⟩, scanned, same⟩ := Option.map_eq_some_iff.mp found
      cases same
      split
      · next same => exact (notString _ (by rw [List.head_eq_of_cons_eq same])).elim
      · next same => exact absurd (List.head_eq_of_cons_eq same) isList
      · next same => exact absurd (List.head_eq_of_cons_eq same) isRecord
      · next same => exact (notNull _ (by rw [List.head_eq_of_cons_eq same])).elim
      · next same => exact (notTrue _ (by rw [List.head_eq_of_cons_eq same])).elim
      · next same => exact (notFalse _ (by rw [List.head_eq_of_cons_eq same])).elim
      · rw [← List.cons_append, scanNumber_append bounds scanned]
        rfl

theorem items_succ (ih : ReadsOn extra fuel) {acc : List Json} (within : Within (depth' + 1) j)
    (found : readItems (fuel + 1) depth acc cs = some (j, rest)) (more : fuel ≤ fuel') :
    readItems (fuel' + 1) depth' acc (cs ++ extra) = some (j, rest ++ extra) := by
  rw [readItems] at found ⊢
  split at found
  · cases found
  · next item after read =>
    -- The item is within its depth as a part of the list.
    have part : ∀ {items}, j = .list items → item ∈ items → Within depth' item := by
      rintro items rfl
      exact Within.list_iff.mp within item
    split at found
    · next tail comma =>
      obtain ⟨items, same⟩ := readItems_eq_list found
      have read' := ih.value more (part same (by simp)) read
      simp only [read', skipSpace_append comma]
      exact ih.items more within found
    · next tail closes =>
      cases found
      have read' := ih.value more (part rfl (by simp)) read
      simp only [read', skipSpace_append closes]
    · cases found

theorem fields_succ (ih : ReadsOn extra fuel) {acc : List (String × Json)} {named : Bool}
    (within : Within (depth' + 1) j)
    (found : readFields (fuel + 1) depth acc named cs = some (j, rest)) (more : fuel ≤ fuel') :
    readFields (fuel' + 1) depth' acc named (cs ++ extra) = some (j, rest ++ extra) := by
  rw [readFields] at found ⊢
  split at found
  case h_2 => cases found
  next opened quote =>
  simp only [skipSpace_append quote]
  split at found
  · cases found
  next name named' scanned =>
  simp only [scanString_append scanned]
  split at found
  case h_2 => cases found
  next before colon =>
  simp only [skipSpace_append colon]
  split at found
  · cases found
  next value after read =>
  -- The value is one of the fields of the record, and is nested less deep.
  have part : ∀ {fields}, j = .record fields → (name.getD "", value) ∈ fields →
      Within depth' value := by
    rintro fields rfl
    exact Within.record_iff.mp within _
  split at found
  · next tail comma =>
    rcases readFields_eq_record found with rfl | ⟨fields, same⟩
    · cases within
    have read' := ih.value more (part same (by simp)) read
    simp only [read', skipSpace_append comma]
    exact ih.fields more within found
  · next tail closes =>
    obtain ⟨rfl, rfl⟩ := Prod.mk.inj (Option.some.inj found)
    split at within
    · next readable =>
      have read' := ih.value more (part (if_pos readable) (by simp)) read
      simp only [read', skipSpace_append closes]
    · cases within
  · cases found

end ReadsOn

theorem reads_on (bounds : Bounds isNumberChar extra) (fuel : Nat) : ReadsOn extra fuel := by
  induction fuel with
  | zero => exact ⟨fun _ _ => nofun, fun _ _ => nofun, fun _ _ => nofun⟩
  | succ fuel ih =>
    constructor
    · intro fuel' _ _ _ _ _ more within found
      obtain ⟨fuel', rfl⟩ := Nat.exists_eq_add_of_le' (Nat.lt_of_lt_of_le fuel.succ_pos more)
      exact ih.value_succ bounds within found (Nat.le_of_succ_le_succ more)
    · intro fuel' _ _ _ _ _ _ more within found
      obtain ⟨fuel', rfl⟩ := Nat.exists_eq_add_of_le' (Nat.lt_of_lt_of_le fuel.succ_pos more)
      exact ih.items_succ within found (Nat.le_of_succ_le_succ more)
    · intro fuel' _ _ _ _ _ _ _ more within found
      obtain ⟨fuel', rfl⟩ := Nat.exists_eq_add_of_le' (Nat.lt_of_lt_of_le fuel.succ_pos more)
      exact ih.fields_succ within found (Nat.le_of_succ_le_succ more)

theorem parse?_eq_some_iff {body : String} : parse? body = some j ↔
    ∃ rest, readValue (2 * body.toList.length + 2) maxDepth body.toList = some (j, rest) ∧
      skipSpace rest = [] := by
  unfold parse?
  dsimp only
  split
  · next value rest read =>
    rw [read]
    constructor
    · intro found
      split at found
      · next blank =>
        cases found
        exact ⟨rest, rfl, List.isEmpty_iff.mp blank⟩
      · cases found
    · rintro ⟨_, ⟨⟩, blank⟩
      exact if_pos (List.isEmpty_iff.mpr blank)
  · next missing => simp [missing]

def wrap (name body : String) : String := "\x7b\"" ++ name ++ "\":" ++ body ++ "\x7d"

/-- A document means the same inside a record, if it is not nested as deep as a document may be. -/
theorem parse?_wrap {name body : String}
    (plain : ∀ rest, scanString [] true (name.toList ++ '"' :: rest) = some (some name, rest))
    (within : Within (maxDepth - 1) j) (found : parse? body = some j) :
    parse? (wrap name body) = some (.record [(name, j)]) := by
  obtain ⟨rest, read, blank⟩ := parse?_eq_some_iff.mp found
  have bounds : Bounds isNumberChar ['\x7d'] := by
    rintro c ⟨⟩
    rfl
  apply parse?_eq_some_iff.mpr
  have text : (wrap name body).toList =
      '\x7b' :: '"' :: (name.toList ++ '"' :: ':' :: (body.toList ++ ['\x7d'])) := by
    simp [wrap]
  have more : 2 * body.toList.length + 2 ≤ 2 * (wrap name body).toList.length := by
    rw [text]
    simp
    omega
  -- The body is read as before, with the brace behind it and one level less.
  have read' := (reads_on bounds _).value more within read
  generalize 2 * (wrap name body).toList.length = fuel at read'
  refine ⟨[], ?_, rfl⟩
  have brace : skipSpace ['\x7d'] = ['\x7d'] := rfl
  have isOpen : ∀ tail, skipSpace ('\x7b' :: tail) = '\x7b' :: tail := fun _ => rfl
  have quote : ∀ tail, skipSpace ('"' :: tail) = '"' :: tail := fun _ => rfl
  have colon : ∀ tail, skipSpace (':' :: tail) = ':' :: tail := fun _ => rfl
  have deep : maxDepth ≠ 0 := by decide
  simp only [text, readValue, readFields, isOpen, quote, if_neg deep, plain, colon, read',
    skipSpace_append_of_nil blank, brace]
  rfl

end StrategySearch.Json
