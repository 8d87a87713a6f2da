import StrategySearch.ByName

/-! Names of a map: one entry each, kept where a value is replaced. What is found under a name is
what was put there last; a map from which entries are dropped has the others as they were. -/

set_option autoImplicit false

namespace StrategySearch.ByName

variable {α β : Type} {name : String} {value other : α} {list rest : List (String × α)}
  {m : ByName α}

theorem eq_of_mem (ordered : list.Pairwise fun a b => a.1 < b.1) (first : (name, value) ∈ list)
    (second : (name, other) ∈ list) : value = other := by
  induction ordered with
  | nil => cases first
  | @cons entry rest below _ ih =>
    rcases List.mem_cons.mp first with rfl | inRest
    · rcases List.mem_cons.mp second with same | otherInRest
      · exact (Prod.mk.inj same).2.symm
      · exact absurd (below _ otherInRest) (String.lt_irrefl name)
    · rcases List.mem_cons.mp second with rfl | otherInRest
      · exact absurd (below _ inRest) (String.lt_irrefl name)
      · exact ih inRest otherInRest

theorem mem_of_lookup (found : list.lookup name = some value) : (name, value) ∈ list := by
  induction list with
  | nil => cases found
  | cons entry rest ih =>
    rw [List.lookup_cons] at found
    split at found
    · next same =>
      cases found
      rw [beq_iff_eq] at same
      exact same ▸ List.mem_cons_self
    · exact List.mem_cons_of_mem _ (ih found)

theorem lookup_of_mem (ordered : list.Pairwise fun a b => a.1 < b.1)
    (member : (name, value) ∈ list) : list.lookup name = some value := by
  obtain ⟨found, here⟩ : ∃ found, list.lookup name = some found := by
    rw [← Option.isSome_iff_exists, List.lookup_isSome_iff]
    exact ⟨_, member, beq_self_eq_true name⟩
  rw [here, eq_of_mem ordered (mem_of_lookup here) member]

theorem place_of_lookup (ordered : list.Pairwise fun a b => a.1 < b.1)
    (found : list.lookup name = some value) (new : α) :
    place name new list = list.map fun entry => (entry.1, if entry.1 = name then new else entry.2) := by
  induction ordered with
  | nil => cases found
  | @cons entry rest below _ ih =>
    obtain ⟨key, kept⟩ := entry
    rw [List.lookup_cons] at found
    simp only [place, List.map_cons]
    split at found
    · next same =>
      obtain rfl : name = key := by simpa using same
      have others : ∀ e ∈ rest, (if e.1 = name then new else e.2) = e.2 := fun e mem =>
        if_neg fun (same : e.1 = name) => String.lt_irrefl e.1 (same ▸ below e mem)
      rw [if_neg (String.lt_irrefl name), if_pos rfl, if_pos rfl,
        List.map_congr_left (g := id) fun e mem => by rw [others e mem]; rfl, List.map_id]
    · next different =>
      have ne : name ≠ key := by simpa using different
      have above : ¬ name < key := fun lt =>
        String.lt_irrefl name (String.lt_trans lt (below _ (mem_of_lookup found)))
      rw [if_neg above, if_neg ne, if_neg ne.symm, ih found]

theorem entries_insert (found : m.get? name = some value) (new : α) :
    (m.insert name new).entries =
      m.entries.map fun entry => (entry.1, if entry.1 = name then new else entry.2) :=
  place_of_lookup m.ordered found new

theorem names_insert (found : m.get? name = some value) (new : α) :
    (m.insert name new).names = m.names := by
  simp only [names, entries_insert found, List.map_map]
  rfl

theorem place_last (above : ∀ entry ∈ list, entry.1 < name) :
    place name value list = list ++ [(name, value)] := by
  induction list with
  | nil => rfl
  | cons entry rest ih =>
    have lt := above entry List.mem_cons_self
    have notLt : ¬ name < entry.1 := fun gt => String.lt_irrefl name (String.lt_trans gt lt)
    have ne : name ≠ entry.1 := fun same => String.lt_irrefl name (same ▸ lt)
    rw [place, if_neg notLt, if_neg ne, ih fun e mem => above e (List.mem_cons_of_mem _ mem)]
    rfl

theorem entries_foldl_insert (ordered : (m.entries ++ list).Pairwise fun a b => a.1 < b.1) :
    (list.foldl (fun m entry => m.insert entry.1 entry.2) m).entries = m.entries ++ list := by
  induction list generalizing m with
  | nil => exact (List.append_nil _).symm
  | cons entry rest ih =>
    have above : ∀ e ∈ m.entries, e.1 < entry.1 := fun e mem =>
      (List.pairwise_append.mp ordered).2.2 e mem entry List.mem_cons_self
    have placed : (m.insert entry.1 entry.2).entries = m.entries ++ [entry] := place_last above
    rw [List.foldl_cons, ih, placed, List.append_assoc]
    · rfl
    · rw [placed, List.append_assoc]
      exact ordered

theorem lookup_cons_eq_ite (key : String) : ((name, value) :: list).lookup key =
    if key = name then some value else list.lookup key := by
  rw [List.lookup_cons]
  by_cases same : key = name
  · simp [same]
  · rw [if_neg same, beq_eq_false_iff_ne.mpr same]

theorem lookup_place (key : String) : (place name value list).lookup key =
    if key = name then some value else list.lookup key := by
  induction list with
  | nil => exact lookup_cons_eq_ite key
  | cons entry rest ih =>
    obtain ⟨present, kept⟩ := entry
    rw [place]
    split
    · exact lookup_cons_eq_ite key
    · split
      · next same =>
        simp only [lookup_cons_eq_ite, ← same]
        split <;> rfl
      · next different =>
        simp only [lookup_cons_eq_ite, ih]
        by_cases first : key = present
        · rw [if_pos first, if_neg (first ▸ Ne.symm different), if_pos first]
        · simp only [if_neg first]

theorem get?_insert (m : ByName α) (name key : String) (value : α) :
    (m.insert name value).get? key = if key = name then some value else m.get? key :=
  lookup_place key

theorem lookup_eq_none_of_above (above : ∀ entry ∈ list, name < entry.1) :
    list.lookup name = none := by
  rw [Option.eq_none_iff_forall_ne_some]
  exact fun value found => String.lt_irrefl name (above _ (mem_of_lookup found))

def filterMap (f : String → α → Option β) (m : ByName α) : ByName β where
  entries := m.entries.filterMap fun entry => (f entry.1 entry.2).map (entry.1, ·)
  ordered := by
    refine m.ordered.filterMap _ fun first second below a isNew b isNew' => ?_
    obtain ⟨_, -, rfl⟩ := Option.map_eq_some_iff.mp isNew
    obtain ⟨_, -, rfl⟩ := Option.map_eq_some_iff.mp isNew'
    exact below

theorem lookup_filterMap (f : String → α → Option β)
    (ordered : list.Pairwise fun a b => a.1 < b.1) :
    (list.filterMap fun entry => (f entry.1 entry.2).map (entry.1, ·)).lookup name =
      (list.lookup name).bind (f name) := by
  induction ordered with
  | nil => rfl
  | @cons entry rest below _ ih =>
    obtain ⟨key, kept⟩ := entry
    rw [lookup_cons_eq_ite, List.filterMap_cons]
    by_cases same : name = key
    · subst same
      -- No later entry has the name, so one that is dropped is not found any more.
      have later : rest.lookup name = none := lookup_eq_none_of_above below
      cases new : f name kept with
      | none => simp [ih, later, new]
      | some _ => simp [new]
    · cases new : f key kept with
      | none => simp [ih, same]
      | some _ => simp [lookup_cons_eq_ite, ih, same]

theorem get?_filterMap (f : String → α → Option β) (m : ByName α) (name : String) :
    (m.filterMap f).get? name = (m.get? name).bind (f name) :=
  lookup_filterMap f m.ordered

theorem get?_eq_some_iff (m : ByName α) (name : String) (value : α) :
    m.get? name = some value ↔ (name, value) ∈ m.entries :=
  ⟨mem_of_lookup, lookup_of_mem m.ordered⟩

theorem ext_get? {n : ByName α} (same : ∀ name, m.get? name = n.get? name) : m = n := by
  have apart (k : ByName α) : k.entries.Nodup :=
    k.ordered.imp fun {a b} (below : a.1 < b.1) (same : a = b) =>
      String.lt_irrefl a.1 (congrArg Prod.fst same ▸ below)
  have members : ∀ entry, entry ∈ m.entries ↔ entry ∈ n.entries := fun entry => by
    rw [← get?_eq_some_iff, ← get?_eq_some_iff, same]
  have moved : m.entries.Perm n.entries :=
    (List.perm_ext_iff_of_nodup (apart m) (apart n)).mpr members
  ext1
  exact moved.eq_of_pairwise (fun a b _ _ below above =>
    absurd (String.lt_trans below above) (String.lt_irrefl _)) m.ordered n.ordered

theorem entries_ofList (ordered : list.Pairwise fun a b => a.1 < b.1) :
    (ofList list).entries = list :=
  entries_foldl_insert ordered

end StrategySearch.ByName
