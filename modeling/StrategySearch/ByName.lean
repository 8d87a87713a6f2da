/-! Finite maps from names, kept in the order of the names, so that equal maps have equal
entries. -/

set_option autoImplicit false

namespace StrategySearch

structure ByName (α : Type) where
  entries : List (String × α)
  ordered : entries.Pairwise fun a b => a.1 < b.1

namespace ByName

variable {α β : Type}

/-- Puts an entry in its place; a present one of that name is replaced. -/
def place (name : String) (value : α) : List (String × α) → List (String × α)
  | [] => [(name, value)]
  | (other, kept) :: rest =>
    if name < other then (name, value) :: (other, kept) :: rest
    else if name = other then (name, value) :: rest
    else (other, kept) :: place name value rest

theorem mem_place {name : String} {value : α} {entry : String × α} {list : List (String × α)}
    (h : entry ∈ place name value list) : entry = (name, value) ∨ entry ∈ list := by
  induction list with
  | nil => simpa [place] using h
  | cons first rest ih =>
    obtain ⟨other, kept⟩ := first
    simp only [place] at h
    split at h
    · simpa using h
    · split at h
      · simp only [List.mem_cons] at h ⊢
        exact h.imp id .inr
      · simp only [List.mem_cons] at h ⊢
        rcases h with h | h
        · exact .inr (.inl h)
        · exact (ih h).imp id .inr

theorem place_ordered {name : String} {value : α} {list : List (String × α)}
    (h : list.Pairwise fun a b => a.1 < b.1) :
    (place name value list).Pairwise fun a b => a.1 < b.1 := by
  induction list with
  | nil => simp [place]
  | cons first rest ih =>
    obtain ⟨other, kept⟩ := first
    obtain ⟨below, tail⟩ := List.pairwise_cons.mp h
    simp only [place]
    split
    · next lt =>
      refine List.pairwise_cons.mpr ⟨fun entry he => ?_, h⟩
      rcases List.mem_cons.mp he with rfl | he
      · exact lt
      · exact String.lt_trans lt (below entry he)
    · split
      · next same => exact List.pairwise_cons.mpr ⟨fun entry he => same ▸ below entry he, tail⟩
      · next notLt ne =>
        refine List.pairwise_cons.mpr ⟨fun entry he => ?_, ih tail⟩
        rcases mem_place he with rfl | he
        · exact String.not_le.mp fun le => ne (String.le_antisymm le (String.not_lt.mp notLt))
        · exact below entry he

def empty : ByName α := ⟨[], .nil⟩

instance : EmptyCollection (ByName α) := ⟨empty⟩
instance : Inhabited (ByName α) := ⟨empty⟩

def insert (m : ByName α) (name : String) (value : α) : ByName α :=
  ⟨place name value m.entries, place_ordered m.ordered⟩

def get? (m : ByName α) (name : String) : Option α := m.entries.lookup name

def contains (m : ByName α) (name : String) : Bool := (m.get? name).isSome

def size (m : ByName α) : Nat := m.entries.length

def isEmpty (m : ByName α) : Bool := m.entries.isEmpty

def names (m : ByName α) : List String := m.entries.map Prod.fst

/-- Of entries with one name the last counts. -/
def ofList (entries : List (String × α)) : ByName α :=
  entries.foldl (fun m entry => m.insert entry.1 entry.2) empty

def map (f : α → β) (m : ByName α) : ByName β :=
  ⟨m.entries.map fun entry => (entry.1, f entry.2), by
    rw [List.pairwise_map]; exact m.ordered⟩

@[ext] theorem ext {m n : ByName α} (h : m.entries = n.entries) : m = n := by
  cases m; cases n; cases h; rfl

instance [BEq α] : BEq (ByName α) := ⟨fun m n => m.entries == n.entries⟩

end ByName
end StrategySearch
