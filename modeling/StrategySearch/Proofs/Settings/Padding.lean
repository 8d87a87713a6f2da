import StrategySearch.Proofs.ByName
import StrategySearch.Proofs.Text.Trim
import StrategySearch.Settings.Reader

/-! What the settings of a search depend on.

Each reader sees a setting through its value without blanks. So settings that have the same values
under the recognised names are read alike, and with the defaults they still have: neither the blanks
around a value nor a name that is not recognised reaches a result or the text of a refusal.
-/

set_option autoImplicit false

namespace StrategySearch

theorem Host.normalize?_trim (s : String) : normalize? (Text.trim s) = normalize? s := by
  rw [normalize?, normalize?, Text.toList_trim, Text.trimmed_trimmed]

namespace Settings

variable {m n : Settings} {key name value : String}

theorem normalizeUrl?_trim (s : String) : normalizeUrl? (Text.trim s) = normalizeUrl? s := by
  rw [normalizeUrl?, normalizeUrl?, Text.toList_trim, Text.trimmed_trimmed]

def content? (raw : String) : Option String := (some (Text.trim raw)).filter (· != "")

theorem value?_eq_bind (m : Settings) (key : String) : m.value? key = (m.get? key).bind content? := by
  rw [value?]
  cases m.get? key <;> rfl

theorem content?_eq_ite (raw : String) :
    content? raw = if Text.isBlankText raw then none else some (Text.trim raw) := by
  rw [content?, Option.filter_some]
  simp only [bne_iff_ne, ne_eq, Text.trim_eq_empty_iff, ite_not]

theorem content?_of_content {raw : String} (left : content? raw = some value) :
    content? value = some value := by
  rw [content?, Option.filter_some] at left
  split at left
  · next some =>
    cases left
    rw [content?, Text.trim_trim, Option.filter_some, if_pos some]
  · cases left

/-- The values under the recognised names, without the blanks around them. -/
def tidy (m : Settings) : Settings :=
  m.filterMap fun key raw =>
    if key ∈ keys ∧ ¬ Text.isBlankText raw then some (Text.trim raw) else none

theorem get?_tidy (m : Settings) (key : String) :
    m.tidy.get? key = if key ∈ keys then m.value? key else none := by
  rw [tidy, ByName.get?_filterMap, value?_eq_bind]
  cases m.get? key with
  | none => simp
  | some raw =>
    rw [Option.bind_some, Option.bind_some, content?_eq_ite]
    by_cases known : key ∈ keys <;> by_cases blank : Text.isBlankText raw <;> simp [known, blank]

def Agree (m n : Settings) : Prop := ∀ key ∈ keys, m.value? key = n.value? key

theorem agree_tidy (m : Settings) : Agree m.tidy m := by
  intro key known
  rw [value?_eq_bind, get?_tidy, if_pos known]
  cases left : m.value? key with
  | none => rfl
  | some value =>
    rw [value?_eq_bind] at left
    obtain ⟨raw, -, left⟩ := Option.bind_eq_some_iff.mp left
    exact content?_of_content left

theorem value?_insert (m : Settings) (name raw key : String) :
    value? (m.insert name raw) key = if key = name then content? raw else m.value? key := by
  rw [value?_eq_bind, value?_eq_bind, ByName.get?_insert]
  split <;> rfl

theorem Agree.insert (agree : Agree m n) (name raw : String) :
    Agree (m.insert name raw) (n.insert name raw) := by
  intro key known
  rw [value?_insert, value?_insert, agree key known]

theorem Agree.foldl {entries : List (String × String)} (known : ∀ entry ∈ entries, entry.1 ∈ keys)
    (agree : Agree m n) :
    let fill (m : Settings) (entry : String × String) : Settings :=
      if (m.value? entry.1).isNone then m.insert entry.1 entry.2 else m
    Agree (entries.foldl fill m) (entries.foldl fill n) := by
  intro fill
  induction entries generalizing m n with
  | nil => exact agree
  | cons entry rest ih =>
    refine ih (fun other member => known other (List.mem_cons_of_mem _ member)) ?_
    simp only [fill, agree entry.1 (known entry List.mem_cons_self)]
    split
    · exact agree.insert _ _
    · exact agree

theorem Agree.withDefaults (agree : Agree m n) : Agree m.withDefaults n.withDefaults :=
  agree.foldl (by decide)

section Readers

variable (same : m.value? key = n.value? key)
include same

theorem require_congr : m.require key = n.require key := by
  rw [require, require, same]

theorem date_congr : m.date key = n.date key := by
  rw [date, date, require_congr same]

theorem float_congr (least : Float) : m.float key least = n.float key least := by
  rw [float, float, require_congr same]

theorem natural_congr (least : Nat) : m.natural key least = n.natural key least := by
  rw [natural, natural, require_congr same]

theorem count_congr (least : Nat) : m.count key least = n.count key least := by
  rw [count, count, natural_congr same]

theorem decimal_congr : m.decimal key = n.decimal key := by
  rw [decimal, decimal, require_congr same]

theorem truth_congr : m.truth key = n.truth key := by
  rw [truth, truth, require_congr same]

theorem bind_get?_congr {α : Type} {f : String → Option α} (trims : ∀ s, f (Text.trim s) = f s)
    (empty : f "" = none) : (m.get? key).bind f = (n.get? key).bind f := by
  have throughValue (m : Settings) : (m.get? key).bind f = (m.value? key).bind f := by
    rw [value?_eq_bind]
    cases m.get? key with
    | none => rfl
    | some raw =>
      rw [Option.bind_some, Option.bind_some, ← trims raw, content?, Option.filter_some]
      split
      · rfl
      · next blank =>
        have nothing : Text.trim raw = "" := by simpa using blank
        rw [nothing, empty, Option.bind_none]
  rw [throughValue, throughValue, same]

end Readers

namespace Agree

variable (agree : Agree m n)
include agree

theorem apiUrl?_eq : m.apiUrl? = n.apiUrl? := by
  rw [apiUrl?, apiUrl?, appUrl?, appUrl?,
    bind_get?_congr (agree apiUrlKey (by decide)) normalizeUrl?_trim (by decide),
    bind_get?_congr (agree domainKey (by decide)) Host.normalize?_trim (by decide)]

theorem connection_eq : m.connection = n.connection := by
  have filled := agree.withDefaults
  unfold connection
  -- With the defaults in sight, the match on the address would be evaluated.
  generalize m.withDefaults = m', n.withDefaults = n' at filled
  dsimp only
  rw [filled.apiUrl?_eq, filled userKey (by decide), filled passwordKey (by decide),
    natural_congr (filled timeoutKey (by decide))]

theorem period_eq : m.period = n.period := by
  rw [period, period, date_congr (agree startKey (by decide)),
    date_congr (agree stopKey (by decide))]

theorem initialCash_eq : m.initialCash = n.initialCash := by
  rw [initialCash, initialCash, decimal_congr (agree cashKey (by decide))]

theorem search_eq : m.search = n.search := by
  have filled := agree.withDefaults
  unfold search
  rw [agree.connection_eq]
  generalize m.withDefaults = m', n.withDefaults = n' at filled
  dsimp only
  rw [filled.period_eq, filled.initialCash_eq, count_congr (filled symbolsKey (by decide)),
    count_congr (filled skipKey (by decide)), count_congr (filled foldsKey (by decide)),
    truth_congr (filled predictorKey (by decide)),
    float_congr (filled predictionErrorKey (by decide)),
    decimal_congr (filled penaltyKey (by decide)), natural_congr (filled pollKey (by decide))]

end Agree

/-- The settings of a search are read from the values under the recognised names alone. Names that
are not recognised, blank values and the blanks around the others change nothing of what is answered,
be it settings or a refusal. -/
theorem search_tidy (m : Settings) : m.tidy.search = m.search ∧
    (∀ key, m.tidy.get? key = if key ∈ keys then m.value? key else none) ∧
    ∀ n : Settings, Agree m n → m.search = n.search :=
  ⟨(agree_tidy m).search_eq, m.get?_tidy, fun _ agree => agree.search_eq⟩

end Settings
end StrategySearch
