import Mathlib
import StrategySearch.Proofs.Text.Trim
import StrategySearch.Settings.Host

/-! Which address the settings give.

A host is named with a port or without one, and the scheme in front of it depends on how the host
begins. An address of the interface is a part of its text, found between blanks and before slashes;
where there is no such part, the host is asked.
-/

set_option autoImplicit false

namespace StrategySearch

namespace Host

variable {cs host port : List Char} {s address : String}

theorem isBlank_of_isHostChar {c : Char} (plain : isHostChar c) : Text.isBlank c = false := by
  simp only [isHostChar, Char.isAlphanum, Char.isAlpha, Char.isUpper, Char.isLower, Char.isDigit,
    Bool.or_eq_true, Bool.and_eq_true, decide_eq_true_eq, beq_iff_eq, ge_iff_le,
    UInt32.le_iff_toNat_le] at plain
  rcases plain with (alphanumeric | rfl) | rfl
  · have code : c.val.toNat = c.toNat := rfl
    simp only [Text.isBlank]
    simp at alphanumeric ⊢
    omega
  · decide
  · decide

structure Location where
  host : List Char
  port : Option (List Char)
  host_ne_nil : host ≠ []
  host_chars : ∀ c ∈ host, isHostChar c
  port_ne_nil : ∀ digits ∈ port, digits ≠ []
  port_digits : ∀ digits ∈ port, ∀ c ∈ digits, c.isDigit

namespace Location

def text (location : Location) : List Char :=
  location.host ++ location.port.elim [] (':' :: ·)

def IsLocal (location : Location) : Prop :=
  ∃ name ∈ localNames, location.host.map Char.toLower = name.toList

/-- The host begins with a name of this machine, whatever else it has. -/
def SeemsLocal (location : Location) : Prop :=
  ∃ name ∈ localNames, name.toList <+: location.host.map Char.toLower

theorem seemsLocal_iff {location : Location} : location.SeemsLocal ↔ location.IsLocal ∨
    ∃ name ∈ localNames, ∃ c more, location.host.map Char.toLower = name.toList ++ c :: more := by
  constructor
  · rintro ⟨name, known, more, whole⟩
    cases more with
    | nil => exact .inl ⟨name, known, by simp [← whole]⟩
    | cons c more => exact .inr ⟨name, known, c, more, whole.symm⟩
  · rintro (⟨name, known, same⟩ | ⟨name, known, c, more, whole⟩)
    · exact ⟨name, known, same ▸ List.prefix_rfl⟩
    · exact ⟨name, known, c :: more, whole.symm⟩

theorem colon_notMem_host (location : Location) : ':' ∉ location.host :=
  fun member => absurd (location.host_chars _ member) (by decide)

theorem text_ne_nil (location : Location) : location.text ≠ [] :=
  List.append_ne_nil_of_left_ne_nil location.host_ne_nil _

theorem eq_colon_or_isHostChar {location : Location} {c : Char} (member : c ∈ location.text) :
    c = ':' ∨ isHostChar c := by
  rcases List.mem_append.mp member with inHost | behind
  · exact .inr (location.host_chars c inHost)
  · cases given : location.port with
    | none => simp [given] at behind
    | some digits =>
      rw [given, Option.elim, List.mem_cons] at behind
      refine behind.imp id fun digit => ?_
      have isDigit := location.port_digits digits given c digit
      simp [isHostChar, Char.isAlphanum, isDigit]

theorem isBlank_of_mem_text {location : Location} {c : Char} (member : c ∈ location.text) :
    Text.isBlank c = false := by
  obtain rfl | plain := eq_colon_or_isHostChar member
  · decide
  · exact isBlank_of_isHostChar plain

theorem any_urlMarks_text (location : Location) :
    urlMarks.any (fun mark => Text.hasPart mark.toList location.text) = false := by
  have foreign : ∀ mark ∈ urlMarks, ∃ c ∈ mark.toList, ¬ (c = ':' ∨ isHostChar c) := by
    simp [urlMarks, isHostChar]
  refine List.any_eq_false.mpr fun mark known => ?_
  obtain ⟨c, inside, other⟩ := foreign mark known
  rw [Text.hasPart_iff]
  exact fun part => other (eq_colon_or_isHostChar (part.mem inside))

end Location

theorem splitPort_of_notMem (bare : ':' ∉ cs) : splitPort cs = (cs, none) := by
  rw [splitPort, if_neg (by simpa using bare)]

theorem splitPort_append (last : ':' ∉ port) : splitPort (host ++ ':' :: port) =
    if host.getLast? = some ':' then (host ++ ':' :: port, none) else (host, some port) := by
  have behind : ((host ++ ':' :: port).reverse.takeWhile (· != ':')).reverse = port :=
    Text.behindLast_append last
  rw [splitPort, if_pos (by simp)]
  simp only [behind]
  rw [show (host ++ ':' :: port).length - port.length - 1 = host.length by simp; omega,
    List.take_left]

theorem isAddress_iff : isAddress cs ↔ ∃ location : Location, location.text = cs := by
  constructor
  · intro address
    by_cases colon : ':' ∈ cs
    · obtain ⟨host, port, rfl, last⟩ := Text.exists_last colon
      rw [isAddress, splitPort_append last] at address
      by_cases ends : host.getLast? = some ':'
      · -- A colon that stays with the host is none of its characters.
        simp [if_pos ends, isHostChar] at address
      · simp only [if_neg ends, Bool.and_eq_true, List.all_eq_true, Bool.not_eq_true',
          List.isEmpty_eq_false_iff, Option.map_some, Option.getD_some, isPort] at address
        obtain ⟨-, ⟨⟨numbered, digits⟩, named⟩, chars⟩ := address
        exact ⟨⟨host, some port, named, chars, by simpa using numbered, by simpa using digits⟩, rfl⟩
    · rw [isAddress, splitPort_of_notMem colon] at address
      simp only [Bool.and_eq_true, List.all_eq_true, Bool.not_eq_true',
        List.isEmpty_eq_false_iff] at address
      obtain ⟨-, ⟨-, named⟩, chars⟩ := address
      exact ⟨⟨cs, none, named, chars, nofun, nofun⟩, List.append_nil cs⟩
  · rintro ⟨location, rfl⟩
    have bare := location.colon_notMem_host
    rw [isAddress, location.any_urlMarks_text,
      List.isEmpty_eq_false_iff.mpr location.text_ne_nil, Bool.not_false, Bool.and_true,
      Bool.true_and]
    obtain ⟨host, port, named, chars, numbered, digits⟩ := location
    cases port with
    | none =>
      rw [Location.text, Option.elim, List.append_nil, splitPort_of_notMem bare]
      simpa using ⟨named, chars⟩
    | some port =>
      -- A port has digits only, so the last colon is the one in front of it.
      have last : ':' ∉ port := fun member => absurd (digits _ rfl _ member) (by decide)
      rw [Location.text, Option.elim, splitPort_append last,
        if_neg fun ends => bare (List.mem_of_getLast? ends)]
      simpa [isPort] using ⟨⟨⟨numbered _ rfl, digits _ rfl⟩, named⟩, chars⟩

theorem normalize?_eq_some_iff : normalize? s = some address ↔
    address = Text.trim s ∧ ∃ location : Location, location.text = Text.trimmed s.toList := by
  rw [normalize?, ← isAddress_iff]
  split
  · next isOne => simp [isOne, Text.trim, eq_comm]
  · next isNone => simp [isNone]

def Surrounds (s address : String) : Prop :=
  ∃ front tail, s.toList = front ++ address.toList ++ tail ∧
    (∀ c ∈ front, Text.isBlank c) ∧ ∀ c ∈ tail, Text.isBlank c

/-- A location has no blanks itself, so those around it are all that trimming takes away. -/
theorem trimmed_eq_text_iff {location : Location} (names : location.text = address.toList) :
    Text.trimmed s.toList = location.text ↔ Surrounds s address := by
  rw [Text.trimmed_eq_iff, names, Surrounds, ← names]
  refine and_iff_left ⟨fun c first => ?_, fun c last => ?_⟩
  · exact Location.isBlank_of_mem_text (List.mem_of_mem_head? first)
  · exact Location.isBlank_of_mem_text (List.mem_of_getLast? last)

/-- A text gives an address exactly if it is one with blanks around it: a host, or a host, a colon
and a port. Any other text gives none. -/
theorem normalize?_locates (s : String) :
    (∀ address, normalize? s = some address ↔
      Surrounds s address ∧ ∃ location : Location, location.text = address.toList) ∧
    (∀ address, normalize? s = some address → address = Text.trim s) ∧
    (normalize? s = none ↔ ∀ location : Location, location.text ≠ Text.trimmed s.toList) := by
  refine ⟨fun address => ?_, fun address found => (normalize?_eq_some_iff.mp found).1, ?_⟩
  · rw [normalize?_eq_some_iff]
    constructor
    · rintro ⟨rfl, location, names⟩
      have inside : location.text = (Text.trim s).toList := by
        rw [names, Text.toList_trim]
      exact ⟨(trimmed_eq_text_iff inside).mp names.symm, location, inside⟩
    · rintro ⟨around, location, names⟩
      have cut := (trimmed_eq_text_iff names).mpr around
      refine ⟨?_, location, cut.symm⟩
      rw [Text.trim, cut, names, String.ofList_toList]
  · simp only [Option.eq_none_iff_forall_ne_some, ne_eq, normalize?_eq_some_iff, not_and,
      not_exists]
    exact ⟨fun other => other _ rfl, fun other _ _ => other⟩

theorem prefix_append_cons_iff {name : List Char} {c : Char} (without : c ∉ name) :
    name <+: host ++ c :: port ↔ name <+: host := by
  constructor
  · intro begins
    obtain inHost | ⟨more, rfl⟩ :=
      List.prefix_or_prefix_of_prefix begins (List.prefix_append host (c :: port))
    · exact inHost
    · rw [List.prefix_append_right_inj] at begins
      cases more with
      | nil => simp
      | cons c' more =>
        obtain ⟨rfl, -⟩ := List.cons_prefix_cons.mp begins
        exact absurd (List.mem_append_right _ List.mem_cons_self) without
  · intro begins
    exact begins.trans (List.prefix_append _ _)

theorem colon_notMem_localNames : ∀ name ∈ localNames, ':' ∉ name.toList := by
  decide

theorem isLocal_iff {location : Location} {address : String}
    (names : location.text = address.toList) : isLocal address ↔ location.SeemsLocal := by
  simp only [isLocal, List.any_eq_true, List.isPrefixOf_iff_prefix, Location.SeemsLocal, ← names]
  refine exists_congr fun name => and_congr_right fun known => ?_
  unfold Location.text
  cases location.port with
  | none => simp
  | some port =>
    rw [Option.elim, List.map_append, List.map_cons]
    exact prefix_append_cons_iff (colon_notMem_localNames name known)

end Host

namespace Settings

variable {settings : Settings} {raw url : String}

open Host in
/-- A location is given its scheme by what its host begins with. A local host has the plain one, and
so has each host that goes on behind the name of a local one. -/
theorem appUrl?_of_location (location : Location) (given : settings.get? domainKey = some raw)
    (names : location.text = Text.trimmed raw.toList) :
    (location.SeemsLocal → settings.appUrl? = some ("http://" ++ Text.trim raw)) ∧
      (¬ location.SeemsLocal → settings.appUrl? = some ("https://" ++ Text.trim raw)) ∧
      (location.SeemsLocal ↔ location.IsLocal ∨ ∃ name ∈ localNames, ∃ c more,
        location.host.map Char.toLower = name.toList ++ c :: more) := by
  have found : normalize? raw = some (Text.trim raw) :=
    normalize?_eq_some_iff.mpr ⟨rfl, location, names⟩
  have seems : isLocal (Text.trim raw) ↔ location.SeemsLocal :=
    isLocal_iff (by rw [names, Text.trim, String.toList_ofList])
  have url : settings.appUrl? = some (scheme (Text.trim raw) ++ "://" ++ Text.trim raw) := by
    rw [appUrl?, given, Option.bind_some, found, Option.map_some]
  refine ⟨fun near => ?_, fun far => ?_, Location.seemsLocal_iff⟩
  · rw [url, scheme, if_pos (seems.mpr near)]
    rfl
  · rw [url, scheme, if_neg (mt seems.mp far)]
    rfl

open Host in
def lookalike : Location where
  host := "localhost.example.com".toList
  port := none
  host_ne_nil := by decide
  host_chars := List.all_eq_true.mp (by decide +kernel)
  port_ne_nil := nofun
  port_digits := nofun

theorem appUrl?_of_location_lookalike : ¬ lookalike.IsLocal ∧
    Settings.appUrl? (.ofList [("DOMAIN", "localhost.example.com")]) =
      some "http://localhost.example.com" := by
  have named : (ByName.ofList [("DOMAIN", "localhost.example.com")]).get? Settings.domainKey =
      some "localhost.example.com" := rfl
  obtain ⟨near, -, -⟩ := appUrl?_of_location lookalike named (by decide +kernel)
  refine ⟨?_, near ⟨"localhost", List.mem_cons_self, ?_⟩⟩
  · rintro ⟨name, known, same⟩
    have other : ∀ name ∈ Host.localNames, lookalike.host.map Char.toLower ≠ name.toList := by
      decide +kernel
    exact other name known same
  · exact List.isPrefixOf_iff_prefix.mp (by decide +kernel)

def IsWeb (url : String) : Prop := ∃ scheme ∈ webSchemes, scheme.toList <+: url.toList

theorem head?_of_isWeb (web : IsWeb url) : url.toList.head? = some 'h' := by
  obtain ⟨scheme, known, more, whole⟩ := web
  rw [← whole, List.head?_append]
  simp only [webSchemes, List.mem_cons, List.not_mem_nil, or_false] at known
  obtain rfl | rfl := known <;> rfl

/-- The address that a text gives for the interface: blanks stand around it, and before those behind
it only slashes. It may itself end in blanks, if there are such slashes. -/
structure Denotes (raw url : String) : Prop where
  placed : ∃ front slashes tail, raw.toList = front ++ (url.toList ++ slashes) ++ tail ∧
    (∀ c ∈ front, Text.isBlank c) ∧ (∀ c ∈ slashes, c = '/') ∧ (∀ c ∈ tail, Text.isBlank c) ∧
    (slashes = [] → ∀ c ∈ url.toList.getLast?, Text.isBlank c = false)
  web : IsWeb url
  cut : url.toList.getLast? ≠ some '/'

theorem normalizeUrl?_eq_some_iff_cut : normalizeUrl? raw = some url ↔
    Text.dropEndWhile (· == '/') (Text.trimmed raw.toList) = url.toList ∧ IsWeb url := by
  simp only [normalizeUrl?, List.any_eq_true, List.isPrefixOf_iff_prefix, IsWeb]
  split
  · next web =>
    rw [Option.some_inj, ← String.toList_inj, String.toList_ofList]
    exact ⟨fun same => ⟨same, same ▸ web⟩, And.left⟩
  · next other => exact ⟨nofun, fun ⟨same, web⟩ => absurd (same ▸ web) other⟩

theorem normalizeUrl?_eq_some_iff : normalizeUrl? raw = some url ↔ Denotes raw url := by
  rw [normalizeUrl?_eq_some_iff_cut, Text.dropEndWhile_eq_iff]
  simp only [Text.trimmed_eq_iff]
  constructor
  · rintro ⟨⟨⟨slashes, ⟨⟨front, tail, whole, blank, blank'⟩, -, last⟩, slash⟩, cut⟩, web⟩
    refine ⟨⟨front, slashes, tail, whole, blank, by simpa using slash, blank', ?_⟩, web, ?_⟩
    · rintro rfl
      simpa using last
    · intro ends
      simpa using cut _ ends
  · rintro ⟨⟨front, slashes, tail, whole, blank, slash, blank', last⟩, web, cut⟩
    refine ⟨⟨⟨slashes, ⟨⟨front, tail, whole, blank, blank'⟩, ?_, ?_⟩, by simpa using slash⟩, ?_⟩, web⟩
    · rw [List.head?_append, head?_of_isWeb web]
      rintro c ⟨⟩
      decide
    · -- The blanks end at the slashes, or where there are none at the address.
      rcases slashes.eq_nil_or_concat' with rfl | ⟨slashes, c, rfl⟩
      · simpa using last rfl
      · rw [← List.append_assoc, List.getLast?_concat]
        rintro c' ⟨⟩
        rw [slash c (by simp)]
        decide
    · intro c ends
      simpa using fun same : c = '/' => cut (same ▸ ends)

theorem Denotes.self_iff (denotes : Denotes raw url) :
    Denotes url url ↔ ∀ c ∈ url.toList.getLast?, Text.isBlank c = false := by
  constructor
  · rintro ⟨⟨front, slashes, tail, whole, -, -, -, last⟩, -, -⟩
    have none : front.length + slashes.length + tail.length = 0 := by
      have := congrArg List.length whole
      simp only [List.length_append] at this
      omega
    exact last (List.eq_nil_of_length_eq_zero (by omega))
  · intro last
    exact ⟨⟨[], [], [], by simp, nofun, nofun, nofun, fun _ => last⟩, denotes.web, denotes.cut⟩

/-- If the address that is given for the interface is one of the web, it is taken whatever the host
is; taking it twice changes it again if it ends in blanks. Any other text counts as none at all, and
the host decides. -/
theorem apiUrl?_of_given (given : settings.get? apiUrlKey = some raw) :
    (∀ url, Denotes raw url → settings.apiUrl? = some url ∧
      (normalizeUrl? url = some url ↔ ∀ c ∈ url.toList.getLast?, Text.isBlank c = false)) ∧
    ((∀ url, ¬ Denotes raw url) → settings.apiUrl? = settings.appUrl?.map (· ++ "/api")) := by
  rw [apiUrl?, given, Option.bind_some]
  constructor
  · intro url denotes
    rw [normalizeUrl?_eq_some_iff.mpr denotes, normalizeUrl?_eq_some_iff]
    exact ⟨rfl, denotes.self_iff⟩
  · intro other
    have rejected : normalizeUrl? raw = none :=
      Option.eq_none_iff_forall_ne_some.mpr fun url taken =>
        other url (normalizeUrl?_eq_some_iff.mp taken)
    rw [rejected, Option.none_or]

theorem apiUrl?_of_given_foreign : (∀ url, ¬ Denotes "ftp://backtest" url) ∧
    Settings.apiUrl? (.ofList [("BACKTEST_API_URL", "ftp://backtest"), ("DOMAIN", "localhost")]) =
      some "http://localhost/api" := by
  have foreign : ∀ url, ¬ Denotes "ftp://backtest" url := by
    intro url denotes
    have taken := normalizeUrl?_eq_some_iff.mpr denotes
    rw [show normalizeUrl? "ftp://backtest" = none by decide +kernel] at taken
    cases taken
  refine ⟨foreign, ((apiUrl?_of_given rfl).2 foreign).trans (by decide +kernel)⟩

example : normalizeUrl? "http://x /" = some "http://x " := by decide +kernel

end Settings
end StrategySearch
