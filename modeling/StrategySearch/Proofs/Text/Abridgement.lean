import StrategySearch.Http.Client
import StrategySearch.Proofs.Text.Trim

/-! What a message shows of a text.

Of the text between its blanks as many characters are taken over as there is room for, and an
ellipsis if some are left. What is shown then begins and ends with no blank, and an ellipsis alone
is too long for the room, so it is shown the same when it is taken for the text itself.
-/

set_option autoImplicit false

namespace StrategySearch.Text

variable {limit room : Nat} {cs rest out out' : List Char} {s body shown : String}

/-- How a walk over the characters ends: all of them had room, or some are left. -/
inductive Clips (room : Nat) : List Char → List Char → Prop where
  | whole {cs : List Char} : cs.length ≤ room → Clips room cs cs
  | cut {kept rest : List Char} : kept.length = room → rest ≠ [] →
      Clips room (kept ++ rest) (kept ++ ['…'])

namespace Clips

theorem start {c : Char} : Clips 0 (c :: rest) ['…'] :=
  @cut 0 [] (c :: rest) rfl (List.cons_ne_nil c rest)

theorem step {c : Char} (clips : Clips room rest out) : Clips (room + 1) (c :: rest) (c :: out) := by
  cases clips with
  | whole fits => exact .whole (Nat.succ_le_succ fits)
  | @cut kept rest full more => exact @cut _ (c :: kept) rest (congrArg Nat.succ full) more

theorem not_fits {kept : List Char} (full : kept.length = room) (more : rest ≠ []) :
    ¬ (kept ++ rest).length ≤ room := by
  have := List.length_pos_iff.mpr more
  rw [List.length_append]
  omega

theorem unique (clips : Clips room cs out) (clips' : Clips room cs out') : out = out' := by
  cases clips with
  | whole fits =>
    cases clips' with
    | whole _ => rfl
    | cut full more => exact absurd fits (not_fits full more)
  | @cut kept rest full more =>
    generalize whole : kept ++ rest = cs at clips'
    cases clips' with
    | whole fits => exact absurd (whole ▸ fits) (not_fits full more)
    -- Both cuts are at the same place, since both parts fill the room.
    | cut full' more' => rw [(List.append_inj whole (full.trans full'.symm)).1]

theorem length_le (clips : Clips room cs out) : out.length ≤ room + 1 := by
  cases clips with
  | whole fits => exact Nat.le_succ_of_le fits
  | cut full more => rw [List.length_append, full]; rfl

/-- The ellipsis itself has no room, so a second walk leaves the same. -/
theorem again (clips : Clips room cs out) : Clips room out out := by
  cases clips with
  | whole fits => exact .whole fits
  | cut full more => exact .cut full (List.cons_ne_nil _ _)

theorem trimmed_eq (clips : Clips room (trimmed cs) out) : trimmed out = out := by
  generalize body_eq : trimmed cs = body at clips
  obtain ⟨-, first, -⟩ := trimmed_eq_iff.mp body_eq
  cases clips with
  | whole fits => rw [← body_eq, trimmed_trimmed]
  | @cut kept rest full more =>
    refine trimmed_eq_iff.mpr ⟨⟨[], [], by simp, nofun, nofun⟩, fun c isFirst => ?_, fun c isLast => ?_⟩
    · cases kept with
      -- Without any room the ellipsis is both the first and the last character.
      | nil => cases isFirst; decide
      | cons c' kept => exact first c isFirst
    · rw [List.getLast?_concat] at isLast
      cases isLast
      decide

end Clips

theorem clips_clip (room : Nat) (cs : List Char) : Clips room cs (clip room cs) := by
  induction cs generalizing room with
  | nil => cases room <;> exact .whole (Nat.zero_le _)
  | cons c rest ih =>
    cases room with
    | zero => exact .start
    | succ room => exact (ih room).step

structure Encloses (s body : String) : Prop where
  between : ∃ front tail, s = front ++ body ++ tail ∧
    (∀ c ∈ front.toList, isBlank c) ∧ ∀ c ∈ tail.toList, isBlank c
  first : ∀ c ∈ body.toList.head?, isBlank c = false
  last : ∀ c ∈ body.toList.getLast?, isBlank c = false

theorem trim_eq_iff : trim s = body ↔ Encloses s body := by
  rw [← String.toList_inj, toList_trim, trimmed_eq_iff]
  constructor
  · rintro ⟨⟨front, tail, whole, blank⟩, first, last⟩
    refine ⟨⟨String.ofList front, String.ofList tail, ?_, by simpa using blank⟩, first, last⟩
    rw [← String.toList_inj, whole]
    simp
  · rintro ⟨⟨front, tail, rfl, blank⟩, first, last⟩
    exact ⟨⟨front.toList, tail.toList, by simp, blank⟩, first, last⟩

/-- What is shown of a text under a limit: the text between its blanks if that has no more
characters, else so many of its first characters and an ellipsis. -/
inductive Abridged (limit : Nat) (s : String) : String → Prop where
  | whole {body : String} : Encloses s body → body.length ≤ limit → Abridged limit s body
  | cut {kept rest : String} : Encloses s (kept ++ rest) → kept.length = limit → rest ≠ "" →
      Abridged limit s (kept ++ "…")

theorem abridged_iff : Abridged limit s shown ↔ Clips limit (trimmed s.toList) shown.toList := by
  constructor
  · rintro (⟨encloses, fits⟩ | ⟨encloses, full, more⟩)
    · rw [← toList_trim, trim_eq_iff.mpr encloses]
      exact .whole (by rwa [String.length_toList])
    · rw [← toList_trim, trim_eq_iff.mpr encloses, String.toList_append, String.toList_append]
      exact .cut (by rwa [String.length_toList]) (by simpa using more)
  · intro clips
    generalize body_eq : trimmed s.toList = cs at clips
    generalize shown_eq : shown.toList = out at clips
    cases clips with
    | whole fits =>
      refine .whole (trim_eq_iff.mp ?_) ?_
      · rw [← String.toList_inj, toList_trim, body_eq, shown_eq]
      · rwa [← String.length_toList, shown_eq]
    | @cut kept rest full more =>
      obtain rfl : shown = String.ofList kept ++ "…" := by
        rw [← String.toList_inj, shown_eq]
        simp
      have encloses : Encloses s (String.ofList kept ++ String.ofList rest) := by
        rw [← trim_eq_iff, ← String.toList_inj, toList_trim, body_eq]
        simp
      exact .cut encloses (by simpa using full) (by simpa [← String.toList_inj] using more)

theorem clips_abridge (limit : Nat) (s : String) :
    Clips limit (trimmed s.toList) (abridge limit s).toList := by
  rw [abridge, String.toList_ofList]
  exact clips_clip limit _

theorem abridge_eq_iff : abridge limit s = shown ↔ Abridged limit s shown := by
  rw [abridged_iff]
  constructor
  · rintro rfl
    exact clips_abridge limit s
  · intro clips
    exact String.toList_inj.mp ((clips_abridge limit s).unique clips)

theorem abridge_abridge (limit : Nat) (s : String) :
    abridge limit (abridge limit s) = abridge limit s := by
  have clips := clips_abridge limit s
  rw [abridge_eq_iff, abridged_iff, clips.trimmed_eq]
  exact clips.again

/-- What is kept of the text ends between two of its characters, however many bytes these have. -/
theorem Abridged.exists_boundary (abridged : Abridged limit s shown) : ∃ kept : String,
    kept.rawEndPos.IsValid (trim s) ∧ kept.toList <+: (trim s).toList ∧
      (shown = kept ∨ shown = kept ++ "…") := by
  cases abridged with
  | whole encloses fits =>
    rw [trim_eq_iff.mpr encloses]
    refine ⟨shown, ?_, List.prefix_rfl, .inl rfl⟩
    exact String.Pos.Raw.isValid_iff_exists_append.mpr ⟨shown, "", by simp, rfl⟩
  | @cut kept rest encloses full more =>
    rw [trim_eq_iff.mpr encloses, String.toList_append]
    refine ⟨kept, ?_, List.prefix_append _ _, .inr rfl⟩
    exact String.Pos.Raw.isValid_iff_exists_append.mpr ⟨kept, rest, rfl, rfl⟩

/-- A text is shown without the blanks around it, whole if it has at most so many characters and
else by its first ones with an ellipsis. No character is split. What is shown once is shown the same
again, so a message that is given it shows it as it is. -/
theorem abridge_shows (limit : Nat) (s : String) :
    (∀ shown, abridge limit s = shown ↔ Abridged limit s shown) ∧
      (abridge limit s).length ≤ limit + 1 ∧
      (∃ kept : String, kept.rawEndPos.IsValid (trim s) ∧ kept.toList <+: (trim s).toList ∧
        (abridge limit s = kept ∨ abridge limit s = kept ++ "…")) ∧
      abridge limit (abridge limit s) = abridge limit s ∧
      (∀ context, Failure.invalid context (abridge Failure.payloadLimit s) =
        .validation context (abridge Failure.payloadLimit s)) ∧
      ∀ (request : Http.Request) (response : Http.Response),
        response.text = .ok (abridge Failure.payloadLimit s) →
        request.refused response = .status request.method request.url response.status
          (abridge Failure.payloadLimit s) := by
  refine ⟨fun shown => abridge_eq_iff, ?_, ?_, abridge_abridge limit s, fun context => ?_, ?_⟩
  · rw [← String.length_toList]
    exact (clips_abridge limit s).length_le
  · exact (abridge_eq_iff.mp rfl).exists_boundary
  · rw [Failure.invalid, abridge_abridge]
  · intro request response given
    rw [Http.Request.refused, given]
    exact congrArg _ (abridge_abridge Failure.payloadLimit s)

/-- A text is cut behind a blank, and a busy service is quoted without the line's end. -/
theorem abridge_shows_busy : abridge 4 " abc de " = "abc …" ∧ abridge 4 "abc …" = "abc …" ∧
    (⟨.get, "/strategy", none, none⟩ : Http.Request).refused ⟨503, none, .ok "busy"⟩ =
      .status .get "/strategy" 503 "busy" := by
  have cut : abridge 4 " abc de " = "abc …" := by decide
  have busy : abridge Failure.payloadLimit " busy\n" = "busy" := by decide
  refine ⟨cut, ?_, ?_⟩
  · obtain ⟨-, -, -, again, -⟩ := abridge_shows 4 " abc de "
    rwa [cut] at again
  · obtain ⟨-, -, -, -, -, refused⟩ := abridge_shows 0 " busy\n"
    rw [busy] at refused
    exact refused _ _ rfl

end StrategySearch.Text
