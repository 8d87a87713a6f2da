import Mathlib
import StrategySearch.Proofs.Backtest.Configuration
import StrategySearch.Proofs.Ends
import StrategySearch.Proofs.JobId

/-! Which job a submission is told.

A location ends in a segment, whatever stands before the slash in front of it and however many
slashes follow. If the service says where the job is and that can be read, the identifier in the
last segment is the job, and the body is not asked. In all other cases the body decides.
-/

set_option autoImplicit false

namespace StrategySearch

def slashes (n : Nat) : String := String.ofList (List.replicate n '/')

namespace JobId

variable {location segment : String} {n : Nat}

/-- The segment that a location ends in. The slashes at its end are left out; the segment is what
stands behind the last of the others, or all if there is none. -/
inductive LastSegment : String → String → Prop where
  | whole {segment : String} {n : Nat} : '/' ∉ segment.toList →
      LastSegment (segment ++ slashes n) segment
  | behind {front segment : String} {n : Nat} : '/' ∉ segment.toList → segment ≠ "" →
      LastSegment (front ++ "/" ++ segment ++ slashes n) segment

theorem not_slash_of_bare {segment : List Char} (bare : '/' ∉ segment) :
    ∀ c ∈ segment.getLast?, (c == '/') = false := by
  intro c last
  simpa using fun same : c = '/' => bare (same ▸ List.mem_of_getLast? last)

theorem dropEndWhile_slashes {path : List Char} (ends : ∀ c ∈ path.getLast?, (c == '/') = false) :
    Text.dropEndWhile (· == '/') (path ++ List.replicate n '/') = path := by
  refine Text.dropEndWhile_eq_iff.mpr ⟨⟨_, rfl, fun c member => ?_⟩, ends⟩
  simpa using List.eq_of_mem_replicate member

theorem LastSegment.eq (last : LastSegment location segment) : lastSegment location = segment := by
  rw [← String.toList_inj, lastSegment, String.toList_ofList]
  cases last with
  | whole bare =>
    rw [String.toList_append, slashes, String.toList_ofList,
      dropEndWhile_slashes (not_slash_of_bare bare), Text.behindLast_of_notMem bare]
  | @behind front _ n bare named =>
    -- The slashes are cut off first, and the segment is not empty, so its slash is not among them.
    have path : (front ++ "/" ++ segment ++ slashes n).toList =
        front.toList ++ '/' :: segment.toList ++ List.replicate n '/' := by
      simp [slashes]
    have ends : ∀ c ∈ (front.toList ++ '/' :: segment.toList).getLast?, (c == '/') = false := by
      rw [List.append_cons, List.getLast?_append_of_ne_nil _ (by simpa using named)]
      exact not_slash_of_bare bare
    rw [path, dropEndWhile_slashes ends, Text.behindLast_append bare]

theorem exists_lastSegment (location : String) : ∃ segment, LastSegment location segment := by
  obtain ⟨⟨tail, whole, dropped⟩, ends⟩ := Text.dropEndWhile_eq_iff.mp
    (rfl : Text.dropEndWhile (· == '/') location.toList = _)
  generalize Text.dropEndWhile (· == '/') location.toList = path at whole ends
  have slashed : tail = List.replicate tail.length '/' :=
    List.eq_replicate_iff.mpr ⟨rfl, by simpa using dropped⟩
  by_cases divided : '/' ∈ path
  · obtain ⟨front, segment, rfl, bare⟩ := Text.exists_last divided
    refine ⟨String.ofList segment, ?_⟩
    obtain rfl : location =
        String.ofList front ++ "/" ++ String.ofList segment ++ slashes tail.length := by
      rw [← String.toList_inj, whole, slashed]
      simp [slashes]
    refine .behind (by simpa using bare) fun none => ?_
    -- A path that ends in its last slash would have lost that one too.
    obtain rfl : segment = [] := by simpa [← String.toList_inj] using none
    simp at ends
  · refine ⟨String.ofList path, ?_⟩
    obtain rfl : location = String.ofList path ++ slashes tail.length := by
      rw [← String.toList_inj, whole, slashed]
      simp [slashes]
    exact .whole (by simpa using divided)

theorem lastSegment_eq_iff : lastSegment location = segment ↔ LastSegment location segment := by
  constructor
  · rintro rfl
    obtain ⟨segment, last⟩ := exists_lastSegment location
    rwa [last.eq]
  · exact LastSegment.eq

theorem ofLocation?_eq (last : LastSegment location segment) :
    ofLocation? location = ofString? segment := by
  rw [ofLocation?, last.eq]

theorem slash_notMem_text (id : JobId) : '/' ∉ id.text.toList :=
  fun member => absurd (mem_text member) (by decide)

theorem lastSegment_text (id : JobId) (n : Nat) : LastSegment (id.text ++ slashes n) id.text :=
  .whole id.slash_notMem_text

theorem lastSegment_behind (id : JobId) (front : String) (n : Nat) :
    LastSegment (front ++ "/" ++ id.text ++ slashes n) id.text := by
  refine .behind id.slash_notMem_text fun none => ?_
  have length := id.length_text
  rw [none] at length
  cases length

end JobId

namespace Remote

open Http JobId

variable {σ : Type} {client : Client (StateM σ)} {submission : Submission} {s s' : σ}
  {wording : Json.Wording} {response : Response} {location : String} {id : JobId}

/-- The response says where the job is: its location can be read, and ends in an identifier. -/
inductive Located (response : Response) (id : JobId) : Prop where
  | intro {location segment : String} : response.location = some location →
      (∀ c ∈ location.toList, isHeaderChar c) → LastSegment location segment →
      ofString? segment = some id → Located response id

/-- The response does not say where the job is: it has no location, or one that cannot be read or
that ends in no identifier. -/
inductive Unlocated (response : Response) : Prop where
  | missing : response.location = none → Unlocated response
  | unreadable {location : String} {c : Char} : response.location = some location →
      c ∈ location.toList → ¬ isHeaderChar c → Unlocated response
  | strange {location segment : String} : response.location = some location →
      LastSegment location segment → ofString? segment = none → Unlocated response

inductive Named (response : Response) (id : JobId) : Prop where
  | intro {body name : String} : response.text = .ok body → Json.decode? created? body = some name →
      ofString? name = some id → Named response id

theorem readableLocation?_eq_some_iff : response.readableLocation? = some location ↔
    response.location = some location ∧ ∀ c ∈ location.toList, isHeaderChar c := by
  rw [Response.readableLocation?, Option.filter_eq_some_iff, List.all_eq_true]

theorem located_iff : Located response id ↔
    response.readableLocation?.bind JobId.ofLocation? = some id := by
  rw [Option.bind_eq_some_iff]
  constructor
  · rintro ⟨given, readable, last, found⟩
    exact ⟨_, readableLocation?_eq_some_iff.mpr ⟨given, readable⟩, (ofLocation?_eq last).trans found⟩
  · rintro ⟨location, given, found⟩
    obtain ⟨given, readable⟩ := readableLocation?_eq_some_iff.mp given
    exact ⟨given, readable, lastSegment_eq_iff.mp rfl, found⟩

theorem unlocated_iff : Unlocated response ↔
    response.readableLocation?.bind JobId.ofLocation? = none := by
  rw [Option.bind_eq_none_iff]
  constructor
  · intro unlocated location found
    obtain ⟨given, readable⟩ := readableLocation?_eq_some_iff.mp found
    cases unlocated with
    | missing none => cases given.symm.trans none
    | unreadable given' member strange =>
      obtain rfl := Option.some.inj (given.symm.trans given')
      exact absurd (readable _ member) strange
    | strange given' last none =>
      obtain rfl := Option.some.inj (given.symm.trans given')
      rw [ofLocation?_eq last, none]
  · intro strange
    cases given : response.location with
    | none => exact .missing given
    | some location =>
      by_cases readable : ∀ c ∈ location.toList, isHeaderChar c
      · have none := strange location (readableLocation?_eq_some_iff.mpr ⟨given, readable⟩)
        exact .strange given (lastSegment_eq_iff.mp rfl) none
      · obtain ⟨c, unlike⟩ := not_forall.mp readable
        obtain ⟨member, unlike⟩ := Classical.not_imp.mp unlike
        exact .unreadable given member unlike

theorem unlocated_iff_not_located : Unlocated response ↔ ¬ ∃ id, Located response id := by
  simp only [unlocated_iff, located_iff, not_exists, Option.eq_none_iff_forall_ne_some, ne_eq]

theorem Located.jobCreated_eq (located : Located response id) :
    jobCreated wording response = .ok id := by
  rw [jobCreated, located_iff.mp located]

theorem Unlocated.jobCreated_eq (unlocated : Unlocated response) :
    jobCreated wording response = jobInBody wording response := by
  rw [jobCreated, unlocated_iff.mp unlocated]

theorem jobInBody_eq_ok_iff : jobInBody wording response = .ok id ↔ Named response id := by
  rw [jobInBody, bind_eq_ok_iff]
  constructor
  · rintro ⟨body, read, found⟩
    obtain ⟨name, decoded, found⟩ := bind_eq_ok_iff.mp found
    cases named : ofString? name with
    | none => rw [named] at found; cases found
    | some id' =>
      rw [named] at found
      obtain rfl := Except.ok.inj found
      exact .intro read (Failure.decode_eq_ok_iff.mp decoded) named
  · rintro ⟨read, decoded, named⟩
    refine ⟨_, read, bind_eq_ok_iff.mpr ⟨_, Failure.decode_eq_ok_iff.mpr decoded, ?_⟩⟩
    rw [named]
    rfl

theorem run_submit
    (answered : client.transport.send (client.request .post "backtests" (some submission.toJson)) s =
      (.answered response, s')) (success : response.succeeded) :
    (submit client submission).run s = (jobCreated client.wording response, s') := by
  have accepted := run_send answered
  rw [Request.accept_eq_ok_iff.mpr ⟨rfl, success⟩] at accepted
  exact run_bind_ok accepted

/-- The identifier in the last segment of a location is read whatever stands in front of it, and it
is the job of a submission. The body decides exactly if there is no location, or one that cannot be
read, or one whose last segment is no identifier. -/
theorem submit_locates (client : Client (StateM σ)) (submission : Submission) :
    (∀ (id : JobId) (front : String) (n : Nat),
      JobId.ofLocation? (front ++ "/" ++ id.text ++ slashes n) = some id ∧
        JobId.ofLocation? (id.text ++ slashes n) = some id) ∧
      (∀ response, Unlocated response ↔ ¬ ∃ id, Located response id) ∧
      (∀ response id, jobInBody client.wording response = .ok id ↔ Named response id) ∧
      ∀ s s' response,
        client.transport.send (client.request .post "backtests" (some submission.toJson)) s =
          (.answered response, s') → response.succeeded →
        (∀ id, Located response id → (submit client submission).run s = (.ok id, s')) ∧
          (Unlocated response →
            (submit client submission).run s = (jobInBody client.wording response, s')) := by
  refine ⟨fun id front n => ⟨?_, ?_⟩, fun _ => unlocated_iff_not_located,
    fun _ _ => jobInBody_eq_ok_iff, fun s s' response answered success => ⟨fun id located => ?_,
    fun unlocated => ?_⟩⟩
  · rw [ofLocation?_eq (lastSegment_behind id front n), ofString?_text]
  · rw [ofLocation?_eq (lastSegment_text id n), ofString?_text]
  · rw [run_submit answered success, located.jobCreated_eq]
  · rw [run_submit answered success, unlocated.jobCreated_eq]

section Created

def answering (response : Response) : Client (StateM Unit) where
  transport := { send := fun _ => pure (.answered response), pause := fun _ => pure () }
  wording := .brief
  base := ""
  credentials := none

def order : Submission where
  period := ⟨⟨2021, 1, 4, rfl⟩, ⟨2021, 12, 30, rfl⟩, by decide⟩
  initialCash := .one
  strategy := .basic
  parameters := ∅
  slice := ⟨0, 100⟩
  usePredictor := false
  predictionError := 0
  description := ""

def crossing : Response where
  status := 201
  location := some
    "/00000000-0000-0000-0000-000000000002//00000000-0000-0000-0000-000000000001//"
  body := .ok "\x7b\"id\":\"00000000-0000-0000-0000-000000000002\"\x7d"

def aimless : Response := { crossing with location := some "/backtests/" }

theorem located_crossing : Located crossing ⟨1, by decide⟩ :=
  .intro rfl (List.all_eq_true.mp (by decide +kernel)) (lastSegment_eq_iff.mp rfl)
    (by decide +kernel)

theorem unlocated_aimless : Unlocated aimless :=
  .strange rfl (lastSegment_eq_iff.mp rfl) (by decide +kernel)

theorem named_aimless : Named aimless ⟨2, by decide⟩ := by
  have decoded : Json.decode? created?
      "\x7b\"id\":\"00000000-0000-0000-0000-000000000002\"\x7d" =
      some "00000000-0000-0000-0000-000000000002" := by cbv
  exact .intro rfl decoded (by decide +kernel)

/-- The location wins where it says something, and the body where it does not. -/
theorem submit_locates_crossing :
    (submit (answering crossing) order).run () = (.ok ⟨1, by decide⟩, ()) ∧
      (submit (answering aimless) order).run () = (.ok ⟨2, by decide⟩, ()) := by
  constructor
  · obtain ⟨-, -, -, answers⟩ := submit_locates (answering crossing) order
    exact (answers () () crossing rfl (by decide)).1 _ located_crossing
  · obtain ⟨-, -, named, answers⟩ := submit_locates (answering aimless) order
    rw [(answers () () aimless rfl (by decide)).2 unlocated_aimless, (named _ _).mpr named_aimless]

end Created

end Remote
end StrategySearch
