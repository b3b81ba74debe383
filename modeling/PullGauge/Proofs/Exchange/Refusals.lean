import Mathlib
import PullGauge.Proofs.Exchange.Faults

/-!
# What an error reply means

Every error reply is mapped to one failure, which tells the status of the reply and the number
of its request, and whose category follows from the status and, if access is forbidden, from
what the reply says of the rate limit. Four kinds of reply are not mapped: one that is nested
too deeply, one that resets the rate limit at a time that no clock shows, a forbidden one whose
message is present but no text, and a rejected query whose errors are present but neither a
list nor a text.
-/

namespace PullGauge

open Outcome

namespace Refusal

/-- Whether a reset header counts seconds that no clock shows. -/
def IsBeyondClock (header : Option Text) : Prop :=
  ∃ seconds, header.bind Reading.integer? = some seconds ∧ isClockRange seconds = false

theorem isWord_of_isClockRange {seconds : Int} (h : isClockRange seconds = true) :
    isWord seconds = true := by
  simp only [isClockRange, isWord, Bool.and_eq_true, decide_eq_true_eq] at h ⊢
  omega

theorem resetTime_cases (now : Moment) (header : Option Text) :
    (¬ IsBeyondClock header ∧ ∃ t, resetTime now header = .ok t) ∨
      (IsBeyondClock header ∧
        (resetTime now header = .error .tooLarge ∨ resetTime now header = .error .beyondClock)) := by
  unfold resetTime IsBeyondClock
  cases header.bind Reading.integer? with
  | none => exact .inl ⟨by simp, now, rfl⟩
  | some seconds =>
    dsimp only
    cases hc : isClockRange seconds with
    | true =>
      rw [isWord_of_isClockRange hc]
      exact .inl ⟨by simp [hc], _, rfl⟩
    | false =>
      refine .inr ⟨⟨seconds, rfl, hc⟩, ?_⟩
      cases isWord seconds with
      | true => exact .inr rfl
      | false => exact .inl rfl

/-- Whether a reply says that the rate limit is exhausted: by its status, or if access is
forbidden, by the requests that remain or in its message. -/
def IsLimit (r : Reply) : Prop :=
  r.status = 429 ∨ r.status = 403 ∧ (r.header? "X-RateLimit-Remaining" = some ['0'] ∨
    ∃ t, Fields.find? "message" (fieldsOf r.body) = some (.text t) ∧
      Text.has "rate limit" (Text.lower t) = true)

theorem speaks_messageOf_iff {r : Reply} (h : r.status = 403) :
    (∃ t, messageOf r = .text t ∧ Text.has "rate limit" (Text.lower t) = true) ↔
      ∃ t, Fields.find? "message" (fieldsOf r.body) = some (.text t) ∧
        Text.has "rate limit" (Text.lower t) = true := by
  have hmade : "HTTP ".toList ++ Text.ofInt r.status = "HTTP 403".toList := by rw [h]; decide
  have hplain : Text.has "rate limit" (Text.lower "HTTP 403".toList) = false := by decide +kernel
  have hempty : Text.has "rate limit" (Text.lower []) = false := by decide +kernel
  unfold messageOf
  rw [hmade]
  generalize Fields.find? "message" (fieldsOf r.body) = found
  constructor
  · rintro ⟨t, ht, hword⟩
    rw [Payload.orElse] at ht
    split_ifs at ht
    · cases found with
      | none => cases ht
      | some p => exact ⟨t, congrArg some ht, hword⟩
    · cases ht
      rw [hplain] at hword
      cases hword
  · rintro ⟨t, rfl, hword⟩
    cases t with
    | nil =>
      rw [hempty] at hword
      cases hword
    | cons c t => exact ⟨_, rfl, hword⟩

theorem isRateLimited_iff {r : Reply} (h : r.status = 403) :
    isRateLimited r (messageOf r) = .ok true ↔
      r.header? "X-RateLimit-Remaining" = some ['0'] ∨
        ∃ t, Fields.find? "message" (fieldsOf r.body) = some (.text t) ∧
          Text.has "rate limit" (Text.lower t) = true := by
  unfold isRateLimited
  by_cases hzero : r.header? "X-RateLimit-Remaining" = some ['0']
  · rw [if_pos hzero]
    exact iff_of_true rfl (.inl hzero)
  · rw [if_neg hzero, or_iff_right hzero, ← speaks_messageOf_iff h]
    cases messageOf r with
    | text t => simp [Payload.asText]
    | _ => exact iff_of_false nofun nofun

theorem isLimit_iff {r : Reply} (h : r.status = 403) :
    IsLimit r ↔ isRateLimited r (messageOf r) = .ok true := by
  rw [isRateLimited_iff h, IsLimit, or_iff_right (by omega), and_iff_right h]

theorem isRateLimited_eq_error_iff (r : Reply) (message : Payload) :
    (∃ f, isRateLimited r message = .error f) ↔
      r.header? "X-RateLimit-Remaining" ≠ some ['0'] ∧ message.kind ≠ .text := by
  unfold isRateLimited
  split_ifs with hzero
  · exact iff_of_false nofun fun h => h.1 hzero
  · rw [and_iff_right hzero]
    cases message with
    | text t => exact iff_of_false nofun fun h => h rfl
    | _ => exact iff_of_true ⟨_, rfl⟩ nofun

/-- Whether a payload has a first item once it is present: it is a list or a text. -/
def IsRow (p : Payload) : Prop := p.kind = .list ∨ p.kind = .text

theorem first_cases {p : Payload} (present : p.isPresent = true) :
    (IsRow p ∧ ∃ q, p.first = .ok q) ∨ (¬ IsRow p ∧ ∃ f, p.first = .error f) := by
  cases p with
  | list l =>
    cases l with
    | nil => cases present
    | cons q l => exact .inl ⟨.inl rfl, q, rfl⟩
  | text t =>
    cases t with
    | nil => cases present
    | cons c t => exact .inl ⟨.inr rfl, _, rfl⟩
  | _ => exact .inr ⟨not_or.2 ⟨nofun, nofun⟩, _, rfl⟩

theorem detailOf_cases (fields : Fields) (message : Payload) :
    (∃ p, Fields.find? "errors" fields = some p ∧ p.isPresent = true ∧ ¬ IsRow p ∧
        ∃ f, detailOf (.object fields) message = .error f) ∨
      (∀ p, Fields.find? "errors" fields = some p → p.isPresent = true → IsRow p) ∧
        ∃ detail, detailOf (.object fields) message = .ok detail := by
  unfold detailOf Payload.field Payload.fieldOr
  dsimp only [bind, Except.bind]
  cases Fields.find? "errors" fields with
  | none =>
    refine .inr ⟨?_, message, rfl⟩
    rintro _ ⟨⟩
  | some p =>
    dsimp only [Option.getD_some]
    split_ifs with present
    · rcases first_cases present with ⟨hrow, q, hq⟩ | ⟨hrow, f, hf⟩
      · refine .inr ⟨?_, ?_⟩
        · rintro _ ⟨⟩ -
          exact hrow
        · rw [hq]
          cases q <;> exact ⟨_, rfl⟩
      · refine .inl ⟨p, rfl, present, hrow, f, ?_⟩
        rw [hf]
    · refine .inr ⟨?_, message, rfl⟩
      rintro _ ⟨⟩ h
      exact absurd h present

inductive Defeats (r : Reply) : Prop
  | nested (h : r.body = .tooDeep)
  | reset (hl : IsLimit r) (h : IsBeyondClock (r.header? "X-RateLimit-Reset"))
  | message (hs : r.status = 403) (hr : r.header? "X-RateLimit-Remaining" ≠ some ['0'])
      (h : (messageOf r).kind ≠ .text)
  | details {p : Payload} (hs : r.status = 422)
      (hp : Fields.find? "errors" (fieldsOf r.body) = some p) (present : p.isPresent = true)
      (h : ¬ IsRow p)

structure Tells (r : Reply) (f : Failure) : Prop where
  status : f.status = some r.status
  requestId : f.requestId = r.header? "X-GitHub-Request-Id"
  authentication : f.category = .authentication ↔ r.status = 401
  rateLimit : (∃ t, f.category = .rateLimit t) ↔ IsLimit r
  rejectedQuery : f.category = .rejectedQuery ↔ r.status = 422
  remote : f.category = .remote ↔ r.status ≠ 401 ∧ r.status ≠ 422 ∧ ¬ IsLimit r

def Settles (r : Reply) (x : Outcome Failure) : Prop :=
  (Defeats r ∧ ∃ f, x = .error f) ∨ (¬ Defeats r ∧ ∃ f, x = .ok f ∧ Tells r f)

theorem IsLimit.status {r : Reply} (h : IsLimit r) : r.status = 429 ∨ r.status = 403 :=
  h.imp_right And.left

theorem IsLimit.not_defeats {r : Reply} (hl : IsLimit r) (hdeep : r.body ≠ .tooDeep)
    (hclock : ¬ IsBeyondClock (r.header? "X-RateLimit-Reset")) : ¬ Defeats r := by
  rintro (h | ⟨-, h⟩ | ⟨hs, hr, h⟩ | ⟨hs, -, -, -⟩)
  · exact hdeep h
  · exact hclock h
  · obtain ⟨f, hf⟩ := (isRateLimited_eq_error_iff r (messageOf r)).2 ⟨hr, h⟩
    rw [isLimit_iff hs, hf] at hl
    cases hl
  · have hstatus := hl.status
    omega

theorem not_isLimit {r : Reply} (h429 : r.status ≠ 429) (h403 : r.status ≠ 403) : ¬ IsLimit r :=
  fun h => h.status.elim h429 h403

theorem not_defeats {r : Reply} (hdeep : r.body ≠ .tooDeep) (hl : ¬ IsLimit r)
    (h403 : r.status ≠ 403) (h422 : r.status ≠ 422) : ¬ Defeats r := by
  rintro (h | ⟨h, -⟩ | ⟨h, -, -⟩ | ⟨h, -, -, -⟩)
  · exact hdeep h
  · exact hl h
  · exact h403 h
  · exact h422 h

theorem settles_limited (now : Moment) {r : Reply} (hdeep : r.body ≠ .tooDeep) (hl : IsLimit r) :
    Settles r (do pure (rateLimited (← resetOf now r) r.status r.requestId)) := by
  have hstatus := hl.status
  unfold resetOf
  rcases resetTime_cases now (r.header? "X-RateLimit-Reset") with ⟨hclock, t, ht⟩ | ⟨hclock, hf⟩
  · refine .inr ⟨hl.not_defeats hdeep hclock, rateLimited t r.status r.requestId, ?_, ?_⟩
    · rw [ht]
      rfl
    · exact ⟨rfl, rfl, iff_of_false nofun (by omega), iff_of_true ⟨t, rfl⟩ hl,
        iff_of_false nofun (by omega), iff_of_false nofun fun h => h.2.2 hl⟩
  · refine .inl ⟨.reset hl hclock, ?_⟩
    rcases hf with hf | hf <;> exact ⟨_, by rw [hf]; rfl⟩

theorem settles_remote {r : Reply} (message : Payload) (h : ¬ Defeats r) (h401 : r.status ≠ 401)
    (h422 : r.status ≠ 422) (hl : ¬ IsLimit r) :
    Settles r (.ok ⟨.remote, message, some r.status, r.requestId⟩) :=
  .inr ⟨h, _, rfl, rfl, rfl, iff_of_false nofun h401, iff_of_false nofun hl,
    iff_of_false nofun h422, iff_of_true rfl ⟨h401, h422, hl⟩⟩

theorem settles_forbidden (now : Moment) {r : Reply} (hdeep : r.body ≠ .tooDeep)
    (hs : r.status = 403) :
    Settles r (do
      if ← isRateLimited r (messageOf r) then
        pure (rateLimited (← resetOf now r) r.status r.requestId)
      else pure ⟨.remote, "Access forbidden", some r.status, r.requestId⟩) := by
  -- the message is looked at only where the requests that remain do not tell
  have herror := isRateLimited_eq_error_iff r (messageOf r)
  have hlimit := isLimit_iff hs
  cases hword : isRateLimited r (messageOf r) with
  | error f =>
    obtain ⟨hr, hm⟩ := herror.1 ⟨f, hword⟩
    exact .inl ⟨.message hs hr hm, f, rfl⟩
  | ok limited =>
    rw [hword] at herror hlimit
    cases limited with
    | true => exact settles_limited now hdeep (hlimit.2 rfl)
    | false =>
      have hl : ¬ IsLimit r := fun h => nomatch hlimit.1 h
      refine settles_remote _ ?_ (by omega) (by omega) hl
      rintro (h | ⟨h, -⟩ | ⟨-, hr, hm⟩ | ⟨h, -, -, -⟩)
      · exact hdeep h
      · exact hl h
      · exact nomatch herror.2 ⟨hr, hm⟩
      · omega

theorem settles_rejected {r : Reply} (hdeep : r.body ≠ .tooDeep) (hs : r.status = 422) :
    Settles r (do
      let detail ← detailOf (.object (fieldsOf r.body)) (messageOf r)
      pure ⟨.rejectedQuery, .text ("Invalid search query: ".toList ++ detail.display),
        some r.status, r.requestId⟩) := by
  have hl := not_isLimit (r := r) (by omega) (by omega)
  rcases detailOf_cases (fieldsOf r.body) (messageOf r) with
    ⟨p, hp, present, hrow, f, hf⟩ | ⟨hrow, detail, hdetail⟩
  · refine .inl ⟨.details hs hp present hrow, f, ?_⟩
    rw [hf]
    rfl
  · rw [hdetail]
    refine .inr ⟨?_, _, rfl, rfl, rfl, iff_of_false nofun (by omega), iff_of_false nofun hl,
      iff_of_true rfl hs, iff_of_false nofun fun h => h.2.1 hs⟩
    rintro (h | ⟨h, -⟩ | ⟨h, -, -⟩ | ⟨-, hp, present, h⟩)
    · exact hdeep h
    · exact hl h
    · omega
    · exact h (hrow _ hp present)

theorem settles_ofReply (now : Moment) (r : Reply) : Settles r (Failure.ofReply now r) := by
  by_cases hdeep : r.body = .tooDeep
  · refine .inl ⟨.nested hdeep, .tooDeep, ?_⟩
    unfold Failure.ofReply
    rw [hdeep]
    rfl
  · rw [Failure.ofReply_eq now hdeep]
    dsimp only
    split_ifs with h401 h429 h403 h422
    · have hl := not_isLimit (r := r) (by omega) (by omega)
      exact .inr ⟨not_defeats hdeep hl (by omega) (by omega), _, rfl, rfl, rfl,
        iff_of_true rfl h401, iff_of_false nofun hl, iff_of_false nofun (by omega),
        iff_of_false nofun fun h => h.1 h401⟩
    · exact settles_limited now hdeep (.inl h429)
    · exact settles_forbidden now hdeep h403
    · exact settles_rejected hdeep h422
    · have hl := not_isLimit h429 h403
      exact settles_remote _ (not_defeats hdeep hl h403 h422) h401 h422 hl

end Refusal

open Refusal

/-- An error reply is mapped to a failure exactly if nothing in it defeats this, and the failure
tells what the reply says. -/
theorem Failure.exists_ofReply_iff (now : Moment) (r : Reply) :
    ((∃ f, Failure.ofReply now r = .ok f) ↔ ¬ Defeats r) ∧
      ∀ f, Failure.ofReply now r = .ok f → Tells r f := by
  rcases settles_ofReply now r with ⟨hdefeats, f, hf⟩ | ⟨hdefeats, f, hf, htells⟩
  · rw [hf]
    exact ⟨iff_of_false nofun (not_not.2 hdefeats), nofun⟩
  · rw [hf]
    refine ⟨iff_of_true ⟨f, rfl⟩ hdefeats, ?_⟩
    rintro _ ⟨⟩
    exact htells

theorem Failure.exists_ofReply_exhausted :
    let now := Moment.midnight ⟨2024, 6, 15, by decide⟩
    let r : Reply := ⟨403, [("X-RateLimit-Remaining", "0"), ("X-RateLimit-Reset", "1718413200")],
      .empty⟩
    ∃ f t, Failure.ofReply now r = .ok f ∧ f.category = .rateLimit t := by
  intro now r
  have hlimit : IsLimit r := .inr ⟨rfl, .inl (by decide)⟩
  have hclock : ¬ IsBeyondClock (r.header? "X-RateLimit-Reset") := by
    rintro ⟨seconds, hseconds, hrange⟩
    have hread : (r.header? "X-RateLimit-Reset").bind Reading.integer? = some 1718413200 := by decide
    obtain rfl := Option.some.inj (hread.symm.trans hseconds)
    cases hrange
  obtain ⟨hmapped, htells⟩ := Failure.exists_ofReply_iff now r
  obtain ⟨f, hf⟩ := hmapped.2 (hlimit.not_defeats nofun hclock)
  obtain ⟨t, ht⟩ := (htells f hf).rateLimit.2 hlimit
  exact ⟨f, t, hf, ht⟩

/-- A reset that no clock shows, a message that is a list, and errors that are an object. -/
theorem Failure.ofReply_baffled :
    let now := Moment.midnight ⟨2024, 6, 15, by decide⟩
    let far : Reply := ⟨429, [("X-RateLimit-Reset", "99999999999999999999999")], .empty⟩
    let forbidden : Reply := ⟨403, [], .json (.object [("message", .list [.text "rate limit"])])⟩
    let rejected : Reply := ⟨422, [], .json (.object [("errors", .object [("a", .int 1)])])⟩
    ∀ r ∈ [far, forbidden, rejected], ∀ f, Failure.ofReply now r ≠ .ok f := by
  intro now far forbidden rejected r hr f hf
  have hnone : [far, forbidden, rejected].all
      (fun r => (Failure.ofReply now r).toOption.isNone) = true := by decide +kernel
  obtain ⟨e, he⟩ := Outcome.exists_error (List.all_eq_true.1 hnone r hr)
  rw [hf] at he
  cases he

end PullGauge
