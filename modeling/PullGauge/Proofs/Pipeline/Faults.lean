import Mathlib
import PullGauge.Proofs.Exchange.Faults
import PullGauge.Exchange.Batch

/-!
# Who refuses a query

A query is refused by its validation and by nothing else: whatever fails later in a search,
from the first address to the last record, fails in another way. So a refused query tells that
nothing was sent.
-/

namespace PullGauge

variable {α β : Type}

def Fault.refusesQuery : Fault → Bool
  | .failure ⟨.validation _, _, _, _⟩ => true
  | _ => false

abbrev Outcome.SparesQuery (x : Outcome α) : Prop := x.FailsIn fun f => f.refusesQuery = false

open Outcome

theorem Outcome.FailsInData.sparesQuery {x : Outcome α} (h : x.FailsInData) : x.SparesQuery := by
  refine h.mono ?_
  intro f hf
  cases f <;> first | rfl | cases hf

namespace Payload

theorem sparesQuery_toInteger (p : Payload) : p.toInteger.SparesQuery := by
  unfold toInteger
  cases p with
  | real x =>
    dsimp only
    split_ifs
    · exact failsIn_error rfl
    · exact failsIn_ok _
    · exact failsIn_error rfl
  | text t =>
    dsimp only
    cases Reading.integer? t with
    | none => exact failsIn_error rfl
    | some i => exact failsIn_ok i
  | _ => first | exact failsIn_ok _ | exact failsIn_error rfl

section Flaws

variable {sent : Bool} {f : Fault}

mutual
theorem refusesQuery_of_flaw? (room : Nat) (p : Payload) (h : p.flaw? sent room = some f) :
    f.refusesQuery = false :=
  match p with
  | .int i => by
    rw [flaw?] at h
    split_ifs at h
    cases h
    rfl
  | .real x => by
    rw [flaw?] at h
    split_ifs at h
    cases h
    rfl
  | .list items => by
    rw [flaw?] at h
    split_ifs at h
    · cases h
      rfl
    · exact refusesQuery_of_itemsFlaw? (room - 1) items h
  | .object fields => by
    rw [flaw?] at h
    split_ifs at h
    · cases h
      rfl
    · exact refusesQuery_of_fieldsFlaw? (room - 1) fields h
  | .null => nomatch h
  | .bool _ => nomatch h
  | .text _ => nomatch h
termination_by structural p

theorem refusesQuery_of_itemsFlaw? (room : Nat) (items : List Payload)
    (h : itemsFlaw? sent room items = some f) : f.refusesQuery = false :=
  match items with
  | [] => nomatch h
  | p :: items => by
    rw [itemsFlaw?, Option.or_eq_some_iff] at h
    rcases h with h | ⟨-, h⟩
    · exact refusesQuery_of_flaw? room p h
    · exact refusesQuery_of_itemsFlaw? room items h
termination_by structural items

theorem refusesQuery_of_fieldsFlaw? (room : Nat) (fields : Fields)
    (h : fieldsFlaw? sent room fields = some f) : f.refusesQuery = false :=
  match fields with
  | [] => nomatch h
  | (_, p) :: fields => by
    rw [fieldsFlaw?, Option.or_eq_some_iff] at h
    rcases h with h | ⟨-, h⟩
    · exact refusesQuery_of_flaw? room p h
    · exact refusesQuery_of_fieldsFlaw? room fields h
termination_by structural fields
end

end Flaws

theorem sparesQuery_check (sent : Bool) (p : Payload) : (p.check sent).SparesQuery := by
  unfold check
  cases h : p.flaw? sent Reading.depthLimit with
  | none => exact failsIn_ok ()
  | some f => exact failsIn_error (refusesQuery_of_flaw? _ p h)

theorem sparesQuery_literal (p : Payload) : p.literal.SparesQuery :=
  (sparesQuery_check false p).bind fun _ _ => failsIn_pure _

end Payload

namespace Client

theorem sparesQuery_addressOf (u : Except Url.Flaw Url) : (addressOf u).SparesQuery := by
  cases u with
  | error flaw => exact failsIn_error rfl
  | ok url => exact failsIn_ok url

theorem sparesQuery_addressFor (c : Client) (path : Text) (params : Option Fields) :
    (c.addressFor path params).SparesQuery := by
  unfold addressFor
  refine (sparesQuery_addressOf _).bind fun url _ => ?_
  cases params with
  | none => exact failsIn_pure url
  | some p => exact (Payload.sparesQuery_check false _).bind fun _ _ => sparesQuery_addressOf _

theorem sparesQuery_requestFor (c : Client) (method path : Text) (params : Option Fields)
    (body : Option Payload) : (c.requestFor method path params body).SparesQuery := by
  have hbody : (body.elim (pure ()) (Payload.check true)).SparesQuery := by
    cases body with
    | none => exact failsIn_pure ()
    | some p => exact Payload.sparesQuery_check true p
  unfold requestFor
  refine (sparesQuery_addressFor c path params).bind fun url _ => hbody.bind fun _ _ => ?_
  split_ifs
  · exact failsIn_pure _
  · exact failsIn_error rfl

theorem sparesQuery_redirect (r : Request) (location : Text) :
    (redirect r location).SparesQuery := by
  unfold redirect
  cases Url.read location with
  | error flaw => exact failsIn_error rfl
  | ok target =>
    dsimp only
    split_ifs
    · exact failsIn_error rfl
    · exact failsIn_error rfl
    · exact (sparesQuery_addressOf _).bind fun _ _ => failsIn_pure _
    · exact failsIn_pure _

theorem sparesQuery_receive (r : Request) (reply : Reply) : (receive r reply).SparesQuery := by
  unfold receive
  split_ifs
  · exact failsIn_error rfl
  · cases reply.location? with
    | none => exact failsIn_pure reply
    | some location => exact (sparesQuery_redirect r location).bind fun _ _ => failsIn_pure reply

theorem sparesQuery_resetTime (now : Moment) (header : Option Text) :
    (Refusal.resetTime now header).SparesQuery := by
  unfold Refusal.resetTime
  cases header.bind Reading.integer? with
  | none => exact failsIn_ok now
  | some seconds =>
    dsimp only
    split_ifs
    · exact failsIn_error rfl
    · exact failsIn_error rfl
    · exact failsIn_ok _

theorem sparesQuery_ofReply (now : Moment) (r : Reply) :
    (Failure.ofReply now r >>= fun f => (.error (.failure f) : Outcome α)).SparesQuery := by
  by_cases hdeep : r.body = .tooDeep
  · have hfails : Failure.ofReply now r = .error .tooDeep := by
      unfold Failure.ofReply
      rw [hdeep]
      rfl
    rw [hfails]
    exact failsIn_error rfl
  · have hlimited : ((do pure (Refusal.rateLimited (← Refusal.resetOf now r) r.status r.requestId) :
        Outcome Failure) >>= fun f => (.error (.failure f) : Outcome α)).SparesQuery := by
      rw [bind_assoc]
      exact (sparesQuery_resetTime now _).bind fun _ _ => failsIn_error rfl
    rw [Failure.ofReply_eq now hdeep]
    dsimp only
    split_ifs
    · exact failsIn_error rfl
    · exact hlimited
    · rw [bind_assoc]
      refine (Refusal.failsInData_isRateLimited r _).sparesQuery.bind fun limited _ => ?_
      cases limited with
      | true => exact hlimited
      | false => exact failsIn_error rfl
    · rw [bind_assoc]
      exact (Refusal.failsInData_detailOf _ _).sparesQuery.bind fun _ _ => failsIn_error rfl
    · exact failsIn_error rfl

theorem sparesQuery_decode (r : Request) (reply : Reply) : (decode r reply).SparesQuery := by
  unfold decode
  cases reply.body <;> first | exact failsIn_ok _ | exact failsIn_error rfl

theorem sparesQuery_pageItems (p : Payload) : (pageItems p).SparesQuery := by
  cases p with
  | object fields =>
    unfold pageItems
    dsimp only
    cases envelopeKeys.findSome? fun key => Fields.find? key fields with
    | none => exact failsIn_ok []
    | some q => exact q.failsInData_items.sparesQuery
  | text t =>
    unfold pageItems
    dsimp only
    split_ifs
    · exact failsIn_error rfl
    · exact failsIn_ok []
  | _ => first | exact failsIn_ok _ | exact failsIn_error rfl

theorem sparesQuery_anyLimitError (errors : List Payload) :
    (anyLimitError errors).SparesQuery := by
  induction errors with
  | nil => exact failsIn_ok false
  | cons e errors ih =>
    unfold anyLimitError
    have hlimited : (isLimitError e).FailsInData := (e.failsInData_field "type").map _
    refine hlimited.sparesQuery.bind fun limited _ => ?_
    split_ifs
    · exact failsIn_pure true
    · exact ih

theorem sparesQuery_ofPayload (answer : Payload) : (SearchPage.ofPayload answer).SparesQuery := by
  unfold SearchPage.ofPayload
  refine (Payload.failsInData_fieldOr _ _ _).sparesQuery.bind fun _ _ => ?_
  refine (Payload.failsInData_fieldOr _ _ _).sparesQuery.bind fun _ _ => ?_
  exact (Payload.failsInData_fieldOr _ _ _).sparesQuery.bind fun _ _ => failsIn_pure _

end Client

theorem sparesQuery_repositoryOf (url : Text) : (repositoryOf url).SparesQuery := by
  unfold repositoryOf
  split
  · split_ifs
    · exact failsIn_error rfl
    · exact failsIn_ok _
  · exact failsIn_error rfl

theorem sparesQuery_chunks (size : Int) (items : List α) : (chunks size items).SparesQuery := by
  unfold chunks
  split_ifs
  · exact failsIn_ok _
  · exact failsIn_error rfl

namespace PullRef

theorem sparesQuery_ofStub (stub : Payload) : (ofStub stub).SparesQuery := by
  unfold ofStub
  refine (stub.failsInData_member _).sparesQuery.bind fun url _ => ?_
  refine (url.failsInData_asText _).sparesQuery.bind fun t _ => ?_
  refine (sparesQuery_repositoryOf t).bind fun _ _ => ?_
  exact (stub.failsInData_member _).sparesQuery.bind fun _ _ => failsIn_pure _

theorem sparesQuery_write (selection : Text) (index : Nat) (ref : PullRef) :
    (ref.write selection index).SparesQuery := by
  unfold write
  refine ref.owner.sparesQuery_literal.bind fun _ _ => ?_
  refine ref.name.sparesQuery_literal.bind fun _ _ => ?_
  refine ref.number.sparesQuery_toInteger.bind fun number _ => ?_
  exact (Payload.sparesQuery_literal _).bind fun _ _ => failsIn_pure _

theorem sparesQuery_writeAll (selection : Text) (index : Nat) (refs : List PullRef) :
    (writeAll selection index refs).SparesQuery := by
  induction refs generalizing index with
  | nil => exact failsIn_ok []
  | cons ref refs ih =>
    unfold writeAll
    refine (sparesQuery_write selection index ref).bind fun _ _ => ?_
    exact (ih _).bind fun _ _ => failsIn_pure _

theorem sparesQuery_document (refs : List PullRef) (selection : Text) :
    (document refs selection).SparesQuery :=
  (sparesQuery_writeAll selection 0 refs).bind fun _ _ => failsIn_pure _

end PullRef

theorem sparesQuery_answerOf (data : Payload) (index : Nat) : (answerOf data index).SparesQuery :=
  (data.failsInData_part _).sparesQuery.bind fun _ _ => (Payload.failsInData_field _ _).sparesQuery

theorem sparesQuery_stubsOf (p : Payload) : (Resolved.stubsOf p).SparesQuery := by
  unfold Resolved.stubsOf
  split <;> first | exact failsIn_ok _ | exact failsIn_error rfl

theorem sparesQuery_timestamp (p : Payload) : (timestamp p).SparesQuery := by
  unfold timestamp
  split_ifs
  · refine (p.failsInData_asText _).sparesQuery.bind fun t _ => ?_
    cases Moment.read? (Text.replaceChar 'Z' "+00:00" t) with
    | none => exact failsIn_error rfl
    | some m => exact failsIn_pure _
  · exact failsIn_pure none

theorem sparesQuery_earlier (earliest : Option Moment) (candidate : Moment) :
    (earlier earliest candidate).SparesQuery := by
  cases earliest with
  | none => exact failsIn_ok _
  | some m =>
    have hbefore : (candidate.before m).SparesQuery := by
      unfold Moment.before
      cases candidate.gap? m with
      | none => exact failsIn_error rfl
      | some gap => exact failsIn_ok _
    exact hbefore.bind fun _ _ => failsIn_pure _

theorem sparesQuery_either {written : Payload} {other : Outcome Payload}
    (h : other.SparesQuery) : (if written.isPresent then pure written >>= timestamp
      else other >>= timestamp).SparesQuery := by
  split_ifs
  · exact sparesQuery_timestamp written
  · exact h.bind fun p _ => sparesQuery_timestamp p

theorem ReviewStats.sparesQuery_add (s : ReviewStats) (review : Payload) :
    (s.add review).SparesQuery := by
  have hreviewer (login : Payload) : (addReviewer s.reviewers login).SparesQuery := by
    unfold addReviewer
    split_ifs
    · exact failsIn_error rfl
    · exact failsIn_ok _
    · exact failsIn_ok _
  unfold ReviewStats.add
  refine (review.failsInData_field _).sparesQuery.bind fun author _ => ?_
  extract_lets rest
  have hchanges : (asksForChanges review).FailsInData := (review.failsInData_field _).map _
  have hrest (reviewers : List Payload) : (rest reviewers).SparesQuery := by
    refine hchanges.sparesQuery.bind fun changes _ => ?_
    refine (review.failsInData_field _).sparesQuery.bind fun submitted _ => ?_
    refine (sparesQuery_timestamp submitted).bind fun m _ => ?_
    cases m with
    | none => exact failsIn_pure _
    | some m => exact (sparesQuery_earlier s.firstReview m).bind fun _ _ => failsIn_pure _
  split_ifs
  · refine (author.failsInData_member _).sparesQuery.bind fun login _ => ?_
    exact (hreviewer login).bind fun reviewers _ => hrest reviewers
  · exact hrest s.reviewers

theorem sparesQuery_commitDate (item : Payload) : (commitDate item).SparesQuery := by
  unfold commitDate
  refine (item.failsInData_part _).sparesQuery.bind fun commit _ => ?_
  refine (commit.failsInData_part _).sparesQuery.bind fun author _ => ?_
  refine (commit.failsInData_part _).sparesQuery.bind fun committer _ => ?_
  refine (author.failsInData_field _).sparesQuery.bind fun written _ => ?_
  exact sparesQuery_either (committer.failsInData_field _).sparesQuery

theorem sparesQuery_earliestCommit (commits : List Payload) :
    (earliestCommit commits).SparesQuery := by
  refine FailsIn.foldlM ?_ none commits
  intro earliest item
  refine (sparesQuery_commitDate item).bind fun m _ => ?_
  cases m with
  | none => exact failsIn_pure _
  | some m => exact sparesQuery_earlier earliest m

theorem sparesQuery_carriedCommitDate (detail : Payload) :
    (carriedCommitDate detail).SparesQuery := by
  unfold carriedCommitDate
  refine (detail.failsInData_nodes _).sparesQuery.bind fun nodes _ => ?_
  split_ifs
  · refine nodes.failsInData_first.sparesQuery.bind fun first _ => ?_
    refine (first.failsInData_part _).sparesQuery.bind fun commit _ => ?_
    refine (commit.failsInData_field _).sparesQuery.bind fun authored _ => ?_
    exact sparesQuery_either (commit.failsInData_field _).sparesQuery
  · exact failsIn_pure none

theorem sparesQuery_stateOf (detail : Payload) : (stateOf detail).SparesQuery := by
  unfold stateOf
  refine (detail.failsInData_field _).sparesQuery.bind fun draft _ => ?_
  split_ifs
  · exact failsIn_pure _
  · refine (detail.failsInData_field _).sparesQuery.bind fun merged _ => ?_
    split_ifs
    · exact failsIn_pure _
    · refine (detail.failsInData_field _).sparesQuery.bind fun closed _ => ?_
      split_ifs <;> exact failsIn_pure _

theorem Record.sparesQuery_assemble (detail stub : Payload) (owner name : Text)
    (commits : List Payload) : (Record.assemble detail stub owner name commits).SparesQuery := by
  unfold Record.assemble
  refine (detail.failsInData_nodes _).sparesQuery.bind fun nodes _ => ?_
  refine nodes.failsInData_items.sparesQuery.bind fun reviews _ => ?_
  refine (FailsIn.foldlM ReviewStats.sparesQuery_add _ reviews).bind fun stats _ => ?_
  refine (sparesQuery_earliestCommit commits).bind fun listed _ => ?_
  extract_lets dated
  have hdated (firstCommit : Option Moment) : (dated firstCommit).SparesQuery := by
    refine (detail.failsInData_field _).sparesQuery.bind fun p _ => ?_
    refine (sparesQuery_timestamp p).bind fun created _ => ?_
    refine (detail.failsInData_field _).sparesQuery.bind fun p _ => ?_
    refine (sparesQuery_timestamp p).bind fun published _ => ?_
    refine (detail.failsInData_field _).sparesQuery.bind fun merged _ => ?_
    extract_lets ended
    have hended (p : Payload) : (ended p).SparesQuery := by
      refine (sparesQuery_timestamp p).bind fun closed _ => ?_
      refine (detail.failsInData_field _).sparesQuery.bind fun author _ => ?_
      refine (detail.failsInData_member _).sparesQuery.bind fun id _ => ?_
      refine (stub.failsInData_member _).sparesQuery.bind fun number _ => ?_
      refine (detail.failsInData_fieldOr _ _).sparesQuery.bind fun title _ => ?_
      refine (stub.failsInData_fieldOr _ _).sparesQuery.bind fun url _ => ?_
      extract_lets named
      have hnamed (authorName : Payload) : (named authorName).SparesQuery := by
        refine (sparesQuery_stateOf detail).bind fun state _ => ?_
        refine (detail.failsInData_fieldOr _ _).sparesQuery.bind fun additions _ => ?_
        refine (detail.failsInData_fieldOr _ _).sparesQuery.bind fun deletions _ => ?_
        refine (detail.failsInData_part _).sparesQuery.bind fun part _ => ?_
        exact (part.failsInData_fieldOr _ _).sparesQuery.bind fun comments _ => failsIn_pure _
      split_ifs
      · exact (author.failsInData_member _).sparesQuery.bind fun name _ => hnamed name
      · exact hnamed _
    split_ifs
    · exact hended merged
    · exact (detail.failsInData_field _).sparesQuery.bind fun p _ => hended p
  cases listed with
  | none => exact (sparesQuery_carriedCommitDate detail).bind fun first _ => hdated first
  | some m => exact hdated (some m)

end PullGauge
