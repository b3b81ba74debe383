import Mathlib
import PullGauge.World
import PullGauge.Exchange.Resources

/-!
# How an exchange can fail

Taking a payload apart fails only in a way that says what the data lack. A reply is taken in
whatever it holds, unless it is nested too deeply, must be followed to an address that no
request can be sent to, or tells a time at which the rate limit is reset that no clock shows.
-/

namespace PullGauge

variable {α β : Type}

namespace Outcome

def FailsIn (P : Fault → Prop) (x : Outcome α) : Prop := ∀ f, x = .error f → P f

variable {P Q : Fault → Prop}

theorem failsIn_ok (a : α) : FailsIn P (.ok a) := nofun

theorem failsIn_pure (a : α) : FailsIn P (pure a : Outcome α) := nofun

theorem failsIn_error {f : Fault} (h : P f) : FailsIn P (.error f : Outcome α) := by
  rintro _ ⟨⟩
  exact h

theorem FailsIn.mono {x : Outcome α} (h : FailsIn P x) (hPQ : ∀ f, P f → Q f) : FailsIn Q x :=
  fun f hf => hPQ f (h f hf)

theorem FailsIn.bind {x : Outcome α} {next : α → Outcome β} (h : FailsIn P x)
    (hnext : ∀ a, x = .ok a → FailsIn P (next a)) : FailsIn P (x >>= next) := by
  cases x with
  | error f => exact failsIn_error (h f rfl)
  | ok a => exact hnext a rfl

theorem FailsIn.map {x : Outcome α} (h : FailsIn P x) (g : α → β) : FailsIn P (x.map g) := by
  cases x with
  | error f => exact failsIn_error (h f rfl)
  | ok a => exact failsIn_ok (g a)

theorem FailsIn.mapM {g : α → Outcome β} {l : List α} (h : ∀ a ∈ l, FailsIn P (g a)) :
    FailsIn P (l.mapM g) := by
  induction l with
  | nil => exact failsIn_pure []
  | cons a l ih =>
    rw [List.mapM_cons]
    refine (h a (List.mem_cons_self ..)).bind fun b _ => ?_
    exact (ih fun x hx => h x (List.mem_cons_of_mem _ hx)).bind fun more _ => failsIn_pure _

theorem FailsIn.foldlM {g : β → α → Outcome β} (h : ∀ b a, FailsIn P (g b a)) (b : β)
    (l : List α) : FailsIn P (l.foldlM g b) := by
  induction l generalizing b with
  | nil => exact failsIn_pure b
  | cons a l ih =>
    rw [List.foldlM_cons]
    exact (h b a).bind fun b' _ => ih b'

end Outcome

/-- Whether a fault says that data are not as they were expected to be. -/
def Fault.isOfData : Fault → Bool
  | .missing _ => true
  | .noFirst => true
  | .notIterable _ => true
  | .notIndexable _ => true
  | .notKeyed _ => true
  | .lacks _ _ => true
  | .mismatch => true
  | _ => false

abbrev Outcome.FailsInData (x : Outcome α) : Prop := x.FailsIn fun f => f.isOfData = true

namespace Payload

open Outcome

theorem failsInData_fieldOr (p : Payload) (key : Text) (fallback : Payload) :
    (p.fieldOr key fallback).FailsInData := by
  cases p <;> first | exact failsIn_ok _ | exact failsIn_error rfl

theorem failsInData_field (p : Payload) (key : Text) : (p.field key).FailsInData :=
  failsInData_fieldOr p key .null

theorem failsInData_member (p : Payload) (key : Text) : (p.member key).FailsInData := by
  cases p with
  | object fields =>
    unfold member
    dsimp only
    cases Fields.find? key fields with
    | none => exact failsIn_error rfl
    | some q => exact failsIn_ok q
  | _ => exact failsIn_error rfl

theorem failsInData_first (p : Payload) : p.first.FailsInData := by
  rcases p with - | - | - | - | ⟨- | -⟩ | ⟨- | -⟩ | - <;>
    first | exact failsIn_ok _ | exact failsIn_error rfl

theorem failsInData_items (p : Payload) : p.items.FailsInData := by
  cases p <;> first | exact failsIn_ok _ | exact failsIn_error rfl

theorem failsInData_size (p : Payload) : p.size.FailsInData := by
  cases p <;> first | exact failsIn_ok _ | exact failsIn_error rfl

theorem failsInData_asText (p : Payload) (operation : Text) :
    (p.asText operation).FailsInData := by
  cases p <;> first | exact failsIn_ok _ | exact failsIn_error rfl

theorem failsInData_part (p : Payload) (key : Text) : (p.part key).FailsInData :=
  (p.failsInData_field key).map _

theorem failsInData_nodes (p : Payload) (key : Text) : (p.nodes key).FailsInData :=
  (p.failsInData_part key).bind fun inner _ => (inner.failsInData_field "nodes").map _

end Payload

namespace Refusal

open Outcome

def fieldsOf : Reply.Body → Fields
  | .json (.object fields) => fields
  | _ => []

theorem objectOf_eq {body : Reply.Body} (h : body ≠ .tooDeep) :
    objectOf body = .ok (.object (fieldsOf body)) := by
  cases body with
  | json p => cases p <;> rfl
  | tooDeep => exact absurd rfl h
  | empty => rfl
  | unreadable => rfl

theorem failsInData_isRateLimited (r : Reply) (message : Payload) :
    (isRateLimited r message).FailsInData := by
  unfold isRateLimited
  split_ifs
  · exact failsIn_ok true
  · exact (message.failsInData_asText "lower").bind fun t _ => failsIn_pure _

def messageOf (r : Reply) : Payload :=
  ((Fields.find? "message" (fieldsOf r.body)).getD .null).orElse
    (.text ("HTTP ".toList ++ Text.ofInt r.status))

theorem failsInData_detailOf (data message : Payload) : (detailOf data message).FailsInData := by
  unfold detailOf
  refine (data.failsInData_field "errors").bind ?_
  intro details _
  split_ifs
  · refine details.failsInData_first.bind ?_
    intro first _
    cases first <;> exact failsIn_pure _
  · exact failsIn_pure _

end Refusal

open Refusal

theorem Failure.ofReply_eq (now : Moment) {r : Reply} (h : r.body ≠ .tooDeep) :
    Failure.ofReply now r =
      let plain (category : Category) (message : Payload) : Failure :=
        ⟨category, message, some r.status, r.requestId⟩
      let limited := do pure (rateLimited (← resetOf now r) r.status r.requestId)
      if r.status = 401 then pure (plain .authentication "Authentication failed")
      else if r.status = 429 then limited
      else if r.status = 403 then do
        if ← isRateLimited r (messageOf r) then limited
        else pure (plain .remote "Access forbidden")
      else if r.status = 422 then do
        let detail ← detailOf (.object (fieldsOf r.body)) (messageOf r)
        pure (plain .rejectedQuery (.text ("Invalid search query: ".toList ++ detail.display)))
      else pure (plain .remote (messageOf r)) := by
  unfold Failure.ofReply
  rw [objectOf_eq h]
  rfl

namespace Client

def taken (now : Moment) (r : Request) : Except Outage Reply → Outcome Reply
  | .error (.refused message) => .error (.remote ("Connection error: ".toList ++ message))
  | .error (.crashed fault) => .error fault
  | .ok reply => do
    let reply ← receive r reply
    if reply.status < 400 then pure reply
    else throw (.failure (← Failure.ofReply now reply))

variable {J S T : Type} [Service S] [TimeScale T]

theorem runWith_exchange (job : J → World S T → Outcome Payload × World S T) (r : Request)
    (w : World S T) :
    World.runWith job (exchange r) w = (taken w.now r (Service.answer w.service r).1,
      { w with service := (Service.answer w.service r).2 }) := by
  unfold exchange taken
  rw [World.runWith]
  rcases Service.answer w.service r with ⟨(⟨message⟩ | ⟨fault⟩) | reply, service⟩
  · rfl
  · rfl
  · dsimp only
    cases receive r reply with
    | error fault => rfl
    | ok reply =>
      dsimp only [bind, Except.bind]
      split_ifs
      · rfl
      · rw [World.runWith]
        dsimp only
        cases Failure.ofReply w.now reply <;> rfl

theorem taken_ok (now : Moment) (r : Request) (reply : Reply) :
    taken now r (.ok reply) = receive r reply >>= fun reply =>
      if reply.status < 400 then .ok reply
      else Failure.ofReply now reply >>= fun f => .error (.failure f) := rfl

theorem taken_of_receive_ok {now : Moment} {r : Request} {reply reply' : Reply}
    (h : receive r reply = .ok reply') :
    taken now r (.ok reply) = if reply'.status < 400 then .ok reply'
      else Failure.ofReply now reply' >>= fun f => .error (.failure f) := by
  rw [taken_ok, h]
  rfl

theorem eq_of_receive {r : Request} {reply reply' : Reply} (h : receive r reply = .ok reply') :
    reply' = reply := by
  unfold receive at h
  split_ifs at h
  · cases h
  · cases hl : reply.location? with
    | none =>
      rw [hl] at h
      exact (Except.ok.inj h).symm
    | some location =>
      rw [hl] at h
      obtain ⟨u, -, h⟩ := Outcome.exists_of_bind h
      exact (Except.ok.inj h).symm

end Client

namespace World

variable {J S T : Type} [Service S] [TimeScale T]

end World

end PullGauge
