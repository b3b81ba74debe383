import Mathlib
import PullGauge.Proofs.Exchange.Faults
import PullGauge.Proofs.Exchange.Addresses

/-!
# Lists that come in pages

The address of the next page stands in angles in a header, with its relation behind it, and is
read back as it was written. Following such links asks for one page after another, until a page
has no link or a reply is an error; what comes of it is told by the requests that are sent in
turn and the replies to them.
-/

namespace PullGauge

open Outcome

namespace Reply

theorem linkBreak?_eq_none {c : Char} {t : Text} (h : '<' ∉ t) : linkBreak? (c :: t) = none := by
  have hnone (k : Nat) : ∀ r, t.drop k ≠ '<' :: r := by
    intro r hr
    exact h (List.mem_of_mem_drop (hr ▸ List.mem_cons_self ..))
  unfold linkBreak?
  split
  · rename_i heq
    cases heq
    dsimp only
    split
    · rename_i r heq
      exact absurd heq (hnone _ r)
    · rfl
  · rfl

theorem linkPieces_cons {c : Char} {t : Text} (h : '<' ∉ t) : linkPieces 0 (c :: t) = [c :: t] := by
  induction t generalizing c with
  | nil => rw [linkPieces, linkBreak?_eq_none h]; rfl
  | cons d t ih =>
    rw [List.mem_cons, not_or] at h
    rw [linkPieces, linkBreak?_eq_none (by simp [h]), ih h.2]

def writeNext (address : Text) : Text := '<' :: address ++ ">; rel=\"next\"".toList

structure IsLinkable (address : Text) : Prop where
  clean : ∀ c ∈ address, c ≠ '<' ∧ c ≠ ';'
  full : address ≠ []
  first : ∀ c ∈ address.head?, c ∉ "<> '\"".toList
  last : ∀ c ∈ address.getLast?, c ∉ "<> '\"".toList

theorem ofPiece_writeNext {address : Text} (h : IsLinkable address) :
    Link.ofPiece ('<' :: address ++ ">; rel=\"next".toList) =
      ⟨address, [("rel".toList, "next".toList)]⟩ := by
  have hclean : ';' ∉ '<' :: address ++ ['>'] := by
    have haddress : ';' ∉ address := fun hc => (h.clean _ hc).2 rfl
    simp [haddress]
  have hsplit : Text.splitAtFirst [';'] ('<' :: address ++ ">; rel=\"next".toList) =
      some ('<' :: address ++ ['>'], " rel=\"next".toList) := by
    have hfirst := Text.splitAtFirst_of_not_mem hclean " rel=\"next".toList
    rw [List.append_assoc] at hfirst
    exact hfirst
  have htrim : Text.trimBy (fun c => "<> '\"".toList.contains c) ('<' :: address ++ ['>']) =
      address :=
    Text.trimBy_append (a := ['<']) (b := ['>']) (by simp) (by simp) h.full
      (fun c hc => by simpa using h.first c hc) (fun c hc => by simpa using h.last c hc)
  have hparams : linkParams (Text.cut ';' " rel=\"next".toList) =
      [("rel".toList, "next".toList)] := by decide
  unfold Link.ofPiece
  rw [hsplit]
  dsimp only
  rw [htrim, hparams]

theorem readLinks_writeNext {address : Text} (h : IsLinkable address) :
    readLinks (writeNext address) = [⟨address, [("rel".toList, "next".toList)]⟩] := by
  have htrim : trimMarks (writeNext address) = '<' :: address ++ ">; rel=\"next".toList := by
    have hwrite : writeNext address =
        [] ++ ('<' :: address ++ ">; rel=\"next".toList) ++ ['"'] := by
      rw [List.nil_append, List.append_assoc]
      rfl
    rw [hwrite]
    refine Text.trimBy_append nofun (by simp) (by simp) (by simp) ?_
    intro c hc
    rw [List.getLast?_append_of_ne_nil _ (by simp)] at hc
    cases hc
    rfl
  have hclean : '<' ∉ address ++ ">; rel=\"next".toList := by
    have haddress : '<' ∉ address := fun hc => (h.clean _ hc).1 rfl
    simp [haddress]
  unfold readLinks
  rw [htrim]
  dsimp only
  rw [List.cons_append, if_neg (by simp), linkPieces_cons hclean, List.map_singleton,
    ← List.cons_append, ofPiece_writeNext h]

theorem next?_of_link {status : Int} {body : Body} {address : Text} (h : IsLinkable address) :
    next? ⟨status, [("Link".toList, writeNext address)], body⟩ = some address := by
  have hheader : header? ⟨status, [("Link".toList, writeNext address)], body⟩ "link" =
      some (writeNext address) :=
    congrArg some (List.intercalate_singleton ..)
  have hfull : address.isEmpty = false := by simpa using h.full
  unfold next?
  rw [hheader]
  dsimp only [bind, Option.bind]
  rw [readLinks_writeNext h]
  show (if address.isEmpty then none else some address) = some address
  rw [hfull]
  rfl

end Reply

namespace Client

variable {S T J : Type} [Service S] [TimeScale T] {c : Client}

structure GivesPage (r : Request) (reply : Reply) (items : List Payload) : Prop where
  received : receive r reply = .ok reply
  status : reply.status < 400
  items : decode r reply >>= pageItems = .ok items

/-- The requests that are sent in turn where the links are followed, and what it comes to. -/
inductive Follows (c : Client) (now : Moment) :
    Text → Option Fields → S → List Request → Outcome (List Payload) → S → Prop
  | last {path : Text} {params : Option Fields} {s s' : S} {r : Request} {reply : Reply}
      {items : List Payload} (hr : c.requestFor "GET" path params none = .ok r)
      (hs : Service.answer s r = (.ok reply, s')) (hpage : GivesPage r reply items)
      (hnext : reply.next? = none) : Follows c now path params s [r] (.ok items) s'
  | more {path next : Text} {params : Option Fields} {s s' s'' : S} {r : Request} {reply : Reply}
      {items : List Payload} {requests : List Request} {rest : Outcome (List Payload)}
      (hr : c.requestFor "GET" path params none = .ok r)
      (hs : Service.answer s r = (.ok reply, s')) (hpage : GivesPage r reply items)
      (hnext : reply.next? = some next) (h : Follows c now next none s' requests rest s'') :
      Follows c now path params s (r :: requests) (rest.map (items ++ ·)) s''
  | refused {path : Text} {params : Option Fields} {s s' : S} {r : Request} {reply : Reply}
      (hr : c.requestFor "GET" path params none = .ok r)
      (hs : Service.answer s r = (.ok reply, s')) (hreceived : receive r reply = .ok reply)
      (hstatus : 400 ≤ reply.status) : Follows c now path params s [r]
        (Failure.ofReply now reply >>= fun f => .error (.failure f)) s'

theorem pagesFrom_succ {path : Text} {params : Option Fields} {r : Request}
    (hr : c.requestFor "GET" path params none = .ok r) (limit : Nat) :
    (c.pagesFrom (limit + 1) path params : Talk J (List Payload)) =
      (exchange r).bind fun reply => (Talk.ofOutcome (decode r reply >>= pageItems)).bind
        fun items => match reply.next? with
          | none => .done items
          | some next => (c.pagesFrom limit next none).bind fun more => .done (items ++ more) := by
  rw [pagesFrom, hr]
  show Talk.bind _ (exchange r) = _
  congr
  funext reply
  cases decode r reply <;> rfl

section Run

variable {path : Text} {params : Option Fields} {s : S} {r : Request} {reply : Reply}
  {items : List Payload} {w : World S T} (job : J → World S T → Outcome Payload × World S T)
  (hr : c.requestFor "GET" path params none = .ok r)
  (hs : Service.answer w.service r = (.ok reply, s))

include hr hs

theorem runWith_pagesFrom_of_givesPage (hpage : GivesPage r reply items) (limit : Nat) :
    World.runWith job (c.pagesFrom (limit + 1) path params) w =
      World.runWith job (match reply.next? with
        | none => .done items
        | some next => (c.pagesFrom limit next none).bind fun more => .done (items ++ more))
        { w with service := s } := by
  rw [pagesFrom_succ hr, World.runWith_bind, runWith_exchange, hs,
    taken_of_receive_ok hpage.received, if_pos hpage.status]
  dsimp only
  rw [hpage.items]
  rfl

theorem runWith_pagesFrom_of_refused (hreceived : receive r reply = .ok reply)
    (hstatus : 400 ≤ reply.status) (limit : Nat) :
    World.runWith job (c.pagesFrom (limit + 1) path params) w =
      (Failure.ofReply w.now reply >>= fun f => .error (.failure f), { w with service := s }) := by
  rw [pagesFrom_succ hr, World.runWith_bind, runWith_exchange, hs,
    taken_of_receive_ok hreceived, if_neg (by omega)]
  cases Failure.ofReply w.now reply <;> rfl

end Run

theorem Follows.run {now : Moment} {path : Text} {params : Option Fields} {s s' : S}
    {requests : List Request} {outcome : Outcome (List Payload)}
    (h : Follows c now path params s requests outcome s')
    (job : J → World S T → Outcome Payload × World S T) {w : World S T} (hnow : w.now = now)
    (hw : w.service = s) {limit : Nat} (hlimit : requests.length ≤ limit) :
    World.runWith job (c.pagesFrom limit path params) w = (outcome, { w with service := s' }) := by
  -- each request takes one of the links that may still be followed
  induction h generalizing w limit with
  | last hr hs hpage hnext =>
    subst hw
    obtain ⟨k, rfl⟩ := Nat.exists_eq_add_one.2 hlimit
    rw [runWith_pagesFrom_of_givesPage job hr hs hpage, hnext]
    rfl
  | @more _ _ _ _ t _ _ _ _ _ rest hr hs hpage hnext h ih =>
    subst hw
    obtain ⟨k, rfl⟩ := Nat.exists_eq_add_one.2 (Nat.zero_lt_of_lt hlimit)
    have hrest := ih (w := { w with service := t }) hnow rfl (Nat.le_of_succ_le_succ hlimit)
    rw [runWith_pagesFrom_of_givesPage job hr hs hpage, hnext]
    dsimp only
    rw [World.runWith_bind, hrest]
    cases rest <;> rfl
  | refused hr hs hreceived hstatus =>
    subst hw hnow
    obtain ⟨k, rfl⟩ := Nat.exists_eq_add_one.2 hlimit
    exact runWith_pagesFrom_of_refused job hr hs hreceived hstatus k

end Client

end PullGauge
