import Mathlib
import PullGauge.Proofs.Exchange.Conduct
import PullGauge.Proofs.Pipeline.Faults
import PullGauge.Pipeline.Search

/-!
# The course of a search

A search that is not refused looks into the cache once. If it finds nothing it sends requests,
and its errands keep lists of commits, each of which they have read to its last page. Only when
everything has come together the result is kept. Wherever the search fails or stands, the deeds
tell how far it came.
-/

namespace PullGauge

variable {J T α β : Type}

namespace Deed

def HasAsked (h : List (Deed T)) : Prop := ∃ r reply, exchanged r reply ∈ h

/-- The fault refuses no query, unless an outage brought one that does. -/
def Foreign (h : List (Deed T)) (f : Fault) : Prop :=
  f.refusesQuery = true → ∃ r, exchanged r (.error (.crashed f)) ∈ h

variable {h h' : List (Deed T)}

theorem HasAsked.later (hasked : HasAsked h) (hmore : h <+: h') : HasAsked h' := by
  obtain ⟨r, reply, hmem⟩ := hasked
  exact ⟨r, reply, hmore.subset hmem⟩

theorem Foreign.later {f : Fault} (hforeign : Foreign h f) (hmore : h <+: h') :
    Foreign h' f := by
  intro hf
  obtain ⟨r, hmem⟩ := hforeign hf
  exact ⟨r, hmore.subset hmem⟩

theorem foreign_of_refusesQuery {f : Fault} (hf : f.refusesQuery = false) : Foreign h f := by
  intro htrue
  rw [hf] at htrue
  cases htrue

theorem failsIn_foreign {x : Outcome α} (hx : x.SparesQuery) : x.FailsIn (Foreign h) :=
  hx.mono fun _ => foreign_of_refusesQuery

end Deed

open Deed Rule Outcome

theorem Rule.Grows.prefix_of {rule : Rule T} {h h' : List (Deed T)} (hgrows : Grows rule h h') :
    h <+: h' :=
  hgrows.keeps (I := (h <+: ·)) (fun _ d hprefix _ => hprefix.trans (List.prefix_append _ [d]))
    List.prefix_rfl

def Ends (R : List (Deed T) → α → Prop) (h : List (Deed T)) : Option (Outcome α) → Prop
  | none => True
  | some (.error f) => Foreign h f
  | some (.ok a) => R h a

def Rule.Asks (rule : Rule T) (h : List (Deed T)) : Prop :=
  ∀ h' r reply, h <+: h' → rule h' (.exchanged r reply)

theorem Rule.Asks.later {rule : Rule T} {h h' : List (Deed T)} (hasks : rule.Asks h)
    (hmore : h <+: h') : rule.Asks h' :=
  fun h'' r reply hlater => hasks h'' r reply (hmore.trans hlater)

namespace Client

structure IsPage (c : Client) (told : Request → Reply → Prop) (path : Text)
    (params : Option Fields) (reply : Reply) (items : List Payload) : Prop where
  answered : ∃ r, c.requestFor "GET" path params none = .ok r ∧ told r reply ∧
    receive r reply = .ok reply ∧ (decode r reply >>= pageItems) = .ok items
  succeeded : reply.status < 400

inductive Lists (c : Client) (told : Request → Reply → Prop) :
    Text → Option Fields → List Payload → Prop
  | last {path : Text} {params : Option Fields} {reply : Reply} {items : List Payload}
      (hpage : c.IsPage told path params reply items) (hnext : reply.next? = none) :
    Lists c told path params items
  | more {path next : Text} {params : Option Fields} {reply : Reply} {items rest : List Payload}
      (hpage : c.IsPage told path params reply items) (hnext : reply.next? = some next)
      (hrest : Lists c told next none rest) : Lists c told path params (items ++ rest)

theorem Lists.mono {c : Client} {told told' : Request → Reply → Prop}
    (htold : ∀ r reply, told r reply → told' r reply) {path : Text} {params : Option Fields}
    {items : List Payload} (h : c.Lists told path params items) :
    c.Lists told' path params items := by
  have hmono {path : Text} {params : Option Fields} {reply : Reply} {items : List Payload}
      (hpage : c.IsPage told path params reply items) : c.IsPage told' path params reply items := by
    obtain ⟨⟨r, hr, ht, hrest⟩, hstatus⟩ := hpage
    exact ⟨⟨r, hr, htold _ _ ht, hrest⟩, hstatus⟩
  induction h with
  | last hpage hnext => exact .last (hmono hpage) hnext
  | more hpage hnext _ ih => exact .more (hmono hpage) hnext ih

def Told (h : List (Deed T)) (r : Request) (reply : Reply) : Prop := .exchanged r (.ok reply) ∈ h

def commitsPath (owner name : Text) (number : Payload) : Text :=
  repositoryPath owner name ++ "/pulls/".toList ++ number.display ++ "/commits".toList

def ListsCommits (c : Client) (h : List (Deed T)) (owner name : Text) (number : Payload)
    (listed : List Payload) : Prop :=
  c.Lists (Told h) (commitsPath owner name number) (some [("per_page".toList, full)]) listed

theorem hasAsked_of_told {h h' : List (Deed T)} {r : Request} {reply : Reply}
    (htold : Told h r reply) (hmore : h <+: h') : HasAsked h' :=
  ⟨r, .ok reply, hmore.subset htold⟩

end Client

namespace Pipeline

def IsListing (c : Client) (h : List (Deed T)) (key : Text) (data : Option (List Payload))
    (life : Option T) : Prop :=
  life = none ∧ ∃ owner name number listed, key = Key.commits owner name number ∧
    data = some listed ∧ c.ListsCommits h owner name number listed

theorem IsListing.later {c : Client} {h h' : List (Deed T)} {key : Text}
    {data : Option (List Payload)} {life : Option T} (hlisting : IsListing c h key data life)
    (hmore : h <+: h') : IsListing c h' key data life := by
  obtain ⟨hlife, owner, name, number, listed, hkey, hdata, hlisted⟩ := hlisting
  refine ⟨hlife, owner, name, number, listed, hkey, hdata, ?_⟩
  exact hlisted.mono fun _ _ ht => hmore.subset ht

/-- What errands may do: once requests have been sent, they send more and use the cache of
commits. -/
def Chore (c : Client) (h : List (Deed T)) (d : Deed T) : Prop :=
  HasAsked h ∧
    match d with
    | .exchanged _ _ => True
    | .looked .commit _ _ _ => True
    | .stored .commit _ key data life => IsListing c h key data life
    | _ => False

def Asking (_ : List (Deed T)) (d : Deed T) : Prop := ∃ r reply, d = .exchanged r reply

theorem asks_chore (hasked : HasAsked h) : Rule.Asks (Chore c) h :=
  fun _ _ _ hmore => ⟨hasked.later hmore, trivial⟩

theorem asks_asking : Rule.Asks Asking h := fun _ r reply _ => ⟨r, reply, rfl⟩

def Fetched (h : List (Deed T)) (o : Outcome Payload) : Prop := o.FailsIn (Foreign h)

theorem failsIn_records {h : List (Deed T)} {chunk : List Resolved}
    {fetched : List (Outcome Payload)}
    (hfetched : List.Forall₂ (fun _ o => Fetched h o) chunk fetched) :
    ((chunk.zip fetched).mapM fun (r, o) => recordOf r o).FailsIn (Foreign h) := by
  refine FailsIn.mapM ?_
  rintro ⟨r, o⟩ hmem
  refine ((List.forall₂_iff_zip.1 hfetched).2 hmem).bind fun p _ => ?_
  refine (failsIn_foreign p.failsInData_items.sparesQuery).bind fun commits _ => ?_
  exact failsIn_foreign (Record.sparesQuery_assemble _ _ _ _ commits)

end Pipeline

variable [TimeScale T]

namespace Talk

variable {own beside : Rule T}
  {job : J → List (Deed T) → (List (Deed T) → Outcome Payload → Prop) → Prop}
  {h : List (Deed T)} {R : List (Deed T) → α → Prop} {R' : List (Deed T) → β → Prop}

theorem abides_ofOutcome {x : Outcome α} (hx : x.FailsIn (Foreign h))
    (hR : ∀ h' a, h <+: h' → x = .ok a → R h' a) :
    (ofOutcome x : Talk J α).Abides own beside job h (Ends R) := by
  cases x with
  | error f => exact fun h' hgrows => (hx f rfl).later hgrows.prefix_of
  | ok a => exact fun h' hgrows => hR h' a hgrows.prefix_of rfl

theorem abides_pure {a : α} (hR : ∀ h', h <+: h' → R h' a) :
    (pure a : Talk J α).Abides own beside job h (Ends R) :=
  fun h' hgrows => hR h' hgrows.prefix_of

theorem Abides.bind_ends {t : Talk J α} {f : α → Talk J β}
    (ht : t.Abides own beside job h (Ends R))
    (hf : ∀ h' a, h <+: h' → R h' a → (f a).Abides own beside job h' (Ends R')) :
    (t >>= f).Abides own beside job h (Ends R') := by
  have hprefix (h' : List (Deed T)) (d : Deed T) (hh : h <+: h') : h <+: h' ++ [d] :=
    hh.trans (List.prefix_append _ [d])
  refine Abides.bind (ht.mono (I := (h <+: ·)) (fun h' d hh hd => ⟨hd, hprefix h' d hh⟩)
    (fun h' d hh _ => hprefix h' d hh) ?_ List.prefix_rfl)
  rintro h' (_ | f | a) hh hends
  · exact hends
  · exact hends
  · exact hf h' a hh hends

theorem abides_lift_bind {x : Outcome α} {f : α → Talk J β} (hx : x.SparesQuery)
    (hf : ∀ a, x = .ok a → (f a).Abides own beside job h (Ends R')) :
    ((liftM x : Talk J α) >>= f).Abides own beside job h (Ends R') := by
  cases x with
  | error e => exact fun h' _ => foreign_of_refusesQuery (hx e rfl)
  | ok a => exact hf a rfl

theorem abides_say_bind {logger : Text} {level : Int} {message : Text} {f : Unit → Talk J β}
    (hf : (f ()).Abides own beside job h (Ends R')) :
    (say logger level message >>= f).Abides own beside job h (Ends R') :=
  fun _ hgrows => ⟨trivial, hf.grows hgrows⟩

theorem abides_now_bind {f : Moment → Talk J β}
    (hf : ∀ m, (f m).Abides own beside job h (Ends R')) :
    (now >>= f).Abides own beside job h (Ends R') :=
  fun _ hgrows => ⟨trivial, fun m => (hf m).grows hgrows⟩

theorem abides_failed {f : Fault} (hf : f.refusesQuery = false) :
    (failed f : Talk J α).Abides own beside job h (Ends R) :=
  fun _ _ => foreign_of_refusesQuery hf

end Talk

namespace Client

variable {own beside : Rule T}
  {job : J → List (Deed T) → (List (Deed T) → Outcome Payload → Prop) → Prop}
  {h : List (Deed T)}

theorem abides_exchange (hasks : own.Asks h) (r : Request) :
    (exchange r : Talk J Reply).Abides own beside job h
      (Ends fun h' reply => Told h' r reply ∧ receive r reply = .ok reply ∧ reply.status < 400) := by
  intro h' hgrows
  refine ⟨trivial, fun reply => ⟨hasks h' r reply hgrows.prefix_of, ?_⟩⟩
  have htold {h'' : List (Deed T)} {reply : Except Outage Reply}
      (hmore : Grows beside (h' ++ [.exchanged r reply]) h'') : .exchanged r reply ∈ h'' :=
    hmore.prefix_of.subset (by simp)
  rcases reply with (⟨message⟩ | ⟨fault⟩) | reply
  · exact Talk.abides_failed rfl
  · exact fun h'' hmore _ => ⟨r, htold hmore⟩
  · dsimp only
    cases hr : receive r reply with
    | error fault => exact Talk.abides_failed (sparesQuery_receive r reply fault hr)
    | ok reply' =>
      obtain rfl := eq_of_receive hr
      dsimp only
      split_ifs with hstatus
      · exact fun h'' hmore => ⟨htold hmore, hr, hstatus⟩
      · refine fun h'' _ => ⟨trivial, fun now => ?_⟩
        have hspares := @sparesQuery_ofReply Unit now reply'
        dsimp only
        cases hf : Failure.ofReply now reply' with
        | error fault => exact Talk.abides_failed (hspares fault (by rw [hf]; rfl))
        | ok f => exact Talk.abides_failed (hspares (.failure f) (by rw [hf]; rfl))

theorem abides_request (hasks : own.Asks h) (c : Client) (method path : Text)
    (params : Option Fields) (body : Option Payload) :
    (c.request method path params body : Talk J Payload).Abides own beside job h
      (Ends fun h' _ => HasAsked h') := by
  unfold request
  refine Talk.abides_lift_bind (c.sparesQuery_requestFor _ _ _ _) fun r _ => ?_
  refine (abides_exchange hasks r).bind_ends fun h' reply _ htold => ?_
  exact Talk.abides_ofOutcome (failsIn_foreign (sparesQuery_decode r reply))
    fun h'' _ hmore _ => hasAsked_of_told htold.1 hmore

theorem abides_searchPage (hasks : own.Asks h) (c : Client) (query : Text) (o : SearchOptions) :
    (c.searchPage query o true : Talk J SearchPage).Abides own beside job h
      (Ends fun h' _ => HasAsked h') := by
  unfold searchPage get
  refine (abides_request hasks c ..).bind_ends fun h' answer _ hasked => ?_
  exact Talk.abides_ofOutcome (failsIn_foreign (sparesQuery_ofPayload answer))
    fun h'' _ hmore _ => hasked.later hmore

theorem abides_settle (reply : Reply) (answer : Payload) :
    (settle reply answer : Talk J Payload).Abides own beside job h (Ends fun _ _ => True) := by
  unfold settle
  refine Talk.abides_lift_bind (Payload.failsInData_field _ _).sparesQuery fun errors _ => ?_
  refine Talk.abides_lift_bind (Payload.failsInData_field _ _).sparesQuery fun data _ => ?_
  by_cases herrors : (errors.orElse (.list [])).isPresent = true
  · rw [if_pos herrors]
    refine Talk.abides_lift_bind (Payload.failsInData_items _).sparesQuery fun all _ => ?_
    refine Talk.abides_lift_bind (sparesQuery_anyLimitError all) fun limited _ => ?_
    cases limited with
    | true =>
      refine Talk.abides_now_bind fun now => ?_
      exact Talk.abides_lift_bind (sparesQuery_resetTime now _) fun _ _ => Talk.abides_failed rfl
    | false =>
      refine Talk.abides_lift_bind (Payload.failsInData_first _).sparesQuery fun first _ => ?_
      cases data.isPresent with
      | false =>
        exact Talk.abides_lift_bind (Payload.failsInData_fieldOr _ _ _).sparesQuery
          fun _ _ => Talk.abides_failed rfl
      | true =>
        refine Talk.abides_lift_bind (Payload.failsInData_field _ _).sparesQuery fun _ _ => ?_
        exact Talk.abides_say_bind (Talk.abides_pure fun _ _ => trivial)
  · rw [if_neg herrors]
    exact Talk.abides_pure fun _ _ => trivial

theorem abides_query (hasks : own.Asks h) (c : Client) (document bindings : Payload) :
    (c.query document bindings : Talk J Payload).Abides own beside job h
      (Ends fun _ _ => True) := by
  unfold query
  refine Talk.abides_lift_bind (c.sparesQuery_requestFor _ _ _ _) fun r _ => ?_
  refine (abides_exchange hasks r).bind_ends fun h' reply _ _ => ?_
  exact Talk.abides_lift_bind (sparesQuery_decode r reply) fun answer _ => abides_settle reply answer

theorem abides_pagesFrom (hasks : own.Asks h) (c : Client) (limit : Nat) (path : Text)
    (params : Option Fields) :
    (c.pagesFrom limit path params : Talk J (List Payload)).Abides own beside job h
      (Ends fun h' items => c.Lists (Told h') path params items) := by
  -- on the pages that may still be followed; what was told stays told while others go on
  induction limit generalizing path params h with
  | zero => exact Talk.abides_failed rfl
  | succ limit ih =>
    unfold pagesFrom
    refine Talk.abides_lift_bind (c.sparesQuery_requestFor _ _ _ _) fun r hr => ?_
    refine (abides_exchange hasks r).bind_ends fun h' reply hmore htold => ?_
    obtain ⟨htold, hreceive, hstatus⟩ := htold
    refine Talk.abides_lift_bind (sparesQuery_decode r reply) fun p hp => ?_
    refine Talk.abides_lift_bind (sparesQuery_pageItems p) fun items hitems => ?_
    have hpage {h'' : List (Deed T)} (hlater : h' <+: h'') :
        c.IsPage (Told h'') path params reply items := by
      refine ⟨⟨r, hr, hlater.subset htold, hreceive, ?_⟩, hstatus⟩
      rw [hp]
      exact hitems
    cases hnext : reply.next? with
    | none => exact Talk.abides_pure fun h'' hlater => .last (hpage hlater) hnext
    | some next =>
      refine (ih (hasks.later hmore) next none).bind_ends fun h'' rest hlater hrest => ?_
      refine Talk.abides_pure fun h''' hlast => .more (hpage (hlater.trans hlast)) hnext ?_
      exact hrest.mono fun _ _ ht => hlast.subset ht

theorem abides_pullCommits (hasks : own.Asks h) (c : Client) (owner name : Text)
    (number : Payload) :
    (c.pullCommits owner name number : Talk J (List Payload)).Abides own beside job h
      (Ends fun h' listed => c.ListsCommits h' owner name number listed) :=
  abides_pagesFrom hasks c c.pageLimit _ _

end Client

section Batches

variable {own beside : Rule T}
  {job : J → List (Deed T) → (List (Deed T) → Outcome Payload → Prop) → Prop}
  {h : List (Deed T)}

theorem Client.abides_pullRequests (hasks : own.Asks h) (c : Client) (refs : List PullRef)
    (selection : Text) :
    (c.pullRequests refs selection : Talk J (List Payload)).Abides own beside job h
      (Ends fun _ _ => True) := by
  unfold pullRequests
  split_ifs
  · exact Talk.abides_pure fun _ _ => trivial
  · refine Talk.abides_lift_bind (PullRef.sparesQuery_document refs selection) fun document _ => ?_
    refine (abides_query hasks c _ _).bind_ends fun h' data _ _ => ?_
    have hanswers := @FailsIn.mapM _ _ _ (answerOf data) (List.range refs.length)
      fun index _ => sparesQuery_answerOf data index
    exact Talk.abides_ofOutcome (failsIn_foreign hanswers) fun _ _ _ _ => trivial

namespace Resolved

theorem abides_pair (found : List (Payload × Text × Text × PullRef)) (details : List Payload) :
    (pair found details : Talk J (List Resolved)).Abides own beside job h
      (Ends fun _ _ => True) := by
  induction found generalizing details h with
  | nil => exact Talk.abides_pure fun _ _ => trivial
  | cons x found ih =>
    obtain ⟨stub, owner, name, ref⟩ := x
    cases details with
    | nil => exact Talk.abides_pure fun _ _ => trivial
    | cons detail details =>
      cases detail with
      | null => exact Talk.abides_say_bind (ih details)
      | _ => exact (ih details).bind_ends fun _ _ _ _ => Talk.abides_pure fun _ _ => trivial

theorem abides_ofBatches (hasks : own.Asks h) (c : Client) (selection : Text) (index : Nat)
    (batches : List (List Payload)) :
    (ofBatches c selection index batches : Talk J (List Resolved)).Abides own beside job h
      (Ends fun _ _ => True) := by
  induction batches generalizing index h with
  | nil => exact Talk.abides_pure fun _ _ => trivial
  | cons batch batches ih =>
    have hbatch : (ofBatch c selection index batch : Talk J (List Resolved)).Abides own beside job h
        (Ends fun _ _ => True) := by
      unfold ofBatch
      refine Talk.abides_lift_bind (FailsIn.mapM fun stub _ => PullRef.sparesQuery_ofStub stub) fun found _ => ?_
      refine Talk.abides_say_bind ?_
      refine (c.abides_pullRequests hasks _ selection).bind_ends fun h' details _ _ => ?_
      exact abides_pair _ details
    refine hbatch.bind_ends fun h' first hmore _ => ?_
    refine (ih (hasks.later hmore) (index + 1)).bind_ends fun _ _ _ _ => ?_
    exact Talk.abides_pure fun _ _ => trivial

end Resolved

end Batches

namespace Pipeline

variable {c : Client} {h : List (Deed T)}

theorem abides_commits (hasked : HasAsked h) (owner name : Text) (number : Payload)
    {job : J → List (Deed T) → (List (Deed T) → Outcome Payload → Prop) → Prop} :
    (commits c owner name number : Talk J (List Payload)).Abides (Chore c) (Chore c) job h
      (Ends fun _ _ => True) := by
  intro h₁ hgrows
  have hasked := hasked.later hgrows.prefix_of
  refine ⟨trivial, fun time found => ⟨⟨hasked, trivial⟩, ?_⟩⟩
  have hasked := hasked.later 
    (List.prefix_append h₁ [.looked .commit time (Key.commits owner name number) found])
  cases found with
  | some kept => exact fun _ _ => ⟨trivial, fun _ _ => trivial⟩
  | none =>
    show Talk.Abides _ _ _ (c.pullCommits owner name number >>= _) _ _
    refine (c.abides_pullCommits (asks_chore hasked) owner name number).bind_ends
      fun h₂ listed hmore hlisted => ?_
    intro h₃ hlast
    refine ⟨trivial, fun time => ⟨⟨?_, rfl, owner, name, number, listed, rfl, rfl, ?_⟩, ?_⟩⟩
    · exact (hasked.later hmore).later hlast.prefix_of
    · exact hlisted.mono fun _ _ ht => hlast.prefix_of.subset ht
    · exact Talk.abides_pure fun _ _ => trivial

theorem abides_commitsErrand (hasked : HasAsked h) (r : Resolved) :
    Talk.ErrandAbides (Chore c) (commitsErrand c r) h Fetched := by
  refine Talk.Abides.imp (Q := Ends fun _ _ => True) ?_ ?_
  · unfold commitsErrand
    refine Talk.abides_lift_bind (Payload.failsInData_member _ _).sparesQuery fun number _ => ?_
    exact (abides_commits hasked r.owner r.name number).bind_ends
      fun _ _ _ _ => Talk.abides_pure fun _ _ => trivial
  · rintro h' o hends result rfl
    cases result with
    | error f => exact failsIn_error hends
    | ok p => exact failsIn_ok p

theorem abides_enrichChunk (hasked : HasAsked h) (index : Nat) (chunk : List Resolved) :
    (enrichChunk c index chunk).Abides Asking (Chore c) (Talk.ErrandAbides (Chore c)) h
      (Ends fun _ _ => True) := by
  unfold enrichChunk
  refine Talk.abides_say_bind ?_
  intro h₁ hgrows
  refine ⟨trivial, chunk.map fun _ => Fetched, ?_, ?_, ?_⟩
  · rw [List.forall₂_map_left_iff, List.forall₂_map_right_iff, List.forall₂_same]
    exact fun r _ => abides_commitsErrand (hasked.later hgrows.prefix_of) r
  · intro post hpost h₂ f _ hf
    obtain ⟨_, -, rfl⟩ := List.mem_map.1 hpost
    exact hf f rfl
  · intro h₂ results _ hresults
    rw [List.forall₂_map_left_iff] at hresults
    exact Talk.abides_ofOutcome (failsIn_records hresults) fun _ _ _ _ => trivial

theorem abides_enrichChunks (hasked : HasAsked h) (index : Nat) (chunks : List (List Resolved)) :
    (enrichChunks c index chunks).Abides Asking (Chore c) (Talk.ErrandAbides (Chore c)) h
      (Ends fun _ _ => True) := by
  induction chunks generalizing index h with
  | nil => exact Talk.abides_pure fun _ _ => trivial
  | cons chunk chunks ih =>
    refine (abides_enrichChunk hasked index chunk).bind_ends fun h' first hmore _ => ?_
    refine (ih (hasked.later hmore) (index + 1)).bind_ends fun _ _ _ _ => ?_
    exact Talk.abides_pure fun _ _ => trivial

theorem abides_searchAfresh (query : Text) (o : Client.SearchOptions) :
    (searchAfresh c query o).Abides Asking (Chore c) (Talk.ErrandAbides (Chore c)) h
      (Ends fun h' _ => HasAsked h') := by
  unfold searchAfresh
  refine (c.abides_searchPage asks_asking query o).bind_ends fun h₁ page _ hasked => ?_
  refine Talk.abides_lift_bind ?_ fun stubs _ => ?_
  · exact page.items.failsInData_size.sparesQuery.bind fun _ _ => sparesQuery_stubsOf page.items
  · have hresolved : (Resolved.ofStubs c (Selection.writeAll pullFields) Resolved.batchSize stubs :
        Plan _).Abides Asking (Chore c) (Talk.ErrandAbides (Chore c)) h₁ (Ends fun _ _ => True) := by
      unfold Resolved.ofStubs
      exact Talk.abides_lift_bind (sparesQuery_chunks _ _)
        fun batches _ => Resolved.abides_ofBatches asks_asking c _ 0 batches
    refine hresolved.bind_ends fun h₂ resolved hmore _ => ?_
    refine Talk.abides_lift_bind (sparesQuery_chunks _ _) fun chunks _ => ?_
    have hasked := hasked.later hmore
    refine (abides_enrichChunks hasked 0 chunks).bind_ends fun h₃ records hlater _ => ?_
    exact Talk.abides_pure fun h₄ hlast => (hasked.later hlater).later hlast

def Searching (_ : List (Deed T)) : Deed T → Prop
  | .exchanged _ _ => True
  | .looked s _ _ _ => s = .search
  | .stored s _ _ _ _ => s = .search

inductive Course (query : Text) (o : Client.SearchOptions) :
    List (Deed T) → Option (Outcome SearchResult) → Prop
  | refused {f : Fault} (hquery : sanitize query = .error f) : Course query o [] (some (.error f))
  | ready {sanitized : Text} (hquery : sanitize query = .ok sanitized) : Course query o [] none
  | found {sanitized : Text} {time : T} {kept : SearchResult} {out : Option (Outcome SearchResult)}
      (hquery : sanitize query = .ok sanitized) (hout : out = none ∨ out = some (.ok kept)) :
    Course query o [.looked .search time (Key.search sanitized o) (some kept)] out
  | missed {sanitized : Text} {time : T} {h : List (Deed T)} {out : Option (Outcome SearchResult)}
      (hquery : sanitize query = .ok sanitized)
      (huses : uses .search h = [.looked .search time (Key.search sanitized o) none])
      (hout : out = none ∨ ∃ f, out = some (.error f) ∧ Foreign h f) : Course query o h out
  | kept {sanitized : Text} {time later : T} {h : List (Deed T)} {result : SearchResult}
      (hquery : sanitize query = .ok sanitized)
      (huses : uses .search h = [.looked .search time (Key.search sanitized o) none,
        .stored .search later (Key.search sanitized o) (some result)
          (some (TimeScale.seconds searchLife))])
      (hasked : HasAsked h) : Course query o h (some (.ok result))

omit [TimeScale T] in
theorem uses_of_chore {d : Deed T} (hd : Chore c h d) :
    uses .search (h ++ [d]) = uses .search h := by
  have hother : d.isOf .search = false := by
    obtain ⟨-, hd⟩ := hd
    cases d with
    | exchanged r reply => rfl
    | looked s time key found => cases s <;> first | rfl | exact hd.elim
    | stored s time key data life => cases s <;> first | rfl | exact hd.elim
  have hnone : uses .search [d] = [] := List.filter_cons_of_neg (by simp [hother])
  rw [uses_append, hnone, List.append_nil]

omit [TimeScale T] in
theorem uses_of_grows {h' : List (Deed T)} (hgrows : Grows (Chore c) h h') :
    uses .search h' = uses .search h :=
  hgrows.keeps (I := fun x => uses .search x = uses .search h)
    (fun _ _ hx hd => (uses_of_chore hd).trans hx) rfl

omit [TimeScale T] in
theorem eq_of_grows {h' : List (Deed T)} (hnot : ¬ HasAsked h) (hgrows : Grows (Chore c) h h') :
    h' = h :=
  hgrows.keeps (I := fun x => x = h) (fun _ _ hx hd => (hnot (hx ▸ hd.1)).elim) rfl

theorem abides_search (c : Client) (query : Text) (o : Client.SearchOptions) :
    (search c query o).Abides Searching (Chore c) (Talk.ErrandAbides (Chore c)) []
      (Course (T := T) query o) := by
  have hnone : ¬ HasAsked ([] : List (Deed T)) := by
    rintro ⟨r, reply, hmem⟩
    cases hmem
  unfold search
  cases hquery : sanitize query with
  | error f =>
    intro h' hgrows
    rw [eq_of_grows hnone hgrows]
    exact .refused hquery
  | ok sanitized =>
    intro h₁ hgrows
    rw [eq_of_grows hnone hgrows]
    refine ⟨.ready hquery, fun time found => ⟨rfl, ?_⟩⟩
    cases found with
    | some kept =>
      have hlooked : ¬ HasAsked
          [Deed.looked .search time (Key.search sanitized o) (some kept)] := by
        rintro ⟨r, reply, hmem⟩
        cases List.mem_singleton.1 hmem
      intro h₂ hgrows
      rw [eq_of_grows hlooked hgrows]
      refine ⟨.found hquery (.inl rfl), fun h₃ hgrows => ?_⟩
      rw [eq_of_grows hlooked hgrows]
      exact .found hquery (.inr rfl)
    | none =>
      show Talk.Abides _ _ _ (searchAfresh c sanitized o >>= _) _ _
      -- nothing else uses the cache of results until there is one
      refine Talk.Abides.bind ((abides_searchAfresh sanitized o).mono (I := fun h =>
        uses .search h = [.looked .search time (Key.search sanitized o) none]) ?_ ?_ ?_ rfl)
      · rintro h d huses ⟨r, reply, rfl⟩
        refine ⟨trivial, ?_⟩
        rw [uses_append, huses]
        rfl
      · exact fun h d huses hd => (uses_of_chore hd).trans huses
      · rintro h (_ | f | result) huses hends
        · exact .missed hquery huses (.inl rfl)
        · exact .missed hquery huses (.inr ⟨f, rfl, hends⟩)
        · intro h₂ hgrows
          have hasked : HasAsked h₂ := HasAsked.later hends hgrows.prefix_of
          have huses₂ := (uses_of_grows hgrows).trans huses
          refine ⟨.missed hquery huses₂ (.inl rfl), fun later => ⟨rfl, fun h₃ hgrows₃ => ?_⟩⟩
          have huses₃ : uses .search h₃ = [.looked .search time (Key.search sanitized o) none,
              .stored .search later (Key.search sanitized o) (some result)
                (some (TimeScale.seconds searchLife))] := by
            rw [uses_of_grows hgrows₃, uses_append, huses₂]
            rfl
          have hasked₃ := (hasked.later (List.prefix_append ..)).later hgrows₃.prefix_of
          exact .kept hquery huses₃ hasked₃

variable {S : Type} [Service S]

theorem course_of_run {c : Client} {query : Text} {o : Client.SearchOptions}
    {others : World S T → World S T → Prop} {u : Undertaking SearchResult} {w w' : World S T}
    {deeds : List (Deed T)}
    (hrun : Undertaking.Run others (Undertaking.start (search c query o)) w deeds u w') :
    Grows (fun h d => Searching h d ∨ Chore c h d) [] deeds ∧
      Course query o deeds u.strand.outcome? :=
  Undertaking.holds_of_run (abides_search c query o) hrun

end Pipeline

end PullGauge
