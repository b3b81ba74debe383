import Mathlib
import PullGauge.Proofs.Service.Documents
import PullGauge.Proofs.Exchange.Addresses
import PullGauge.Proofs.Exchange.Batch
import PullGauge.Proofs.Exchange.Faults
import PullGauge.Session

/-!
# Answers to documents

A service that knows some pull requests is asked for others. Each part of the document is read
back as the place that it was written for, and is answered with what was added last for that
place; the client takes the answers apart by the tags.
-/

namespace PullGauge

/-- What was added last for a place; null if nothing was. -/
def registered (pulls : List (Place × Payload)) (p : Place) : Payload :=
  (pulls.reverse.lookup p).getD .null

theorem Fields.put_of_find?_eq_none {key : Text} {fields : Fields}
    (h : Fields.find? key fields = none) (value : Payload) :
    Fields.put key value fields = fields ++ [(key, value)] := by
  induction fields with
  | nil => rfl
  | cons field fields ih =>
    obtain ⟨k, v⟩ := field
    by_cases hk : k = key
    · simp [Fields.find?, hk] at h
    · rw [Fields.find?, if_neg hk] at h
      rw [Fields.put, if_neg hk, ih h, List.cons_append]

namespace Script

def register (s : Script) (pulls : List (Place × Payload)) : Script :=
  pulls.foldl (fun s pull => s.addPull pull.1.ref pull.2) s

def answerBatch (s : Script) (refs : List PullRef) (selection : Text) : Outcome Payload := do
  s.answerDocument (.object [("query".toList, .text (← PullRef.document refs selection))])

theorem Part.ref_ofPlace (index : Nat) {p : Place} (hp : p.IsReadable) :
    (Part.ofPlace index p).ref = .ok p.ref := by
  rw [Part.ref, Part.ofPlace, Payload.read?_asciiQuoted, Payload.read?_asciiQuoted,
    Place.integer?_number hp]
  rfl

theorem isSame_ref (p q : Place) : p.ref.isSame q.ref = decide (p = q) := by
  obtain ⟨owner, name, number⟩ := p
  obtain ⟨owner', name', number'⟩ := q
  simp [PullRef.isSame, Place.ref, Payload.sameKey, Payload.count?, Bool.and_assoc]

variable {s : Script} (pulls : List (Place × Payload)) {places : List Place} {selection : Text}

theorem pulls_register (s : Script) :
    (s.register pulls).pulls = (pulls.map fun pull => (pull.1.ref, pull.2)).reverse ++ s.pulls := by
  induction pulls generalizing s with
  | nil => rfl
  | cons pull pulls ih =>
    have hfirst : s.register (pull :: pulls) = (s.addPull pull.1.ref pull.2).register pulls := rfl
    rw [hfirst, ih]
    simp [addPull]

theorem pullAt_register (hs : s.pulls = []) (p : Place) :
    (s.register pulls).pullAt p.ref = .ok (registered pulls p) := by
  have hfind (l : List (Place × Payload)) :
      ((l.map fun pull => (pull.1.ref, pull.2)).find? fun x => x.1.isSame p.ref).map (·.2) =
        l.lookup p := by
    induction l with
    | nil => rfl
    | cons pull l ih =>
      obtain ⟨q, detail⟩ := pull
      rw [List.map_cons, List.find?_cons, isSame_ref, List.lookup_cons]
      by_cases hq : q = p
      · simp [hq]
      · have hne : (p == q) = false := by simpa using Ne.symm hq
        rw [decide_eq_false hq, hne]
        exact ih
  have hkey : (p.ref.owner.isKey && p.ref.name.isKey) = true := rfl
  rw [pullAt, if_pos hkey, pulls_register, hs, List.append_nil, ← List.map_reverse]
  rw [registered, ← hfind]

def answered (index : Nat) (places : List Place) : Fields :=
  (places.zipIdx index).map fun (p, k) => (PullRef.tag k, pullAnswer (registered pulls p))

theorem answered_cons (index : Nat) (p : Place) (places : List Place) :
    answered pulls index (p :: places) =
      (PullRef.tag index, pullAnswer (registered pulls p)) :: answered pulls (index + 1) places := rfl

theorem foldlM_partsOf (hs : s.pulls = []) (hread : ∀ p ∈ places, p.IsReadable) (index : Nat)
    {data : Fields} (hdata : ∀ k, index ≤ k → Fields.find? (PullRef.tag k) data = none) :
    ((partsOf index places).foldlM (fun data part => do
      let detail ← (s.register pulls).pullAt (← part.ref)
      pure (Fields.put part.tag (pullAnswer detail) data)) data : Outcome Fields) =
      .ok (data ++ answered pulls index places) := by
  induction places generalizing index data with
  | nil => simp [partsOf, answered]
  | cons p places ih =>
    obtain ⟨hp, hrest⟩ := List.forall_mem_cons.1 hread
    have hput := Fields.put_of_find?_eq_none (hdata index le_rfl) (pullAnswer (registered pulls p))
    have hlater : ∀ k, index + 1 ≤ k → Fields.find? (PullRef.tag k)
        (data ++ [(PullRef.tag index, pullAnswer (registered pulls p))]) = none := by
      intro k hk
      rw [← hput, Fields.find?_put, if_neg (PullRef.tag_ne_of_lt hk)]
      exact hdata k (by omega)
    rw [partsOf_cons, List.foldlM_cons, Part.ref_ofPlace index hp]
    dsimp only [bind, Except.bind, pure, Except.pure]
    rw [pullAt_register pulls hs]
    dsimp only
    have hall := ih hrest (index + 1) hlater
    rw [List.append_assoc, List.singleton_append, ← answered_cons] at hall
    rw [← hall, ← hput]
    rfl

theorem answerDocument_query (s : Script) (document : Text) :
    s.answerDocument (.object [("query".toList, .text document)]) =
      s.answerParts document >>= fun fields => .ok (.object fields) := rfl

theorem answerParts_register (hs : s.pulls = []) (hplaces : ∀ p ∈ places, 0 ≤ p.number)
    (hselection : '"' ∉ selection) (hread : ∀ p ∈ places, p.IsReadable) :
    (s.register pulls).answerParts (documentFor selection places) = .ok (answered pulls 0 places) := by
  rw [answerParts, findAll_documentFor hselection hplaces]
  exact foldlM_partsOf pulls hs hread 0 fun k _ => rfl

theorem answerBatch_register (hs : s.pulls = []) (hplaces : ∀ p ∈ places, 0 ≤ p.number)
    (hselection : '"' ∉ selection) :
    (s.register pulls).answerBatch (places.map Place.ref) selection =
      if ∀ p ∈ places, p.IsReadable then .ok (.object (answered pulls 0 places))
      else .error .unsendable := by
  rw [answerBatch, PullRef.document_of_names (PullRef.forall₂_names_ref places)]
  split_ifs with hread
  · dsimp only [bind, Except.bind]
    rw [answerDocument_query, answerParts_register pulls hs hplaces hselection hread]
    rfl
  · rfl

theorem keys_answered (index : Nat) (places : List Place) :
    (answered pulls index places).map Prod.fst =
      (List.range' index places.length).map PullRef.tag := by
  rw [answered, List.map_map, ← List.zipIdx_map_snd index places, List.map_map]
  rfl

theorem find?_answered {k : Nat} {p : Place} (h : places[k]? = some p) (index : Nat) :
    Fields.find? (PullRef.tag (index + k)) (answered pulls index places) =
      some (pullAnswer (registered pulls p)) := by
  induction places generalizing index k with
  | nil => simp at h
  | cons q places ih =>
    rw [answered_cons, Fields.find?]
    cases k with
    | zero =>
      obtain rfl : q = p := by simpa using h
      rw [Nat.add_zero, if_pos rfl]
    | succ k =>
      have hrest := ih (by simpa using h) (index + 1)
      rw [Nat.add_right_comm, Nat.add_assoc] at hrest
      rw [if_neg (PullRef.tag_ne_of_lt (by omega)), hrest]

theorem mapM_answerOf_answered (places : List Place) :
    (List.range places.length).mapM (answerOf (.object (answered pulls 0 places))) =
      .ok (places.map (registered pulls)) := by
  rw [Outcome.mapM_eq_ok_iff]
  refine List.forall₂_iff_get.2 ⟨by simp, ?_⟩
  intro k hk hdetail
  have hin : k < places.length := by simpa using hk
  have hfind := find?_answered pulls (List.getElem?_eq_getElem hin) 0
  have hsight : Fields.find? (PullRef.tag k) (answered pulls 0 places) = (Sight.shown
      [("pullRequest".toList, registered pulls places[k])]).answer? := by
    rw [Nat.zero_add] at hfind
    exact hfind
  have hanswer : answerOf (.object (answered pulls 0 places)) k = .ok (registered pulls places[k]) :=
    answerOf_eq_detail hsight
  simpa using hanswer

/-- Whether documents are left to the pull requests: no route and no stand-in takes them. -/
def LeavesDocuments (s : Script) : Prop :=
  s.standIns.lookup ("POST".toList, "/graphql".toList) = none ∧
    ∀ r ∈ s.routes, r.method = "POST".toList → r.path ≠ "/graphql".toList

theorem flaw?_answered (index : Nat) (places : List Place) :
    (Payload.object [("data".toList, .object (answered pulls index places))]).flaw? true
        Payload.Reading.depthLimit = none ↔
      ∀ p ∈ places, (registered pulls p).IsSendable 3 := by
  have hfields : Payload.fieldsFlaw? true (Payload.Reading.depthLimit - 2)
      (answered pulls index places) = none ↔ ∀ p ∈ places, (registered pulls p).IsSendable 3 := by
    induction places generalizing index with
    | nil => exact iff_of_true rfl nofun
    | cons p places ih =>
      have hone : (pullAnswer (registered pulls p)).flaw? true (Payload.Reading.depthLimit - 2) =
          (registered pulls p).flaw? true (Payload.Reading.depthLimit - 3) := by
        rw [pullAnswer, Payload.flaw?, if_neg (by decide), Payload.fieldsFlaw?,
          Payload.fieldsFlaw?, Option.or_none]
        rfl
      rw [answered_cons, Payload.fieldsFlaw?, Option.or_eq_none_iff, hone, ih, List.forall_mem_cons]
      rfl
  rw [← hfields, Payload.flaw?, if_neg (by decide), Payload.fieldsFlaw?, Payload.fieldsFlaw?,
    Option.or_none, Payload.flaw?, if_neg (by decide)]
  rfl

theorem routes_register (s : Script) :
    (s.register pulls).routes = s.routes := by
  induction pulls generalizing s with
  | nil => rfl
  | cons pull pulls ih => exact ih _

theorem standIns_register (s : Script) :
    (s.register pulls).standIns = s.standIns := by
  induction pulls generalizing s with
  | nil => rfl
  | cons pull pulls ih => exact ih _

theorem replyTo_document (hfree : s.LeavesDocuments) {c : Call} (hmethod : c.method = "POST".toList)
    (hpath : c.path = "/graphql".toList) :
    (s.register pulls).replyTo c = ((s.register pulls).answerDocument c.body >>= fun data =>
      Reply.make 200 [] (.object [("data".toList, data)])).mapError .ofFault := by
  have hroute : (s.register pulls).route? c = none := by
    refine route?_eq_none fun r hr => ?_
    rw [routes_register] at hr
    rw [hmethod, hpath]
    exact hfree.2 r hr
  have hget : c.method ≠ "GET".toList := by
    rw [hmethod]
    decide
  rw [replyTo, standIns_register, hmethod, hpath, hfree.1]
  dsimp only
  rw [scripted, hroute]
  dsimp only
  rw [if_neg hget]
  dsimp only
  rw [if_pos ⟨hmethod, hpath⟩]

end Script

theorem Reply.make_object (fields : Fields) : Reply.make 200 [] (.object fields) =
    match (Payload.object fields).flaw? true Payload.Reading.depthLimit with
    | none => .ok ⟨200, [], .json (.object fields)⟩
    | some fault => .error fault := by
  have hplain : (⟨200, [], .json (.object fields)⟩ : Reply).codings.isEmpty = true := rfl
  unfold Reply.make Payload.check
  dsimp only [sendableHeaders, bind, Except.bind]
  rw [hplain]
  cases (Payload.object fields).flaw? true Payload.Reading.depthLimit <;> rfl

namespace Client

theorem exists_address {token : Text} {limit : Nat} {c : Client}
    (h : make { token := token } limit = .ok c) :
    ∃ url, addressOf (c.base.resolve "/graphql") = .ok url ∧ url.isTyped = true ∧
      Host.isTellable url.host = true ∧ url.decodedPath = "/graphql".toList := by
  have hplain : Url.IsPlain "/graphql".toList :=
    ⟨⟨"graphql".toList, rfl, by decide⟩, Text.forall_mem_of_all (by decide), by decide⟩
  rw [make_eq rfl] at h
  split_ifs at h
  obtain rfl := Except.ok.inj h
  have hresolve := Url.resolve_path hplain (by decide)
  exact ⟨Url.homeAt "/graphql" none, congrArg addressOf hresolve, Url.isTyped_homeAt,
    Url.isTellable_home, Url.decodedPath_homeAt hplain⟩

theorem settle_data {J : Type} (reply : Reply) (data : Fields) :
    (settle reply (.object [("data".toList, .object data)]) : Talk J Payload) =
      .done (.object data) := by
  cases data with
  | nil => rfl
  | cons d data => rfl

theorem exists_asks {token : Text} {limit : Nat} {c : Client}
    (hc : make { token := token } limit = .ok c) (document : Text) :
    ∃ r, c.Asks document r ∧ r.method = "POST".toList ∧
      r.url.decodedPath = "/graphql".toList ∧ r.url.isTyped = true ∧
      r.body = some (.object [("query".toList, .text document)]) := by
  have hupper : Text.upper "POST".toList = "POST".toList := by decide +kernel
  obtain ⟨url, hurl, htyped, htellable, hpath⟩ := exists_address hc
  have hbody : ∀ p ∈ some (Payload.object [("query".toList, .text document)]),
      p.check true = .ok () := by
    rintro p ⟨⟩
    exact check_query document
  exact ⟨⟨Text.upper "POST", url, c.headers url, some (.object [("query".toList, .text document)])⟩,
    requestFor_eq_ok_iff.2 ⟨addressFor_eq hurl, hbody, htellable, rfl⟩, hupper, hpath, htyped, rfl⟩

theorem pullRequests_eq {J : Type} {c : Client} {refs : List PullRef} (hne : refs ≠ [])
    {selection document : Text} (hdocument : PullRef.document refs selection = .ok document)
    {r : Request} (hr : c.Asks document r) :
    (c.pullRequests refs selection : Talk J (List Payload)) =
      (exchange r).bind fun reply => ((Talk.ofOutcome (decode r reply)).bind (settle reply)).bind
        fun data => Talk.ofOutcome ((List.range refs.length).mapM (answerOf data)) := by
  have hquery : (c.query (.text document) .null : Talk J Payload) =
      (exchange r).bind fun reply => (Talk.ofOutcome (decode r reply)).bind (settle reply) := by
    rw [query_text, hr]
    rfl
  unfold pullRequests
  rw [if_neg (by simpa using hne), hdocument]
  show Talk.bind _ (c.query (.text document) .null) = _
  rw [hquery]
  exact Talk.bind_bind _ _ _

theorem pullRequests_eq_failed {J : Type} (c : Client) {refs : List PullRef} (hne : refs ≠ [])
    {selection : Text} {e : Fault} (hdocument : PullRef.document refs selection = .error e) :
    (c.pullRequests refs selection : Talk J (List Payload)) = .failed e := by
  unfold pullRequests
  rw [if_neg (by simpa using hne), hdocument]
  rfl

theorem settle_answered {J : Type} (r : Request) (pulls : List (Place × Payload))
    (places : List Place) {reply : Reply}
    (hbody : reply.body = .json (.object [("data".toList, .object (Script.answered pulls 0 places))])) :
    (((Talk.ofOutcome (decode r reply)).bind (settle reply)).bind fun data =>
      Talk.ofOutcome ((List.range places.length).mapM (answerOf data)) : Talk J (List Payload)) =
      .done (places.map (registered pulls)) := by
  have hdecode : decode r reply = .ok (.object [("data".toList,
      .object (Script.answered pulls 0 places))]) := by
    rw [decode, hbody]
  have hdata := Script.mapM_answerOf_answered pulls places
  rw [hdecode]
  dsimp only [Talk.ofOutcome, Talk.bind]
  rw [settle_data]
  dsimp only [Talk.bind]
  rw [hdata]

section Run

variable {token : Text} {limit : Nat} {c : Client} {s : Script} (pulls : List (Place × Payload))
  {places : List Place} {selection : Text}

theorem taken_document (hs : s.pulls = []) (hfree : s.LeavesDocuments)
    (hplaces : ∀ p ∈ places, 0 ≤ p.number) (hselection : '"' ∉ selection)
    (hread : ∀ p ∈ places, p.IsReadable) {r : Request}
    (hmethod : r.method = "POST".toList) (hpath : r.url.decodedPath = "/graphql".toList)
    (htyped : r.url.isTyped = true)
    (hbody : r.body = some (.object [("query".toList, .text (documentFor selection places))]))
    (now : Moment) :
    ((∀ p ∈ places, (registered pulls p).IsSendable 3) →
      taken now r (Service.answer (s.register pulls) r).1 = .ok ⟨200, [],
        .json (.object [("data".toList, .object (Script.answered pulls 0 places))])⟩) ∧
    (¬ (∀ p ∈ places, (registered pulls p).IsSendable 3) →
      ∃ e, taken now r (Service.answer (s.register pulls) r).1 = .error e) := by
  have hreply : (Service.answer (s.register pulls) r).1 =
      (s.register pulls).replyTo (Call.ofRequest r) := rfl
  have hdocument : (Call.ofRequest r).body =
      .object [("query".toList, .text (documentFor selection places))] := by
    rw [Call.ofRequest, hbody]
    rfl
  rw [hreply, Script.replyTo_document pulls hfree hmethod hpath, hdocument,
    Script.answerDocument_query, Script.answerParts_register pulls hs hplaces hselection hread,
    ← Script.flaw?_answered pulls 0]
  dsimp only [bind, Except.bind]
  rw [Reply.make_object]
  cases (Payload.object [("data".toList, .object (Script.answered pulls 0 places))]).flaw? true
      Payload.Reading.depthLimit with
  | none =>
    have hreceive (body : Reply.Body) : receive r ⟨200, [], body⟩ = .ok ⟨200, [], body⟩ := by
      rw [receive, htyped]
      rfl
    exact ⟨fun _ => taken_of_receive_ok (hreceive _), fun h => absurd rfl h⟩
  | some fault =>
    refine ⟨nofun, fun _ => ?_⟩
    show ∃ e, taken now r (.error (.ofFault fault)) = .error e
    cases Outage.ofFault fault with
    | refused message => exact ⟨_, rfl⟩
    | crashed fault => exact ⟨_, rfl⟩

variable {T : Type} [TimeScale T]

theorem run_pullRequests (hc : make { token := token } limit = .ok c) (hs : s.pulls = [])
    (hfree : s.LeavesDocuments) (hplaces : ∀ p ∈ places, 0 ≤ p.number)
    (hselection : '"' ∉ selection) {w : World Script T} (hw : w.service = s.register pulls)
    {details : List Payload} :
    (World.run (c.pullRequests (places.map Place.ref) selection) w).1 = .ok details ↔
      (∀ p ∈ places, p.IsReadable ∧ (registered pulls p).IsSendable 3) ∧
        details = places.map (registered pulls) := by
  by_cases hempty : places = []
  · subst hempty
    simp [pullRequests, World.run, pure, World.runWith, eq_comm]
  have hne : places.map Place.ref ≠ [] := by simpa using hempty
  have hdocument := PullRef.document_of_names (PullRef.forall₂_names_ref places) selection
  have hboth : (∀ p ∈ places, p.IsReadable ∧ (registered pulls p).IsSendable 3) ↔
      (∀ p ∈ places, p.IsReadable) ∧ ∀ p ∈ places, (registered pulls p).IsSendable 3 := by
    simp only [imp_and, forall_and]
  rw [hboth]
  by_cases hread : ∀ p ∈ places, p.IsReadable
  · rw [if_pos hread] at hdocument
    obtain ⟨r, hr, hmethod, hpath, htyped, hbody⟩ := exists_asks hc (documentFor selection places)
    obtain ⟨hsent, hrefused⟩ := taken_document pulls hs hfree hplaces hselection hread hmethod hpath
      htyped hbody w.now
    rw [World.run, pullRequests_eq hne hdocument hr, World.runWith_bind, runWith_exchange, hw,
      List.length_map]
    by_cases hsend : ∀ p ∈ places, (registered pulls p).IsSendable 3
    · rw [hsent hsend]
      dsimp only
      rw [settle_answered r pulls places rfl]
      exact ⟨fun h => ⟨⟨hread, hsend⟩, (Except.ok.inj h).symm⟩, fun h => congrArg _ h.2.symm⟩
    · obtain ⟨e, he⟩ := hrefused hsend
      rw [he]
      exact iff_of_false (by simp) fun h => hsend h.1.2
  · rw [if_neg hread] at hdocument
    rw [World.run, pullRequests_eq_failed c hne hdocument]
    exact iff_of_false (by simp [World.runWith]) fun h => hread h.1.1

end Run

end Client

namespace Script

/-- A document for some places is answered under exactly one tag for each place, with what was
added last for the owner, the name and the number of that place, or null. Owners and names may
hold anything, selections anything but quotes. The client gets one answer for each place, in
order. All that can stand in the way is a number with too many digits to be written, or, for the
reply, a detail that cannot be sent in it. -/
theorem batch_answered {s : Script} (hs : s.pulls = []) (pulls : List (Place × Payload))
    {places : List Place} (hplaces : ∀ p ∈ places, 0 ≤ p.number) {selection : Text}
    (hselection : '"' ∉ selection) :
    ((∃ data, (s.register pulls).answerBatch (places.map Place.ref) selection = .ok data) ↔
      ∀ p ∈ places, p.IsReadable) ∧
    (∀ data, (s.register pulls).answerBatch (places.map Place.ref) selection = .ok data →
      ∃ fields, data = .object fields ∧
        fields.map Prod.fst =
          (List.range places.length).map (fun index => "pr".toList ++ Text.ofNat index) ∧
        ∀ index p, places[index]? = some p →
          Fields.find? ("pr".toList ++ Text.ofNat index) fields =
            some (.object [("pullRequest".toList, registered pulls p)])) ∧
    ∀ (T : Type) [TimeScale T] (w : World Script T) (token : Text) (limit : Nat) (c : Client),
      s.LeavesDocuments → w.service = s.register pulls →
      Client.make { token := token } limit = .ok c →
      ((∃ details, (World.run (c.pullRequests (places.map Place.ref) selection) w).1 = .ok details) ↔
        ∀ p ∈ places, p.IsReadable ∧ (registered pulls p).IsSendable 3) ∧
      ∀ details, (World.run (c.pullRequests (places.map Place.ref) selection) w).1 = .ok details →
        details = places.map (registered pulls) := by
  have hbatch := answerBatch_register pulls hs hplaces hselection
  refine ⟨?_, ?_, ?_⟩
  · rw [hbatch]
    split_ifs with hread
    · exact ⟨fun _ => hread, fun _ => ⟨_, rfl⟩⟩
    · exact ⟨fun ⟨_, h⟩ => (nomatch h), fun h => absurd h hread⟩
  · intro data hdata
    rw [hbatch] at hdata
    split_ifs at hdata
    obtain rfl := Except.ok.inj hdata
    refine ⟨_, rfl, ?_, ?_⟩
    · rw [keys_answered, List.range_eq_range']
      rfl
    · intro index p hp
      have hfind := find?_answered pulls hp 0
      rwa [Nat.zero_add] at hfind
  · intro T _ w token limit c hfree hw hc
    have hrun (details : List Payload) :
        (World.run (c.pullRequests (places.map Place.ref) selection) w).1 = .ok details ↔ _ :=
      Client.run_pullRequests pulls hc hs hfree hplaces hselection hw
    exact ⟨⟨fun ⟨_, h⟩ => ((hrun _).1 h).1, fun h => ⟨_, (hrun _).2 ⟨h, rfl⟩⟩⟩,
      fun _ h => ((hrun _).1 h).2⟩

/-- A name that ends its quotes early and goes on like the part after it. -/
def forger : Place :=
  ⟨"a\"b\\\n😀".toList,
    "\") \x7b pullRequest(number: 1) \x7b id \x7d \x7d pr1: repository(owner: \"x".toList, 7⟩

def addedPulls : List (Place × Payload) :=
  [(forger, .text "old"), (⟨"octocat".toList, "hello".toList, 8⟩, .text "other"),
    (forger, .text "new")]

theorem batch_answered_forger :
    ∃ (w : World Script (Number Float)) (c : Client), w.service = ({} : Script).register addedPulls ∧
      Client.make { token := "t" } 10 = .ok c ∧
      (∃ fields, (({} : Script).register addedPulls).answerBatch
          ([forger, ⟨"octocat".toList, "hello".toList, 9⟩].map Place.ref) "id pr7: repository(owner: " =
            .ok (.object fields) ∧
        fields.map Prod.fst = ["pr0".toList, "pr1".toList] ∧
        Fields.find? "pr0" fields = some (.object [("pullRequest".toList, .text "new")]) ∧
        Fields.find? "pr1" fields = some (.object [("pullRequest".toList, .null)])) ∧
      (World.run (c.pullRequests ([forger, ⟨"octocat".toList, "hello".toList, 9⟩].map Place.ref)
        "id pr7: repository(owner: ") w).1 = .ok [.text "new", .null] := by
  let w : World Script (Number Float) := .fresh (({} : Script).register addedPulls) 1
  let places : List Place := [forger, ⟨"octocat".toList, "hello".toList, 9⟩]
  obtain ⟨c, hc⟩ : ∃ c, Client.make { token := "t" } 10 = .ok c :=
    Outcome.exists_ok (by decide +kernel)
  have hplaces : ∀ p ∈ places, 0 ≤ p.number := by decide
  have hselection : '"' ∉ "id pr7: repository(owner: ".toList := by decide
  have hreadable : ∀ p ∈ places, p.IsReadable := by decide
  have hregistered : places.map (registered addedPulls) = [.text "new", .null] := by rfl
  obtain ⟨hanswered, hfields, hrun⟩ := batch_answered (s := {}) rfl addedPulls hplaces hselection
  obtain ⟨data, hdata⟩ := hanswered.2 hreadable
  obtain ⟨fields, rfl, hkeys, hfind⟩ := hfields data hdata
  obtain ⟨hgot, hdetails⟩ := hrun _ w "t" 10 c ⟨rfl, nofun⟩ rfl hc
  obtain ⟨details, hdone⟩ := hgot.2 (by decide)
  refine ⟨w, c, rfl, hc, ⟨fields, hdata, hkeys, hfind 0 _ rfl, hfind 1 _ rfl⟩, ?_⟩
  rw [hdone, hdetails details hdone, hregistered]

/-- There is no document with a number of too many digits, and no reply with a detail that holds
a number which is not finite. -/
theorem batch_unanswered :
    (({} : Script).register addedPulls).answerBatch
        ([(⟨"octocat".toList, "hello".toList, (10 ^ 4300 : Nat)⟩ : Place)].map Place.ref) "title" =
      .error .unsendable ∧
    ∃ (w : World Script (Number Float)) (c : Client),
      w.service = ({} : Script).register [(forger, .object [("additions", .real Binary64.infinity)])] ∧
        Client.make { token := "t" } 10 = .ok c ∧
        ∀ details, (World.run (c.pullRequests ([forger].map Place.ref) "additions") w).1 ≠
          .ok details := by
  constructor
  · rw [answerBatch_register addedPulls rfl
      (List.forall_mem_singleton.2 (Int.natCast_nonneg _)) (by decide),
      if_neg fun h => Place.not_isReadable_pow _ _ (h _ (List.mem_singleton_self _))]
  · obtain ⟨c, hc⟩ : ∃ c, Client.make { token := "t" } 10 = .ok c :=
      Outcome.exists_ok (by decide +kernel)
    let pulls : List (Place × Payload) := [(forger, .object [("additions", .real Binary64.infinity)])]
    refine ⟨.fresh (({} : Script).register pulls) 1, c, rfl, hc, ?_⟩
    intro details hrun
    have hsent := ((Client.run_pullRequests pulls hc (s := {}) rfl ⟨rfl, nofun⟩ (by decide)
      (by decide) rfl).1 hrun).1 forger (List.mem_singleton_self _)
    exact absurd hsent.2 (by decide)

end Script

end PullGauge
