import Mathlib
import PullGauge.Proofs.Exchange.Chunks
import PullGauge.Proofs.Exchange.Directories
import PullGauge.Proofs.Exchange.Terms

/-!
# Batches against single lookups

A service that answers every tag of a document from a directory alone is asked in batches, in
which the tags start anew each time. What comes of it is what the directory says stub by stub,
whatever the size of the batches.
-/

namespace PullGauge

namespace Client

variable {J : Type} {terms : Terms} {job : J → (Outcome Payload → Prop) → Prop}

theorem anyLimitError_of_arePartial {all : List Fields}
    (h : ∀ e ∈ all, ((Fields.find? "type" e).getD .null).isText "RATE_LIMITED" = false) :
    anyLimitError (all.map .object) = .ok false := by
  induction all with
  | nil => rfl
  | cons e all ih =>
    have he : isLimitError (.object e) = .ok false := by
      rw [← h e (by simp)]
      rfl
    rw [List.map_cons, anyLimitError, he]
    exact ih fun d hd => h d (by simp [hd])

theorem meets_settle {answer : Reply} {fields data : Fields} {errors : Payload}
    (hdata : (Payload.object fields).field "data" = .ok (.object data))
    (hfound : (Payload.object fields).field "errors" = .ok errors)
    (hpartial : errors.isPresent = true → data ≠ [] ∧ ArePartial errors)
    {Q : List Request → Outcome Payload → Prop} (hQ : Q [] (.ok (.object data))) :
    (settle answer (.object fields) : Talk J Payload).Meets terms job Q := by
  have hne : fields ≠ [] := by
    rintro rfl
    cases hdata
  have hresult : (Payload.object fields).orElse (.object []) = .object fields := by
    simp [Payload.orElse, Payload.isPresent, hne]
  unfold settle
  rw [hresult]
  dsimp only
  rw [hfound, hdata]
  refine Talk.meets_ok_bind ?_
  refine Talk.meets_ok_bind ?_
  by_cases hp : errors.isPresent = true
  · -- errors beside data: no limit is exhausted, so they are noted and the data counts
    obtain ⟨hdne, all, rfl, hall⟩ := hpartial hp
    have hor : (Payload.list (all.map .object)).orElse (.list []) = .list (all.map .object) := by
      simp only [Payload.orElse, hp, if_true]
    have hpresent : (Payload.object data).isPresent = true := by
      simp [Payload.isPresent, hdne]
    rw [hor, if_pos hp]
    refine Talk.meets_ok_bind ?_
    rw [anyLimitError_of_arePartial hall]
    refine Talk.meets_ok_bind ?_
    rw [if_neg (by simp), hpresent]
    cases all with
    | nil => simp [Payload.isPresent] at hp
    | cons e all =>
      refine Talk.meets_ok_bind ?_
      refine Talk.meets_ok_bind ?_
      exact hQ
  · have hor : errors.orElse (.list []) = .list [] := by
      simp only [Payload.orElse, hp]
      rfl
    have hsame : (Payload.object data).orElse (.object []) = .object data := by
      cases data with
      | nil => rfl
      | cons d data => rfl
    rw [hor, if_neg (by simp [Payload.isPresent]), hsame]
    exact hQ

theorem query_text (c : Client) (document : Text) :
    (c.query (.text document) .null : Talk J Payload) = (do
      let r ← (c.requestFor "POST" "/graphql" none
        (some (.object [("query".toList, .text document)])) : Outcome _)
      let reply ← exchange r
      settle reply (← decode r reply)) := rfl

theorem meets_query {c : Client} {selection : Text} {directory : Directory}
    (h : AnswersFrom c terms.replies selection directory) {places : List Place}
    (hplaces : ∀ p ∈ places, p.IsReadable) {r : Request}
    (hr : c.Asks (documentFor selection places) r) :
    (c.query (.text (documentFor selection places)) .null : Talk J Payload).Meets terms job
      fun sent o =>
        sent = [r] ∧ ∃ data, o = .ok (.object data) ∧ directory.Answers places data := by
  rw [query_text, hr]
  refine Talk.meets_ok_bind ?_
  intro reply hreply
  obtain ⟨data, ⟨answer, fields, errors, rfl, hreceive, hstatus, hjson, hdata, hfound, hpartial⟩,
    hanswers⟩ := h places r reply hplaces hr hreply
  have hdecode : decode r answer = .ok (.object fields) := by rw [decode, hjson]
  dsimp only
  rw [hreceive]
  dsimp only
  rw [if_pos hstatus]
  show ((do settle answer (← decode r answer) : Talk J Payload)).Meets terms job _
  rw [hdecode]
  refine Talk.meets_ok_bind ?_
  refine meets_settle hdata hfound hpartial ?_
  exact ⟨rfl, data, rfl, hanswers⟩

end Client

theorem answerOf_eq_detail {data : Fields} {index : Nat} {sight : Sight}
    (h : Fields.find? (PullRef.tag index) data = sight.answer?) :
    answerOf (.object data) index = .ok sight.detail := by
  have hfield : (Payload.object data).field (PullRef.tag index) = .ok (sight.answer?.getD .null) := by
    rw [← h]
    rfl
  unfold answerOf Payload.part
  rw [hfield]
  cases sight with
  | missing => rfl
  | absent => rfl
  | shown fields =>
    cases fields with
    | nil => rfl
    | cons field fields => rfl

theorem PullRef.ofStub_eq_ok {stub : Payload} {owner name : Text} {ref : PullRef}
    (h : ofStub stub = .ok (owner, name, ref)) :
    (∃ url, repositoryOf url = .ok (owner, name)) ∧ ref.owner = .text owner ∧
      ref.name = .text name ∧ stub.member "number" = .ok ref.number := by
  obtain ⟨url, -, h⟩ := Outcome.exists_of_bind h
  obtain ⟨t, -, h⟩ := Outcome.exists_of_bind h
  obtain ⟨⟨owner, name⟩, hplace, h⟩ := Outcome.exists_of_bind h
  obtain ⟨number, hnumber, h⟩ := Outcome.exists_of_bind h
  cases h
  exact ⟨⟨t, hplace⟩, rfl, rfl, hnumber⟩

namespace Resolved

variable {J : Type} {terms : Terms} {job : J → (Outcome Payload → Prop) → Prop}

def withDetail (stub : Payload) (owner name : Text) : Payload → Option Resolved
  | .null => none
  | detail => some ⟨stub, detail, owner, name⟩

structure IsFoundAt (stub : Payload) (p : Place) : Prop where
  repository : ∃ url, stub.member "repository_url" = .ok (.text url) ∧
    repositoryOf url = .ok (p.owner, p.name)
  number : ∃ number, stub.member "number" = .ok number ∧ number.toInteger = .ok p.number

/-- A stub at a place with the detail that the directory shows there, unless it shows none. -/
def at? (directory : Directory) (stub : Payload) (p : Place) : Option Resolved :=
  withDetail stub p.owner p.name (directory p.owner p.name p.number).detail

def alone (directory : Directory) (stub : Payload) : Outcome (Option Resolved) := do
  let (owner, name, ref) ← PullRef.ofStub stub
  let number ← ref.number.toInteger
  pure (withDetail stub owner name (directory owner name number).detail)

theorem isFoundAt_iff {stub : Payload} {p : Place} : IsFoundAt stub p ↔
    ∃ ref, PullRef.ofStub stub = .ok (p.owner, p.name, ref) ∧ ref.Names p := by
  constructor
  · rintro ⟨⟨url, hurl, hplace⟩, number, hnumber, hvalue⟩
    refine ⟨⟨.text p.owner, .text p.name, number⟩, ?_, rfl, rfl, hvalue⟩
    simp only [PullRef.ofStub, hurl, hplace, hnumber, Payload.asText, Outcome.ok_bind,
      Outcome.pure_eq_ok]
  · rintro ⟨ref, hstub, -, -, hvalue⟩
    obtain ⟨q, hurl, hstub⟩ := Outcome.exists_of_bind hstub
    obtain ⟨url, htext, hstub⟩ := Outcome.exists_of_bind hstub
    obtain ⟨⟨owner, name⟩, hplace, hstub⟩ := Outcome.exists_of_bind hstub
    obtain ⟨number, hnumber, hstub⟩ := Outcome.exists_of_bind hstub
    cases hstub
    cases q <;> cases htext
    exact ⟨⟨url, hurl, hplace⟩, number, hnumber, hvalue⟩

theorem IsFoundAt.eq {stub : Payload} {p q : Place} (hp : IsFoundAt stub p)
    (hq : IsFoundAt stub q) : p = q := by
  obtain ⟨⟨url, hurl, hplace⟩, number, hnumber, hvalue⟩ := hp
  obtain ⟨⟨url', hurl', hplace'⟩, number', hnumber', hvalue'⟩ := hq
  rw [hurl] at hurl'
  obtain ⟨⟩ := hurl'
  rw [hnumber] at hnumber'
  obtain ⟨⟩ := hnumber'
  rw [hplace] at hplace'
  rw [hvalue] at hvalue'
  obtain ⟨owner, name, n⟩ := p
  obtain ⟨owner', name', n'⟩ := q
  cases hplace'
  cases hvalue'
  rfl

theorem alone_eq_ok_iff {directory : Directory} {stub : Payload} {x : Option Resolved} :
    alone directory stub = .ok x ↔ ∃ p, IsFoundAt stub p ∧ at? directory stub p = x := by
  constructor
  · intro h
    obtain ⟨⟨owner, name, ref⟩, hstub, h⟩ := Outcome.exists_of_bind h
    obtain ⟨number, hnumber, h⟩ := Outcome.exists_of_bind h
    obtain ⟨-, howner, hname, -⟩ := PullRef.ofStub_eq_ok hstub
    exact ⟨⟨owner, name, number⟩, isFoundAt_iff.2 ⟨ref, hstub, howner, hname, hnumber⟩,
      Except.ok.inj h⟩
  · rintro ⟨p, hp, rfl⟩
    obtain ⟨ref, hstub, hnames⟩ := isFoundAt_iff.1 hp
    simp only [alone, hstub, hnames.number, Outcome.ok_bind, Outcome.pure_eq_ok, at?]

theorem mapM_alone_eq_ok_iff {directory : Directory} {stubs : List Payload}
    {results : List (Option Resolved)} :
    stubs.mapM (alone directory) = .ok results ↔ ∃ places, List.Forall₂ IsFoundAt stubs places ∧
      List.zipWith (at? directory) stubs places = results := by
  rw [Outcome.mapM_eq_ok_iff]
  constructor
  · intro h
    induction h with
    | nil => exact ⟨[], .nil, rfl⟩
    | cons hstub hrest ih =>
      obtain ⟨p, hp, rfl⟩ := alone_eq_ok_iff.1 hstub
      obtain ⟨places, hplaces, rfl⟩ := ih
      exact ⟨p :: places, .cons hp hplaces, rfl⟩
  · rintro ⟨places, hplaces, rfl⟩
    induction hplaces with
    | nil => exact .nil
    | cons hp hrest ih => exact .cons (alone_eq_ok_iff.2 ⟨_, hp, rfl⟩) ih

theorem meets_pair {items : List (Payload × Text × Text × PullRef)} {details : List Payload}
    {Q : List Request → Outcome (List Resolved) → Prop}
    (hQ : Q [] (.ok (List.zipWith (fun item detail =>
      withDetail item.1 item.2.1 item.2.2.1 detail) items details).reduceOption)) :
    (pair items details : Talk J (List Resolved)).Meets terms job Q := by
  induction items generalizing details Q with
  | nil => exact hQ
  | cons item items ih =>
    obtain ⟨stub, owner, name, ref⟩ := item
    have hgo {r : Resolved} {details : List Payload}
        (hQ : Q [] (.ok (r :: (List.zipWith (fun (item : Payload × Text × Text × PullRef) detail =>
          withDetail item.1 item.2.1 item.2.2.1 detail) items details).reduceOption))) :
        (do pure (r :: (← pair items details)) : Talk J (List Resolved)).Meets terms job Q :=
      Talk.Meets.bind (ih hQ)
    cases details with
    | nil => exact hQ
    | cons detail details =>
      cases detail with
      | null => exact ih hQ
      | bool b => exact hgo hQ
      | int i => exact hgo hQ
      | real x => exact hgo hQ
      | text t => exact hgo hQ
      | list l => exact hgo hQ
      | object fields => exact hgo hQ

theorem mapM_answerOf {directory : Directory} {places : List Place} {data : Fields}
    (h : directory.Answers places data) :
    (List.range places.length).mapM (answerOf (.object data)) =
      .ok (places.map fun p => (directory p.owner p.name p.number).detail) := by
  rw [Outcome.mapM_eq_ok_iff]
  refine List.forall₂_iff_get.2 ⟨by simp, ?_⟩
  intro index hindex hdetail
  have hin : index < places.length := by simpa using hindex
  have hsight := h index places[index] (List.getElem?_eq_getElem hin)
  simpa using answerOf_eq_detail hsight

theorem meets_pullRequests {c : Client} {selection : Text} {directory : Directory}
    (h : Client.AnswersFrom c terms.replies selection directory) {refs : List PullRef}
    (hne : refs ≠ [])
    (htexts : ∀ ref ∈ refs, ∃ owner name, ref.owner = .text owner ∧ ref.name = .text name) :
    (c.pullRequests refs selection : Talk J _).Meets terms job fun sent o =>
      match o with
      | .ok details => ∃ places, List.Forall₂ PullRef.Names refs places ∧
          (∀ p ∈ places, p.IsReadable) ∧
          details = places.map (fun p => (directory p.owner p.name p.number).detail) ∧
          ∃ r, sent = [r] ∧ c.Asks (documentFor selection places) r
      | .error e => c.CanAsk → ∀ places, List.Forall₂ PullRef.Names refs places →
          e = .unsendable ∧ ¬ ∀ p ∈ places, p.IsReadable := by
  unfold Client.pullRequests
  rw [if_neg (by simpa using hne)]
  refine Talk.meets_lift_bind ?_ ?_
  · intro e he _ places hnames
    rw [PullRef.document_of_names hnames] at he
    split_ifs at he with hplaces
    exact ⟨(Except.error.inj he).symm, hplaces⟩
  · intro text htext
    obtain ⟨places, hnames⟩ := PullRef.exists_names_of_document htext htexts
    rw [PullRef.document_of_names hnames] at htext
    split_ifs at htext with hplaces
    obtain rfl := Except.ok.inj htext
    cases hr : c.requestFor "POST" "/graphql" none
        (some (.object [("query".toList, .text (documentFor selection places))])) with
    | error e =>
      -- nothing was sent, which cannot happen to a client that can ask
      have hquery : (c.query (.text (documentFor selection places)) .null : Talk J Payload) =
          .failed e := by
        rw [Client.query_text, hr]
        rfl
      rw [hquery]
      intro hcan
      obtain ⟨r, hasks⟩ := hcan.exists_asks (documentFor selection places)
      rw [Client.Asks, hr] at hasks
      cases hasks
    | ok r =>
      refine Talk.Meets.bind ((Client.meets_query h hplaces hr).mono ?_)
      rintro sent _ ⟨rfl, data, rfl, hanswers⟩
      dsimp only
      rw [hnames.length_eq, mapM_answerOf hanswers]
      exact ⟨places, hnames, hplaces, rfl, r, rfl, hr⟩

/-- Batches come to what the directory shows at the places of their stubs, with one request for
each batch. They fail only if a stub tells no place, or a number has too many digits, or if no
document can be asked for. -/
def Settles (directory : Directory) (c : Client) (selection : Text) (batches : List (List Payload))
    (sent : List Request) : Outcome (List Resolved) → Prop
  | .ok resolved => ∃ places : List (List Place),
      List.Forall₂ (List.Forall₂ IsFoundAt) batches places ∧
        resolved = (List.zipWith (at? directory) batches.flatten places.flatten).reduceOption ∧
        (∀ p ∈ places.flatten, p.IsReadable) ∧
        List.Forall₂ (fun batch r => c.Asks (documentFor selection batch) r) places sent
  | .error e => c.CanAsk → ∀ places, List.Forall₂ IsFoundAt batches.flatten places →
      e = .unsendable ∧ ¬ ∀ p ∈ places, p.IsReadable

theorem exists_mapM_ofStub {batch : List Payload} {places : List Place}
    (hplaces : List.Forall₂ IsFoundAt batch places) :
    ∃ found, batch.mapM PullRef.ofStub = .ok found := by
  refine Outcome.exists_mapM fun stub hstub => ?_
  obtain ⟨p, -, hp⟩ := exists_of_mem_of_forall₂ hplaces hstub
  obtain ⟨ref, href, -⟩ := isFoundAt_iff.1 hp
  exact ⟨_, href⟩

theorem texts_of_mapM_ofStub {batch : List Payload} {found : List (Text × Text × PullRef)}
    (hfound : batch.mapM PullRef.ofStub = .ok found) :
    ∀ ref ∈ found.map fun place => place.2.2,
      ∃ owner name, ref.owner = .text owner ∧ ref.name = .text name := by
  intro ref href
  obtain ⟨⟨owner, name, ref⟩, hplace, rfl⟩ := List.mem_map.1 href
  obtain ⟨stub, -, hstub⟩ := Outcome.exists_of_mem_mapM hfound hplace
  obtain ⟨-, howner, hname, -⟩ := PullRef.ofStub_eq_ok hstub
  exact ⟨owner, name, howner, hname⟩

theorem names_iff {stub : Payload} {place : Text × Text × PullRef}
    (h : PullRef.ofStub stub = .ok place) {p : Place} : place.2.2.Names p ↔ IsFoundAt stub p := by
  obtain ⟨owner, name, ref⟩ := place
  rw [isFoundAt_iff, h]
  obtain ⟨-, howner, hname, -⟩ := PullRef.ofStub_eq_ok h
  constructor
  · intro hnames
    obtain rfl := Payload.text.inj (howner.symm.trans hnames.owner)
    obtain rfl := Payload.text.inj (hname.symm.trans hnames.name)
    exact ⟨ref, rfl, hnames⟩
  · rintro ⟨ref, ⟨⟩, hnames⟩
    exact hnames

theorem forall₂_names_iff {batch : List Payload} {found : List (Text × Text × PullRef)}
    (hfound : batch.mapM PullRef.ofStub = .ok found) {places : List Place} :
    List.Forall₂ PullRef.Names (found.map fun place => place.2.2) places ↔
      List.Forall₂ IsFoundAt batch places := by
  rw [List.forall₂_map_left_iff]
  have hrows := Outcome.mapM_eq_ok_iff.1 hfound
  constructor
  · intro h
    refine forall₂_of_common ?_ hrows.flip h
    exact fun place stub p hplace hp => (names_iff hplace).1 hp
  · intro h
    refine forall₂_of_common ?_ hrows h
    exact fun stub place p hplace hp => (names_iff hplace).2 hp

theorem zipWith_found {directory : Directory} {batch : List Payload}
    {found : List (Text × Text × PullRef)} (hfound : batch.mapM PullRef.ofStub = .ok found)
    {places : List Place} (hplaces : List.Forall₂ IsFoundAt batch places) :
    List.zipWith (fun (item : Payload × Text × Text × PullRef) detail =>
      withDetail item.1 item.2.1 item.2.2.1 detail) (batch.zip found)
        (places.map fun p => (directory p.owner p.name p.number).detail) =
      List.zipWith (at? directory) batch places := by
  rw [Outcome.mapM_eq_ok_iff] at hfound
  induction hfound generalizing places with
  | nil => rfl
  | @cons stub place batch found hplace hrest ih =>
    rw [List.forall₂_cons_left_iff] at hplaces
    obtain ⟨p, more, hp, hmore, rfl⟩ := hplaces
    obtain ⟨ref, hstub, -⟩ := isFoundAt_iff.1 hp
    obtain rfl := Except.ok.inj (hplace.symm.trans hstub)
    rw [List.zip_cons_cons, List.map_cons, List.zipWith_cons_cons, List.zipWith_cons_cons, ih hmore]
    rfl

theorem meets_ofBatch {c : Client} {selection : Text} {directory : Directory}
    (h : Client.AnswersFrom c terms.replies selection directory) (index : Nat)
    {batch : List Payload} (hne : batch ≠ []) :
    (ofBatch c selection index batch : Talk J (List Resolved)).Meets terms job
      (Settles directory c selection [batch]) := by
  unfold ofBatch
  refine Talk.meets_lift_bind ?_ ?_
  · intro e he _ places hplaces
    rw [List.flatten_singleton] at hplaces
    obtain ⟨found, hfound⟩ := exists_mapM_ofStub hplaces
    rw [he] at hfound
    cases hfound
  · intro found hfound
    have htexts := texts_of_mapM_ofStub hfound
    have hfne : found.map (fun place => place.2.2) ≠ [] := by
      rw [ne_eq, List.map_eq_nil_iff]
      rintro rfl
      exact hne (List.forall₂_nil_right_iff.1 (Outcome.mapM_eq_ok_iff.1 hfound))
    refine Talk.meets_say_bind ?_
    refine Talk.Meets.bind ((meets_pullRequests h hfne htexts).mono ?_)
    intro sent o ho
    cases o with
    | error e =>
      intro hcan places hplaces
      rw [List.flatten_singleton] at hplaces
      exact ho hcan places ((forall₂_names_iff hfound).2 hplaces)
    | ok details =>
      obtain ⟨places, hnames, hreadable, rfl, r, rfl, hr⟩ := ho
      have hplaces := (forall₂_names_iff hfound).1 hnames
      refine meets_pair ?_
      refine ⟨[places], .cons hplaces .nil, ?_, ?_, .cons hr .nil⟩
      · rw [zipWith_found hfound hplaces, List.flatten_singleton, List.flatten_singleton]
      · rwa [List.flatten_singleton]

section Settles

variable {directory : Directory} {c : Client} {selection : Text} {first rest : List (List Payload)}
  {sent more : List Request}

theorem Settles.append {resolved others : List Resolved}
    (hfirst : Settles directory c selection first sent (.ok resolved))
    (hrest : Settles directory c selection rest more (.ok others)) :
    Settles directory c selection (first ++ rest) (sent ++ more) (.ok (resolved ++ others)) := by
  obtain ⟨places, hplaces, rfl, hreadable, hasks⟩ := hfirst
  obtain ⟨places', hplaces', rfl, hreadable', hasks'⟩ := hrest
  have hlength : first.flatten.length = places.flatten.length := (List.rel_flatten hplaces).length_eq
  refine ⟨places ++ places', List.rel_append hplaces hplaces', ?_, ?_,
    List.rel_append hasks hasks'⟩
  · rw [List.flatten_append, List.flatten_append, List.zipWith_append hlength,
      List.reduceOption_append]
  · rw [List.flatten_append]
    exact List.forall_mem_append.2 ⟨hreadable, hreadable'⟩

theorem Settles.append_left {e : Fault}
    (h : Settles directory c selection first sent (.error e)) :
    Settles directory c selection (first ++ rest) sent (.error e) := by
  intro hcan places hplaces
  rw [List.flatten_append] at hplaces
  obtain ⟨x, y, hx, -, rfl⟩ := exists_append_of_forall₂ hplaces
  obtain ⟨rfl, hnot⟩ := h hcan x hx
  exact ⟨rfl, fun hall => hnot (List.forall_mem_append.1 hall).1⟩

theorem Settles.append_right {e : Fault} (first : List (List Payload))
    (h : Settles directory c selection rest more (.error e)) :
    Settles directory c selection (first ++ rest) sent (.error e) := by
  intro hcan places hplaces
  rw [List.flatten_append] at hplaces
  obtain ⟨x, y, -, hy, rfl⟩ := exists_append_of_forall₂ hplaces
  obtain ⟨rfl, hnot⟩ := h hcan y hy
  exact ⟨rfl, fun hall => hnot (List.forall_mem_append.1 hall).2⟩

theorem Settles.of_found {o : Outcome (List Resolved)} (hcan : c.CanAsk)
    (h : Settles directory c selection first sent o) {places : List Place}
    (hstubs : List.Forall₂ IsFoundAt first.flatten places) :
    (o = if ∀ p ∈ places, p.IsReadable then
        .ok (List.zipWith (at? directory) first.flatten places).reduceOption
      else .error .unsendable) ∧
    ((∀ p ∈ places, p.IsReadable) → ∃ asked, asked.flatten = places ∧
      List.Forall₂ (List.Forall₂ IsFoundAt) first asked ∧
        List.Forall₂ (fun batch r => c.Asks (documentFor selection batch) r) asked sent) := by
  cases o with
  | error e =>
    obtain ⟨rfl, hnot⟩ := h hcan places hstubs
    exact ⟨(if_neg hnot).symm, fun hall => absurd hall hnot⟩
  | ok resolved =>
    obtain ⟨asked, hasked, rfl, hreadable, hasks⟩ := h
    obtain rfl : asked.flatten = places := by
      have hsame : List.Forall₂ Eq asked.flatten places := by
        refine forall₂_of_common ?_ (List.rel_flatten hasked) hstubs
        exact fun stub p q hp hq => hp.eq hq
      rwa [List.forall₂_eq_eq_eq] at hsame
    exact ⟨(if_pos hreadable).symm, fun _ => ⟨asked, rfl, hasked, hasks⟩⟩

end Settles

theorem meets_ofBatches {c : Client} {selection : Text} {directory : Directory}
    (h : Client.AnswersFrom c terms.replies selection directory) (index : Nat)
    {batches : List (List Payload)} (hne : ∀ batch ∈ batches, batch ≠ []) :
    (ofBatches c selection index batches : Talk J (List Resolved)).Meets terms job
      (Settles directory c selection batches) := by
  induction batches generalizing index with
  | nil => exact ⟨[], .nil, rfl, nofun, .nil⟩
  | cons batch batches ih =>
    unfold ofBatches
    refine Talk.Meets.bind ((meets_ofBatch h index (hne batch (by simp))).mono ?_)
    intro sent o hfirst
    cases o with
    | error e => exact hfirst.append_left
    | ok resolved =>
      refine Talk.Meets.bind ((ih (index + 1) fun b hb => hne b (by simp [hb])).mono ?_)
      intro more o hrest
      cases o with
      | error e => exact hrest.append_right [batch]
      | ok others =>
        have hboth := hfirst.append hrest
        rwa [← List.append_nil more] at hboth

theorem meets_ofStubs {c : Client} {selection : Text} {directory : Directory}
    (h : Client.AnswersFrom c terms.replies selection directory) {size : Int} (hsize : 1 ≤ size)
    (stubs : List Payload) :
    (ofStubs c selection size stubs : Talk J (List Resolved)).Meets terms job fun sent o =>
      ∃ batches : List (List Payload), batches.flatten = stubs ∧
        (∀ batch ∈ batches, 1 ≤ batch.length ∧ batch.length ≤ size) ∧
        batches.length = stubs.length ⌈/⌉ size.toNat ∧
        Settles directory c selection batches sent o := by
  have hpos : 0 < size.toNat := by omega
  have hchunk {batch : List Payload} (hb : batch ∈ chunksOf size.toNat hpos stubs) :
      batch ≠ [] ∧ batch.length ≤ size.toNat := mem_chunksOf hb
  unfold ofStubs chunks
  rw [dif_pos hpos]
  refine Talk.meets_ok_bind ?_
  refine (meets_ofBatches h 0 fun batch hb => (hchunk hb).1).mono ?_
  intro sent o ho
  refine ⟨_, flatten_chunksOf size.toNat hpos stubs, ?_, length_chunksOf _ hpos stubs, ho⟩
  intro batch hb
  obtain ⟨hne, hle⟩ := hchunk hb
  have hlength : 0 < batch.length := List.length_pos_iff.2 hne
  omega

section Run

variable {S T : Type} [Service S] [TimeScale T] {c : Client} {selection : Text}
  {directory : Directory} {P : S → Prop}

theorem settles_run (hkind : ∀ s r, P s → P (Service.answer s r).2)
    (hanswers : c.AnswersFrom (fun r reply => ∃ s, P s ∧ (Service.answer s r).1 = reply) selection
      directory)
    (stubs : List Payload) {size : Int} (hsize : 1 ≤ size) {w : World (Recorder S) T}
    (hw : P w.service.service) : ∃ sent batches,
      (World.run (ofStubs c selection size stubs) w).2.service.sent = w.service.sent ++ sent ∧
        batches.flatten = stubs ∧
        (∀ batch ∈ batches, 1 ≤ batch.length ∧ batch.length ≤ size) ∧
        batches.length = stubs.length ⌈/⌉ size.toNat ∧
        Settles directory c selection batches sent
          (World.run (ofStubs c selection size stubs) w).1 := by
  let terms : Terms :=
    ⟨fun r reply => ∃ s, P s ∧ (Service.answer s r).1 = reply, fun _ _ _ => True⟩
  have hcoherent : w.Coherent terms := fun _ _ _ _ _ => trivial
  have hreply (s : S) (r : Request) (hs : P s) :
      terms.replies r (Service.answer s r).1 ∧ P (Service.answer s r).2 :=
    ⟨⟨s, hs, rfl⟩, hkind s r hs⟩
  have hmeets : (ofStubs c selection size stubs : Plan _).Meets terms (Talk.ErrandMeets terms) _ :=
    meets_ofStubs hanswers hsize stubs
  obtain ⟨-, -, sent, hsent, batches, hsettled⟩ := World.ends_run hreply hmeets hcoherent hw
  exact ⟨sent, batches, hsent, hsettled⟩

/-- Stubs that tell their places are resolved as the directory of the service says for each of
them alone, in order, whatever the size of the batches is, unless a number has too many digits
to be written. There are as many requests as batches of that size, and each asks for the places
of its batch, tag by tag. The service may change by being asked, as long as it goes on answering
from its directory. -/
theorem run_ofStubs (hcan : c.CanAsk) (hkind : ∀ s r, P s → P (Service.answer s r).2)
    (hanswers : c.AnswersFrom (fun r reply => ∃ s, P s ∧ (Service.answer s r).1 = reply) selection
      directory)
    {stubs : List Payload} {places : List Place} (hstubs : List.Forall₂ IsFoundAt stubs places)
    {size : Int} (hsize : 1 ≤ size) {w : World (Recorder S) T} (hw : P w.service.service) :
    (World.run (ofStubs c selection size stubs) w).1 =
      (if ∀ p ∈ places, p.IsReadable then
        .ok (List.zipWith (at? directory) stubs places).reduceOption
      else .error .unsendable) ∧
    ((∀ p ∈ places, p.IsReadable) → ∃ sent batches,
      (World.run (ofStubs c selection size stubs) w).2.service.sent = w.service.sent ++ sent ∧
        sent.length = stubs.length ⌈/⌉ size.toNat ∧ batches.flatten = places ∧
        (∀ batch ∈ batches, 1 ≤ batch.length ∧ batch.length ≤ size) ∧
        List.Forall₂ (fun batch r => c.Asks (documentFor selection batch) r) batches sent) := by
  obtain ⟨sent, batches, hsent, rfl, hsizes, hlength, hsettles⟩ :=
    settles_run hkind hanswers stubs hsize hw
  obtain ⟨hresult, hasked⟩ := hsettles.of_found hcan hstubs
  refine ⟨hresult, fun hreadable => ?_⟩
  obtain ⟨asked, hplaces, hrows, hasks⟩ := hasked hreadable
  refine ⟨sent, asked, hsent, ?_, hplaces, ?_, hasks⟩
  · rw [← hlength, hrows.length_eq, hasks.length_eq]
  · intro batch hbatch
    obtain ⟨part, hpart, hrow⟩ := exists_of_mem_of_forall₂ hrows.flip hbatch
    rw [← hrow.length_eq]
    exact hsizes part hpart

end Run

def stubAt (url : String) (number : Nat) : Payload :=
  .object [("repository_url".toList, .text url.toList), ("number".toList, .int number)]

/-- Two pull requests with details of their own, one without, and one that is not there. -/
def titles : Directory := fun owner name number =>
  if owner = "octocat".toList ∧ name = "hello".toList ∧ number = 7 then
    .shown [("pullRequest".toList, .object [("title".toList, .text "first")])]
  else if owner = "a".toList ∧ name = "b".toList ∧ number = 0 then
    .shown [("pullRequest".toList, .object [("title".toList, .text "second")])]
  else if number = 8 then .shown [("pullRequest".toList, .null)]
  else .missing

def fiveStubs : List Payload :=
  [stubAt "https://api.github.com/repos/octocat/hello" 7,
    stubAt "https://api.github.com/repos/octocat/hello" 8, stubAt "/repos/a/b//" 0,
    stubAt "/repos/a/b//" 9, stubAt "https://api.github.com/repos/octocat/hello" 7]

def fivePlaces : List Place :=
  [⟨"octocat".toList, "hello".toList, 7⟩, ⟨"octocat".toList, "hello".toList, 8⟩,
    ⟨"a".toList, "b".toList, 0⟩, ⟨"a".toList, "b".toList, 9⟩,
    ⟨"octocat".toList, "hello".toList, 7⟩]

theorem isFoundAt_stubAt {url : String} {owner name : Text} (number : Nat)
    (h : repositoryOf url.toList = .ok (owner, name)) :
    IsFoundAt (stubAt url number) ⟨owner, name, number⟩ :=
  ⟨⟨url.toList, rfl, h⟩, .int number, rfl, rfl⟩

theorem run_ofStubs_five :
    ∃ w : World (Recorder FixedService) (Number Float), ∃ sent,
      (World.run (ofStubs probe "title" 2 fiveStubs) w).1 =
        .ok [⟨stubAt "https://api.github.com/repos/octocat/hello" 7,
            .object [("title".toList, .text "first")], "octocat", "hello"⟩,
          ⟨stubAt "/repos/a/b//" 0, .object [("title".toList, .text "second")], "a", "b"⟩,
          ⟨stubAt "https://api.github.com/repos/octocat/hello" 7,
            .object [("title".toList, .text "first")], "octocat", "hello"⟩] ∧
      (World.run (ofStubs probe "title" 2 fiveStubs) w).2.service.sent = sent ∧ sent.length = 3 := by
  let w : World (Recorder FixedService) (Number Float) := .fresh ⟨titles.service "title", []⟩ 1
  have hstubs : List.Forall₂ IsFoundAt fiveStubs fivePlaces :=
    .cons (isFoundAt_stubAt 7 (by rfl)) (.cons (isFoundAt_stubAt 8 (by rfl))
      (.cons (isFoundAt_stubAt 0 (by rfl)) (.cons (isFoundAt_stubAt 9 (by rfl))
        (.cons (isFoundAt_stubAt 7 (by rfl)) .nil))))
  have hkind (s : FixedService) (r : Request) (hs : s = titles.service "title") :
      (Service.answer s r).2 = titles.service "title" := hs
  have hreadable : ∀ p ∈ fivePlaces, p.IsReadable := by decide
  obtain ⟨hrun, hasked⟩ := run_ofStubs canAsk_probe hkind (answersFrom_service titles "title")
    hstubs (by decide : (1 : Int) ≤ 2) (w := w) rfl
  obtain ⟨sent, -, hsent, hlength, -⟩ := hasked hreadable
  refine ⟨w, sent, ?_, hsent, hlength⟩
  rw [hrun, if_pos hreadable]
  rfl

def unresolved : FixedService where
  reply _ := .ok ⟨200, [], .json (.object [("data".toList, .object []),
    ("errors".toList, .list [.object [("message".toList, .text "Could not resolve")]])])⟩

/-- Nothing comes of a number with too many digits, or where errors come without data. -/
theorem ofStubs_refused :
    (∃ w : World (Recorder FixedService) (Number Float),
      w.service.service = titles.service "title" ∧
        (World.run (ofStubs probe "title" 20 [stubAt "/repos/a/b" (10 ^ 4300)]) w).1 =
          .error .unsendable) ∧
    ∃ (w : World (Recorder FixedService) (Number Float)) (e : Fault),
      w.service.service = unresolved ∧
        (World.run (ofStubs probe "title" 20 [stubAt "/repos/a/b" 7]) w).1 = .error e := by
  constructor
  · let w : World (Recorder FixedService) (Number Float) := .fresh ⟨titles.service "title", []⟩ 1
    have hkind (s : FixedService) (r : Request) (hs : s = titles.service "title") :
        (Service.answer s r).2 = titles.service "title" := hs
    obtain ⟨sent, batches, -, hflatten, -, -, hsettles⟩ :=
      settles_run hkind (answersFrom_service titles "title")
        [stubAt "/repos/a/b" (10 ^ 4300)] (by decide : (1 : Int) ≤ 20) (w := w) rfl
    have hstubs : List.Forall₂ IsFoundAt batches.flatten
        [⟨"a".toList, "b".toList, (10 ^ 4300 : Nat)⟩] := by
      rw [hflatten]
      exact .cons (isFoundAt_stubAt _ (by rfl)) .nil
    refine ⟨w, rfl, ?_⟩
    rw [(hsettles.of_found canAsk_probe hstubs).1,
      if_neg fun h => Place.not_isReadable_pow _ _ (h _ (List.mem_singleton_self _))]
  · let w : World (Recorder FixedService) (Number Float) := .fresh ⟨unresolved, []⟩ 1
    obtain ⟨e, he⟩ := Outcome.exists_error (x :=
      (World.run (ofStubs probe "title" 20 [stubAt "/repos/a/b" 7]) w).1) (by decide +kernel)
    exact ⟨w, e, rfl, he⟩

end Resolved

end PullGauge
