import Mathlib
import PullGauge.World
import PullGauge.Proofs.Exchange.Documents
import PullGauge.Proofs.Number.Integers
import PullGauge.Proofs.Payload.Quoted

/-!
# Directories

A directory says what a service shows under an owner, a name and a number. A service answers
documents from a directory if each tag holds what the directory says about the place that is
asked for there. Whoever reads documents part by part can do so, from any directory.
-/

namespace PullGauge

/-- What a service shows under a reference: nothing at all, that there is no such repository,
or the fields of the repository. -/
inductive Sight where
  | missing
  | absent
  | shown (fields : Fields)

namespace Sight

def answer? : Sight → Option Payload
  | .missing => none
  | .absent => some .null
  | .shown fields => some (.object fields)

def detail : Sight → Payload
  | .shown fields => (Fields.find? "pullRequest" fields).getD .null
  | _ => .null

end Sight

abbrev Directory := Text → Text → Int → Sight

/-- The fields hold under the tag of each place what the directory shows there. -/
def Directory.Answers (directory : Directory) (places : List Place) (data : Fields) : Prop :=
  ∀ index p, places[index]? = some p →
    Fields.find? ("pr".toList ++ Text.ofNat index) data =
      (directory p.owner p.name p.number).answer?

/-- Errors that may come beside data: a list of objects, none of which says that the rate
limit is exhausted. -/
def ArePartial (errors : Payload) : Prop :=
  ∃ all : List Fields, errors = .list (all.map .object) ∧
    ∀ e ∈ all, ((Fields.find? "type" e).getD .null).isText "RATE_LIMITED" = false

/-- A reply that answers a document with data, perhaps with errors beside data that is not
empty. -/
def Delivers (r : Request) (reply : Except Outage Reply) (data : Fields) : Prop :=
  ∃ (answer : Reply) (fields : Fields) (errors : Payload), reply = .ok answer ∧
    Client.receive r answer = .ok answer ∧ answer.status < 400 ∧
    answer.body = .json (.object fields) ∧
    (Payload.object fields).field "data" = .ok (.object data) ∧
    (Payload.object fields).field "errors" = .ok errors ∧
    (errors.isPresent = true → data ≠ [] ∧ ArePartial errors)

namespace Client

def Asks (c : Client) (document : Text) (r : Request) : Prop :=
  c.requestFor "POST" "/graphql" none (some (.object [("query".toList, .text document)])) = .ok r

def CanAsk (c : Client) : Prop := ∃ r, c.requestFor "POST" "/graphql" none none = .ok r

theorem requestFor_eq_ok_iff {c : Client} {method path : Text} {params : Option Fields}
    {body : Option Payload} {r : Request} :
    c.requestFor method path params body = .ok r ↔
      c.addressFor path params = .ok r.url ∧ (∀ p ∈ body, p.check true = .ok ()) ∧
        Host.isTellable r.url.host = true ∧
        r = ⟨Text.upper method, r.url, c.headers r.url, body⟩ := by
  have hbody : body.elim (pure ()) (Payload.check true) = .ok () ↔
      ∀ p ∈ body, p.check true = .ok () := by
    cases body with
    | none => exact iff_of_true rfl nofun
    | some p => simp
  unfold requestFor
  constructor
  · intro h
    obtain ⟨url, hurl, h⟩ := Outcome.exists_of_bind h
    obtain ⟨_, hsent, h⟩ := Outcome.exists_of_bind h
    by_cases htold : Host.isTellable url.host = true
    · rw [if_pos htold] at h
      obtain rfl := Except.ok.inj h
      exact ⟨hurl, hbody.1 hsent, htold, rfl⟩
    · rw [if_neg htold] at h
      cases h
  · rintro ⟨hurl, hsent, htold, hr⟩
    rw [hurl, Outcome.ok_bind, hbody.2 hsent, Outcome.ok_bind, if_pos htold, ← hr]
    rfl

theorem addressFor_eq {c : Client} {path : Text} {url : Url}
    (h : addressOf (c.base.resolve path) = .ok url) : c.addressFor path none = .ok url := by
  rw [addressFor, h]
  rfl

theorem check_query (document : Text) :
    (Payload.object [("query".toList, .text document)]).check true = .ok () := rfl

theorem CanAsk.exists_asks {c : Client} (h : c.CanAsk) (document : Text) :
    ∃ r, c.Asks document r := by
  obtain ⟨r, hr⟩ := h
  obtain ⟨hurl, -, htold, -⟩ := requestFor_eq_ok_iff.1 hr
  refine ⟨⟨Text.upper "POST", r.url, c.headers r.url,
    some (.object [("query".toList, .text document)])⟩, requestFor_eq_ok_iff.2 ?_⟩
  refine ⟨hurl, ?_, htold, rfl⟩
  rintro p ⟨⟩
  exact check_query document

def AnswersFrom (c : Client) (replies : Request → Except Outage Reply → Prop) (selection : Text)
    (directory : Directory) : Prop :=
  ∀ places r reply, (∀ p ∈ places, p.IsReadable) → c.Asks (documentFor selection places) r →
    replies r reply → ∃ data, Delivers r reply data ∧ directory.Answers places data

end Client

namespace Place

def quoted? : Text → Option (Text × Text)
  | '"' :: r => Payload.Reading.quotedRest (r.length + 1) r
  | _ => none

theorem quoted?_asciiQuoted (t r : Text) : quoted? (Text.asciiQuoted t ++ r) = some (t, r) := by
  have hlength := Text.length_le_flatMap_asciiEscape t
  have hrest : Payload.Reading.quotedRest ((t.flatMap Text.asciiEscape ++ '"' :: r).length + 1)
      (t.flatMap Text.asciiEscape ++ '"' :: r) = some (t, r) := by
    refine Payload.Reading.quotedRest_flatMap ?_ r
    rw [List.length_append]
    omega
  simpa [Text.asciiQuoted, quoted?] using hrest

def read? (selection : Text) (index : Nat) (t : Text) : Option (Place × Text) := do
  let r ← Text.dropPiece? ("pr".toList ++ Text.ofNat index ++ ": repository(owner: ".toList) t
  let (owner, r) ← quoted? r
  let (name, r) ← quoted? (← Text.dropPiece? ", name: " r)
  let r ← Text.dropPiece? ") \x7b pullRequest(number: " r
  let number ← Reading.integer? (r.takeWhile (· != ')'))
  let r ← Text.dropPiece? (") \x7b ".toList ++ selection ++ " \x7d \x7d".toList)
    (r.dropWhile (· != ')'))
  some (⟨owner, name, number⟩, r)

theorem integer?_number {p : Place} (hp : p.IsReadable) :
    Reading.integer? (Text.ofInt p.number) = some p.number := by
  rw [Reading.integer?_ofInt, if_pos (of_decide_eq_true hp)]

theorem read?_ask (selection : Text) (index : Nat) {p : Place} (hp : p.IsReadable) (r : Text) :
    read? selection index (p.ask selection index ++ r) = some (p, r) := by
  have hdrop (piece r : Text) : Text.dropPiece? piece (piece ++ r) = some r :=
    Text.dropPiece?_eq_some_iff.2 rfl
  have hinside : ∀ c ∈ Text.ofInt p.number, (c != ')') = true := by
    intro c hc
    have hall : ∀ c ∈ Text.integerChars, (c != ')') = true := Text.forall_mem_of_all (by decide)
    exact hall c (Text.mem_integerChars hc)
  have htake (r : Text) : (Text.ofInt p.number ++ (") \x7b ".toList ++ r)).takeWhile (· != ')') =
      Text.ofInt p.number := by
    rw [List.takeWhile_append_of_pos hinside]
    exact List.append_nil _
  have hleave (r : Text) : (Text.ofInt p.number ++ (") \x7b ".toList ++ r)).dropWhile (· != ')') =
      ") \x7b ".toList ++ r := by
    rw [List.dropWhile_append_of_pos hinside]
    rfl
  have hclose (r : Text) : Text.dropPiece? (") \x7b ".toList ++ (selection ++ " \x7d \x7d".toList))
      (") \x7b ".toList ++ (selection ++ (" \x7d \x7d".toList ++ r))) = some r := by
    rw [← List.append_assoc selection, ← List.append_assoc _ (selection ++ _)]
    exact hdrop _ r
  have hstart (r : Text) : Text.dropPiece? ("pr".toList ++ (Text.ofNat index ++
      ": repository(owner: ".toList)) ("pr".toList ++ (Text.ofNat index ++
        (": repository(owner: ".toList ++ r))) = some r := by
    rw [← List.append_assoc (Text.ofNat index), ← List.append_assoc _ (Text.ofNat index ++ _)]
    exact hdrop _ r
  unfold ask read?
  simp only [List.append_assoc, hstart, hdrop, quoted?_asciiQuoted, htake, hleave,
    hclose, integer?_number hp, Option.bind_eq_bind, Option.bind_some]

def placesIn (selection : Text) : Nat → Nat → Text → List Place
  | 0, _, _ => []
  | fuel + 1, index, t =>
    match read? selection index t with
    | some (p, r) => p :: placesIn selection fuel (index + 1) (r.drop 1)
    | none => []

theorem placesIn_intercalate (selection : Text) {places : List Place}
    (hplaces : ∀ p ∈ places, p.IsReadable) (index : Nat) {fuel : Nat} (hfuel : places.length < fuel) :
    placesIn selection fuel index (List.intercalate [' '] (asks selection index places) ++
      " \x7d".toList) = places := by
  induction places generalizing index fuel with
  | nil =>
    obtain ⟨fuel, rfl⟩ : ∃ n, fuel = n + 1 := ⟨fuel - 1, by simp at hfuel; omega⟩
    rfl
  | cons p places ih =>
    obtain ⟨fuel, rfl⟩ : ∃ n, fuel = n + 1 := ⟨fuel - 1, by simp at hfuel; omega⟩
    obtain ⟨hp, hrest⟩ := List.forall_mem_cons.1 hplaces
    have hcount : places.length < fuel := by simpa using hfuel
    have hlater := ih hrest (index + 1) hcount
    rw [asks_cons]
    cases places with
    | nil =>
      have hlast : asks selection (index + 1) [] = [] := rfl
      rw [hlast, List.intercalate_singleton, placesIn, read?_ask selection index hp]
      obtain ⟨fuel, rfl⟩ : ∃ n, fuel = n + 1 := ⟨fuel - 1, by simp at hfuel; omega⟩
      rfl
    | cons q places =>
      rw [asks_cons] at hlater ⊢
      rw [List.intercalate_cons_cons, List.append_assoc, List.append_assoc, placesIn,
        read?_ask selection index hp]
      exact congrArg _ hlater

theorem length_le_intercalate {parts : List Text} (h : ∀ p ∈ parts, p ≠ []) :
    parts.length ≤ (List.intercalate [' '] parts).length := by
  induction parts with
  | nil => simp
  | cons p parts ih =>
    have hp : 0 < p.length := List.length_pos_iff.2 (h p (by simp))
    cases parts with
    | nil =>
      rw [List.intercalate_singleton]
      exact hp
    | cons q parts =>
      have hrest := ih fun r hr => h r (by simp [hr])
      rw [List.intercalate_cons_cons, List.length_append, List.length_append, List.length_cons]
      omega

theorem ask_ne_nil (selection : Text) (index : Nat) (p : Place) : p.ask selection index ≠ [] := by
  unfold ask
  simp only [List.append_assoc]
  exact List.cons_ne_nil _ _

theorem length_le_documentFor (selection : Text) (places : List Place) :
    places.length < (documentFor selection places).length := by
  have hparts : ∀ part ∈ asks selection 0 places, part ≠ [] := by
    intro part hpart
    obtain ⟨⟨p, k⟩, -, rfl⟩ := List.mem_map.1 hpart
    exact ask_ne_nil selection k p
  have hle := length_le_intercalate hparts
  have hcount : (asks selection 0 places).length = places.length := by simp [asks]
  unfold documentFor
  rw [List.length_append, List.length_append]
  have hstart : 0 < "query \x7b ".toList.length := by decide
  omega

def askedIn (selection document : Text) : List Place :=
  placesIn selection document.length 0 (document.drop "query \x7b ".toList.length)

theorem askedIn_documentFor (selection : Text) {places : List Place}
    (hplaces : ∀ p ∈ places, p.IsReadable) :
    askedIn selection (documentFor selection places) = places := by
  have hlength := length_le_documentFor selection places
  generalize hsize : (documentFor selection places).length = size at hlength
  unfold askedIn
  rw [hsize]
  unfold documentFor
  rw [List.append_assoc, List.drop_left]
  exact placesIn_intercalate selection hplaces 0 hlength

end Place

namespace Directory

def dataFor (directory : Directory) (index : Nat) : List Place → Fields
  | [] => []
  | p :: places =>
    ((directory p.owner p.name p.number).answer?.map fun a => (PullRef.tag index, a)).toList ++
      directory.dataFor (index + 1) places

theorem find?_dataFor_of_lt (directory : Directory) {j index : Nat} (h : j < index)
    (places : List Place) : Fields.find? (PullRef.tag j) (directory.dataFor index places) = none := by
  induction places generalizing index with
  | nil => rfl
  | cons p places ih =>
    have hrest := ih (h.trans (Nat.lt_succ_self index))
    unfold dataFor
    cases (directory p.owner p.name p.number).answer? with
    | none => exact hrest
    | some a =>
      show Fields.find? _ ((PullRef.tag index, a) :: _) = none
      rw [Fields.find?, if_neg (PullRef.tag_ne_of_lt h).symm]
      exact hrest

theorem find?_dataFor (directory : Directory) {places : List Place} {k : Nat} {p : Place}
    (h : places[k]? = some p) (index : Nat) :
    Fields.find? (PullRef.tag (index + k)) (directory.dataFor index places) =
      (directory p.owner p.name p.number).answer? := by
  induction places generalizing index k with
  | nil => simp at h
  | cons q places ih =>
    unfold dataFor
    cases k with
    | zero =>
      obtain rfl : q = p := by simpa using h
      have hlater := directory.find?_dataFor_of_lt (Nat.lt_succ_self index) places
      cases (directory q.owner q.name q.number).answer? with
      | none => exact hlater
      | some a => exact if_pos rfl
    | succ k =>
      have hrest := ih (by simpa using h) (index + 1)
      rw [Nat.add_right_comm, Nat.add_assoc] at hrest
      cases (directory q.owner q.name q.number).answer? with
      | none => exact hrest
      | some a =>
        show Fields.find? _ ((PullRef.tag index, a) :: directory.dataFor (index + 1) places) = _
        rw [Fields.find?, if_neg (PullRef.tag_ne_of_lt (by omega)), hrest]

theorem answers_dataFor (directory : Directory) (places : List Place) :
    directory.Answers places (directory.dataFor 0 places) := by
  intro k p hp
  have hfind := directory.find?_dataFor hp 0
  rwa [Nat.zero_add] at hfind

/-- A service that reads documents that ask for a selection, and answers them from a directory. -/
def service (directory : Directory) (selection : Text) : FixedService where
  reply r :=
    match r.body with
    | some (.object ((_, .text document) :: _)) =>
      .ok ⟨200, [], .json (.object [("data".toList,
        .object (directory.dataFor 0 (Place.askedIn selection document)))])⟩
    | _ => .ok ⟨404, [], .empty⟩

end Directory

def probe : Client :=
  ⟨{ token := "t" }, { scheme := "https", host := "api.github.com", path := "/" }, 10⟩

theorem canAsk_probe : probe.CanAsk := Outcome.exists_ok (by decide +kernel)

theorem answersFrom_service (directory : Directory) (selection : Text) :
    probe.AnswersFrom
      (fun r reply => ∃ s, s = directory.service selection ∧ (Service.answer s r).1 = reply)
      selection directory := by
  rintro places r reply hplaces hasks ⟨_, rfl, rfl⟩
  obtain ⟨hurl, -, -, hr⟩ := Client.requestFor_eq_ok_iff.1 hasks
  have htyped : ∀ u, probe.addressFor "/graphql" none = .ok u → u.isTyped = true := by
    have hall : (probe.addressFor "/graphql" none).toOption.all Url.isTyped = true := by
      decide +kernel
    intro u hu
    rw [hu] at hall
    exact hall
  have hbody : r.body = some (.object [("query".toList, .text (documentFor selection places))]) := by
    rw [hr]
  refine ⟨directory.dataFor 0 places, ⟨⟨200, [], .json (.object [("data".toList,
    .object (directory.dataFor 0 places))])⟩, [("data".toList,
    .object (directory.dataFor 0 places))], .null, ?_, ?_, ?_, rfl, rfl, rfl, nofun⟩,
    directory.answers_dataFor places⟩
  · show (directory.service selection).reply r = _
    unfold Directory.service
    dsimp only
    rw [hbody]
    dsimp only
    rw [Place.askedIn_documentFor selection hplaces]
  · unfold Client.receive
    rw [htyped _ hurl]
    rfl
  · show (200 : Int) < 400
    decide

end PullGauge
