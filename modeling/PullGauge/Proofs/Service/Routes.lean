import Mathlib
import PullGauge.Service.Script

/-!
# The route that counts

What was done to a scripted service since its last reset is its history. A route takes the place of
an earlier one for the same requests only, so for every call the service has the same route as one
that keeps them all: the last one of the history that suits the request.
-/

namespace PullGauge

namespace Route

theorem hasParams_iff {params required : List (Text × Text)} :
    hasParams params required = true ↔
      ∀ pair ∈ required, params.lookup pair.1 = some pair.2 := by
  simp [hasParams]

theorem hasParams_trans {a b c : List (Text × Text)} (hab : hasParams a b = true)
    (hbc : hasParams b c = true) : hasParams a c = true := by
  rw [hasParams_iff] at hab hbc ⊢
  intro pair hpair
  obtain ⟨before, after, hb, -⟩ := List.lookup_eq_some_iff.1 (hbc pair hpair)
  exact hab pair (by simp [hb])

theorem answers_congr {a b : Route} (h : a.isFor b = true) (c : Call) : a.answers c = b.answers c := by
  simp only [isFor, Bool.and_eq_true, beq_iff_eq] at h
  obtain ⟨⟨⟨hmethod, hpath⟩, hab⟩, hba⟩ := h
  have hparams : hasParams c.params a.params = hasParams c.params b.params :=
    Bool.eq_iff_iff.2 ⟨fun ha => hasParams_trans ha hab, fun hb => hasParams_trans hb hba⟩
  rw [answers, answers, hmethod, hpath, hparams]

theorem answers_ofRequest_iff {route : Route} {r : Request} :
    route.answers (Call.ofRequest r) = true ↔
      route.method = r.method ∧ route.path = r.url.decodedPath ∧
        ∀ pair ∈ route.params, r.url.params.lookup pair.1 = some pair.2 := by
  rw [answers, Call.ofRequest, Bool.and_eq_true, Bool.and_eq_true, beq_iff_eq, beq_iff_eq,
    hasParams_iff, and_assoc]
  simp only [Call.lookup_firstValues]

end Route

namespace Script

inductive Act where
  | configure (setup : Setup)
  | refuse (setup : Setup) (message : Payload) (errors : Option Payload)
  | servePages (path : Text) (pages : List (List Payload))
  | addPull (ref : PullRef) (detail : Payload)
  | ask (r : Request)
  | reset

namespace Act

def apply (s : Script) : Act → Script
  | .configure setup => s.configure (.ofSetup setup)
  | .refuse setup message errors => s.configure ((Route.ofSetup setup).refuse message errors)
  | .servePages path pages => s.servePages path pages
  | .addPull ref detail => s.addPull ref detail
  | .ask r => (Service.answer s r).2
  | .reset => s.reset

def route? : Act → Option Route
  | .configure setup => some (.ofSetup setup)
  | .refuse setup message errors => some ((Route.ofSetup setup).refuse message errors)
  | _ => none

def request? : Act → Option Request
  | .ask r => some r
  | _ => none

def isReset : Act → Bool
  | .reset => true
  | _ => false

/-- Whether an act gives a request its answer: its method, in upper case, and its path are those
of the request, and each parameter that it expects has, as a text, the first value that the
request gives it. -/
def Suits (r : Request) : Act → Prop
  | .configure setup => Text.upper setup.method = r.method ∧ setup.path = r.url.decodedPath ∧
      ∀ field ∈ setup.expected, r.url.params.lookup field.1 = some field.2.display
  | .refuse setup _ _ => Text.upper setup.method = r.method ∧ setup.path = r.url.decodedPath
  | _ => False

instance (r : Request) : DecidablePred (Suits r)
  | .configure _ => inferInstanceAs (Decidable (_ ∧ _ ∧ _))
  | .refuse _ _ _ => inferInstanceAs (Decidable (_ ∧ _))
  | .servePages _ _ | .addPull _ _ | .ask _ | .reset => inferInstanceAs (Decidable False)

theorem suits_iff {act : Act} {r : Request} :
    act.Suits r ↔ (act.route?.any fun route => route.answers (Call.ofRequest r)) = true := by
  cases act with
  | configure setup =>
    rw [route?, Option.any_some, Route.answers_ofRequest_iff]
    simp only [Suits, Route.ofSetup, List.forall_mem_map]
  | refuse setup message errors =>
    rw [route?, Option.any_some, Route.answers_ofRequest_iff]
    simp [Suits, Route.ofSetup, Route.refuse]
  | servePages path pages => exact ⟨False.elim, nofun⟩
  | addPull ref detail => exact ⟨False.elim, nofun⟩
  | ask q => exact ⟨False.elim, nofun⟩
  | reset => exact ⟨False.elim, nofun⟩

end Act

def run (acts : List Act) : Script := acts.foldl Act.apply {}

def sinceReset (acts : List Act) : List Act := acts.rtakeWhile fun act => !act.isReset

def IsLatest (acts : List Act) (r : Request) (route : Route) : Prop :=
  ∃ before act since, acts = before ++ act :: since ∧ act.route? = some route ∧ act.Suits r ∧
    ∀ other ∈ since, ¬ other.Suits r

theorem run_concat (acts : List Act) (act : Act) : run (acts ++ [act]) = act.apply (run acts) := by
  rw [run, List.foldl_append]
  rfl

theorem sinceReset_concat (acts : List Act) (act : Act) : sinceReset (acts ++ [act]) =
    if act.isReset then [] else sinceReset acts ++ [act] := by
  rw [sinceReset, List.rtakeWhile_concat]
  cases act.isReset <;> rfl

theorem route?_configure (s : Script) (route : Route) (c : Call) :
    (s.configure route).route? c = if route.answers c then some route else s.route? c := by
  rw [route?, configure, List.reverse_append, List.reverse_singleton, List.singleton_append,
    List.find?_cons]
  cases hanswers : route.answers c with
  | true => rfl
  | false =>
    have hstays : ∀ r : Route, r.answers c = true → r.isFor route = false := by
      intro r hr
      rw [← Bool.not_eq_true]
      intro hfor
      rw [Route.answers_congr hfor, hanswers] at hr
      cases hr
    rw [← List.filter_reverse, List.find?_filter]
    refine List.find?_congr fun r _ => ?_
    cases hr : r.answers c with
    | true => simp [hstays r hr]
    | false => simp

theorem route?_apply (s : Script) (act : Act) (c : Call) : (act.apply s).route? c =
    if act.isReset then none
    else (act.route?.filter fun route => route.answers c).or (s.route? c) := by
  have hnew (route : Route) : (s.configure route).route? c =
      ((some route).filter fun x => x.answers c).or (s.route? c) := by
    rw [route?_configure]
    cases h : route.answers c <;> simp [Option.filter, h]
  cases act with
  | configure setup => exact hnew _
  | refuse setup message errors => exact hnew _
  | servePages path pages => rfl
  | addPull ref detail => rfl
  | ask r => rfl
  | reset => rfl

/-- The service that keeps every route that was configured since the last reset. -/
def hoard (acts : List Act) : Script :=
  { run acts with routes := (sinceReset acts).filterMap Act.route? }

theorem route?_run (acts : List Act) (c : Call) : (run acts).route? c = (hoard acts).route? c := by
  induction acts using List.reverseRecOn with
  | nil => rfl
  | append_singleton acts act ih =>
    rw [run_concat, route?_apply, ih, hoard, route?, hoard, route?, sinceReset_concat]
    cases act.isReset with
    | true => rfl
    | false =>
      -- in the history read from its end, the act comes before everything else
      rw [if_neg (by simp), if_neg (by simp), List.filterMap_append, List.reverse_append,
        List.find?_append]
      refine congrArg (fun first => Option.or first _) ?_
      cases hroute : act.route? with
      | none => simp [hroute]
      | some route => simp [hroute, Option.filter, List.find?_singleton]

theorem find?_routes_eq_some_iff {acts : List Act} {r : Request} {route : Route} :
    ((acts.filterMap Act.route?).reverse.find? fun x => x.answers (Call.ofRequest r)) = some route ↔
      IsLatest acts r route := by
  rw [← List.filterMap_reverse, List.find?_filterMap, Option.bind_eq_some_iff]
  simp only [List.find?_eq_some_iff_append, ← Act.suits_iff, Bool.not_eq_true', ← Bool.not_eq_true]
  constructor
  · rintro ⟨act, ⟨hsuits, since, before, hacts, hnone⟩, hroute⟩
    refine ⟨before.reverse, act, since.reverse, ?_, hroute, hsuits, ?_⟩
    · rw [List.reverse_eq_iff.1 hacts]
      simp
    · intro other hother
      exact hnone other (List.mem_reverse.1 hother)
  · rintro ⟨before, act, since, rfl, hroute, hsuits, hnone⟩
    refine ⟨act, ⟨hsuits, since.reverse, before.reverse, by simp, ?_⟩, hroute⟩
    intro other hother
    exact hnone other (List.mem_reverse.1 hother)

theorem find?_routes_eq_none_iff {acts : List Act} {r : Request} :
    ((acts.filterMap Act.route?).reverse.find? fun x => x.answers (Call.ofRequest r)) = none ↔
      ∀ act ∈ acts, ¬ act.Suits r := by
  simp only [List.find?_eq_none, List.mem_reverse, List.mem_filterMap, Act.suits_iff,
    Option.any_eq_true]
  constructor
  · rintro h act hact ⟨route, hroute, hanswers⟩
    exact h route ⟨act, hact, hroute⟩ hanswers
  · rintro h route ⟨act, hact, hroute⟩ hanswers
    exact h act hact ⟨route, hroute, hanswers⟩

theorem calls_apply (s : Script) (act : Act) : (act.apply s).calls =
    if act.isReset then [] else s.calls ++ act.request?.toList.map Call.ofRequest := by
  cases act with
  | ask r => exact calls_answer s r
  | reset => rfl
  | _ => exact (List.append_nil s.calls).symm

theorem calls_run (acts : List Act) :
    (run acts).calls = ((sinceReset acts).filterMap Act.request?).map Call.ofRequest := by
  induction acts using List.reverseRecOn with
  | nil => rfl
  | append_singleton acts act ih =>
    rw [run_concat, calls_apply, ih, sinceReset_concat]
    cases act.isReset with
    | true => rfl
    | false =>
      rw [if_neg (by simp), if_neg (by simp), List.filterMap_append, List.map_append]
      cases hrequest : act.request? with
      | none => simp [hrequest]
      | some r => simp [hrequest]

theorem standIns_run (acts : List Act) : (run acts).standIns = [] := by
  induction acts using List.reverseRecOn with
  | nil => rfl
  | append_singleton acts act ih =>
    rw [run_concat, ← ih]
    cases act <;> rfl

theorem answer_of_route? {s : Script} (hs : s.standIns = []) {r : Request} {route : Route}
    (h : s.route? (Call.ofRequest r) = some route) : (Service.answer s r).1 =
      (Reply.make route.status route.headers route.body).mapError .ofFault := by
  show s.replyTo (Call.ofRequest r) = _
  rw [replyTo, hs, scripted, h]
  rfl

theorem answer_of_route?_eq_none {s : Script} {r : Request}
    (h : s.route? (Call.ofRequest r) = none) :
    (Service.answer s r).1 = (Service.answer { s with routes := [] } r).1 := by
  show s.replyTo (Call.ofRequest r) = replyTo _ (Call.ofRequest r)
  rw [replyTo, scripted, h]
  rfl

/-- A scripted service answers a request by the route that was configured last, since the last
reset, among those that suit the request, and if there is none, as if there were no routes. That
some routes took the place of others makes no difference to any call. Every request since the
last reset is recorded, once and in order, whether or not it had a route. -/
theorem answers_by_latest (acts : List Act) (r : Request) :
    (∀ route, (run acts).route? (Call.ofRequest r) = some route ↔
      IsLatest (sinceReset acts) r route) ∧
    ((run acts).route? (Call.ofRequest r) = none ↔ ∀ act ∈ sinceReset acts, ¬ act.Suits r) ∧
    (∀ route, IsLatest (sinceReset acts) r route → (Service.answer (run acts) r).1 =
      (Reply.make route.status route.headers route.body).mapError .ofFault) ∧
    ((∀ act ∈ sinceReset acts, ¬ act.Suits r) →
      (Service.answer (run acts) r).1 = (Service.answer { run acts with routes := [] } r).1) ∧
    (∀ c, (run acts).route? c = (hoard acts).route? c) ∧
    (run acts).calls = ((sinceReset acts).filterMap Act.request?).map Call.ofRequest := by
  have hroute (route : Route) : (run acts).route? (Call.ofRequest r) = some route ↔
      IsLatest (sinceReset acts) r route := by
    rw [route?_run]
    exact find?_routes_eq_some_iff
  have hnone : (run acts).route? (Call.ofRequest r) = none ↔
      ∀ act ∈ sinceReset acts, ¬ act.Suits r := by
    rw [route?_run]
    exact find?_routes_eq_none_iff
  refine ⟨hroute, hnone, ?_, ?_, route?_run acts, calls_run acts⟩
  · intro route hlatest
    exact answer_of_route? (standIns_run acts) ((hroute route).2 hlatest)
  · intro hsuits
    exact answer_of_route?_eq_none (hnone.2 hsuits)

def listing (method query : String) : Request where
  method := method
  url := { scheme := "https", host := "api.github.com", path := "/repos"
           query := some query.toList }
  headers := []
  body := none

/-- Routes for overlapping requests, after a reset. The last but one takes the place of the second,
and tells its parameters in another order. -/
def overlapping : List Act :=
  [.configure { method := "DELETE", path := "/repos" }, .reset,
    .configure { method := "GET", path := "/repos", expected := [("state", "open")], status := 500 },
    .configure { method := "GET", path := "/repos"
                 expected := [("state", "open"), ("page", .int 2)] },
    .ask (listing "GET" "state=all"),
    .refuse { method := "get", path := "/repos", status := 404 } "Gone" none,
    .configure { method := "get", path := "/repos"
                 expected := [("page", .int 2), ("state", "open")]
                 status := 204 },
    .configure { method := "get", path := "/repos", expected := [("page", .int 3)], status := 500 }]

theorem answers_by_latest_overlapping :
    (Service.answer (run overlapping) (listing "GET" "state=open&page=2&page=3")).1 =
        .ok ⟨204, [], .empty⟩ ∧
      (run overlapping).route? (Call.ofRequest (listing "DELETE" "page=3")) = none ∧
      (run (overlapping ++ [.ask (listing "DELETE" "page=3")])).calls.map Call.method =
        ["GET".toList, "DELETE".toList] := by
  obtain ⟨-, -, hanswer, -⟩ := answers_by_latest overlapping (listing "GET" "state=open&page=2&page=3")
  obtain ⟨-, hnone, -⟩ := answers_by_latest overlapping (listing "DELETE" "page=3")
  obtain ⟨-, -, -, -, -, hcalls⟩ := answers_by_latest
    (overlapping ++ [.ask (listing "DELETE" "page=3")]) (listing "DELETE" "page=3")
  refine ⟨?_, hnone.2 (by decide +kernel), ?_⟩
  · rw [hanswer _ ⟨(sinceReset overlapping).take 4, _, _, rfl, rfl, by decide +kernel, by decide +kernel⟩]
    rfl
  · rw [hcalls]
    rfl

end Script

end PullGauge
