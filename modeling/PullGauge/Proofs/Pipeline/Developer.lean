import Mathlib
import PullGauge.Pipeline.People
import PullGauge.Proofs.Metrics.Scores
import PullGauge.Proofs.Pipeline.Search

/-!
# Scores of a developer

The scores count what could be resolved against everything that was found. Whatever comes back from
the service or out of a cache, resolving stubs gives no more pull requests than there are stubs, each
at its place among them, so the share of merged ones is at most one; on this the bounds of the
scores rest.
-/

namespace PullGauge

def Terms.anything : Terms := ⟨fun _ _ => True, fun _ _ _ => True⟩

variable {J α : Type} {job : J → (Outcome Payload → Prop) → Prop}

namespace Talk

theorem meets_anything (hjob : ∀ j, job j fun _ => True) (t : Talk J α) :
    t.Meets Terms.anything job fun _ _ => True := by
  induction t with
  | done a => trivial
  | failed f => trivial
  | send r next ih => exact fun reply _ => ih reply
  | consult s key next ih => exact fun found _ => ih found
  | keep s key data life next ih => exact ⟨fun _ _ => trivial, ih⟩
  | note line next ih => exact ih
  | clock next ih => exact fun now => ih now
  | together jobs next ih =>
    refine ⟨jobs.map fun _ _ => True, ?_, fun results _ _ => ih results⟩
    rw [List.forall₂_map_right_iff, List.forall₂_same]
    exact fun j _ => hjob j

theorem errandMeets_anything (e : Errand) : ErrandMeets Terms.anything e fun _ => True :=
  meets_anything (fun none => nomatch none) e

theorem answers_bind_of_any {β : Type} {t : Talk J α} {f : α → Talk J β} {R : β → Prop}
    (hjob : ∀ j, job j fun _ => True) (h : ∀ a, (f a).Answers Terms.anything job R) :
    (t >>= f).Answers Terms.anything job R :=
  ((meets_anything hjob t).answers fun _ _ _ => trivial).bind fun a (_ : True) => h a

end Talk

namespace Resolved

theorem stub_of_mem_withDetail {stub detail : Payload} {owner name : Text} {r : Resolved}
    (h : r ∈ withDetail stub owner name detail) : r.stub = stub := by
  unfold withDetail at h
  split at h
  · cases h
  · obtain rfl := Option.some.inj h
    rfl

theorem map_stub_sublist (items : List (Payload × Text × Text × PullRef)) (details : List Payload) :
    ((List.zipWith (fun item detail => withDetail item.1 item.2.1 item.2.2.1 detail) items
      details).reduceOption.map Resolved.stub).Sublist (items.map Prod.fst) := by
  induction items generalizing details with
  | nil => exact List.Sublist.refl _
  | cons item items ih =>
    cases details with
    | nil => exact List.nil_sublist _
    | cons detail details =>
      rw [List.zipWith_cons_cons, List.map_cons]
      cases hfound : withDetail item.1 item.2.1 item.2.2.1 detail with
      | none => exact (ih details).cons _
      | some r =>
        rw [List.reduceOption_cons_of_some, List.map_cons, stub_of_mem_withDetail hfound]
        exact (ih details).cons_cons _

variable (c : Client) (selection : Text)

theorem answers_ofBatch (hjob : ∀ j, job j fun _ => True) (index : Nat) (batch : List Payload) :
    (ofBatch c selection index batch : Talk J _).Answers Terms.anything job fun resolved =>
      (resolved.map Resolved.stub).Sublist batch := by
  unfold ofBatch
  refine Talk.answers_lift_bind fun found hfound => ?_
  refine Talk.answers_say_bind ?_
  refine Talk.answers_bind_of_any hjob fun details => ?_
  -- every stub was read, so none is lost when they are put beside their details
  have hlength := (Outcome.mapM_eq_ok_iff.1 hfound).length_eq
  have hstubs : (batch.zip found).map Prod.fst = batch := List.map_fst_zip hlength.le
  refine Talk.Meets.answers (meets_pair (Q := fun _ o => o = .ok _) rfl) ?_
  rintro sent resolved ⟨⟩
  have hsublist := map_stub_sublist (batch.zip found) details
  rwa [hstubs] at hsublist

theorem answers_ofBatches (hjob : ∀ j, job j fun _ => True) (index : Nat)
    (batches : List (List Payload)) :
    (ofBatches c selection index batches : Talk J _).Answers Terms.anything job fun resolved =>
      (resolved.map Resolved.stub).Sublist batches.flatten := by
  induction batches generalizing index with
  | nil => exact Talk.answers_done (List.Sublist.refl _)
  | cons batch batches ih =>
    unfold ofBatches
    refine (answers_ofBatch c selection hjob index batch).bind fun first hfirst => ?_
    refine (ih (index + 1)).bind fun more hmore => ?_
    refine Talk.answers_done ?_
    rw [List.map_append, List.flatten_cons]
    exact hfirst.append hmore

theorem answers_ofStubs_sublist (hjob : ∀ j, job j fun _ => True) (size : Int)
    (stubs : List Payload) :
    (ofStubs c selection size stubs : Talk J _).Answers Terms.anything job fun resolved =>
      (resolved.map Resolved.stub).Sublist stubs := by
  refine Talk.answers_lift_bind fun all hall => ?_
  have h := answers_ofBatches c selection hjob 0 all
  rwa [(chunks_eq_ok_iff.1 hall).2.joined] at h

end Resolved

namespace Pipeline

theorem size_of_stubsOf {p : Payload} {stubs : List Payload} {n : Nat}
    (h : Resolved.stubsOf p = .ok stubs) (hn : p.size = .ok n) : n = stubs.length := by
  cases p with
  | list items =>
    obtain rfl := Except.ok.inj h
    exact (Except.ok.inj hn).symm
  | text t =>
    obtain rfl := Except.ok.inj h
    rw [List.length_map]
    exact (Except.ok.inj hn).symm
  | object fields =>
    cases fields with
    | nil =>
      obtain rfl := Except.ok.inj h
      exact (Except.ok.inj hn).symm
    | cons field fields => cases h
  | null | bool _ | int _ | real _ => cases h

/-- The scores are made of what some of the stubs were resolved to, and count all of the stubs. -/
def CountsStubs (s : Scores Float) : Prop :=
  ∃ (stubs : List Payload) (resolved : List Resolved) (reviewed : Nat),
    (resolved.map Resolved.stub).Sublist stubs ∧
    Scores.ofDetails stubs.length reviewed (resolved.map Resolved.detail) = .ok s

theorem answers_developer (c : Client) (login : Text) :
    (developer c login).Answers Terms.anything (Talk.ErrandMeets Terms.anything) fun report =>
      CountsStubs report.2 := by
  have hjob := Talk.errandMeets_anything
  unfold developer
  refine Talk.answers_bind_of_any hjob fun p => ?_
  refine Talk.answers_bind_of_any hjob fun pages => ?_
  refine Talk.answers_lift_bind fun items _ => ?_
  refine Talk.answers_lift_bind fun stubs hstubs => ?_
  refine (Resolved.answers_ofStubs_sublist c _ hjob _ stubs).bind fun resolved hresolved => ?_
  refine Talk.answers_lift_bind fun authored hauthored => ?_
  refine Talk.Answers.bind (R := fun n : Int => ∃ k : Nat, n = k)
    (Talk.answers_lift_bind fun k _ => Talk.answers_done ⟨k, rfl⟩) ?_
  rintro _ ⟨reviewed, rfl⟩
  refine Talk.answers_lift_bind fun scores hscores => ?_
  refine Talk.answers_done ⟨stubs, resolved, reviewed, hresolved, ?_⟩
  obtain ⟨-, -, hstubs⟩ := Outcome.exists_of_bind hstubs
  rwa [size_of_stubsOf hstubs hauthored] at hscores

def developerPlan (k : Client × Text) : Plan (Profile × Scores Float) := developer k.1 k.2

theorem countsStubs_of_reaches {S T : Type} [Service S] [TimeScale T] {w : World S T}
    {c : Crowd (Client × Text) S T (Profile × Scores Float)} {k : Client × Text}
    {report : Profile × Scores Float}
    (hreach : Crowd.Reaches developerPlan (fun _ => True) ⟨w, []⟩ c)
    (hdone : (k, .going (.done report)) ∈ c.strands) : CountsStubs report.2 := by
  have hreply (s : S) (r : Request) (_ : True) :
      Terms.anything.replies r (Service.answer s r).1 ∧ True := ⟨trivial, trivial⟩
  have hplan (k : Client × Text) (_ : True) :
      (Strand.going (developerPlan k)).Yields Terms.anything fun report => CountsStubs report.2 :=
    answers_developer k.1 k.2
  have hcoherent : w.Coherent Terms.anything := fun _ _ _ _ _ => trivial
  exact Crowd.good_of_reaches hreply hplan hcoherent trivial hreach hdone

end Pipeline

namespace Scores

variable {authored reviewed : Int} {details : List Payload} {said : List Contribution}

/-- Scores of details, of which there are no more than pull requests were found, stay on their
scale. Efficiency and lead time score no better for larger raw values, and feedback, reviews and
issues score no worse; the order of details makes no difference. When a developer is looked at,
there are indeed no more details than pull requests that were found. -/
theorem ofDetails_bounded_monotone (h : Tells authored reviewed details said) :
    (∃ s : Scores Rat, ofDetails authored reviewed details = .ok s ∧
      s.Reports (rawOf authored reviewed said) ∧ s.IsBounded ∧
      (∀ others : List Payload, others.Perm details →
        ofDetails authored reviewed others = .ok s) ∧
      ∀ authored' reviewed' details' said', Tells authored' reviewed' details' said' →
        ∃ t : Scores Rat, ofDetails authored' reviewed' details' = .ok t ∧
          Moves (rawOf authored reviewed said) (rawOf authored' reviewed' said') s t) ∧
    ∀ (S T : Type) [Service S] [TimeScale T] (w : World S T)
      (c : Crowd (Client × Text) S T (Profile × Scores Float)) (k : Client × Text)
      (report : Profile × Scores Float),
      Crowd.Reaches Pipeline.developerPlan (fun _ => True) ⟨w, []⟩ c →
      (k, .going (.done report)) ∈ c.strands →
      Pipeline.CountsStubs report.2 := by
  constructor
  · refine ⟨(rawOf authored reviewed said).scores, ofDetails_eq h, Raw.scores_reports _,
      (rawOf_isSound h).scores_isBounded, ?_, ?_⟩
    · intro others hperm
      rw [ofDetails_of_perm h hperm, ofDetails_eq h]
    · intro authored' reviewed' details' said' h'
      exact ⟨_, ofDetails_eq h', Raw.scores_moves _ _⟩
  · intro S T _ _ w c k report hreach hdone
    exact Pipeline.countsStubs_of_reaches hreach hdone

def mergedDetail : Payload :=
  .object [("mergedAt".toList, "2024-04-05T13:00:00Z"), ("createdAt".toList, "2024-04-03T13:00:00Z"),
    ("additions".toList, .int 300), ("deletions".toList, .int 100),
    ("comments".toList, .object [("totalCount".toList, .int 4)]),
    ("reviews".toList, .object [("nodes".toList, .list
      [.object [("state".toList, "CHANGES_REQUESTED")], .object [("state".toList, "APPROVED")]])]),
    ("closingIssuesReferences".toList, .object [("totalCount".toList, .int 1)])]

def bareDetail : Payload := .object [("createdAt".toList, "2024-04-04T13:00:00Z")]

def afternoonOn (date : Date) : Moment := ⟨date, 46800000000, some 0, by decide⟩

def mergedSaying : Contribution where
  merged := some (afternoonOn ⟨2024, 4, 5, by decide⟩)
  created := some (afternoonOn ⟨2024, 4, 3, by decide⟩)
  verdicts := ["CHANGES_REQUESTED", "APPROVED"]
  additions := 300
  deletions := 100
  comments := 4
  issues := 1

def bareSaying : Contribution where
  merged := none
  created := some (afternoonOn ⟨2024, 4, 4, by decide⟩)
  verdicts := []
  additions := 0
  deletions := 0
  comments := 0
  issues := 0

theorem mergedSaying_isToldBy : mergedSaying.IsToldBy mergedDetail where
  merged := ⟨_, rfl, rfl⟩
  created := ⟨_, rfl, rfl⟩
  reviews := ⟨_, _, rfl, rfl, .cons rfl (.cons rfl .nil)⟩
  additions := rfl
  deletions := rfl
  comments := rfl
  issues := rfl

theorem mergedSaying_isOrdered : mergedSaying.IsOrdered := by
  rintro c ⟨⟩ m ⟨⟩
  exact ⟨_, rfl, by decide⟩

theorem bareSaying_isToldBy : bareSaying.IsToldBy bareDetail where
  merged := ⟨_, rfl, rfl⟩
  created := ⟨_, rfl, rfl⟩
  reviews := ⟨_, _, rfl, rfl, .nil⟩
  additions := rfl
  deletions := rfl
  comments := rfl
  issues := rfl

theorem ofDetails_bounded_monotone_two :
    ∃ s t : Scores Rat, ofDetails 3 12 [mergedDetail, bareDetail] = .ok s ∧
      ofDetails 3 12 [bareDetail, mergedDetail] = .ok s ∧ s.IsBounded ∧ s.mergeRate = 33 / 100 ∧
      ofDetails 2 4 [mergedDetail] = .ok t ∧ t.cycleEfficiency ≤ s.cycleEfficiency := by
  have htells : Tells 3 12 [mergedDetail, bareDetail] [mergedSaying, bareSaying] := by
    refine ⟨.cons mergedSaying_isToldBy (.cons bareSaying_isToldBy .nil), by decide, by decide, ?_,
      by decide +kernel⟩
    exact List.forall_mem_cons.2 ⟨mergedSaying_isOrdered, List.forall_mem_singleton.2 nofun⟩
  have hmore : Tells 2 4 [mergedDetail] [mergedSaying] := by
    refine ⟨.cons mergedSaying_isToldBy .nil, by decide, by decide, ?_, by decide +kernel⟩
    exact List.forall_mem_singleton.2 mergedSaying_isOrdered
  obtain ⟨⟨s, hs, hreports, hbounded, hperm, hmoves⟩, -⟩ := ofDetails_bounded_monotone htells
  obtain ⟨t, ht, hmoved⟩ := hmoves _ _ _ _ hmore
  refine ⟨s, t, hs, hperm _ (List.Perm.swap ..), hbounded, ?_, ht, hmoved.cycleEfficiency ?_⟩
  · rw [hreports.mergeRate]
    decide +kernel
  · decide +kernel

end Scores

end PullGauge
