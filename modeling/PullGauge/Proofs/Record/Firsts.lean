import Mathlib
import PullGauge.Record.Assembly
import PullGauge.Proofs.Outcome.Rows
import PullGauge.Proofs.Payload.Places
import PullGauge.Proofs.Record.Earliest

/-!
# First reviews and first commits

Reviews and commits are passed through once, and each may leave out what is asked of it. The pass
over reviews comes to each reviewer once, in the order of their first reviews, to the earliest
submission, and to the number of reviews that ask for changes. The pass over commits comes to the
earliest date; only where no commit has one, the commit that the pull request itself carries counts.
-/

namespace PullGauge

/-- What a review says: who wrote it, when it was submitted, and what it came to. -/
structure Review where
  login : Option Text
  submitted : Option Moment
  verdict : Payload

namespace Review

def asks (r : Review) : Bool := r.verdict.isText "CHANGES_REQUESTED"

def IsToldBy (r : Review) (p : Payload) : Prop :=
  ∃ author date, p.told ["author"] = some author ∧
    (match r.login with
      | none => author.isPresent = false
      | some login => author.told ["login"] = some (.text login)) ∧
    p.told ["submittedAt"] = some date ∧ timestamp date = .ok r.submitted ∧
    p.told ["state"] = some r.verdict

end Review

structure ListsOnce (names all : List Text) : Prop where
  nodup : names.Nodup
  mem_iff : ∀ t, t ∈ names ↔ t ∈ all
  ordered : names.Pairwise fun s t => all.idxOf s < all.idxOf t

namespace ListsOnce

variable {names all : List Text} {t : Text}

theorem skip (h : ListsOnce names all) (ht : t ∈ names) : ListsOnce names (all ++ [t]) where
  nodup := h.nodup
  mem_iff s := by
    rw [h.mem_iff, List.mem_append, List.mem_singleton]
    refine ⟨.inl, ?_⟩
    rintro (hs | rfl)
    · exact hs
    · exact (h.mem_iff s).1 ht
  ordered := by
    refine h.ordered.imp_of_mem ?_
    intro r s hr hs hless
    rwa [List.idxOf_append_of_mem ((h.mem_iff r).1 hr),
      List.idxOf_append_of_mem ((h.mem_iff s).1 hs)]

theorem add (h : ListsOnce names all) (ht : t ∉ names) :
    ListsOnce (names ++ [t]) (all ++ [t]) where
  nodup := List.nodup_append.2 ⟨h.nodup, List.nodup_singleton t, by
    intro s hs r hr heq
    rw [List.mem_singleton.1 hr] at heq
    exact ht (heq ▸ hs)⟩
  mem_iff s := by rw [List.mem_append, List.mem_append, h.mem_iff]
  ordered := by
    have hnew : t ∉ all := fun hm => ht ((h.mem_iff t).2 hm)
    have hold {s : Text} (hs : s ∈ names) : (all ++ [t]).idxOf s = all.idxOf s :=
      List.idxOf_append_of_mem ((h.mem_iff s).1 hs)
    rw [List.pairwise_append]
    refine ⟨h.ordered.imp_of_mem ?_, List.pairwise_singleton .., ?_⟩
    · intro r s hr hs hless
      rwa [hold hr, hold hs]
    · intro s hs r hr
      rw [List.mem_singleton.1 hr, hold hs, List.idxOf_append_of_notMem hnew]
      have hlength := List.idxOf_lt_length_iff.2 ((h.mem_iff s).1 hs)
      omega

end ListsOnce

namespace ReviewStats

structure SumUp (said : List Review) (s : ReviewStats) : Prop where
  reviewers : ∃ names : List Text, s.reviewers = names.map Payload.text ∧
    ListsOnce names (said.filterMap Review.login)
  firstReview : IsEarliest (said.filterMap Review.submitted) s.firstReview
  changesRequested : s.changesRequested = said.countP Review.asks

theorem addReviewer_text (names : List Text) (t : Text) :
    addReviewer (names.map Payload.text) (.text t) =
      .ok ((if t ∈ names then names else names ++ [t]).map Payload.text) := by
  have hany : (names.map Payload.text).any (fun r => r.sameKey (.text t)) = decide (t ∈ names) := by
    rw [List.any_map, Bool.eq_iff_iff, List.any_eq_true, decide_eq_true_iff]
    constructor
    · rintro ⟨s, hs, hsame⟩
      obtain rfl : s = t := of_decide_eq_true hsame
      exact hs
    · intro ht
      exact ⟨t, ht, decide_eq_true rfl⟩
  have hkey : (Payload.text t).isKey = true := rfl
  rw [addReviewer, hany, hkey]
  by_cases ht : t ∈ names
  · simp [ht]
  · simp [ht]

theorem add_eq_ok {s : ReviewStats} {p author date verdict : Payload} {submitted first : Option Moment}
    {listed : List Payload} (hauthor : p.told ["author".toList] = some author)
    (hdate : p.told ["submittedAt".toList] = some date) (hsubmitted : timestamp date = .ok submitted)
    (hverdict : p.told ["state".toList] = some verdict)
    (hlisted : (if author.isPresent then do addReviewer s.reviewers (← author.member "login")
      else pure s.reviewers) = .ok listed) (hfirst : earlierOf s.firstReview submitted = .ok first) :
    s.add p = .ok ⟨listed, first,
      s.changesRequested + if verdict.isText "CHANGES_REQUESTED" then 1 else 0⟩ := by
  have hasks : asksForChanges p = .ok (verdict.isText "CHANGES_REQUESTED") := by
    rw [asksForChanges, Payload.field_of_told hverdict]
    rfl
  unfold add
  simp only [Payload.field_of_told hauthor, hasks, Payload.field_of_told hdate, hsubmitted,
    Outcome.ok_bind, Outcome.pure_eq_ok]
  by_cases hpresent : author.isPresent
  · rw [if_pos hpresent] at hlisted ⊢
    obtain ⟨login, hlogin, hadded⟩ := Outcome.exists_of_bind hlisted
    rw [hlogin, Outcome.ok_bind, hadded, Outcome.ok_bind]
    cases submitted with
    | none => rw [Except.ok.inj hfirst]
    | some m =>
      have hm : earlier s.firstReview m = .ok first := hfirst
      simp only [hm, Outcome.ok_bind]
  · rw [if_neg hpresent] at hlisted ⊢
    rw [Except.ok.inj hlisted]
    cases submitted with
    | none => rw [Except.ok.inj hfirst]
    | some m =>
      have hm : earlier s.firstReview m = .ok first := hfirst
      simp only [hm, Outcome.ok_bind]

theorem exists_listed {names all : List Text} {login : Option Text} {author : Payload}
    (h : ListsOnce names all)
    (hlogin : match login with
      | none => author.isPresent = false
      | some t => author.told ["login".toList] = some (.text t)) :
    ∃ listed : List Text,
      (if author.isPresent then do addReviewer (names.map Payload.text) (← author.member "login")
        else pure (names.map Payload.text) : Outcome _) = .ok (listed.map Payload.text) ∧
      ListsOnce listed (all ++ login.toList) := by
  cases login with
  | none =>
    refine ⟨names, ?_, by rwa [Option.toList_none, List.append_nil]⟩
    rw [show author.isPresent = false from hlogin]
    rfl
  | some t =>
    obtain ⟨hpresent, hmember⟩ := Payload.member_of_told hlogin nofun
    refine ⟨if t ∈ names then names else names ++ [t], ?_, ?_⟩
    · rw [hpresent, if_pos rfl, hmember]
      exact addReviewer_text names t
    · rw [Option.toList_some]
      split_ifs with hmem
      · exact h.skip hmem
      · exact h.add hmem

theorem SumUp.exists_add {said : List Review} {s : ReviewStats} {r : Review} {p : Payload}
    (h : SumUp said s) (hp : r.IsToldBy p) (hsaid : ∀ q ∈ said, ∀ m ∈ q.submitted, m.HasOffset)
    (hr : ∀ m ∈ r.submitted, m.HasOffset) : ∃ next, s.add p = .ok next ∧ SumUp (said ++ [r]) next := by
  obtain ⟨author, date, hauthor, hlogin, hdate, hsubmitted, hverdict⟩ := hp
  obtain ⟨names, hnames, honce⟩ := h.reviewers
  have hseen : ∀ m ∈ said.filterMap Review.submitted, m.HasOffset := by
    intro m hm
    obtain ⟨q, hq, hm⟩ := List.mem_filterMap.1 hm
    exact hsaid q hq m hm
  obtain ⟨first, hfirst, hearliest⟩ := h.firstReview.exists_step hseen hr
  obtain ⟨listed, hlisted, honce'⟩ := exists_listed honce hlogin
  rw [← hnames] at hlisted
  have hone {α : Type} (f : Review → Option α) : (said ++ [r]).filterMap f =
      said.filterMap f ++ (f r).toList := by
    rw [List.filterMap_append]
    cases hf : f r <;> simp [hf]
  refine ⟨⟨listed.map Payload.text, first, s.changesRequested + if r.asks then 1 else 0⟩, ?_, ?_⟩
  · exact add_eq_ok hauthor hdate hsubmitted hverdict hlisted hfirst
  · refine ⟨⟨listed, rfl, by rwa [hone]⟩, by rwa [hone], ?_⟩
    rw [List.countP_append, h.changesRequested, List.countP_singleton]

theorem sumUp_empty : SumUp [] {} where
  reviewers := ⟨[], rfl, List.nodup_nil, fun _ => Iff.rfl, List.Pairwise.nil⟩
  firstReview := rfl
  changesRequested := rfl

theorem SumUp.exists_foldlM {before said : List Review} {s : ReviewStats} {reviews : List Payload}
    (h : SumUp before s) (hbefore : ∀ r ∈ before, ∀ m ∈ r.submitted, m.HasOffset)
    (htold : List.Forall₂ Review.IsToldBy said reviews)
    (hsaid : ∀ r ∈ said, ∀ m ∈ r.submitted, m.HasOffset) :
    ∃ last, reviews.foldlM add s = .ok last ∧ SumUp (before ++ said) last := by
  induction htold generalizing before s with
  | nil => exact ⟨s, rfl, by rwa [List.append_nil]⟩
  | @cons r p said reviews hone hmore ih =>
    have hr := hsaid r (List.mem_cons_self ..)
    obtain ⟨next, hnext, hsum⟩ := h.exists_add hone hbefore hr
    have hbefore' : ∀ q ∈ before ++ [r], ∀ m ∈ q.submitted, m.HasOffset := by
      intro q hq
      rcases List.mem_append.1 hq with hq | hq
      · exact hbefore q hq
      · rw [List.mem_singleton.1 hq]
        exact hr
    obtain ⟨last, hlast, hall⟩ := ih hsum hbefore' fun q hq => hsaid q (List.mem_cons_of_mem _ hq)
    refine ⟨last, ?_, ?_⟩
    · rw [List.foldlM_cons, hnext]
      exact hlast
    · rwa [List.append_cons]

theorem exists_ofReviews {said : List Review} {reviews : List Payload}
    (htold : List.Forall₂ Review.IsToldBy said reviews)
    (hsaid : ∀ r ∈ said, ∀ m ∈ r.submitted, m.HasOffset) :
    ∃ s, ofReviews reviews = .ok s ∧ SumUp said s :=
  sumUp_empty.exists_foldlM nofun htold hsaid

structure Agree (s t : ReviewStats) : Prop where
  reviewers : ∀ p, p ∈ s.reviewers ↔ p ∈ t.reviewers
  firstReview : s.firstReview.map Moment.instant = t.firstReview.map Moment.instant
  changesRequested : s.changesRequested = t.changesRequested

theorem SumUp.agree {said others : List Review} {s t : ReviewStats} (hs : SumUp said s)
    (ht : SumUp others t) (h : said.Perm others) : Agree s t where
  reviewers p := by
    obtain ⟨names, hnames, honce⟩ := hs.reviewers
    obtain ⟨names', hnames', honce'⟩ := ht.reviewers
    have hsame (u : Text) : u ∈ names ↔ u ∈ names' := by
      rw [honce.mem_iff, honce'.mem_iff]
      exact (h.filterMap Review.login).mem_iff
    simp only [hnames, hnames', List.mem_map, hsame]
  firstReview := hs.firstReview.instant_eq ht.firstReview fun _ =>
    (h.filterMap Review.submitted).mem_iff
  changesRequested := by rw [hs.changesRequested, ht.changesRequested, h.countP_eq]

end ReviewStats

def CommitTells (p : Payload) (date : Option Moment) : Prop :=
  ∃ written applied, p.told ["commit".toList, "author".toList, "date".toList] = some written ∧
    p.told ["commit".toList, "committer".toList, "date".toList] = some applied ∧
    timestamp (if written.isPresent then written else applied) = .ok date

theorem commitDate_of_tells {p : Payload} {date : Option Moment} (h : CommitTells p date) :
    commitDate p = .ok date := by
  obtain ⟨written, applied, hwritten, happlied, hdate⟩ := h
  obtain ⟨commit, hcommit, hwritten⟩ := Payload.exists_part_of_told hwritten
  obtain ⟨commit', hcommit', happlied⟩ := Payload.exists_part_of_told happlied
  obtain rfl := Except.ok.inj (hcommit.symm.trans hcommit')
  obtain ⟨author, hauthor, hwritten⟩ := Payload.exists_part_of_told hwritten
  obtain ⟨committer, hcommitter, happlied⟩ := Payload.exists_part_of_told happlied
  unfold commitDate
  simp only [hcommit, hauthor, hcommitter, Payload.field_of_told hwritten,
    Payload.field_of_told happlied, Outcome.ok_bind]
  split_ifs at hdate ⊢ <;> exact hdate

theorem exists_earliestCommit {commits : List Payload} {dates : List (Option Moment)}
    (htold : List.Forall₂ CommitTells commits dates)
    (hdates : ∀ date ∈ dates, ∀ m ∈ date, m.HasOffset) :
    ∃ first, earliestCommit commits = .ok first ∧ IsEarliest (dates.filterMap id) first := by
  refine exists_earliest_foldlM (htold.imp ?_) hdates
  intro p date hp first
  simp only [commitDate_of_tells hp, Outcome.ok_bind]
  cases date <;> rfl

def CarriesDate (detail : Payload) (date : Option Moment) : Prop :=
  ∃ nodes, detail.told ["commits".toList, "nodes".toList] = some nodes ∧
    ((nodes.isPresent = false ∧ date = none) ∨
      ∃ commit more written applied, nodes = .list (commit :: more) ∧
        commit.told ["commit".toList, "authoredDate".toList] = some written ∧
        commit.told ["commit".toList, "committedDate".toList] = some applied ∧
        timestamp (if written.isPresent then written else applied) = .ok date)

theorem carriedCommitDate_of_carries {detail : Payload} {date : Option Moment}
    (h : CarriesDate detail date) : carriedCommitDate detail = .ok date := by
  obtain ⟨nodes, hnodes, h⟩ := h
  unfold carriedCommitDate
  rw [Payload.nodes_of_told hnodes]
  rcases h with ⟨hnone, rfl⟩ | ⟨commit, more, written, applied, rfl, hwritten, happlied, hdate⟩
  · rw [Payload.orElse, hnone]
    rfl
  · obtain ⟨inner, hinner, hwritten⟩ := Payload.exists_part_of_told hwritten
    obtain ⟨inner', hinner', happlied⟩ := Payload.exists_part_of_told happlied
    obtain rfl := Except.ok.inj (hinner.symm.trans hinner')
    have hpresent : (Payload.list (commit :: more)).isPresent = true := rfl
    simp only [Payload.orElse, hpresent, if_true, Payload.first, hinner,
      Payload.field_of_told hwritten, Payload.field_of_told happlied, Outcome.ok_bind]
    split_ifs at hdate ⊢ <;> exact hdate

namespace Record

variable {detail stub : Payload} {owner name : Text} {commits : List Payload}
  {first date : Option Moment}

theorem assemble_eq (hlisted : earliestCommit commits = .ok first)
    (hcarried : carriedCommitDate detail = .ok date) :
    assemble detail stub owner name commits =
      (fun r => { r with firstCommit := first.or date }) <$> assemble detail stub owner name [] := by
  have hnone : earliestCommit [] = .ok none := rfl
  unfold assemble
  simp only [hlisted, hcarried, hnone, Outcome.ok_bind, map_bind, map_pure, pure_bind,
    apply_ite (Functor.map _)]
  cases first <;> rfl

theorem firstCommit_of_assemble {m : Moment} {r : Record}
    (hlisted : earliestCommit commits = .ok (some m))
    (h : assemble detail stub owner name commits = .ok r) : r.firstCommit = some m := by
  have hsame : assemble detail stub owner name commits =
      (fun r => { r with firstCommit := some m }) <$> assemble detail stub owner name commits := by
    unfold assemble
    simp only [hlisted, Outcome.ok_bind, map_bind, map_pure, pure_bind, apply_ite (Functor.map _)]
  rw [h] at hsame
  exact congrArg Record.firstCommit (Except.ok.inj hsame)

end Record

/-- Reviews whose dates all have an offset are summed up, in any order to the same figures; and the
first commit of a record is the earliest of its commits that have a date, or else the carried one:
apart from it, the record is that without commits. -/
theorem firsts_of_told :
    (∀ (said : List Review) (reviews : List Payload), List.Forall₂ Review.IsToldBy said reviews →
      (∀ r ∈ said, ∀ m ∈ r.submitted, m.HasOffset) →
      ∃ s, ReviewStats.ofReviews reviews = .ok s ∧ s.SumUp said ∧
        ∀ others, others.Perm reviews → ∃ t, ReviewStats.ofReviews others = .ok t ∧ s.Agree t) ∧
    ∀ (commits : List Payload) (dates : List (Option Moment)),
      List.Forall₂ CommitTells commits dates → (∀ date ∈ dates, ∀ m ∈ date, m.HasOffset) →
      ∃ first, IsEarliest (dates.filterMap id) first ∧ ∀ detail stub owner name,
        (∀ r, Record.assemble detail stub owner name commits = .ok r →
          first.isSome = true → r.firstCommit = first) ∧
        ∀ carried, CarriesDate detail carried →
          Record.assemble detail stub owner name commits =
            (fun r => { r with firstCommit := first.or carried }) <$>
              Record.assemble detail stub owner name [] := by
  refine ⟨?reviews, ?commits⟩
  case reviews =>
    intro said reviews htold hsaid
    obtain ⟨s, hs, hsum⟩ := ReviewStats.exists_ofReviews htold hsaid
    refine ⟨s, hs, hsum, ?_⟩
    intro others hperm
    obtain ⟨said', htold', hperm'⟩ := List.perm_comp_forall₂ hperm htold.flip
    obtain ⟨t, ht, hsum'⟩ := ReviewStats.exists_ofReviews htold'.flip
      fun r hr => hsaid r (hperm'.mem_iff.1 hr)
    exact ⟨t, ht, hsum.agree hsum' hperm'.symm⟩
  case commits =>
    intro commits dates htold hdates
    obtain ⟨first, hfirst, hearliest⟩ := exists_earliestCommit htold hdates
    refine ⟨first, hearliest, ?_⟩
    intro detail stub owner name
    refine ⟨?_, fun carried hcarried =>
      Record.assemble_eq hfirst (carriedCommitDate_of_carries hcarried)⟩
    intro r hr hsome
    cases first with
    | none => cases hsome
    | some m => exact Record.firstCommit_of_assemble hfirst hr

def eastern : Moment := ⟨⟨2024, 1, 15, by decide⟩, 37800000000, some 7200000000, by decide⟩
def western : Moment := ⟨⟨2024, 1, 15, by decide⟩, 32400000000, some 0, by decide⟩

def easternText : Payload := "2024-01-15T10:30:00+02:00"
def westernText : Payload := "2024-01-15T09:00:00Z"

def reviewOf (login date verdict : Option Payload) : Payload :=
  .object ((login.map fun l => ("author".toList, Payload.object [("login".toList, l)])).toList ++
    (date.map fun d => ("submittedAt".toList, d)).toList ++
    (verdict.map fun v => ("state".toList, v)).toList)

def fourReviews : List Payload :=
  [reviewOf (some "octocat") (some westernText) none,
    reviewOf none none (some "CHANGES_REQUESTED"),
    reviewOf (some "hubot") (some easternText) (some "COMMENTED"),
    reviewOf (some "octocat") none (some "APPROVED")]

def fourSayings : List Review :=
  [⟨some "octocat", some western, .null⟩, ⟨none, none, "CHANGES_REQUESTED"⟩,
    ⟨some "hubot", some eastern, "COMMENTED"⟩, ⟨some "octocat", none, "APPROVED"⟩]

def commitOf (hand : String) (date : Payload) : Payload :=
  .object [("commit".toList, .object [(hand.toList, .object [("date".toList, date)])])]

def threeCommits : List Payload :=
  [commitOf "committer" westernText, .object [], commitOf "author" easternText]

theorem firsts_of_told_eastern :
    (∃ s t, ReviewStats.ofReviews fourReviews = .ok s ∧ s.SumUp fourSayings ∧
      ReviewStats.ofReviews fourReviews.reverse = .ok t ∧ s.Agree t) ∧
    ∃ first, IsEarliest [western, eastern] first ∧
      Record.assemble (.object [("id".toList, .int 1)]) (.object [("number".toList, .int 7)])
        "octocat" "hello" threeCommits =
      (fun r => { r with firstCommit := first.or none }) <$>
        Record.assemble (.object [("id".toList, .int 1)]) (.object [("number".toList, .int 7)])
          "octocat" "hello" [] := by
  obtain ⟨hreviews, hcommits⟩ := firsts_of_told
  constructor
  · have htold : List.Forall₂ Review.IsToldBy fourSayings fourReviews :=
      .cons ⟨_, _, rfl, rfl, rfl, rfl, rfl⟩ <| .cons ⟨_, _, rfl, rfl, rfl, rfl, rfl⟩ <|
        .cons ⟨_, _, rfl, rfl, rfl, rfl, rfl⟩ <| .cons ⟨_, _, rfl, rfl, rfl, rfl, rfl⟩ .nil
    obtain ⟨s, hs, hsum, hperm⟩ := hreviews _ _ htold (by decide)
    obtain ⟨t, ht, hagree⟩ := hperm _ (List.reverse_perm _)
    exact ⟨s, t, hs, hsum, ht, hagree⟩
  · have htold : List.Forall₂ CommitTells threeCommits [some western, none, some eastern] :=
      .cons ⟨_, _, rfl, rfl, rfl⟩ <| .cons ⟨_, _, rfl, rfl, rfl⟩ <| .cons ⟨_, _, rfl, rfl, rfl⟩ .nil
    obtain ⟨first, hfirst, hassemble⟩ := hcommits _ _ htold (by decide)
    exact ⟨first, hfirst, (hassemble _ _ _ _).2 none ⟨_, rfl, .inl ⟨rfl, rfl⟩⟩⟩

end PullGauge
