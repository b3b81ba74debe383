import Mathlib
import PullGauge.Proofs.Exchange.Interleaving
import PullGauge.Proofs.Pipeline.Keys
import PullGauge.Proofs.Pipeline.OneByOne
import PullGauge.Proofs.Record.Address

/-!
# Searches that run at the same time

The caches that searches share hold under each key what asking for it one by one comes to:
as no two lookups share a key, an entry can be taken for an answer by whichever search finds
it. This stands at every step of every search, so a search that is done has the result of the
same search made one by one, however the steps of others lay between its own, and whatever the
caches have kept, dropped or let expire on the way.
-/

namespace PullGauge

theorem Client.pullCommits_congr {J : Type} {number number' : Payload}
    (h : number.display = number'.display) (c : Client) (owner name : Text) :
    (c.pullCommits owner name number : Talk J (List Payload)) = c.pullCommits owner name number' := by
  unfold Client.pullCommits
  rw [h]

theorem Resolved.slash_notMem_of_alone {directory : Directory} {stub : Payload} {r : Resolved}
    (h : alone directory stub = .ok (some r)) : '/' ∉ r.owner ∧ '/' ∉ r.name := by
  obtain ⟨⟨owner, name, ref⟩, hplace, h⟩ := Outcome.exists_of_bind h
  obtain ⟨number, -, h⟩ := Outcome.exists_of_bind h
  have hr : withDetail stub owner name (directory owner name number).detail = some r :=
    Except.ok.inj h
  have hsame : r.owner = owner ∧ r.name = name := by
    unfold withDetail at hr
    split at hr
    · cases hr
    · obtain rfl := Option.some.inj hr
      exact ⟨rfl, rfl⟩
  obtain ⟨⟨url, hurl⟩, -⟩ := PullRef.ofStub_eq_ok hplace
  rw [hsame.1, hsame.2]
  exact slash_notMem_of_repositoryOf hurl

variable {J T : Type} [TimeScale T]

namespace Site

variable {site : Site} {w : World FixedService T} {directory : Directory}

theorem mapM_record? {stubs : List Payload} {results : List (Option Resolved)}
    {records : List Record} (hresults : stubs.mapM (Resolved.alone directory) = .ok results)
    (hrecords : results.reduceOption.mapM (site.recordOf w) = .ok records) :
    ∃ found, stubs.mapM (site.record? w directory) = .ok found ∧ found.reduceOption = records := by
  rw [Outcome.mapM_eq_ok_iff] at hresults
  induction hresults generalizing records with
  | nil =>
    obtain rfl := Except.ok.inj hrecords
    exact ⟨[], rfl, rfl⟩
  | @cons stub result stubs results hstub hrest ih =>
    cases result with
    | none =>
      obtain ⟨found, hfound, hsame⟩ := ih hrecords
      rw [Outcome.mapM_eq_ok_iff] at hfound
      have hnone : site.record? w directory stub = .ok none := by
        unfold record?
        rw [hstub]
        rfl
      exact ⟨none :: found, Outcome.mapM_eq_ok_iff.2 (.cons hnone hfound), hsame⟩
    | some r =>
      rw [List.reduceOption_cons_of_some, Outcome.mapM_eq_ok_iff, List.forall₂_cons_left_iff]
        at hrecords
      obtain ⟨record, more, hrecord, hmore, rfl⟩ := hrecords
      obtain ⟨found, hfound, hsame⟩ := ih (Outcome.mapM_eq_ok_iff.2 hmore)
      rw [Outcome.mapM_eq_ok_iff] at hfound
      have hsome : site.record? w directory stub = .ok (some record) := by
        unfold record?
        rw [hstub]
        dsimp only [bind, Except.bind]
        rw [hrecord]
        rfl
      refine ⟨some record :: found, Outcome.mapM_eq_ok_iff.2 (.cons hsome hfound), ?_⟩
      rw [List.reduceOption_cons_of_some, hsame]

/-- Under a key the caches hold what asking one by one comes to for whatever has this key. -/
def terms (site : Site) (w : World FixedService T) (directory : Directory) : Terms where
  replies := site.Replies
  holds
    | .commit, key, (listed : List Payload) => ∀ owner name number, '/' ∉ owner → '/' ∉ name →
      Key.commits owner name number = key → site.commitsOf w owner name number = .ok listed
    | .search, key, (result : SearchResult) => ∀ query (o : Client.SearchOptions), o.IsDocumented →
      Key.search query o = key → site.resultOf w directory query o = .ok result
    | .user, _, _ => True
    | .repository, _, _ => True

variable {job : J → (Outcome Payload → Prop) → Prop}

theorem answers_commits (hw : w.service = site.service) (settings : Client.Settings)
    {owner name : Text} (ho : '/' ∉ owner) (hn : '/' ∉ name) (number : Payload) :
    (Pipeline.commits (site.client settings) owner name number : Talk J _).Answers
      (site.terms w directory) job fun listed =>
        site.commitsOf w owner name number = .ok listed := by
  unfold Pipeline.commits
  refine Talk.answers_find_bind ?_
  intro found hfound
  cases found with
  | some kept =>
    exact Talk.answers_say_bind (Talk.answers_done (hfound kept rfl owner name number ho hn rfl))
  | none =>
    have hasked : (Client.pullCommits (site.client settings) owner name number : Talk J _).Mirrors
        (site.terms w directory) job w (site.guest.pullCommits owner name number) :=
      Client.mirrors_pullCommits rfl hw (site.base_client settings) (site.pageLimit_client settings)
        owner name number
    refine Talk.Answers.bind hasked ?_
    intro listed hrun
    have hlisted : site.commitsOf w owner name number = .ok listed := congrArg Prod.fst hrun
    refine Talk.answers_store_bind ?_ (Talk.answers_done hlisted)
    -- whoever finds the entry asks under the same key, and so for the same pull request
    intro kept hkept owner' name' number' howner hname hkey
    obtain rfl := Option.some.inj hkept
    obtain ⟨rfl, rfl, hnumber⟩ := Key.commits_inj howner ho hname hn hkey
    rw [← hlisted, commitsOf, commitsOf, Client.pullCommits_congr hnumber]

def Fetched (site : Site) (w : World FixedService T) (r : Resolved) (o : Outcome Payload) : Prop :=
  ∀ p, o = .ok p → ∃ listed, p = .list listed ∧ site.commitsFor w r = .ok listed

theorem meets_commitsErrand (hw : w.service = site.service) (settings : Client.Settings)
    {r : Resolved} (ho : '/' ∉ r.owner) (hn : '/' ∉ r.name) :
    Talk.ErrandMeets (site.terms w directory) (Pipeline.commitsErrand (site.client settings) r)
      (site.Fetched w r) := by
  unfold Pipeline.commitsErrand
  refine Talk.answers_lift_bind ?_
  intro number hnumber
  refine (answers_commits hw settings ho hn number).bind ?_
  intro listed hlisted
  refine Talk.answers_done ⟨listed, rfl, ?_⟩
  unfold commitsFor
  rw [hnumber]
  exact hlisted

theorem mapM_recordOf {chunk : List Resolved} {fetched : List (Outcome Payload)}
    (h : List.Forall₂ (site.Fetched w) chunk fetched) {records : List Record}
    (hrecords : (chunk.zip fetched).mapM (fun (r, f) => Pipeline.recordOf r f) = .ok records) :
    chunk.mapM (site.recordOf w) = .ok records := by
  induction h generalizing records with
  | nil => exact hrecords
  | @cons r f chunk fetched hr hrest ih =>
    rw [List.zip_cons_cons, Outcome.mapM_eq_ok_iff, List.forall₂_cons_left_iff] at hrecords
    obtain ⟨record, more, hrecord, hmore, rfl⟩ := hrecords
    obtain ⟨p, hp, hrecord⟩ := Outcome.exists_of_bind hrecord
    obtain ⟨listed, rfl, hlisted⟩ := hr p hp
    have hsame : site.recordOf w r = .ok record := by
      unfold recordOf
      rw [hlisted]
      exact hrecord
    have hall := ih (Outcome.mapM_eq_ok_iff.2 hmore)
    exact Outcome.mapM_eq_ok_iff.2 (.cons hsame (Outcome.mapM_eq_ok_iff.1 hall))

theorem answers_enrichChunk (hw : w.service = site.service) (settings : Client.Settings)
    (index : Nat) {chunk : List Resolved} (hchunk : ∀ r ∈ chunk, '/' ∉ r.owner ∧ '/' ∉ r.name) :
    (Pipeline.enrichChunk (site.client settings) index chunk).Answers (site.terms w directory)
      (Talk.ErrandMeets (site.terms w directory)) fun records =>
        chunk.mapM (site.recordOf w) = .ok records := by
  unfold Pipeline.enrichChunk
  refine Talk.answers_say_bind ?_
  refine ⟨chunk.map (site.Fetched w), ?_, ?_⟩
  · rw [List.forall₂_map_left_iff, List.forall₂_map_right_iff, List.forall₂_same]
    exact fun r hr => meets_commitsErrand hw settings (hchunk r hr).1 (hchunk r hr).2
  · intro fetched hfetched sent
    rw [List.forall₂_map_left_iff] at hfetched
    exact Talk.answers_ofOutcome fun records hrecords => mapM_recordOf hfetched hrecords

theorem answers_enrichChunks (hw : w.service = site.service) (settings : Client.Settings)
    (index : Nat) {all : List (List Resolved)}
    (hall : ∀ r ∈ all.flatten, '/' ∉ r.owner ∧ '/' ∉ r.name) :
    (Pipeline.enrichChunks (site.client settings) index all).Answers (site.terms w directory)
      (Talk.ErrandMeets (site.terms w directory)) fun records =>
        all.flatten.mapM (site.recordOf w) = .ok records := by
  induction all generalizing index with
  | nil => exact Talk.answers_done rfl
  | cons chunk all ih =>
    rw [List.flatten_cons] at hall ⊢
    have hchunk : ∀ r ∈ chunk, '/' ∉ r.owner ∧ '/' ∉ r.name := fun r hr =>
      hall r (List.mem_append_left _ hr)
    have hmore : ∀ r ∈ all.flatten, '/' ∉ r.owner ∧ '/' ∉ r.name := fun r hr =>
      hall r (List.mem_append_right _ hr)
    unfold Pipeline.enrichChunks
    refine (answers_enrichChunk hw settings index hchunk).bind ?_
    intro first hfirst
    refine (ih (index + 1) hmore).bind ?_
    intro rest hrest
    exact Talk.answers_done (Outcome.mapM_append_eq_ok_iff.2 ⟨first, rest, hfirst, hrest, rfl⟩)

theorem answers_ofStubs {c : Client} {selection : Text}
    (hanswers : c.AnswersFrom site.Replies selection directory) {size : Int} (hsize : 1 ≤ size)
    (stubs : List Payload) :
    (Resolved.ofStubs c selection size stubs : Talk J _).Answers (site.terms w directory) job
      fun resolved => ∃ results, stubs.mapM (Resolved.alone directory) = .ok results ∧
        resolved = results.reduceOption := by
  refine Talk.Meets.answers (Resolved.meets_ofStubs hanswers hsize stubs) ?_
  rintro sent resolved ⟨batches, rfl, -, -, places, hplaces, rfl, -⟩
  exact ⟨_, Resolved.mapM_alone_eq_ok_iff.2 ⟨_, List.rel_flatten hplaces, rfl⟩, rfl⟩

theorem answers_searchAfresh (hw : w.service = site.service) (settings : Client.Settings)
    (hanswers : (site.client settings).AnswersFrom site.Replies
      (Selection.writeAll Pipeline.pullFields) directory)
    (query : Text) (o : Client.SearchOptions) :
    (Pipeline.searchAfresh (site.client settings) query o).Answers (site.terms w directory)
      (Talk.ErrandMeets (site.terms w directory)) fun result =>
        site.resultOf w directory query o = .ok result := by
  unfold Pipeline.searchAfresh
  have hasked : (Client.searchPage (site.client settings) query o true : Plan _).Mirrors
      (site.terms w directory) (Talk.ErrandMeets (site.terms w directory)) w
      (site.guest.searchPage query o true) :=
    Client.mirrors_searchPage rfl hw (site.base_client settings) query o true
  refine Talk.Answers.bind hasked ?_
  intro page hrun
  have hpage : site.pageOf w query o = .ok page := congrArg Prod.fst hrun
  refine Talk.answers_lift_bind ?_
  intro stubs hstubs
  obtain ⟨size, -, hstubs⟩ := Outcome.exists_of_bind hstubs
  refine (answers_ofStubs hanswers (by decide) stubs).bind ?_
  rintro resolved ⟨results, hresults, rfl⟩
  refine Talk.answers_lift_bind ?_
  intro all hall
  -- the chunks put together are what was resolved, so the order is that of the page
  have hparts := (chunks_eq_ok_iff.1 hall).2.joined
  have hslash : ∀ r ∈ all.flatten, '/' ∉ r.owner ∧ '/' ∉ r.name := by
    intro r hr
    rw [hparts, List.reduceOption_mem_iff] at hr
    obtain ⟨stub, -, hstub⟩ := Outcome.exists_of_mem_mapM hresults hr
    exact Resolved.slash_notMem_of_alone hstub
  refine (answers_enrichChunks hw settings 0 hslash).bind ?_
  intro records hrecords
  rw [hparts] at hrecords
  obtain ⟨found, hfound, rfl⟩ := mapM_record? hresults hrecords
  refine Talk.answers_done ?_
  unfold resultOf
  rw [hpage]
  dsimp only [bind, Except.bind]
  rw [hstubs]
  dsimp only
  rw [hfound]
  rfl

theorem answers_search (hw : w.service = site.service) (settings : Client.Settings)
    (hanswers : (site.client settings).AnswersFrom site.Replies
      (Selection.writeAll Pipeline.pullFields) directory)
    (query : Text) {o : Client.SearchOptions} (ho : o.IsDocumented) :
    (Pipeline.search (site.client settings) query o).Answers (site.terms w directory)
      (Talk.ErrandMeets (site.terms w directory)) fun result =>
        site.search w directory query o = .ok result := by
  unfold Pipeline.search
  refine Talk.answers_lift_bind ?_
  intro sanitized hsanitized
  have hsearch : site.search w directory query o = site.resultOf w directory sanitized o := by
    unfold search
    rw [hsanitized]
    rfl
  rw [hsearch]
  refine Talk.answers_find_bind ?_
  intro found hfound
  cases found with
  | some kept =>
    exact Talk.answers_say_bind (Talk.answers_done (hfound kept rfl sanitized o ho rfl))
  | none =>
    refine (answers_searchAfresh hw settings hanswers sanitized o).bind ?_
    intro result hresult
    refine Talk.answers_store_bind ?_ (Talk.answers_done hresult)
    -- documented orders keep the key from standing for another search
    intro kept hkept query' o' ho' hkey
    obtain rfl := Option.some.inj hkept
    obtain ⟨rfl, rfl⟩ := Key.search_inj ho' ho hkey
    exact hresult

theorem answersFrom_client {selection : Text}
    (h : site.guest.AnswersFrom site.Replies selection directory) (settings : Client.Settings) :
    (site.client settings).AnswersFrom site.Replies selection directory := by
  refine h.of_base (site.base_client settings) ?_
  intro document r r' reply _ halike hreply
  rw [Replies, ← halike.method, ← halike.url, ← halike.body]
  exact hreply

structure Inquiry where
  settings : Client.Settings
  query : Text
  options : Client.SearchOptions

def planOf (site : Site) (k : Inquiry) : Plan SearchResult :=
  Pipeline.search (site.client k.settings) k.query k.options

/-- Any number of searches at one site share caches that were empty at first. They may begin at
any time and take their steps in any order, the errands of each among them, the clocks may show
anything, and the caches may drop what they hold. A search that is done has the result of the
same search made one by one by a guest: the totals of the page, and in the order of the page one
record for each stub with a detail. -/
theorem search_of_reaches
    (hanswers : site.guest.AnswersFrom site.Replies (Selection.writeAll Pipeline.pullFields)
      directory)
    (hservice : w.service = site.service) (hempty : ∀ s, (w.caches s).entries = [])
    {c : Crowd Inquiry FixedService T SearchResult}
    (hreach : Crowd.Reaches site.planOf (fun k => k.options.IsDocumented) ⟨w, []⟩ c)
    {k : Inquiry} {result : SearchResult} (hdone : (k, .going (.done result)) ∈ c.strands) :
    site.search w directory k.query k.options = .ok result := by
  have hreply (s : FixedService) (r : Request) (hs : s = site.service) :
      (site.terms w directory).replies r (Service.answer s r).1 ∧
        (Service.answer s r).2 = site.service := by
    subst hs
    exact ⟨rfl, rfl⟩
  have hplan (k : Inquiry) (hk : k.options.IsDocumented) :
      (Strand.going (site.planOf k)).Yields (site.terms w directory)
        fun result => site.search w directory k.query k.options = .ok result :=
    answers_search hservice k.settings (answersFrom_client hanswers k.settings) k.query hk
  have hcoherent : w.Coherent (site.terms w directory) := by
    intro s e he
    rw [hempty s] at he
    cases he
  exact Crowd.good_of_reaches hreply hplan hcoherent hservice hreach hdone

def firstPull : Payload :=
  .object [("id".toList, .text "PR_7"), ("title".toList, .text "first")]

def secondPull : Payload :=
  .object [("id".toList, .text "PR_8"), ("title".toList, .text "second")]

def namedPulls : Directory := fun _ _ number =>
  .shown [("pullRequest".toList, if number = 7 then firstPull else secondPull)]

def commitOn (date : Text) : Payload :=
  .object [("commit".toList, .object [("author".toList, .object [("date".toList, .text date)])])]

/-- A site with one page of search results, on which there are two pull requests. The commits of
the first one come on two pages, the earliest on the second page. -/
def twoPulls : Site where
  base := probe.base
  pageLimit := 10
  answer method url body :=
    match body with
    | some document =>
      (namedPulls.service (Selection.writeAll Pipeline.pullFields)).reply
        ⟨method, url, [], some document⟩
    | none =>
      if url.path = "/search/issues".toList then
        .ok ⟨200, [], .json (.object [("total_count".toList, .int 2), ("items".toList,
          .list [Resolved.stubAt "/repos/a/b" 7, Resolved.stubAt "/repos/a/b" 8])])⟩
      else if url.path = "/repos/a/b/pulls/8/commits".toList then
        .ok ⟨200, [], .json (.list [commitOn "2024-01-05T00:00:00Z"])⟩
      else if url.query = some "page=2".toList then
        .ok ⟨200, [], .json (.list [commitOn "2024-01-02T00:00:00Z"])⟩
      else
        .ok ⟨200, [("Link".toList,
            "<https://api.github.com/repos/a/b/pulls/7/commits?page=2>; rel=\"next\"".toList)],
          .json (.list [commitOn "2024-01-04T00:00:00Z"])⟩

theorem answersFrom_twoPulls :
    twoPulls.guest.AnswersFrom twoPulls.Replies (Selection.writeAll Pipeline.pullFields)
      namedPulls := by
  have hbase : twoPulls.guest.base = probe.base := rfl
  refine (answersFrom_service namedPulls _).of_base hbase ?_
  intro document r r' reply hasks halike hreply
  obtain ⟨-, -, -, hr⟩ := Client.requestFor_eq_ok_iff.1 hasks
  have hbody : r.body = some (.object [("query".toList, .text document)]) := by rw [hr]
  refine ⟨_, rfl, ?_⟩
  rw [Replies, hbody] at hreply
  rw [hreply]
  show (namedPulls.service _).reply r' = _
  unfold twoPulls Directory.service
  dsimp only
  rw [← halike.body, hbody]

def brief (r : Record) : Bool × Bool × Option Nat :=
  (r.title.isText "first", r.title.isText "second", r.firstCommit.map fun m => m.date.day)

/-- Of two who search for the same, the one finds in caches of one entry what the other left
there. -/
theorem search_of_reaches_twice :
    ∃ (w : World FixedService (Number Float))
      (c : Crowd Inquiry FixedService (Number Float) SearchResult) (first second : SearchResult),
      (∀ s, (w.caches s).entries = []) ∧
        Crowd.Reaches twoPulls.planOf (fun k => k.options.IsDocumented) ⟨w, []⟩ c ∧
        c.strands = [(⟨{ token := "one" }, "is:pr", {}⟩, .going (.done first)),
          (⟨{ token := "two" }, "is:pr", {}⟩, .going (.done second))] ∧
        twoPulls.search w namedPulls "is:pr" {} = .ok first ∧ second = first ∧
        first.records.map brief = [(true, false, some 2), (false, true, some 5)] := by
  let w : World FixedService (Number Float) := .fresh twoPulls.service 1
  let one : Inquiry := ⟨{ token := "one" }, "is:pr", {}⟩
  let two : Inquiry := ⟨{ token := "two" }, "is:pr", {}⟩
  have hdocumented : ({} : Client.SearchOptions).IsDocumented := by decide
  let told : List (Bool × Bool × Option Nat) := [(true, false, some 2), (false, true, some 5)]
  have hbrief : (World.run (twoPulls.planOf one) w).1.toOption.map (·.records.map brief) =
      some told := by decide +kernel
  obtain ⟨first, hfirst, htold⟩ := Option.map_eq_some_iff.1 hbrief
  have hagain : (World.run (twoPulls.planOf two)
      (World.run (twoPulls.planOf one) w).2).1.toOption.map (·.records.map brief) =
      some told := by decide +kernel
  obtain ⟨second, hsecond, -⟩ := Option.map_eq_some_iff.1 hagain
  have hcalls : Crowd.Reaches twoPulls.planOf (fun k => k.options.IsDocumented) ⟨w, []⟩
      ⟨w, [(one, .going (twoPulls.planOf one)), (two, .going (twoPulls.planOf two))]⟩ :=
    .tail (.single (.call one hdocumented)) (.call two hdocumented)
  have hone := @Crowd.reaches_run _ _ _ _ _ _ twoPulls.planOf (fun k => k.options.IsDocumented) one []
    [(two, .going (twoPulls.planOf two))] (twoPulls.planOf one) w
  have htwo := @Crowd.reaches_run _ _ _ _ _ _ twoPulls.planOf (fun k => k.options.IsDocumented) two
    [(one, .going (Talk.ofOutcome (World.run (twoPulls.planOf one) w).1))] []
    (twoPulls.planOf two) (World.run (twoPulls.planOf one) w).2
  rw [Outcome.eq_ok_of_toOption hfirst] at hone htwo
  rw [Outcome.eq_ok_of_toOption hsecond] at htwo
  have hreach := hcalls.trans (hone.trans htwo)
  have hempty : ∀ s, (w.caches s).entries = [] := fun _ => rfl
  have hresult {k : Inquiry} {result : SearchResult} (hdone : (k, .going (.done result)) ∈
      [(one, Strand.going (.done first)), (two, .going (.done second))]) :
      twoPulls.search w namedPulls k.query k.options = .ok result :=
    search_of_reaches answersFrom_twoPulls rfl hempty hreach hdone
  have hone := @hresult one first (by simp)
  have htwo := @hresult two second (by simp)
  exact ⟨w, _, first, second, hempty, hreach, rfl, hone, Except.ok.inj (htwo.symm.trans hone),
    htold⟩

end Site

end PullGauge
