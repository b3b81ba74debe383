import Mathlib
import PullGauge.Proofs.Cache.Loss
import PullGauge.Proofs.Pipeline.Course
import PullGauge.Proofs.Pipeline.Search

/-!
# Searches that fail

Whatever a search met on its way, as long as it has no result it leaves the cache of results as
it was, but for an entry that had expired when it was looked up. What its errands have kept are
complete lists of commits, also if one of them failed or the search was given up while they went
on. A refused query does nothing at all.
-/

namespace PullGauge

namespace Pipeline

variable {S T : Type} [Service S] [TimeScale T]

/-- What a search without a result may have left in the caches. -/
structure NoTrace (c : Client) (w w' : World S T) (deeds : List (Deed T)) : Prop where
  results : (w'.caches .search).entries.Sublist (w.caches .search).entries
  unexpired : ∀ e ∈ (w.caches .search).entries, e ∈ (w'.caches .search).entries ∨
    ∃ x ∈ Deed.events .search deeds, e.isExpired x.time = true
  commits : w'.caches .commit = (w.caches .commit).run (Deed.events .commit deeds)
  listings : ∀ e ∈ (w'.caches .commit).entries, e ∈ (w.caches .commit).entries ∨
    IsListing c deeds e.key e.data e.life
  /-- A list of commits is gone only if its time was over, if it was read anew, or if it stood
  first in a full cache. -/
  dropped : ∀ e ∈ (w.caches .commit).entries, e ∈ (w'.caches .commit).entries ∨
    ∃ before x after, Deed.events .commit deeds = before ++ x :: after ∧
      ((w.caches .commit).run before).Loses e x
  rest : ∀ s, s ≠ .search → s ≠ .commit → w'.caches s = w.caches s

variable {c : Client} {query : Text} {o : Client.SearchOptions} {deeds : List (Deed T)}

theorem Course.events_eq {out : Option (Outcome SearchResult)} (h : Course query o deeds out)
    (hopen : ∀ result, out ≠ some (.ok result)) :
    Deed.events .search deeds = [] ∨
      ∃ time key, Deed.events .search deeds = [⟨time, .get key⟩] := by
  cases h with
  | refused => exact .inl rfl
  | ready => exact .inl rfl
  | @found sanitized time => exact .inr ⟨time, Key.search sanitized o, Deed.events_looked ..⟩
  | @missed sanitized time _ _ hquery huses hout =>
    refine .inr ⟨time, Key.search sanitized o, ?_⟩
    rw [← Deed.events_uses, huses, Deed.events_looked, Deed.events_nil]
  | @kept sanitized time later _ result => exact absurd rfl (hopen result)

omit [TimeScale T] in
theorem events_eq_nil {s : Shelf} (hsearch : s ≠ .search) (hcommit : s ≠ .commit)
    (hgrown : Rule.Grows (fun h d => Searching h d ∨ Chore c h d) [] deeds) :
    Deed.events s deeds = [] := by
  refine List.filterMap_eq_nil_iff.2 fun d hd => ?_
  obtain ⟨before, after, hsplit⟩ := List.append_of_mem hd
  have hrule := hgrown.rule_of_split hsplit
  cases d with
  | exchanged r reply => rfl
  | looked t time key found =>
    refine if_neg ?_
    rintro rfl
    rcases hrule with hrule | ⟨-, hrule⟩
    · exact hsearch hrule
    · cases t <;> first | exact hcommit rfl | exact hrule.elim
  | stored t time key data life =>
    refine dif_neg ?_
    rintro rfl
    rcases hrule with hrule | ⟨-, hrule⟩
    · exact hsearch hrule
    · cases t <;> first | exact hcommit rfl | exact hrule.elim

omit [TimeScale T] in
theorem isListing_of_stored (hgrown : Rule.Grows (fun h d => Searching h d ∨ Chore c h d) [] deeds)
    {time : T} {key : Text} {data : Option (List Payload)} {life : Option T}
    (hmem : .stored .commit time key data life ∈ deeds) : IsListing c deeds key data life := by
  obtain ⟨before, after, hsplit⟩ := List.append_of_mem hmem
  rcases hgrown.rule_of_split hsplit with hrule | ⟨-, hrule⟩
  · cases hrule
  · rw [hsplit]
    exact IsListing.later hrule (List.prefix_append _ _)

/-- A search that fails, or that is still on its way, leaves no trace among the results; and if
its query is refused, it does nothing. -/
theorem search_leaves_no_trace {others : World S T → World S T → Prop}
    (hothers : ∀ w w', others w w' → w'.caches = w.caches) {w w' : World S T}
    (hkeys : ∀ s, (w.caches s).keys.Nodup) {u : Undertaking SearchResult}
    (hrun : Undertaking.Run others (Undertaking.start (search c query o)) w deeds u w')
    (hopen : ∀ result, u.strand.outcome? ≠ some (.ok result)) :
    NoTrace c w w' deeds ∧
      ∀ f, u.strand.outcome? = some (.error f) → f.refusesQuery = true →
        (∀ r, .exchanged r (.error (.crashed f)) ∉ deeds) → deeds = [] ∧ w'.caches = w.caches := by
  obtain ⟨hgrown, hcourse⟩ := course_of_run hrun
  have hcaches (s : Shelf) : w'.caches s = (w.caches s).run (Deed.events s deeds) :=
    hrun.caches_eq fun w w' h => congrFun (hothers w w' h) s
  have hread : Cache.setKeys (Deed.events .search deeds) = [] := by
    rcases hcourse.events_eq hopen with hnone | ⟨time, key, hget⟩
    · rw [hnone]
      rfl
    · rw [hget]
      rfl
  refine ⟨⟨?_, ?_, hcaches .commit, ?_, ?_, ?_⟩, ?_⟩
  · rw [hcaches]
    exact Cache.run_sublist hread
  · intro e he
    rw [hcaches]
    refine (Cache.mem_run_or (hkeys .search) he _).imp_right ?_
    rintro ⟨before, x, after, hsplit, hlost⟩
    refine ⟨x, by simp [hsplit], ?_⟩
    rcases hcourse.events_eq hopen with hnone | ⟨time, key, hget⟩
    · rw [hnone] at hsplit
      simp at hsplit
    · have hx : x ∈ Deed.events .search deeds := by simp [hsplit]
      rw [hget, List.mem_singleton] at hx
      subst hx
      exact hlost.2
  · intro e he
    rw [hcaches] at he
    refine (Cache.mem_of_mem_run he).imp_right fun hevent => ?_
    exact isListing_of_stored hgrown (Deed.stored_mem_of_event hevent)
  · intro e he
    rw [hcaches]
    exact Cache.mem_run_or (hkeys .commit) he _
  · intro s hsearch hcommit
    rw [hcaches, events_eq_nil hsearch hcommit hgrown]
    rfl
  · intro f hf hrefuses hcalm
    have hnone : deeds = [] := by
      rw [hf] at hcourse
      cases hcourse with
      | refused => rfl
      | found hquery hout => rcases hout with hout | hout <;> cases hout
      | missed hquery huses hout =>
        obtain hout | ⟨f', hout, hforeign⟩ := hout
        · cases hout
        · cases hout
          obtain ⟨r, hr⟩ := hforeign hrefuses
          exact absurd hr (hcalm r)
    refine ⟨hnone, funext fun s => ?_⟩
    rw [hcaches, hnone]
    rfl

def barePulls : FixedService where
  reply r :=
    if r.body.isSome then
      (Directory.service (fun _ _ _ =>
        .shown [("pullRequest".toList, .object [("title".toList, .text "x")])])
          (Selection.writeAll pullFields)).reply r
    else Site.twoPulls.service.reply r

/-- The lists of commits were kept before the records could not be assembled. -/
theorem search_barePulls :
    ∃ (w w' : World FixedService (Number Float)) (deeds : List (Deed (Number Float))) (f : Fault),
      Undertaking.Run (fun w w' => w'.caches = w.caches)
        (Undertaking.start (search Site.twoPulls.guest "is:pr" {})) w deeds
        ⟨.going (.failed f), []⟩ w' ∧
      NoTrace Site.twoPulls.guest w w' deeds ∧ (w'.caches .commit).size = 2 := by
  let w : World FixedService (Number Float) := .fresh barePulls 2
  let last := World.run (search Site.twoPulls.guest "is:pr" {}) w
  obtain ⟨f, hf⟩ : ∃ f, last.1 = .error f := Outcome.exists_error (by decide +kernel)
  have hlast : (Talk.ofOutcome last.1 : Plan SearchResult) = .failed f := by
    rw [hf]
    rfl
  obtain ⟨deeds, hrun⟩ : ∃ deeds, Undertaking.Run (fun w w' => w'.caches = w.caches)
      (Undertaking.start (search Site.twoPulls.guest "is:pr" {})) w deeds
      ⟨.going (.failed f), []⟩ last.2 := hlast ▸ Undertaking.exists_run _ w
  have hkeys (s : Shelf) : (w.caches s).keys.Nodup := List.nodup_nil
  have htrace := search_leaves_no_trace (fun _ _ h => h) hkeys hrun (by rintro result ⟨⟩)
  exact ⟨w, last.2, deeds, f, hrun, htrace.1, by decide +kernel⟩

end Pipeline

end PullGauge
