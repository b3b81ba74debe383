import Mathlib
import PullGauge.Record.Assembly
import PullGauge.Proofs.Metrics.Summaries

/-!
# Coherent records

The state of a record and the end of its pull request are read on separate ways from what the
service says, and the timeline repeats four dates of the record. In a record that was assembled
they agree: what is open has not ended, and what was merged or closed has. So a summary of such
records counts each of them once: as open, as finished, or as a draft that has not ended.
-/

namespace PullGauge

theorem isSome_of_timestamp {p : Payload} {date : Option Moment} (h : timestamp p = .ok date) :
    date.isSome = p.isPresent := by
  unfold timestamp at h
  split_ifs at h with hp
  · obtain ⟨t, -, h⟩ := Outcome.exists_of_bind h
    cases hread : Moment.read? (Text.replaceChar 'Z' "+00:00" t) with
    | none =>
      rw [hread] at h
      cases h
    | some m =>
      rw [hread] at h
      cases h
      simp [hp]
  · cases h
    simpa using hp

namespace Record

/-- The state fits the end, and the timeline holds the dates of the record. -/
structure IsCoherent (r : Record) : Prop where
  isService : r.state ∈ [.opened, .closed, .merged, .draft]
  notEnded : r.state = .opened → r.closed = none
  ended : r.state = .merged ∨ r.state = .closed → r.closed ≠ none
  timeline_eq : r.timeline =
    (r.created.map (TimelineEntry.mk "Created".toList)).toList ++
    (r.published.map (TimelineEntry.mk "Published".toList)).toList ++
    (r.firstReview.map (TimelineEntry.mk "First review".toList)).toList ++
    (r.closed.map (TimelineEntry.mk "Closed".toList)).toList

variable {detail stub : Payload} {owner name : Text} {commits : List Payload} {r : Record}

theorem parts_of_assemble (h : assemble detail stub owner name commits = .ok r) :
    stateOf detail = .ok r.state ∧
    (∃ merged stop, detail.field "mergedAt" = .ok merged ∧
      (if merged.isPresent then pure merged else detail.field "closedAt") = .ok stop ∧
      timestamp stop = .ok r.closed) ∧
    r.timeline = timelineOf r.created r.published r.firstReview r.closed := by
  unfold assemble at h
  obtain ⟨nodes, -, h⟩ := Outcome.exists_of_bind h
  obtain ⟨reviews, -, h⟩ := Outcome.exists_of_bind h
  obtain ⟨stats, -, h⟩ := Outcome.exists_of_bind h
  obtain ⟨listed, -, h⟩ := Outcome.exists_of_bind h
  extract_lets dated at h
  obtain ⟨firstCommit, h⟩ : ∃ firstCommit, dated firstCommit = .ok r := by
    cases listed with
    | none => exact (Outcome.exists_of_bind h).imp fun _ h => h.2
    | some m => exact ⟨some m, h⟩
  obtain ⟨written, -, h⟩ := Outcome.exists_of_bind h
  obtain ⟨created, -, h⟩ := Outcome.exists_of_bind h
  obtain ⟨written, -, h⟩ := Outcome.exists_of_bind h
  obtain ⟨published, -, h⟩ := Outcome.exists_of_bind h
  obtain ⟨merged, hmerged, h⟩ := Outcome.exists_of_bind h
  extract_lets ended at h
  obtain ⟨stop, hstop, h⟩ : ∃ stop,
      (if merged.isPresent then pure merged else detail.field "closedAt") = .ok stop ∧
        ended stop = .ok r := by
    split_ifs at h ⊢
    · exact ⟨merged, rfl, h⟩
    · exact Outcome.exists_of_bind h
  obtain ⟨closed, hclosed, h⟩ := Outcome.exists_of_bind h
  obtain ⟨author, -, h⟩ := Outcome.exists_of_bind h
  obtain ⟨id, -, h⟩ := Outcome.exists_of_bind h
  obtain ⟨number, -, h⟩ := Outcome.exists_of_bind h
  obtain ⟨title, -, h⟩ := Outcome.exists_of_bind h
  obtain ⟨url, -, h⟩ := Outcome.exists_of_bind h
  extract_lets named at h
  obtain ⟨authorName, h⟩ : ∃ authorName, named authorName = .ok r := by
    split_ifs at h
    · exact (Outcome.exists_of_bind h).imp fun _ h => h.2
    · exact ⟨_, h⟩
  obtain ⟨state, hstate, h⟩ := Outcome.exists_of_bind h
  obtain ⟨additions, -, h⟩ := Outcome.exists_of_bind h
  obtain ⟨deletions, -, h⟩ := Outcome.exists_of_bind h
  obtain ⟨part, -, h⟩ := Outcome.exists_of_bind h
  obtain ⟨comments, -, h⟩ := Outcome.exists_of_bind h
  cases h
  exact ⟨hstate, ⟨merged, stop, hmerged, hstop, hclosed⟩, rfl⟩

theorem timelineOf_eq (created published firstReview closed : Option Moment) :
    timelineOf created published firstReview closed =
      (created.map (TimelineEntry.mk "Created".toList)).toList ++
      (published.map (TimelineEntry.mk "Published".toList)).toList ++
      (firstReview.map (TimelineEntry.mk "First review".toList)).toList ++
      (closed.map (TimelineEntry.mk "Closed".toList)).toList := by
  cases created <;> cases published <;> cases firstReview <;> cases closed <;> rfl

theorem cases_of_stateOf {state : RecordState} {merged : Payload} (h : stateOf detail = .ok state)
    (hmerged : detail.field "mergedAt" = .ok merged) :
    state = .draft ∨ state = .merged ∧ merged.isPresent = true ∨
      merged.isPresent = false ∧ ∃ closed, detail.field "closedAt" = .ok closed ∧
        state = if closed.isPresent then .closed else .opened := by
  unfold stateOf at h
  obtain ⟨draft, -, h⟩ := Outcome.exists_of_bind h
  split_ifs at h with hdraft
  · cases h
    exact .inl rfl
  · obtain ⟨found, hfound, h⟩ := Outcome.exists_of_bind h
    rw [hmerged] at hfound
    obtain rfl := Except.ok.inj hfound
    split_ifs at h with hpresent
    · cases h
      exact .inr (.inl ⟨rfl, hpresent⟩)
    · obtain ⟨closed, hclosed, h⟩ := Outcome.exists_of_bind h
      refine .inr (.inr ⟨by simpa using hpresent, closed, hclosed, ?_⟩)
      split_ifs at h ⊢ <;> cases h <;> rfl

theorem isCoherent_of_assemble (h : assemble detail stub owner name commits = .ok r) :
    r.IsCoherent := by
  obtain ⟨hstate, ⟨merged, stop, hmerged, hstop, hclosed⟩, htimeline⟩ := parts_of_assemble h
  have hended := isSome_of_timestamp hclosed
  have htold : r.timeline = _ := htimeline.trans (timelineOf_eq ..)
  rcases cases_of_stateOf hstate hmerged with hdraft | ⟨hfinal, hthere⟩ | ⟨hnone, stop', hfield, hfinal⟩
  · exact ⟨by simp [hdraft], by simp [hdraft], by simp [hdraft], htold⟩
  · rw [if_pos hthere] at hstop
    obtain rfl := Except.ok.inj hstop
    refine ⟨by simp [hfinal], by simp [hfinal], ?_, htold⟩
    intro _ hnever
    simp [hnever, hthere] at hended
  · rw [hnone, if_neg (by simp), hfield] at hstop
    obtain rfl := Except.ok.inj hstop
    cases hthere : stop'.isPresent <;> simp only [hthere] at hended hfinal
    · have hnever : r.closed = none := by simpa using hended
      exact ⟨by simp [hfinal], fun _ => hnever, by simp [hfinal], htold⟩
    · refine ⟨by simp [hfinal], by simp [hfinal], ?_, htold⟩
      intro _ hnever
      simp [hnever] at hended

def isUnfinishedDraft (r : Record) : Bool := decide (r.state = .draft) && r.closed.isNone

end Record

namespace Summary

variable {F : Type} [Scalar F]

theorem count_of_isCoherent {r : Record} (h : r.IsCoherent) :
    (isOpen r).toNat + (isFinished r).toNat + r.isUnfinishedDraft.toNat = 1 := by
  unfold isOpen isFinished Record.isUnfinishedDraft
  have hservice := h.isService
  simp only [List.mem_cons, List.not_mem_nil, or_false] at hservice
  rcases hservice with hstate | hstate | hstate | hstate
  · simp [hstate, h.notEnded hstate]
  · have hended := h.ended (.inr hstate)
    simp [hstate, Option.isSome_iff_ne_none.2 hended]
  · have hended := h.ended (.inl hstate)
    simp [hstate, Option.isSome_iff_ne_none.2 hended]
  · cases r.closed <;> simp [hstate]

theorem length_eq_of_isCoherent {records : List Record} (h : ∀ r ∈ records, r.IsCoherent) :
    records.length = (records.filter isOpen).length + (records.filter isFinished).length +
      (records.filter Record.isUnfinishedDraft).length := by
  induction records with
  | nil => rfl
  | cons r records ih =>
    have hone := count_of_isCoherent (h r (by simp))
    have hrest := ih fun q hq => h q (by simp [hq])
    simp only [← List.countP_eq_length_filter, List.countP_cons, List.length_cons] at hrest ⊢
    rw [hrest]
    simp only [Bool.toNat, cond_eq_ite] at hone
    omega

def leadTimes (records : List Record) : Outcome (Option F × Option F) := do
  let lead ← hoursOfRecords Record.firstCommit Record.closed records
  let middle ← rounded (← median lead)
  let average ← rounded ((← mean lead).map Number.real)
  pure (middle, average)

theorem hoursOfRecords_isFinished (records : List Record) :
    (hoursOfRecords Record.firstCommit Record.closed (records.filter isFinished) :
      Outcome (List (Number F))) =
    hoursOfRecords Record.firstCommit Record.closed (records.filter fun r => !isOpen r) := by
  unfold hoursOfRecords
  congr 1
  rw [List.filterMap_filter, List.filterMap_filter]
  apply List.filterMap_congr
  intro r _
  cases hclosed : r.closed <;> simp [isFinished, isOpen, hclosed]

theorem exists_of_summarize {records : List Record} (hne : records ≠ []) {now : Moment}
    {result : Option (Summary F)} (h : summarize records now = .ok result) :
    ∃ s : Summary F, result = some s ∧ s.count = records.length ∧
      s.opened = (records.filter isOpen).length ∧ s.merged = (records.filter isFinished).length ∧
      leadTimes (records.filter fun r => !isOpen r) = .ok (s.medianLead, s.meanLead) := by
  obtain ⟨s, rfl, hs⟩ := exists_isSummary hne h
  have hlead := hs.lead
  unfold times at hlead
  rw [hoursOfRecords_isFinished] at hlead
  exact ⟨s, rfl, hs.count_eq, hs.opened_eq, hs.merged_eq, hlead⟩

/-- Records that were assembled are coherent: one that is open has no end, one that was merged
or closed has, and the timeline holds the dates that the record has. So a summary of such
records, whenever it is made, counts each of them as open, as finished or as a draft without an
end, and it takes its lead times from those that are not open. -/
theorem coherent_and_partitioned :
    (∀ detail stub owner name commits r,
      Record.assemble detail stub owner name commits = .ok r → r.IsCoherent) ∧
    ∀ records : List Record, records ≠ [] →
      (∀ r ∈ records, ∃ detail stub owner name commits,
        Record.assemble detail stub owner name commits = .ok r) →
      ∀ now (result : Option (Summary F)), summarize records now = .ok result →
        ∃ s, result = some s ∧ s.count = records.length ∧
          s.opened = (records.filter isOpen).length ∧
          s.count = s.opened + s.merged + (records.filter Record.isUnfinishedDraft).length ∧
          leadTimes (records.filter fun r => !isOpen r) = .ok (s.medianLead, s.meanLead) := by
  refine ⟨fun _ _ _ _ _ _ => Record.isCoherent_of_assemble, ?_⟩
  intro records hne hassembled now result h
  obtain ⟨s, hs, hcount, hopened, hmerged, hlead⟩ := exists_of_summarize hne h
  have hcoherent : ∀ r ∈ records, r.IsCoherent := by
    intro r hr
    obtain ⟨detail, stub, owner, name, commits, hr⟩ := hassembled r hr
    exact Record.isCoherent_of_assemble hr
  refine ⟨s, hs, hcount, hopened, ?_, hlead⟩
  rw [hcount, hopened, hmerged]
  exact length_eq_of_isCoherent hcoherent

def dated (key : String) (date : String) : Text × Payload := (key.toList, .text date.toList)

def openDetail : Payload :=
  .object [("id".toList, .int 1), dated "createdAt" "2024-01-15T10:30:00Z"]

def mergedDetail : Payload :=
  .object [("id".toList, .int 2), dated "mergedAt" "2024-01-15T10:30:00Z",
    ("commits".toList, .object [("nodes".toList, .list [.object [("commit".toList,
      .object [dated "authoredDate" "2024-01-15T07:30:00Z"])]])])]

def draftDetail : Payload := .object [("id".toList, .int 3), ("isDraft".toList, .bool true)]

def recordOf (detail : Payload) : Outcome Record :=
  Record.assemble detail (.object [("number".toList, .int 7)]) "octocat" "hello" []

def threeRecords : List Record :=
  [(recordOf openDetail).toOption.get rfl, (recordOf mergedDetail).toOption.get rfl,
    (recordOf draftDetail).toOption.get rfl]

def noon : Moment := ⟨⟨2024, 1, 20, by decide⟩, 43200000000, some 0, by decide⟩

theorem exists_summary_three : ∃ s : Summary Rat, summarize threeRecords noon = .ok (some s) := by
  obtain ⟨hours, hlead⟩ : ∃ hours : Rat, hoursOfRecords Record.firstCommit Record.closed
      (threeRecords.filter isFinished) = .ok [.real hours] := ⟨_, rfl⟩
  have hreview : (hoursOfRecords Record.published Record.firstReview threeRecords :
      Outcome (List (Number Rat))) = .ok [] := rfl
  have hmiddle : median [.real hours] = .ok (some (.real hours)) := by
    simp [median, medianBy, ordered]
  have hnone : median ([] : List (Number Rat)) = .ok none := by simp [median, medianBy, ordered]
  unfold summarize
  rw [if_neg (by decide)]
  dsimp only
  rw [hlead, hreview]
  simp only [hmiddle, hnone, Outcome.ok_bind]
  exact ⟨_, rfl⟩

theorem threeRecords_partitioned :
    ∃ s : Summary Rat, summarize threeRecords noon = .ok (some s) ∧ s.count = 3 ∧ s.opened = 1 ∧
      s.count = s.opened + s.merged + 1 := by
  obtain ⟨s, hs⟩ := exists_summary_three
  have hassembled : ∀ r ∈ threeRecords, ∃ detail stub owner name commits,
      Record.assemble detail stub owner name commits = .ok r := by
    have hget {x : Outcome Record} (h : x.toOption.isSome = true) :
        x = .ok (x.toOption.get h) :=
      Outcome.eq_ok_of_toOption (Option.some_get h).symm
    intro r hr
    simp only [threeRecords, List.mem_cons, List.not_mem_nil, or_false] at hr
    rcases hr with rfl | rfl | rfl
    · exact ⟨openDetail, _, _, _, _, hget (x := recordOf openDetail) rfl⟩
    · exact ⟨mergedDetail, _, _, _, _, hget (x := recordOf mergedDetail) rfl⟩
    · exact ⟨draftDetail, _, _, _, _, hget (x := recordOf draftDetail) rfl⟩
  obtain ⟨_, ⟨⟩, hcount, hopened, hsum, -⟩ :=
    coherent_and_partitioned.2 threeRecords (by simp [threeRecords]) hassembled noon (some s) hs
  exact ⟨s, hs, hcount, hopened, hsum⟩

end Summary

end PullGauge
