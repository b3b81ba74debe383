import Mathlib
import PullGauge.Proofs.Query.RoundTrip

/-!
# Normal forms of queries

To normalize a query is to read it and to write what was read. A value that stood between
quotes is written without them and may come apart into several words, so one pass need not
settle; but what is read from a written query can stand without quotes, and from there on
every pass gives the query itself.
-/

namespace PullGauge

namespace Bounds

theorem isDated_refine {b : Bounds} (hb : b.IsDated) (value : Text) :
    (b.refine value).IsDated := by
  obtain ⟨first, last, rfl⟩ := hb
  have hor (t : Text) (d : Option Date) :
      (Bound.read? t).or (d.map .day) = ((Date.read? (t.take 10)).or d).map .day :=
    Option.map_or.symm
  unfold refine
  split
  · exact ⟨_, _, by rw [hor, hor]⟩
  · split
    · exact ⟨_, last, by rw [hor]⟩
    · exact ⟨first, _, by rw [hor]⟩
    · exact ⟨first, last, rfl⟩

theorem isDated_foldl {b : Bounds} (hb : b.IsDated) (values : List Text) :
    (values.foldl refine b).IsDated := by
  induction values generalizing b with
  | nil => exact hb
  | cons v values ih => exact ih (isDated_refine hb v)

theorem isDated_of_mem_ofValues {values : List Text} : ∀ b ∈ ofValues values, b.IsDated := by
  intro b hb
  have hd := isDated_foldl ⟨none, none, rfl⟩ values
  unfold ofValues settle at hb
  split at hb
  · simp at hb
  · obtain rfl := Option.some.inj hb
    exact hd

end Bounds

namespace Filter

def normalize (query : Text) : Outcome Text := (read query).write

def names (f : Filter) : List Text :=
  f.authors ++ f.reviewers ++ f.repositories ++ f.assignees ++ f.involves

theorem standingOf_ne_other (words : List Text) (w : Text) : standingOf words ≠ .other w := by
  unfold standingOf
  split_ifs <;> nofun

theorem isDated_read (query : Text) : (read query).IsDated :=
  ⟨standingOf_ne_other _, Bounds.isDated_of_mem_ofValues, Bounds.isDated_of_mem_ofValues⟩

theorem entries_read {query v : Text} (hv : v ∈ (read query).entries) : v ≠ [] ∧ '"' ∉ v := by
  rw [read_eq_ofQualifiers] at hv
  refine ⟨?_, not_mem_quote_of_mem_entries hv⟩
  simp only [entries, ofQualifiers, List.mem_append] at hv
  rcases hv with ((((hv | hv) | hv) | hv) | hv) | hv
  · exact (Qualifier.mem_valuesOf hv).1
  · exact (Qualifier.mem_valuesOf hv).1
  · exact (Qualifier.mem_valuesOf hv).1
  · exact (mem_labelsOf hv).1
  · exact (Qualifier.mem_valuesOf hv).1
  · exact (Qualifier.mem_valuesOf hv).1

theorem mem_entries_of_mem_names {f : Filter} {v : Text} (hv : v ∈ f.names) : v ∈ f.entries := by
  simp only [names, entries, List.mem_append] at hv ⊢
  tauto

theorem survives_of_names {query : Text} (h : ∀ v ∈ (read query).names, v.IsPlain) :
    (read query).Survives := by
  have hbare (v : Text) (hv : v ∈ (read query).names) : IsBare v :=
    ⟨(entries_read (mem_entries_of_mem_names hv)).1, h v hv⟩
  constructor
  · exact fun v hv => hbare v (by simp [names, hv])
  · exact fun v hv => hbare v (by simp [names, hv])
  · exact fun v hv => hbare v (by simp [names, hv])
  · exact fun l hl => @entries_read query l (by simp [entries, hl])
  · exact fun v hv => hbare v (by simp [names, hv])
  · exact fun v hv => hbare v (by simp [names, hv])
  · exact Bounds.settle_ne _
  · exact Bounds.settle_ne _

theorem normalize_of_survives {query : Text} (h : (read query).Survives) :
    ∃ t, normalize query = .ok t ∧ normalize t = .ok t := by
  obtain ⟨t, hw, hr⟩ := exists_write_of_survives (isDated_read query) h
  exact ⟨t, hw, by rw [normalize, hr, hw]⟩

theorem exists_normalize (query : Text) :
    ∃ t, normalize query = .ok t ∧ (read t).Survives := by
  obtain ⟨c₁, c₂, u₁, u₂, -, -, hw⟩ := write_eq (isDated_read query)
  refine ⟨_, hw, survives_of_tidy (tidy_parts (isDated_read query) ?_ ?_ ?_)⟩
  · exact fun v hv => (entries_read hv).2
  · exact fun v hv => (Bounds.isPlain_endValues hv).2
  · exact fun v hv => (Bounds.isPlain_endValues hv).2

/-- Two passes settle every query, and one pass does if no name holds a blank or a
parenthesis. -/
theorem normalize_settles (query : Text) :
    (∀ v ∈ (read query).entries, v ≠ [] ∧ '"' ∉ v) ∧
    ∃ once twice, normalize query = .ok once ∧ normalize once = .ok twice ∧
      normalize twice = .ok twice ∧
      ((∀ v ∈ (read query).names, ∀ c ∈ v, Text.isBlank c = false ∧ Token.isParen c = false) →
        twice = once) := by
  refine ⟨fun v hv => entries_read hv, ?_⟩
  obtain ⟨once, ho, hs⟩ := exists_normalize query
  obtain ⟨twice, ht, hfix⟩ := normalize_of_survives hs
  refine ⟨once, twice, ho, ht, hfix, fun hn => ?_⟩
  have hplain (v : Text) (hv : v ∈ (read query).names) : v.IsPlain := by
    intro c hc
    obtain ⟨hb, hp⟩ := hn v hv c hc
    refine ⟨?_, by rw [Token.isSeparator, hb, hp]; rfl⟩
    rintro rfl
    exact (entries_read (mem_entries_of_mem_names hv)).2 hc
  obtain ⟨t, hq, hfixed⟩ := normalize_of_survives (survives_of_names hplain)
  obtain rfl : once = t := Except.ok.inj (ho.symm.trans hq)
  exact Except.ok.inj (ht.symm.trans hfixed)

end Filter

end PullGauge
