import Mathlib
import PullGauge.Proofs.Cache.History

/-!
# What a cache loses

An entry is lost when it is read after its life, when its key is set anew, when everything is
cleared, or when it stands first in a full cache and another key is set. Nothing else takes an
entry away, and only a set brings one.
-/

namespace PullGauge.Cache

variable {T V : Type} {c : Cache T V} {e : Entry T V}

theorem mem_set_or (he : e ∈ c.entries) (now : T) (key : Text) (data : Option V)
    (life : Option T) :
    e ∈ (c.set now key data life).entries ∨ e.key = key ∨ c.evicted? key = some e.key := by
  by_cases hkey : e.key = key
  · exact .inr (.inl hkey)
  · rw [entries_set, List.mem_append]
    unfold kept
    by_cases hhas : c.hasKey key = true
    · rw [if_pos hhas]
      exact .inl (.inl (List.mem_filter.2 ⟨he, by simpa using hkey⟩))
    · rw [if_neg hhas]
      by_cases hroom : c.entries.length < c.capacity
      · rw [if_pos hroom]
        exact .inl (.inl he)
      · -- in a full cache only what stands first has to go
        have hevicted : c.evicted? key = c.keys.head? := if_neg (by simp [hhas, hroom])
        rw [if_neg hroom, hevicted, keys]
        cases hentries : c.entries with
        | nil =>
          rw [hentries] at he
          cases he
        | cons first rest =>
          rw [hentries, List.mem_cons] at he
          rcases he with rfl | he
          · exact .inr (.inr rfl)
          · exact .inl (.inl he)

variable [Add T] [LT T] [DecidableLT T]

def Loses (c : Cache T V) (e : Entry T V) (x : Event T V) : Prop :=
  match x.act with
  | .set key _ _ => e.key = key ∨ c.evicted? key = some e.key
  | .get key => e.key = key ∧ e.isExpired x.time = true
  | .contains key => e.key = key ∧ e.isExpired x.time = true
  | .clear => True

theorem nodup_keys_apply (h : c.keys.Nodup) (x : Event T V) : (c.apply x).keys.Nodup := by
  obtain ⟨now, act⟩ := x
  cases act with
  | set key data life => exact nodup_keys_set h now key data life
  | get key => exact nodup_keys_get h now key
  | contains key => exact nodup_keys_get h now key
  | clear => exact List.nodup_nil

theorem nodup_keys_run (h : c.keys.Nodup) (events : List (Event T V)) :
    (c.run events).keys.Nodup := by
  induction events using List.reverseRecOn with
  | nil => exact h
  | append_singleton events x ih =>
    rw [run_concat]
    exact nodup_keys_apply ih x

theorem apply_sublist {x : Event T V} (hx : x.setKey? = none) :
    (c.apply x).entries.Sublist c.entries := by
  obtain ⟨now, act⟩ := x
  cases act with
  | set key data life => cases hx
  | get key => exact get_sublist c now key
  | contains key => exact get_sublist c now key
  | clear => exact List.nil_sublist _

theorem run_sublist {events : List (Event T V)} (h : setKeys events = []) :
    (c.run events).entries.Sublist c.entries := by
  induction events using List.reverseRecOn with
  | nil => exact .refl _
  | append_singleton events x ih =>
    rw [setKeys, List.filterMap_append, List.append_eq_nil_iff] at h
    rw [run_concat]
    refine (apply_sublist ?_).trans (ih h.1)
    simpa using h.2

theorem mem_of_mem_apply {x : Event T V} (he : e ∈ (c.apply x).entries) :
    e ∈ c.entries ∨ e.event = x := by
  cases hx : x.setKey? with
  | none => exact .inl ((apply_sublist hx).subset he)
  | some k =>
    obtain ⟨now, act⟩ := x
    cases act with
    | set key data life =>
      rw [Cache.apply, entries_set, List.mem_append, List.mem_singleton] at he
      rcases he with he | rfl
      · exact .inl ((kept_sublist c key).subset he)
      · exact .inr rfl
    | _ => cases hx

theorem mem_of_mem_run {events : List (Event T V)} (he : e ∈ (c.run events).entries) :
    e ∈ c.entries ∨ e.event ∈ events := by
  induction events using List.reverseRecOn with
  | nil => exact .inl he
  | append_singleton events x ih =>
    rw [run_concat] at he
    rcases mem_of_mem_apply he with he | rfl
    · exact (ih he).imp_right (List.mem_append_left _)
    · exact .inr (by simp)

theorem mem_get_or (hn : c.keys.Nodup) (he : e ∈ c.entries) (now : T) (key : Text) :
    e ∈ (c.get now key).2.entries ∨ e.key = key ∧ e.isExpired now = true := by
  rcases get_snd_cases c now key with hsame | ⟨herase, d, hfind, hexpired⟩
  · exact .inl (by rwa [hsame])
  · by_cases hkey : e.key = key
    · have hfound := find?_of_mem hn he
      rw [hkey, hfind] at hfound
      obtain rfl := Option.some.inj hfound
      exact .inr ⟨hkey, hexpired⟩
    · rw [herase]
      exact .inl (List.mem_filter.2 ⟨he, by simpa using hkey⟩)

theorem mem_apply_or (hn : c.keys.Nodup) (he : e ∈ c.entries) (x : Event T V) :
    e ∈ (c.apply x).entries ∨ c.Loses e x := by
  obtain ⟨now, act⟩ := x
  cases act with
  | set key data life => exact mem_set_or he now key data life
  | get key => exact mem_get_or hn he now key
  | contains key => exact mem_get_or hn he now key
  | clear => exact .inr trivial

theorem mem_run_or (hn : c.keys.Nodup) (he : e ∈ c.entries) (events : List (Event T V)) :
    e ∈ (c.run events).entries ∨
      ∃ before x after, events = before ++ x :: after ∧ (c.run before).Loses e x := by
  induction events using List.reverseRecOn with
  | nil => exact .inl he
  | append_singleton events x ih =>
    rw [run_concat]
    rcases ih with hstays | ⟨before, y, after, rfl, hlost⟩
    · refine (mem_apply_or (nodup_keys_run hn events) hstays x).imp_right fun hlost => ?_
      exact ⟨events, x, [], rfl, hlost⟩
    · exact .inr ⟨before, y, after ++ [x], by simp, hlost⟩

end PullGauge.Cache
