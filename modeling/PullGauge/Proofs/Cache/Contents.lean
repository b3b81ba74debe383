import Mathlib
import PullGauge.Proofs.Cache.Loss

/-!
# What a cache holds

Of the events so far only some sets still count: those whose key was not set anew and after
which nothing was cleared. A cache always holds a part of them, in the order in which they
were made. As long as nothing has a time to live, it holds as many of the latest as fit.
-/

namespace PullGauge.Cache

variable {T V : Type}

/-- Whether an earlier set of the key no longer counts after the event. -/
def Event.voids (key : Text) (x : Event T V) : Bool :=
  match x.act with
  | .set other _ _ => decide (other = key)
  | .clear => true
  | _ => false

/-- The sets that no later event voids, in the order in which they were made. -/
def lastSets : List (Event T V) → List (Entry T V)
  | [] => []
  | ⟨time, .set key data life⟩ :: later =>
    if later.any (Event.voids key) then lastSets later
    else ⟨key, data, time, life⟩ :: lastSets later
  | _ :: later => lastSets later

theorem voids_eq_false_iff {key : Text} {x : Event T V} :
    x.voids key = false ↔ x.setKey? ≠ some key ∧ x.act ≠ .clear := by
  obtain ⟨time, act⟩ := x
  cases act <;> simp [Event.voids, Event.setKey?]

theorem lastSets_concat (events : List (Event T V)) (x : Event T V) :
    lastSets (events ++ [x]) =
      (lastSets events).filter (fun e => !x.voids e.key) ++ lastSets [x] := by
  induction events with
  | nil => rfl
  | cons y events ih =>
    obtain ⟨time, act⟩ := y
    cases act with
    | set key data life =>
      simp only [List.cons_append, lastSets, List.any_append, List.any_cons, List.any_nil,
        Bool.or_false, ih]
      cases hlater : events.any (Event.voids key) <;> cases hx : x.voids key <;> simp [hx]
    | get key => exact ih
    | contains key => exact ih
    | clear => exact ih

theorem lastSets_concat_set (events : List (Event T V)) (time : T) (key : Text) (data : Option V)
    (life : Option T) :
    lastSets (events ++ [⟨time, .set key data life⟩]) =
      (lastSets events).filter (fun e => e.key != key) ++ [⟨key, data, time, life⟩] := by
  rw [lastSets_concat]
  congr 1
  apply List.filter_congr
  intro e _
  simp [Event.voids, bne, Bool.beq_eq_decide_eq, eq_comm]

theorem lastSets_concat_read {x : Event T V} (hx : x.setKey? = none) (hc : x.act ≠ .clear)
    (events : List (Event T V)) : lastSets (events ++ [x]) = lastSets events := by
  have hvoids (key : Text) : x.voids key = false := voids_eq_false_iff.2 ⟨by simp [hx], hc⟩
  have hnone : lastSets [x] = [] := by
    obtain ⟨time, act⟩ := x
    cases act with
    | set key data life => cases hx
    | _ => rfl
  simp [lastSets_concat, hvoids, hnone]

theorem lastSets_concat_clear (events : List (Event T V)) (time : T) :
    lastSets (events ++ [⟨time, .clear⟩]) = [] := by
  simp [lastSets_concat, Event.voids, lastSets]

theorem mem_lastSets_iff {events : List (Event T V)} {e : Entry T V} :
    e ∈ lastSets events ↔ ∃ since, IsLastSet events e since := by
  induction events using List.reverseRecOn with
  | nil =>
    constructor
    · nofun
    · rintro ⟨since, ⟨before, hsplit⟩, -, -⟩
      simp at hsplit
  | append_singleton events x ih =>
    rw [lastSets_concat, List.mem_append, List.mem_filter]
    constructor
    · rintro (⟨he, hvoids⟩ | he)
      · obtain ⟨since, hlast⟩ := ih.1 he
        have hkeeps := voids_eq_false_iff.1 (by simpa using hvoids)
        exact ⟨since ++ [x], hlast.concat hkeeps.1 hkeeps.2⟩
      · have hx : x = e.event := by
          obtain ⟨time, act⟩ := x
          cases act <;> simp_all [lastSets, Entry.event]
        exact ⟨[], hx ▸ isLastSet_concat_event events e⟩
    · rintro ⟨since, hlast⟩
      rcases hlast.of_concat with ⟨-, rfl⟩ | ⟨rest, -, hrest, hkey, hclear⟩
      · exact .inr (by simp [lastSets, Entry.event])
      · exact .inl ⟨ih.2 ⟨rest, hrest⟩, by simp [voids_eq_false_iff.2 ⟨hkey, hclear⟩]⟩

theorem nodup_keys_lastSets (events : List (Event T V)) :
    ((lastSets events).map Entry.key).Nodup := by
  have hlater (key : Text) (later : List (Event T V)) (h : later.any (Event.voids key) = false) :
      key ∉ (lastSets later).map Entry.key := by
    rw [List.any_eq_false] at h
    intro hkey
    obtain ⟨e, he, rfl⟩ := List.mem_map.1 hkey
    obtain ⟨since, ⟨before, rfl⟩, -, -⟩ := mem_lastSets_iff.1 he
    exact h e.event (by simp) (by simp [Event.voids, Entry.event])
  induction events with
  | nil => exact List.nodup_nil
  | cons x later ih =>
    obtain ⟨time, act⟩ := x
    cases act with
    | set key data life =>
      rw [lastSets]
      split_ifs with h
      · exact ih
      · rw [List.map_cons, List.nodup_cons]
        exact ⟨hlater key later (by simpa using h), ih⟩
    | get key => exact ih
    | contains key => exact ih
    | clear => exact ih

structure Represents (c : Cache T V) (events : List (Event T V)) : Prop where
  room : 1 ≤ c.capacity
  size_le : c.size ≤ c.capacity
  sublist : c.entries.Sublist (lastSets events)

theorem Represents.nodup {c : Cache T V} {events : List (Event T V)} (h : c.Represents events) :
    c.keys.Nodup :=
  (nodup_keys_lastSets events).sublist (h.sublist.map Entry.key)

theorem entries_of_make? {capacity : Int} {c : Cache T V} (h : make? capacity = some c) :
    c.entries = [] := by
  unfold make? at h
  split_ifs at h
  obtain rfl := Option.some.inj h
  rfl

theorem represents_of_make? {capacity : Int} {c : Cache T V} (h : make? capacity = some c) :
    c.Represents [] := by
  have hempty := entries_of_make? h
  refine ⟨?_, by simp [size, hempty], by simp [hempty]⟩
  have hcapacity := capacity_of_make? h
  unfold make? at h
  split_ifs at h
  omega

theorem Represents.set {c : Cache T V} {events : List (Event T V)} (h : c.Represents events)
    (now : T) (key : Text) (data : Option V) (life : Option T) :
    (c.set now key data life).Represents (events ++ [⟨now, .set key data life⟩]) := by
  refine ⟨h.room, size_set_le h.size_le h.room now key data life, ?_⟩
  have hkept : (c.kept key).filter (fun e => e.key != key) = c.kept key := by
    apply List.filter_eq_self.2
    intro e he
    simpa using key_ne_of_mem_kept he
  rw [entries_set, lastSets_concat_set, ← hkept]
  exact (((kept_sublist c key).trans h.sublist).filter _).append_right _

theorem Represents.of_sublist {c d : Cache T V} {events : List (Event T V)} (h : c.Represents events)
    (hcapacity : d.capacity = c.capacity) (hentries : d.entries.Sublist c.entries) :
    d.Represents events :=
  ⟨hcapacity ▸ h.room, hcapacity ▸ hentries.length_le.trans h.size_le, hentries.trans h.sublist⟩

variable [Add T] [LT T] [DecidableLT T]

theorem Represents.read {c : Cache T V} {events : List (Event T V)} (h : c.Represents events)
    {x : Event T V} (hx : x.setKey? = none) (hc : x.act ≠ .clear) :
    (c.apply x).Represents (events ++ [x]) := by
  have hsame := h.of_sublist (capacity_run c [x]) (apply_sublist hx)
  exact ⟨hsame.room, hsame.size_le, lastSets_concat_read hx hc events ▸ hsame.sublist⟩

theorem Represents.apply {c : Cache T V} {events : List (Event T V)} (h : c.Represents events)
    (x : Event T V) : (c.apply x).Represents (events ++ [x]) := by
  obtain ⟨now, act⟩ := x
  cases act with
  | set key data life => exact h.set now key data life
  | get key => exact h.read rfl nofun
  | contains key => exact h.read rfl nofun
  | clear => exact ⟨h.room, Nat.zero_le _, List.nil_sublist _⟩

theorem Represents.run {c : Cache T V} (h : c.Represents []) (events : List (Event T V)) :
    (c.run events).Represents events := by
  induction events using List.reverseRecOn with
  | nil => exact h
  | append_singleton events x ih =>
    rw [run_concat]
    exact ih.apply x

omit [Add T] [LT T] [DecidableLT T] in
theorem notMem_keys_set_iff {c : Cache T V} (hnodup : c.keys.Nodup) {other key : Text}
    (hother : other ∈ c.keys) (hne : other ≠ key) (now : T) (data : Option V) (life : Option T) :
    other ∉ (c.set now key data life).keys ↔
      key ∉ c.keys ∧ c.capacity ≤ c.size ∧ c.keys.head? = some other := by
  rw [keys_set, List.mem_append, List.mem_singleton, or_iff_left hne, ← hasKey_iff]
  by_cases hkey : c.hasKey key = true
  · simp [hkey, hother, hne]
  · by_cases hroom : c.size < c.capacity
    · simp [hkey, hroom, hother]
    · cases hkeys : c.keys with
      | nil => simp [hkeys] at hother
      | cons first rest =>
        rw [hkeys, List.nodup_cons] at hnodup
        rw [hkeys, List.mem_cons] at hother
        simp only [hkey, hroom, if_false, List.drop_one, List.tail_cons, List.head?_cons,
          Option.some.injEq, not_false_eq_true, true_and, Bool.false_eq_true, not_lt.1 hroom]
        constructor
        · intro hrest
          exact (hother.resolve_right hrest).symm
        · rintro rfl
          exact hnodup.1

def AreLasting (events : List (Event T V)) : Prop :=
  ∀ x ∈ events, ∀ key data life, x.act = .set key data life → life = none

/-- The entries are as many of the last sets as fit. -/
structure HoldsLatest (c : Cache T V) (events : List (Event T V)) : Prop where
  suffix : c.entries <:+ lastSets events
  size_eq : c.size = min c.capacity (lastSets events).length

omit [Add T] [LT T] [DecidableLT T] in
theorem length_filter_key {entries : List (Entry T V)} (hnodup : (entries.map Entry.key).Nodup)
    {key : Text} (hkey : key ∈ entries.map Entry.key) :
    (entries.filter fun e => e.key != key).length + 1 = entries.length := by
  have hmap : (entries.filter fun e => e.key != key).map Entry.key =
      (entries.map Entry.key).erase key := by
    rw [hnodup.erase_eq_filter, List.filter_map]
    rfl
  calc (entries.filter fun e => e.key != key).length + 1
      = ((entries.map Entry.key).erase key).length + 1 := by rw [← hmap, List.length_map]
    _ = entries.length := by rw [List.length_erase_add_one hkey, List.length_map]

omit [Add T] [LT T] [DecidableLT T] in
theorem HoldsLatest.set {c : Cache T V} {events : List (Event T V)} (h : c.HoldsLatest events)
    (hroom : 1 ≤ c.capacity) (now : T) (key : Text) (data : Option V) (life : Option T) :
    (c.set now key data life).HoldsLatest (events ++ [⟨now, .set key data life⟩]) := by
  have hall := nodup_keys_lastSets events
  have hsize := h.size_eq
  have hfilter := h.suffix.filter fun e => e.key != key
  -- what stays ends what stays of the last sets, and one more entry fills the cache at most
  have hkept : c.kept key <:+ (lastSets events).filter (fun e => e.key != key) ∧
      (c.kept key).length + 1 =
        min c.capacity (((lastSets events).filter fun e => e.key != key).length + 1) := by
    by_cases hkey : c.hasKey key = true
    · have hmem := (hasKey_iff c key).1 hkey
      have hheld := length_filter_key (hall.sublist (h.suffix.sublist.map _)) hmem
      have hlast := length_filter_key hall ((h.suffix.sublist.map _).subset hmem)
      rw [size] at hsize
      rw [kept, if_pos hkey]
      refine ⟨hfilter, ?_⟩
      show (c.entries.filter fun e => e.key != key).length + 1 = _
      omega
    · have hsame : c.entries.filter (fun e => e.key != key) = c.entries := by
        apply List.filter_eq_self.2
        intro e he
        have hne : e.key ≠ key := by
          rintro rfl
          exact hkey ((hasKey_iff c e.key).2 (List.mem_map_of_mem he))
        simpa using hne
      rw [hsame] at hfilter
      have hle := hfilter.length_le
      have hge := List.length_filter_le (fun e : Entry T V => e.key != key) (lastSets events)
      rw [size] at hsize
      rw [kept, if_neg hkey]
      split_ifs with hfull
      · exact ⟨hfilter, by omega⟩
      · refine ⟨(List.drop_suffix 1 _).trans hfilter, ?_⟩
        rw [List.length_drop]
        omega
  refine ⟨?_, ?_⟩
  · rw [entries_set, lastSets_concat_set]
    exact (List.suffix_append_self_iff).2 hkept.1
  · rw [size, entries_set, lastSets_concat_set, List.length_append, List.length_append]
    exact hkept.2

theorem HoldsLatest.read {c : Cache T V} {events : List (Event T V)} (h : c.HoldsLatest events)
    (hlasting : AreLasting events) {x : Event T V} (hx : x.setKey? = none) (hc : x.act ≠ .clear) :
    (c.apply x).HoldsLatest (events ++ [x]) := by
  have hsame (key : Text) : (c.get x.time key).2 = c := by
    rcases get_snd_cases c x.time key with hsame | ⟨-, e, hfound, hexpired⟩
    · exact hsame
    · have he := h.suffix.subset (List.mem_of_find?_eq_some hfound)
      obtain ⟨since, ⟨before, rfl⟩, -, -⟩ := mem_lastSets_iff.1 he
      have hlife := hlasting e.event (by simp) e.key e.data e.life rfl
      simp [Entry.isExpired, hlife] at hexpired
  have hstays : c.apply x = c := by
    obtain ⟨now, act⟩ := x
    cases act with
    | set key data life => cases hx
    | get key => exact hsame key
    | contains key => exact hsame key
    | clear => exact absurd rfl hc
  rw [hstays]
  exact ⟨lastSets_concat_read hx hc events ▸ h.suffix,
    lastSets_concat_read hx hc events ▸ h.size_eq⟩

theorem HoldsLatest.apply {c : Cache T V} {events : List (Event T V)} (h : c.HoldsLatest events)
    (hroom : 1 ≤ c.capacity) (hlasting : AreLasting events) (x : Event T V) :
    (c.apply x).HoldsLatest (events ++ [x]) := by
  obtain ⟨now, act⟩ := x
  cases act with
  | set key data life => exact h.set hroom now key data life
  | get key => exact h.read hlasting rfl nofun
  | contains key => exact h.read hlasting rfl nofun
  | clear =>
    refine ⟨List.nil_suffix, ?_⟩
    rw [lastSets_concat_clear]
    exact (Nat.min_zero _).symm

theorem HoldsLatest.run {c : Cache T V} (h : c.HoldsLatest []) (hroom : 1 ≤ c.capacity)
    {events : List (Event T V)} (hlasting : AreLasting events) :
    (c.run events).HoldsLatest events := by
  induction events using List.reverseRecOn with
  | nil => exact h
  | append_singleton events x ih =>
    have hbefore : AreLasting events := fun y hy => hlasting y (List.mem_append_left _ hy)
    rw [run_concat]
    exact (ih hbefore).apply (capacity_run c events ▸ hroom) hbefore x

/-- Whatever was done to a cache and whenever, it holds no more than fits, under distinct keys,
and its entries are sets that still count, each with what was set and when, in the order in
which they were made. Setting a key takes away another one only if the cache is full and lacks
the key, and then the one that was set longest ago. Where nothing has a time to live, the cache
holds exactly the latest sets that fit. -/
theorem run_make?_holds {capacity : Int} (hc : 1 ≤ capacity) :
    ∃ c : Cache T V, make? capacity = some c ∧ ∀ events : List (Event T V),
      ((c.run events).size : Int) ≤ capacity ∧ (c.run events).keys.Nodup ∧
      (c.run events).entries.Sublist (lastSets events) ∧
      (∀ now key data life, ∀ other ∈ (c.run events).keys, other ≠ key →
        (other ∉ ((c.run events).set now key data life).keys ↔
          key ∉ (c.run events).keys ∧ ((c.run events).size : Int) = capacity ∧
            (c.run events).keys.head? = some other)) ∧
      (AreLasting events → (c.run events).entries = (lastSets events).rtake capacity.toNat) := by
  obtain ⟨c, hmake⟩ : ∃ c : Cache T V, make? capacity = some c := ⟨_, if_pos hc⟩
  refine ⟨c, hmake, ?_⟩
  intro events
  have hcapacity := capacity_of_make? hmake
  have hstart := represents_of_make? hmake
  have hrun := hstart.run events
  have hsize := hrun.size_le
  rw [capacity_run] at hsize
  refine ⟨by omega, hrun.nodup, hrun.sublist, ?_, ?_⟩
  · intro now key data life other hother hne
    have hfull : c.capacity ≤ (c.run events).size ↔ ((c.run events).size : Int) = capacity := by
      omega
    rw [notMem_keys_set_iff hrun.nodup hother hne now data life, capacity_run, hfull]
  · intro hlasting
    have hempty := entries_of_make? hmake
    have hnone : c.HoldsLatest [] := ⟨by simp [hempty], by simp [size, hempty, lastSets]⟩
    obtain ⟨hsuffix, hlength⟩ := hnone.run hstart.room hlasting
    rw [size, capacity_run] at hlength
    rw [List.suffix_iff_eq_drop.1 hsuffix, List.rtake]
    congr 1
    omega

def busy : List (Event Int Nat) :=
  [⟨0, .set "a" (some 1) none⟩, ⟨1, .set "b" (some 2) none⟩, ⟨2, .set "a" (some 3) none⟩,
    ⟨1, .get "b"⟩, ⟨4, .set "c" none none⟩]

theorem run_busy_holds :
    ∃ c : Cache Int Nat, make? 2 = some c ∧ (c.run busy).keys = ["a".toList, "c".toList] ∧
      "a".toList ∉ ((c.run busy).set 5 "d" (some 4) none).keys := by
  obtain ⟨c, hmake, hholds⟩ := @run_make?_holds Int Nat _ _ _ 2 (by decide)
  obtain ⟨-, -, -, hdrops, hlatest⟩ := hholds busy
  have hlasting : AreLasting busy := by
    intro x hx key data life hset
    simp only [busy, List.mem_cons, List.not_mem_nil, or_false] at hx
    rcases hx with rfl | rfl | rfl | rfl | rfl <;> cases hset <;> rfl
  have hkeys : (c.run busy).keys = ["a".toList, "c".toList] := by
    rw [keys, hlatest hlasting]
    decide
  have hsize : (c.run busy).size = 2 := by rw [← length_keys, hkeys]; rfl
  refine ⟨c, hmake, hkeys, (hdrops 5 "d" (some 4) none "a" ?_ (by decide)).2 ?_⟩
  · simp [hkeys]
  · exact ⟨by simp [hkeys], by simp [hsize], by rw [hkeys]; rfl⟩

end PullGauge.Cache
