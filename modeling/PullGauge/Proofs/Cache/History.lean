import Mathlib
import PullGauge.Cache

/-!
# What a cache remembers

A cache is used by events: what a caller does, at the time that the clock showed. The set that
counts for a key is its last one since everything was cleared. Every entry is such a set, and
such a set is lost for two reasons only: it was read after its life, or so many other keys were
set behind it that it stood first when room was needed. An entry moves towards the front only
as entries behind it are set, so what stands behind it was set since.
-/

namespace PullGauge.Cache

variable {T V : Type}

inductive Act (T V : Type) where
  | set (key : Text) (data : Option V) (life : Option T)
  | get (key : Text)
  | contains (key : Text)
  | clear

structure Event (T V : Type) where
  time : T
  act : Act T V

def Event.setKey? (x : Event T V) : Option Text :=
  match x.act with
  | .set key _ _ => some key
  | _ => none

def setKeys (events : List (Event T V)) : List Text := events.filterMap Event.setKey?

@[simp] theorem setKeys_nil : setKeys ([] : List (Event T V)) = [] := rfl

@[simp]
theorem setKeys_append (a b : List (Event T V)) : setKeys (a ++ b) = setKeys a ++ setKeys b :=
  List.filterMap_append

theorem mem_setKeys_concat {events : List (Event T V)} {x : Event T V} {key : Text} :
    key ∈ setKeys (events ++ [x]) ↔ key ∈ setKeys events ∨ x.setKey? = some key := by
  simp [setKeys, List.filterMap_append]

theorem setKeys_subset_concat (events : List (Event T V)) (x : Event T V) :
    (setKeys events).toFinset ⊆ (setKeys (events ++ [x])).toFinset := by
  intro key hkey
  rw [List.mem_toFinset] at hkey ⊢
  exact mem_setKeys_concat.2 (.inl hkey)

def Entry.event (e : Entry T V) : Event T V := ⟨e.stored, .set e.key e.data e.life⟩

/-- The entry was stored last under its key, after which came `since`, with no clearing. -/
structure IsLastSet (events : List (Event T V)) (e : Entry T V) (since : List (Event T V)) :
    Prop where
  split : ∃ before, events = before ++ e.event :: since
  notSet : e.key ∉ setKeys since
  notCleared : ∀ x ∈ since, x.act ≠ .clear

theorem isLastSet_concat_event (events : List (Event T V)) (e : Entry T V) :
    IsLastSet (events ++ [e.event]) e [] :=
  ⟨⟨events, rfl⟩, by simp, by simp⟩

theorem IsLastSet.concat {events since : List (Event T V)} {e : Entry T V} {x : Event T V}
    (h : IsLastSet events e since) (hk : x.setKey? ≠ some e.key) (hc : x.act ≠ .clear) :
    IsLastSet (events ++ [x]) e (since ++ [x]) := by
  obtain ⟨before, hsplit⟩ := h.split
  refine ⟨⟨before, by simp [hsplit]⟩, ?_, ?_⟩
  · rw [mem_setKeys_concat, not_or]
    exact ⟨h.notSet, hk⟩
  · intro y hy
    rcases List.mem_append.1 hy with hy | hy
    · exact h.notCleared y hy
    · rw [List.mem_singleton.1 hy]
      exact hc

theorem IsLastSet.of_concat {events since : List (Event T V)} {e : Entry T V} {x : Event T V}
    (h : IsLastSet (events ++ [x]) e since) :
    since = [] ∧ x = e.event ∨
      ∃ rest, since = rest ++ [x] ∧ IsLastSet events e rest ∧ x.setKey? ≠ some e.key ∧
        x.act ≠ .clear := by
  obtain ⟨before, hsplit⟩ := h.split
  rcases List.eq_nil_or_concat since with rfl | ⟨rest, y, rfl⟩
  · obtain ⟨-, hx⟩ := List.append_inj' hsplit rfl
    exact .inl ⟨rfl, List.singleton_injective hx⟩
  · have happend : events ++ [x] = (before ++ e.event :: rest) ++ [y] := by simpa using hsplit
    obtain ⟨hevents, hx⟩ := List.append_inj' happend rfl
    obtain rfl := List.singleton_injective hx
    have hkey := h.notSet
    rw [List.concat_eq_append, mem_setKeys_concat, not_or] at hkey
    refine .inr ⟨rest, List.concat_eq_append .., ⟨⟨before, hevents⟩, hkey.1, ?_⟩, hkey.2, ?_⟩
    · intro z hz
      exact h.notCleared z (by simp [hz])
    · exact h.notCleared x (by simp)

def kept (c : Cache T V) (key : Text) : List (Entry T V) :=
  if c.hasKey key then (c.erase key).entries
  else if c.entries.length < c.capacity then c.entries
  else c.entries.drop 1

theorem entries_set (c : Cache T V) (now : T) (key : Text) (data : Option V) (life : Option T) :
    (c.set now key data life).entries = c.kept key ++ [⟨key, data, now, life⟩] := rfl

theorem kept_sublist (c : Cache T V) (key : Text) : (c.kept key).Sublist c.entries := by
  unfold kept
  split_ifs
  · exact List.filter_sublist
  · exact List.Sublist.refl _
  · exact List.drop_sublist 1 _

theorem key_ne_of_mem_kept {c : Cache T V} {key : Text} {e : Entry T V} (h : e ∈ c.kept key) :
    e.key ≠ key := by
  by_cases hk : c.hasKey key = true
  · rw [kept, if_pos hk, erase, List.mem_filter] at h
    simpa using h.2
  · rintro rfl
    have hmem := (kept_sublist c e.key).subset h
    exact hk ((hasKey_iff c e.key).2 (List.mem_map_of_mem hmem))

theorem nodup_keys_set {c : Cache T V} (h : c.keys.Nodup) (now : T) (key : Text)
    (data : Option V) (life : Option T) : (c.set now key data life).keys.Nodup := by
  have hkept : ((c.kept key).map Entry.key).Nodup := h.sublist ((kept_sublist c key).map _)
  rw [keys, entries_set, List.map_append, List.map_singleton, List.nodup_append]
  refine ⟨hkept, List.nodup_singleton _, ?_⟩
  intro a ha b hb
  obtain ⟨e, he, rfl⟩ := List.mem_map.1 ha
  rw [List.mem_singleton.1 hb]
  exact key_ne_of_mem_kept he

def Holds (c : Cache T V) (e : Entry T V) (since : List (Event T V)) : Prop :=
  ∃ front behind, c.entries = front ++ e :: behind ∧ ∀ x ∈ behind, x.key ∈ setKeys since

theorem Holds.mem {c : Cache T V} {e : Entry T V} {since : List (Event T V)}
    (h : c.Holds e since) : e ∈ c.entries := by
  obtain ⟨front, behind, hentries, -⟩ := h
  rw [hentries]
  exact List.mem_append_right _ (List.mem_cons_self ..)

theorem Holds.concat {c : Cache T V} {e : Entry T V} {since : List (Event T V)}
    (h : c.Holds e since) (x : Event T V) : c.Holds e (since ++ [x]) := by
  obtain ⟨front, behind, hentries, hbehind⟩ := h
  exact ⟨front, behind, hentries, fun y hy => mem_setKeys_concat.2 (.inl (hbehind y hy))⟩

theorem Holds.erase {c : Cache T V} {e : Entry T V} {since : List (Event T V)}
    (h : c.Holds e since) {key : Text} (hk : e.key ≠ key) : (c.erase key).Holds e since := by
  obtain ⟨front, behind, hentries, hbehind⟩ := h
  refine ⟨front.filter (fun x => x.key != key), behind.filter (fun x => x.key != key), ?_, ?_⟩
  · rw [Cache.erase, hentries, List.filter_append, List.filter_cons_of_pos (by simpa using hk)]
  · intro x hx
    exact hbehind x (List.mem_filter.1 hx).1

theorem Holds.kept {c : Cache T V} {e : Entry T V} {since : List (Event T V)}
    (h : c.Holds e since) {key : Text} (hk : e.key ≠ key) :
    (∃ front behind, c.kept key = front ++ e :: behind ∧ ∀ x ∈ behind, x.key ∈ setKeys since) ∨
      key ∉ c.keys ∧ ∃ behind, c.entries = e :: behind ∧ c.capacity ≤ behind.length + 1 ∧
        ∀ x ∈ behind, x.key ∈ setKeys since := by
  unfold Cache.kept
  split_ifs with hkey hroom
  · exact .inl (h.erase hk)
  · exact .inl h
  · obtain ⟨front, behind, hentries, hbehind⟩ := h
    cases front with
    | cons y front => exact .inl ⟨front, behind, by simp [hentries], hbehind⟩
    | nil =>
      refine .inr ⟨mt (hasKey_iff c key).2 hkey, behind, hentries, ?_, hbehind⟩
      rw [hentries] at hroom
      simpa using hroom

theorem length_lt_card {behind : List (Entry T V)} {since : List (Event T V)} {x : Event T V}
    {key : Text} (hx : x.setKey? = some key) (hn : (behind.map Entry.key).Nodup)
    (hk : key ∉ behind.map Entry.key) (hb : ∀ y ∈ behind, y.key ∈ setKeys since) :
    behind.length + 1 ≤ (setKeys (since ++ [x])).toFinset.card := by
  have hnodup : (key :: behind.map Entry.key).Nodup := List.nodup_cons.2 ⟨hk, hn⟩
  have hsub : (key :: behind.map Entry.key).toFinset ⊆ (setKeys (since ++ [x])).toFinset := by
    intro k hmem
    rw [List.mem_toFinset] at hmem ⊢
    rcases List.mem_cons.1 hmem with rfl | hmem
    · exact mem_setKeys_concat.2 (.inr hx)
    · obtain ⟨y, hy, rfl⟩ := List.mem_map.1 hmem
      exact mem_setKeys_concat.2 (.inl (hb y hy))
  calc behind.length + 1 = (key :: behind.map Entry.key).toFinset.card := by
        rw [List.toFinset_card_of_nodup hnodup]; simp
    _ ≤ (setKeys (since ++ [x])).toFinset.card := Finset.card_le_card hsub

theorem Holds.set {c : Cache T V} (hn : c.keys.Nodup) {e : Entry T V} {since : List (Event T V)}
    (h : c.Holds e since) {key : Text} (hk : e.key ≠ key) (now : T) (data : Option V)
    (life : Option T) :
    (c.set now key data life).Holds e (since ++ [⟨now, .set key data life⟩]) ∨
      c.capacity ≤ (setKeys (since ++ [⟨now, .set key data life⟩])).toFinset.card := by
  rcases h.kept hk with ⟨front, behind, hkept, hbehind⟩ | ⟨hkey, behind, hentries, hfull, hbehind⟩
  · refine .inl ⟨front, behind ++ [⟨key, data, now, life⟩], by simp [entries_set, hkept], ?_⟩
    intro x hx
    rcases List.mem_append.1 hx with hx | hx
    · exact mem_setKeys_concat.2 (.inl (hbehind x hx))
    · rw [List.mem_singleton.1 hx]
      exact mem_setKeys_concat.2 (.inr rfl)
  · -- it stood first in a full cache: the keys behind it were set since, and this is one more
    rw [keys, hentries, List.map_cons, List.nodup_cons] at hn
    rw [keys, hentries, List.map_cons, List.mem_cons, not_or] at hkey
    exact .inr (hfull.trans (length_lt_card rfl hn.2 hkey.2 hbehind))

theorem find?_set (c : Cache T V) (now : T) (key : Text) (data : Option V) (life : Option T) :
    (c.set now key data life).find? key = some ⟨key, data, now, life⟩ := by
  have hkept : (c.kept key).find? (fun e => e.key == key) = none := by
    rw [List.find?_eq_none]
    intro e he
    simpa using key_ne_of_mem_kept he
  rw [find?, entries_set, List.find?_append, hkept]
  simp

theorem find?_eq_none_of_notMem {c : Cache T V} {key : Text} (h : key ∉ c.keys) :
    c.find? key = none := by
  have hnot : ¬ c.hasKey key = true := mt (hasKey_iff c key).1 h
  simpa [hasKey] using hnot

theorem find?_of_mem {c : Cache T V} (hn : c.keys.Nodup) {e : Entry T V} (he : e ∈ c.entries) :
    c.find? e.key = some e := by
  unfold keys at hn
  unfold find?
  generalize c.entries = entries at hn he
  induction entries with
  | nil => cases he
  | cons x entries ih =>
    rw [List.map_cons, List.nodup_cons] at hn
    rcases List.mem_cons.1 he with rfl | hmem
    · simp
    · have hne : x.key ≠ e.key := by
        intro hk
        exact hn.1 (hk ▸ List.mem_map_of_mem hmem)
      rw [List.find?_cons_of_neg (by simpa using hne)]
      exact ih hn.2 hmem

theorem capacity_of_make? {capacity : Int} {c : Cache T V} (h : make? capacity = some c) :
    (c.capacity : Int) = capacity := by
  unfold make? at h
  split_ifs at h with hc
  obtain rfl := Option.some.inj h
  exact Int.toNat_of_nonneg (by omega)

section Times

variable [LT T]

/-- No time before the one fails to be before the other: the clock did not go back. -/
def Follows (now later : T) : Prop := ∀ t, t < now → t < later

def ClockRuns (events : List (Event T V)) (now : T) : Prop :=
  (events.map Event.time ++ [now]).Pairwise Follows

theorem Follows.trans {a b c : T} (h : Follows a b) (h' : Follows b c) : Follows a c :=
  fun t ht => h' t (h t ht)

theorem ClockRuns.later {events : List (Event T V)} {now later : T} (h : ClockRuns events now)
    (hlater : Follows now later) : ClockRuns events later := by
  unfold ClockRuns at h ⊢
  rw [List.pairwise_append] at h ⊢
  refine ⟨h.1, List.pairwise_singleton _ _, ?_⟩
  intro t ht u hu
  rw [List.mem_singleton.1 hu]
  exact (h.2.2 t ht now (List.mem_singleton_self now)).trans hlater

theorem ClockRuns.follows {events : List (Event T V)} {now : T} (h : ClockRuns events now)
    {x : Event T V} (hx : x ∈ events) : Follows x.time now :=
  (List.pairwise_append.1 h).2.2 _ (List.mem_map_of_mem hx) _ (List.mem_singleton_self now)

theorem ClockRuns.now {events more : List (Event T V)} {now : T} (h : ClockRuns events now)
    (hmore : ∀ x ∈ more, x.time = now) : ClockRuns (events ++ more) now := by
  induction more using List.reverseRecOn with
  | nil => rwa [List.append_nil]
  | append_singleton more x ih =>
    have hx : x.time = now := hmore x (by simp)
    have hbefore := ih fun y hy => hmore y (by simp [hy])
    unfold ClockRuns at hbefore ⊢
    rw [← List.append_assoc, List.map_append, List.map_singleton, hx, List.pairwise_append]
    refine ⟨hbefore, List.pairwise_singleton _ _, ?_⟩
    intro t ht u hu
    rw [List.mem_singleton.1 hu]
    rcases List.mem_append.1 ht with ht | ht
    · exact (List.pairwise_append.1 hbefore).2.2 t ht now (List.mem_singleton_self now)
    · rw [List.mem_singleton.1 ht]
      exact fun _ hlt => hlt

def Entry.IsLive [Add T] (e : Entry T V) (now : T) : Prop :=
  ∀ life ∈ e.life, ¬ e.stored + life < now

end Times

section Ordered

variable [LinearOrder T]

theorem follows_iff_le {now later : T} : Follows now later ↔ now ≤ later := by
  constructor
  · intro h
    by_contra hlt
    exact lt_irrefl _ (h later (not_le.1 hlt))
  · intro hle t ht
    exact ht.trans_le hle

theorem Entry.isLive_iff_le [Add T] (e : Entry T V) (now : T) :
    e.IsLive now ↔ ∀ life ∈ e.life, now ≤ e.stored + life := by
  simp [Entry.IsLive]

end Ordered

section Reading

variable [Add T] [LT T] [DecidableLT T]

theorem Entry.isExpired_eq_false_iff (e : Entry T V) (now : T) :
    e.isExpired now = false ↔ e.IsLive now := by
  unfold Entry.isExpired Entry.IsLive
  cases e.life with
  | none => simp
  | some life => simp

theorem Entry.isExpired_of_follows {e : Entry T V} {now later : T} (h : Follows now later)
    (he : e.isExpired now = true) : e.isExpired later = true := by
  unfold Entry.isExpired at he ⊢
  cases hl : e.life with
  | none => simp [hl] at he
  | some life =>
    simp only [hl, decide_eq_true_eq] at he ⊢
    exact h _ he

def apply (c : Cache T V) (x : Event T V) : Cache T V :=
  match x.act with
  | .set key data life => c.set x.time key data life
  | .get key => (c.get x.time key).2
  | .contains key => (c.contains x.time key).2
  | .clear => c.clear

def run (c : Cache T V) (events : List (Event T V)) : Cache T V := events.foldl apply c

theorem run_concat (c : Cache T V) (events : List (Event T V)) (x : Event T V) :
    c.run (events ++ [x]) = (c.run events).apply x := by
  simp [run]

theorem run_append (c : Cache T V) (a b : List (Event T V)) :
    c.run (a ++ b) = (c.run a).run b := List.foldl_append

theorem get_snd_cases (c : Cache T V) (now : T) (key : Text) :
    (c.get now key).2 = c ∨
      (c.get now key).2 = c.erase key ∧ ∃ e, c.find? key = some e ∧ e.isExpired now = true := by
  unfold get
  cases hf : c.find? key with
  | none => exact .inl rfl
  | some e =>
    by_cases he : e.isExpired now = true
    · exact .inr ⟨by simp [he], e, rfl, he⟩
    · exact .inl (by simp [he])

theorem capacity_get (c : Cache T V) (now : T) (key : Text) :
    (c.get now key).2.capacity = c.capacity := by
  rcases get_snd c now key with hsame | herase
  · rw [hsame]
  · rw [herase]
    rfl

theorem nodup_keys_get {c : Cache T V} (h : c.keys.Nodup) (now : T) (key : Text) :
    (c.get now key).2.keys.Nodup := by
  rcases get_snd c now key with hsame | herase
  · rwa [hsame]
  · rw [herase, keys_erase]
    exact h.filter _

theorem get_sublist (c : Cache T V) (now : T) (key : Text) :
    (c.get now key).2.entries.Sublist c.entries := by
  rcases get_snd c now key with hsame | herase
  · rw [hsame]
  · rw [herase]
    exact List.filter_sublist

theorem Holds.get {c : Cache T V} {e : Entry T V} {since : List (Event T V)} (h : c.Holds e since)
    (hn : c.keys.Nodup) (now : T) (key : Text) :
    (c.get now key).2.Holds e since ∨ e.isExpired now = true := by
  rcases get_snd_cases c now key with hsame | ⟨herase, d, hfind, hexpired⟩
  · rw [hsame]
    exact .inl h
  · rw [herase]
    by_cases hk : e.key = key
    · -- the entry that was read is the one that had expired
      have hd : c.find? key = some e := hk ▸ find?_of_mem hn h.mem
      obtain rfl := Option.some.inj (hfind.symm.trans hd)
      exact .inr hexpired
    · exact .inl (h.erase hk)

/-- The entries are last sets, and a last set is an entry unless it was read after its life or
as many keys as fit have been set since. -/
structure Recalls (c : Cache T V) (events : List (Event T V)) : Prop where
  room : 1 ≤ c.capacity
  nodup : c.keys.Nodup
  recorded : ∀ e ∈ c.entries, ∃ since, IsLastSet events e since
  kept : ∀ e since, IsLastSet events e since →
    c.Holds e since ∨ (∃ x ∈ events, e.isExpired x.time = true) ∨
      c.capacity ≤ (setKeys since).toFinset.card

theorem recalls_of_make? {capacity : Int} {c : Cache T V} (h : make? capacity = some c) :
    c.Recalls [] := by
  unfold make? at h
  split_ifs at h with hc
  obtain rfl := Option.some.inj h
  refine ⟨?_, List.nodup_nil, by simp, ?_⟩
  · show 1 ≤ capacity.toNat
    omega
  · intro e since hlast
    obtain ⟨before, hsplit⟩ := hlast.split
    simp at hsplit

theorem lost_concat {events since : List (Event T V)} {e : Entry T V} {capacity : Nat}
    (x : Event T V)
    (h : (∃ y ∈ events, e.isExpired y.time = true) ∨ capacity ≤ (setKeys since).toFinset.card) :
    (∃ y ∈ events ++ [x], e.isExpired y.time = true) ∨
      capacity ≤ (setKeys (since ++ [x])).toFinset.card := by
  rcases h with ⟨y, hy, he⟩ | hcard
  · exact .inl ⟨y, List.mem_append_left _ hy, he⟩
  · exact .inr (hcard.trans (Finset.card_le_card (setKeys_subset_concat since x)))

theorem Recalls.set {c : Cache T V} {events : List (Event T V)} (h : c.Recalls events) (now : T)
    (key : Text) (data : Option V) (life : Option T) :
    (c.set now key data life).Recalls (events ++ [⟨now, .set key data life⟩]) := by
  refine ⟨h.room, nodup_keys_set h.nodup .., ?_, ?_⟩
  · intro e he
    rw [entries_set, List.mem_append, List.mem_singleton] at he
    rcases he with he | rfl
    · obtain ⟨since, hlast⟩ := h.recorded e ((kept_sublist c key).subset he)
      have hne : some key ≠ some e.key := by
        intro hk
        exact key_ne_of_mem_kept he (Option.some.inj hk).symm
      exact ⟨_, hlast.concat hne nofun⟩
    · exact ⟨[], @isLastSet_concat_event T V events ⟨key, data, now, life⟩⟩
  · intro e since hlast
    rcases hlast.of_concat with ⟨rfl, hx⟩ | ⟨rest, rfl, hrest, hkey, -⟩
    · have he : e = ⟨key, data, now, life⟩ := by
        cases e
        cases hx
        rfl
      subst he
      exact .inl ⟨c.kept key, [], entries_set .., by simp⟩
    · have hne : e.key ≠ key := by
        rintro rfl
        exact hkey rfl
      rcases h.kept e rest hrest with hholds | hlost
      · rcases hholds.set h.nodup hne now data life with hheld | hfull
        · exact .inl hheld
        · exact .inr (.inr hfull)
      · exact .inr (lost_concat _ hlost)

theorem Recalls.read {c : Cache T V} {events : List (Event T V)} (h : c.Recalls events) (key : Text)
    {x : Event T V} (hx : x.setKey? = none) (hc : x.act ≠ .clear) :
    (c.get x.time key).2.Recalls (events ++ [x]) := by
  refine ⟨?_, nodup_keys_get h.nodup .., ?_, ?_⟩
  · rw [capacity_get]
    exact h.room
  · intro e he
    obtain ⟨since, hlast⟩ := h.recorded e ((get_sublist c x.time key).subset he)
    exact ⟨_, hlast.concat (by simp [hx]) hc⟩
  · intro e since hlast
    rw [capacity_get]
    rcases hlast.of_concat with ⟨-, rfl⟩ | ⟨rest, rfl, hrest, -, -⟩
    · cases hx
    · rcases h.kept e rest hrest with hholds | hlost
      · rcases hholds.get h.nodup x.time key with hheld | hexpired
        · exact .inl (hheld.concat x)
        · exact .inr (.inl ⟨x, by simp, hexpired⟩)
      · exact .inr (lost_concat x hlost)

theorem Recalls.clear {c : Cache T V} {events : List (Event T V)} (h : c.Recalls events) (now : T) :
    c.clear.Recalls (events ++ [⟨now, .clear⟩]) := by
  refine ⟨h.room, List.nodup_nil, by simp [Cache.clear], ?_⟩
  intro e since hlast
  rcases hlast.of_concat with ⟨-, hx⟩ | ⟨rest, -, -, -, hclear⟩
  · cases hx
  · exact absurd rfl hclear

theorem Recalls.apply {c : Cache T V} {events : List (Event T V)} (h : c.Recalls events)
    (x : Event T V) : (c.apply x).Recalls (events ++ [x]) := by
  obtain ⟨now, act⟩ := x
  cases act with
  | set key data life => exact h.set now key data life
  | get key => exact h.read key rfl nofun
  | contains key => exact h.read key rfl nofun
  | clear => exact h.clear now

theorem Recalls.run {c : Cache T V} (h : c.Recalls []) (events : List (Event T V)) :
    (c.run events).Recalls events := by
  induction events using List.reverseRecOn with
  | nil => exact h
  | append_singleton events x ih =>
    rw [run_concat]
    exact ih.apply x

theorem capacity_run (c : Cache T V) (events : List (Event T V)) :
    (c.run events).capacity = c.capacity := by
  induction events using List.reverseRecOn with
  | nil => rfl
  | append_singleton events x ih =>
    rw [run_concat, ← ih]
    obtain ⟨now, act⟩ := x
    cases act with
    | set key data life => rfl
    | get key => exact capacity_get _ now key
    | contains key => exact capacity_get _ now key
    | clear => rfl

theorem Recalls.get_eq_some {c : Cache T V} {events : List (Event T V)} (h : c.Recalls events)
    {now : T} {key : Text} {d : V} (hd : (c.get now key).1 = some d) :
    ∃ e since, IsLastSet events e since ∧ e.key = key ∧ e.data = some d ∧ e.IsLive now := by
  unfold get at hd
  cases hf : c.find? key with
  | none => simp [hf] at hd
  | some e =>
    by_cases he : e.isExpired now = true
    · simp [hf, he] at hd
    · obtain ⟨since, hlast⟩ := h.recorded e (List.mem_of_find?_eq_some hf)
      have hkey : e.key = key := by simpa using List.find?_some hf
      have hdata : e.data = some d := by simpa [hf, he] using hd
      have hlive : e.IsLive now := (e.isExpired_eq_false_iff now).1 (by simpa using he)
      exact ⟨e, since, hlast, hkey, hdata, hlive⟩

theorem Recalls.get_of_isLastSet {c : Cache T V} {events : List (Event T V)} (h : c.Recalls events)
    {now : T} (hclock : ClockRuns events now) {e : Entry T V} {since : List (Event T V)}
    (hlast : IsLastSet events e since) (hlive : e.IsLive now)
    (hroom : (setKeys since).toFinset.card < c.capacity) : (c.get now e.key).1 = e.data := by
  have hfresh : e.isExpired now = false := (e.isExpired_eq_false_iff now).2 hlive
  rcases h.kept e since hlast with hholds | ⟨x, hx, hexpired⟩ | hfull
  · simp [get, find?_of_mem h.nodup hholds.mem, hfresh]
  · have hfollows : Follows x.time now := by
      refine (List.pairwise_append.1 hclock).2.2 _ (List.mem_map_of_mem hx) _ ?_
      exact List.mem_singleton_self now
    rw [Entry.isExpired_of_follows hfollows hexpired] at hfresh
    cases hfresh
  · omega

theorem contains_iff (c : Cache T V) (now : T) (key : Text) :
    (c.contains now key).1 = true ↔ ∃ d, (c.get now key).1 = some d :=
  Option.isSome_iff_exists

/-- A cache made for one entry or more gives back the last set of a key and nothing else: what
is read is that set in its life, and that set is read in its life if fewer other keys than fit
have been set since. -/
theorem get_run_make? {capacity : Int} (hc : 1 ≤ capacity) :
    ∃ c : Cache T V, make? capacity = some c ∧
      ∀ (events : List (Event T V)) (now : T), ClockRuns events now → ∀ key,
        (∀ d, ((c.run events).get now key).1 = some d →
          ∃ e since, IsLastSet events e since ∧ e.key = key ∧ e.data = some d ∧ e.IsLive now) ∧
        (∀ e since, IsLastSet events e since → e.key = key → e.IsLive now →
          ((setKeys since).toFinset.card : Int) < capacity →
          ((c.run events).get now key).1 = e.data) ∧
        (((c.run events).contains now key).1 = true ↔
          ∃ d, ((c.run events).get now key).1 = some d) := by
  have hmake : make? capacity = some (⟨capacity.toNat, []⟩ : Cache T V) := if_pos hc
  refine ⟨_, hmake, ?_⟩
  intro events now hclock key
  have hrun := (recalls_of_make? hmake).run events
  refine ⟨fun d hd => hrun.get_eq_some hd, ?_, contains_iff _ now key⟩
  rintro e since hlast rfl hlive hcard
  refine hrun.get_of_isLastSet hclock hlast hlive ?_
  rw [capacity_run]
  show (setKeys since).toFinset.card < capacity.toNat
  omega

end Reading

def rushed : List (Event Int Nat) :=
  [⟨0, .set "a" (some 1) none⟩, ⟨1, .set "b" (some 2) (some 9)⟩, ⟨2, .get "a"⟩,
    ⟨4, .set "c" (some 3) none⟩]

theorem get_run_rushed :
    ∃ c : Cache Int Nat, make? 2 = some c ∧ ((c.run rushed).get 10 "b").1 = some 2 ∧
      ((c.run rushed).contains 10 "b").1 = true := by
  obtain ⟨c, hmake, hread⟩ := @get_run_make? Int Nat _ _ _ 2 (by decide)
  have hclock : ClockRuns rushed 10 := by
    have hle : (rushed.map Event.time ++ [10]).Pairwise (· ≤ ·) := by decide
    exact hle.imp follows_iff_le.2
  have hlast : IsLastSet rushed ⟨"b", some 2, 1, some 9⟩
      [⟨2, .get "a"⟩, ⟨4, .set "c" (some 3) none⟩] := by
    refine ⟨⟨[⟨0, .set "a" (some 1) none⟩], rfl⟩, by decide, ?_⟩
    simp
  have hlive : (⟨"b", some 2, 1, some 9⟩ : Entry Int Nat).IsLive 10 := by
    rw [Entry.isLive_iff_le]
    rintro life ⟨⟩
    decide
  obtain ⟨-, hlater, hcontains⟩ := hread rushed 10 hclock "b"
  have hb := hlater _ _ hlast rfl hlive (by decide)
  exact ⟨c, hmake, hb, hcontains.2 ⟨2, hb⟩⟩

end PullGauge.Cache
