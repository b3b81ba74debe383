import Mathlib
import PullGauge.Proofs.Cache.Contents

/-!
# Reading more

Reading changes a cache: what is found to have expired is dropped, and that makes room which
later sets fill. So the entries of two caches drift apart when one of them is read more. What
ties them together are the sets that still count, which are the same for both: of what the
cache holds that is read less, the other one lacks only what has expired, and whatever the
other one holds of later sets than some entry here is held here as well.
-/

namespace PullGauge.Cache

section Order

variable {α : Type} {a b : α} {l : List α}

theorem not_pair_sublist_swap (h : l.Nodup) (hab : [a, b].Sublist l) : ¬ [b, a].Sublist l := by
  induction l with
  | nil => cases hab
  | cons c l ih =>
    rw [List.nodup_cons] at h
    intro hba
    rw [List.sublist_cons_iff] at hab hba
    rcases hab with hab | ⟨r, hr, hb⟩ <;> rcases hba with hba | ⟨s, hs, ha⟩
    · exact ih h.2 hab hba
    · cases hs
      exact h.1 (hab.subset (by simp))
    · cases hr
      exact h.1 (hba.subset (by simp))
    · cases hr
      cases hs
      exact h.1 (by simpa using ha)

theorem pair_sublist_of_ne_last {c : α} (h : [a, b].Sublist (l ++ [c])) (hb : b ≠ c) :
    [a, b].Sublist l := by
  obtain ⟨front, back, hsplit, hfront, hback⟩ := List.sublist_append_iff.1 h
  rcases List.sublist_singleton.1 hback with rfl | rfl
  · rw [List.append_nil] at hsplit
    rwa [hsplit]
  · obtain ⟨-, hlast⟩ := List.append_inj' (show [a] ++ [b] = front ++ [c] from hsplit) rfl
    exact absurd (List.singleton_injective hlast) hb

theorem eq_of_subset_of_sublist {k m : List α} (h : l.Nodup) (hk : k.Sublist l)
    (hm : m.Sublist l) (hkm : k ⊆ m) (hlength : m.length ≤ k.length) : k = m := by
  have hperm : k.Perm m := ((h.sublist hk).subperm hkm).perm_of_length_le hlength
  have hordered {n : List α} (hn : n.Sublist l) : n.Pairwise fun a b => [a, b].Sublist l :=
    List.pairwise_iff_forall_sublist.2 fun hab => hab.trans hn
  apply List.Perm.eq_of_pairwise _ (hordered hk) (hordered hm) hperm
  intro a b _ _ hab hba
  exact absurd hba (not_pair_sublist_swap h hab)

end Order

variable {T V : Type}

theorem nodup_lastSets (events : List (Event T V)) : (lastSets events).Nodup :=
  (nodup_keys_lastSets events).of_map _

theorem head?_of_evicted? {c : Cache T V} {key dropped : Text} (h : c.evicted? key = some dropped) :
    c.keys.head? = some dropped := by
  unfold evicted? at h
  split_ifs at h
  exact h

theorem evicted?_ne_of_mem_kept {c : Cache T V} (hn : c.keys.Nodup) {key : Text} {e : Entry T V}
    (he : e ∈ c.kept key) : c.evicted? key ≠ some e.key := by
  unfold kept at he
  unfold evicted?
  split_ifs at he with hkey hroom
  · simp [hkey]
  · simp [hroom]
  · rw [if_neg (by simp [hkey, hroom])]
    rw [keys] at hn ⊢
    cases hentries : c.entries with
    | nil => simp
    | cons first rest =>
      rw [hentries] at he hn
      rw [List.map_cons, List.nodup_cons] at hn
      intro hfirst
      apply hn.1
      have hsame : first.key = e.key := by simpa using hfirst
      exact hsame ▸ List.mem_map_of_mem he

theorem capacity_le_of_evicted? {c : Cache T V} {key dropped : Text}
    (h : c.evicted? key = some dropped) : c.capacity ≤ c.size := by
  unfold evicted? at h
  split_ifs at h with hstays
  rw [Bool.or_eq_true, not_or, decide_eq_true_eq, not_lt] at hstays
  exact hstays.2

theorem Represents.eq_or_later {c : Cache T V} {events : List (Event T V)}
    (h : c.Represents events) {d e : Entry T V} {key : Text} (hd : d ∈ c.entries)
    (he : e ∈ c.entries) (hdrops : c.evicted? key = some d.key) :
    e = d ∨ [d, e].Sublist (lastSets events) := by
  have hn := h.nodup
  have hhead := head?_of_evicted? hdrops
  have hsub := h.sublist
  rw [keys] at hn hhead
  cases hentries : c.entries with
  | nil => simp [hentries] at hd
  | cons first rest =>
    rw [hentries] at hd he hn hhead hsub
    obtain rfl : d = first := List.inj_on_of_nodup_map hn hd (by simp) (by simpa using hhead.symm)
    rcases List.mem_cons.1 he with rfl | he
    · exact .inl rfl
    · exact .inr (((List.singleton_sublist.2 he).cons_cons d).trans hsub)

/-- A call, and whether it comes on top of those that are made anyway. -/
structure Call (T V : Type) extends Event T V where
  extra : Bool

def Call.plain (calls : List (Call T V)) : List (Event T V) :=
  (calls.filter fun x => !x.extra).map Call.toEvent

def Call.all (calls : List (Call T V)) : List (Event T V) := calls.map Call.toEvent

def Event.isRead (x : Event T V) : Bool :=
  match x.act with
  | .get _ => true
  | .contains _ => true
  | _ => false

theorem keeps_of_isRead {x : Event T V} (h : x.isRead = true) :
    x.setKey? = none ∧ x.act ≠ .clear := by
  obtain ⟨time, act⟩ := x
  cases act <;> simp_all [Event.isRead, Event.setKey?]

variable [Add T] [LT T] [DecidableLT T]

/-- What is held here and not there has expired, and what was set there after some entry here is
held here. -/
structure Covers (more c : Cache T V) (events : List (Event T V)) : Prop where
  capacity_eq : more.capacity = c.capacity
  here : c.Represents events
  there : more.Represents events
  kept : ∀ e ∈ c.entries, e ∈ more.entries ∨ ∃ x ∈ events, e.isExpired x.time = true
  later : ∀ e ∈ c.entries, ∀ d ∈ more.entries, [e, d].Sublist (lastSets events) → d ∈ c.entries

variable {more c : Cache T V} {events : List (Event T V)}

/-- An entry that stays here does not have to make room there: all that is there would have
been set later, hence be here too, and here it would have to make room as well. -/
theorem Covers.not_evicted (h : more.Covers c events) {key : Text} {e : Entry T V}
    (he : e ∈ c.kept key) (hmore : e ∈ more.entries) : more.evicted? key ≠ some e.key := by
  intro hdrops
  have hc : e ∈ c.entries := (kept_sublist c key).subset he
  have hsubset : more.entries ⊆ c.entries := by
    intro d hd
    rcases h.there.eq_or_later hmore hd hdrops with rfl | hlater
    · exact hc
    · exact h.later e hc d hd hlater
  have hfull : c.entries.length ≤ more.entries.length := by
    have hroom := capacity_le_of_evicted? hdrops
    exact h.here.size_le.trans (h.capacity_eq ▸ hroom)
  have hsame : more.entries = c.entries :=
    eq_of_subset_of_sublist (nodup_lastSets events) h.there.sublist h.here.sublist hsubset hfull
  apply evicted?_ne_of_mem_kept h.here.nodup he
  rw [← hdrops]
  unfold evicted? hasKey find? keys
  rw [hsame, h.capacity_eq]

theorem Covers.set (h : more.Covers c events) (now : T) (key : Text) (data : Option V)
    (life : Option T) :
    (more.set now key data life).Covers (c.set now key data life)
      (events ++ [⟨now, .set key data life⟩]) := by
  refine ⟨h.capacity_eq, h.here.set now key data life, h.there.set now key data life, ?_, ?_⟩
  · intro e he
    rw [entries_set, List.mem_append, List.mem_singleton] at he
    rcases he with he | rfl
    · rcases h.kept e ((kept_sublist c key).subset he) with hmore | ⟨x, hx, hexpired⟩
      · rcases mem_set_or hmore now key data life with hstays | hkey | hdrops
        · exact .inl hstays
        · exact absurd hkey (key_ne_of_mem_kept he)
        · exact absurd hdrops (h.not_evicted he hmore)
      · exact .inr ⟨x, List.mem_append_left _ hx, hexpired⟩
    · exact .inl (by simp [entries_set])
  · intro e he d hd hlater
    rw [entries_set, List.mem_append, List.mem_singleton] at he hd
    rcases hd with hd | rfl
    · have hdkey := key_ne_of_mem_kept hd
      have hpair : [e, d].Sublist ((lastSets events).filter fun e => e.key != key) := by
        rw [lastSets_concat_set] at hlater
        apply pair_sublist_of_ne_last hlater
        rintro rfl
        exact hdkey rfl
      have hekey : e.key ≠ key := by
        have hmem := List.mem_filter.1 (hpair.subset (List.mem_cons_self ..))
        simpa using hmem.2
      have hbefore := hpair.trans List.filter_sublist
      have hc : e ∈ c.entries := by
        rcases he with he | rfl
        · exact (kept_sublist c key).subset he
        · exact absurd rfl hekey
      have hheld := h.later e hc d ((kept_sublist more key).subset hd) hbefore
      rcases mem_set_or hheld now key data life with hstays | hkey | hdrops
      · exact hstays
      · exact absurd hkey hdkey
      · -- here only what was set before the other entry could have made room
        have hall := nodup_lastSets events
        rcases h.here.eq_or_later hheld hc hdrops with rfl | hafter
        · exact absurd hbefore (not_pair_sublist_swap hall hbefore)
        · exact absurd hafter (not_pair_sublist_swap hall hbefore)
    · simp [entries_set]

theorem notMem_get_of_isExpired (hn : c.keys.Nodup) {d : Entry T V} {now : T}
    (hd : d ∈ c.entries) (hexpired : d.isExpired now = true) :
    d ∉ (c.get now d.key).2.entries := by
  unfold get
  rw [find?_of_mem hn hd]
  simp [hexpired, erase]

theorem notMem_apply_of_loses (hn : more.keys.Nodup) {x : Event T V} (hx : x.isRead = true)
    {d : Entry T V} (hd : d ∈ more.entries) (hloses : c.Loses d x) :
    d ∉ (more.apply x).entries := by
  obtain ⟨now, act⟩ := x
  cases act with
  | set key data life => cases hx
  | get key =>
    obtain ⟨rfl, hexpired⟩ := hloses
    exact notMem_get_of_isExpired hn hd hexpired
  | contains key =>
    obtain ⟨rfl, hexpired⟩ := hloses
    exact notMem_get_of_isExpired hn hd hexpired
  | clear => cases hx

theorem isExpired_of_loses {x : Event T V} (hx : x.isRead = true) {e : Entry T V}
    (hloses : c.Loses e x) : e.isExpired x.time = true := by
  obtain ⟨now, act⟩ := x
  cases act with
  | set key data life => cases hx
  | get key => exact hloses.2
  | contains key => exact hloses.2
  | clear => cases hx

theorem Covers.kept_of_read (h : more.Covers c events) {x : Event T V} (hx : x.isRead = true)
    {e : Entry T V} (he : e ∈ c.entries) :
    e ∈ (more.apply x).entries ∨ ∃ y ∈ events ++ [x], e.isExpired y.time = true := by
  rcases h.kept e he with hmore | ⟨y, hy, hexpired⟩
  · rcases mem_apply_or h.there.nodup hmore x with hstays | hloses
    · exact .inl hstays
    · exact .inr ⟨x, by simp, isExpired_of_loses hx hloses⟩
  · exact .inr ⟨y, List.mem_append_left _ hy, hexpired⟩

theorem Covers.read_there (h : more.Covers c events) {x : Event T V} (hx : x.isRead = true) :
    (more.apply x).Covers c (events ++ [x]) := by
  obtain ⟨hset, hclear⟩ := keeps_of_isRead hx
  have hlast := lastSets_concat_read hset hclear events
  refine ⟨?_, ?_, h.there.apply x, fun e he => h.kept_of_read hx he, ?_⟩
  · rw [← h.capacity_eq]
    exact capacity_run more [x]
  · exact ⟨h.here.room, h.here.size_le, hlast ▸ h.here.sublist⟩
  · intro e he d hd hlater
    rw [hlast] at hlater
    exact h.later e he d ((apply_sublist hset).subset hd) hlater

theorem Covers.read (h : more.Covers c events) {x : Event T V} (hx : x.isRead = true) :
    (more.apply x).Covers (c.apply x) (events ++ [x]) := by
  obtain ⟨hset, hclear⟩ := keeps_of_isRead hx
  have hfewer := h.read_there hx
  have hsub := apply_sublist (c := c) hset
  refine ⟨?_, h.here.apply x, hfewer.there, fun e he => hfewer.kept e (hsub.subset he), ?_⟩
  · rw [hfewer.capacity_eq]
    exact (capacity_run c [x]).symm
  · intro e he d hd hlater
    have hheld := hfewer.later e (hsub.subset he) d hd hlater
    rcases mem_apply_or h.here.nodup hheld x with hstays | hloses
    · exact hstays
    · have hmore := (apply_sublist hset).subset hd
      exact absurd hd (notMem_apply_of_loses h.there.nodup hx hmore hloses)

theorem Covers.clear (h : more.Covers c events) (now : T) :
    more.clear.Covers c.clear (events ++ [⟨now, .clear⟩]) :=
  ⟨h.capacity_eq, h.here.apply ⟨now, .clear⟩, h.there.apply ⟨now, .clear⟩, nofun, nofun⟩

theorem Covers.apply (h : more.Covers c events) (x : Event T V) :
    (more.apply x).Covers (c.apply x) (events ++ [x]) := by
  obtain ⟨now, act⟩ := x
  cases act with
  | set key data life => exact h.set now key data life
  | get key => exact h.read rfl
  | contains key => exact h.read rfl
  | clear => exact h.clear now

theorem covers_run (h : c.Represents []) {calls : List (Call T V)}
    (hreads : ∀ x ∈ calls, x.extra = true → x.isRead = true) :
    (c.run (Call.all calls)).Covers (c.run (Call.plain calls)) (Call.all calls) := by
  induction calls using List.reverseRecOn with
  | nil => exact ⟨rfl, h, h, fun e he => .inl he, fun _ _ d hd _ => hd⟩
  | append_singleton calls x ih =>
    have hcovers := ih fun y hy => hreads y (List.mem_append_left _ hy)
    have hall : Call.all (calls ++ [x]) = Call.all calls ++ [x.toEvent] := by simp [Call.all]
    rw [hall, run_concat]
    cases hx : x.extra with
    | true =>
      have hplain : Call.plain (calls ++ [x]) = Call.plain calls := by simp [Call.plain, hx]
      rw [hplain]
      exact hcovers.read_there (hreads x (by simp) hx)
    | false =>
      have hplain : Call.plain (calls ++ [x]) = Call.plain calls ++ [x.toEvent] := by
        simp [Call.plain, hx]
      rw [hplain, run_concat]
      exact hcovers.apply x.toEvent

theorem Covers.get_eq_some (h : more.Covers c events) {now : T}
    (hclock : ∀ x ∈ events, Follows x.time now) {key : Text} {d : V}
    (hd : (c.get now key).1 = some d) : (more.get now key).1 = some d := by
  unfold get at hd
  cases hfound : c.find? key with
  | none => simp [hfound] at hd
  | some e =>
    have hmem := List.mem_of_find?_eq_some hfound
    have hkey : e.key = key := by simpa using List.find?_some hfound
    cases hexpired : e.isExpired now with
    | true => simp [hfound, hexpired] at hd
    | false =>
      rcases h.kept e hmem with hmore | ⟨x, hx, hearlier⟩
      · have hthere : more.find? key = some e := hkey ▸ find?_of_mem h.there.nodup hmore
        simpa [get, hthere, hfound, hexpired] using hd
      · rw [Entry.isExpired_of_follows (hclock x hx) hearlier] at hexpired
        cases hexpired

/-- Reads that come on top of the calls of a run, wherever they come, take nothing away from
what the run reads: a value that is got is got with them as well, and a key that is contained is
contained, as long as the clock never goes back. -/
theorem read_of_more_reads {capacity : Int} {c : Cache T V} (hmake : make? capacity = some c)
    {calls : List (Call T V)} (hreads : ∀ x ∈ calls, x.extra = true → x.isRead = true)
    (hclock : ((Call.all calls).map Event.time).Pairwise Follows) {before after : List (Call T V)}
    {x : Call T V} (hcalls : calls = before ++ x :: after) :
    (∀ key, x.act = .get key → ∀ d, ((c.run (Call.plain before)).get x.time key).1 = some d →
      ((c.run (Call.all before)).get x.time key).1 = some d) ∧
    (∀ key, x.act = .contains key →
      ((c.run (Call.plain before)).contains x.time key).1 = true →
      ((c.run (Call.all before)).contains x.time key).1 = true) := by
  subst hcalls
  have hcovers := covers_run (represents_of_make? hmake) fun y hy =>
    hreads y (List.mem_append_left _ hy)
  have hpast : ∀ y ∈ Call.all before, Follows y.time x.time := by
    intro y hy
    rw [Call.all, List.map_append, List.map_append, List.pairwise_append] at hclock
    exact hclock.2.2 y.time (List.mem_map_of_mem hy) x.time (by simp)
  refine ⟨fun key _ d hd => hcovers.get_eq_some hpast hd, ?_⟩
  intro key _ hcontains
  obtain ⟨d, hd⟩ := (contains_iff _ x.time key).1 hcontains
  exact (contains_iff _ x.time key).2 ⟨d, hcovers.get_eq_some hpast hd⟩

def drifting : List (Call Int Nat) :=
  [⟨⟨0, .set "b" (some 2) none⟩, false⟩, ⟨⟨1, .set "a" (some 1) (some 1)⟩, false⟩,
    ⟨⟨5, .get "a"⟩, true⟩, ⟨⟨6, .set "c" (some 3) none⟩, false⟩]

/-- The two caches have come to hold different keys, of which one is read in both. -/
theorem read_of_drifting :
    ∃ c : Cache Int Nat, make? 2 = some c ∧
      (c.run (Call.plain drifting)).keys = ["a".toList, "c".toList] ∧
      (c.run (Call.all drifting)).keys = ["b".toList, "c".toList] ∧
      ((c.run (Call.all drifting)).get 7 "c").1 = some 3 := by
  have hclock : ((Call.all (drifting ++ [⟨⟨7, .get "c"⟩, false⟩])).map Event.time).Pairwise
      Follows := by
    have hle : ((Call.all (drifting ++ [⟨⟨7, .get "c"⟩, false⟩])).map Event.time).Pairwise
        (· ≤ ·) := by decide
    exact hle.imp follows_iff_le.2
  have hreads : ∀ x ∈ drifting ++ [⟨⟨7, .get "c"⟩, false⟩], x.extra = true → x.isRead = true := by
    simp [drifting, Event.isRead]
  obtain ⟨hget, -⟩ := read_of_more_reads (show make? 2 = some (⟨2, []⟩ : Cache Int Nat) from rfl) hreads hclock
    rfl
  exact ⟨⟨2, []⟩, rfl, by decide, by decide, hget "c" rfl 3 (by decide)⟩

end PullGauge.Cache
