import Mathlib
import PullGauge.Proofs.Exchange.Interleaving

/-!
# What is done by an undertaking

An undertaking is a plan on its way, with the errands for which it waits and those that it has
left to themselves. Its deeds are the exchanges and the uses of caches in the order in which they came, whichever of
its strands did them, and between any two of its steps others may act. What happened to a cache
that others leave alone can be read off the deeds.
-/

namespace PullGauge

variable {J S T α β : Type}

theorem split_concat {l before after : List α} {x d : α} (h : l ++ [x] = before ++ d :: after) :
    after = [] ∧ before = l ∧ x = d ∨ ∃ rest, after = rest ++ [x] ∧ l = before ++ d :: rest := by
  rcases List.eq_nil_or_concat after with rfl | ⟨rest, y, rfl⟩
  · obtain ⟨hl, hx⟩ := List.append_inj' h rfl
    exact .inl ⟨rfl, hl.symm, List.singleton_injective hx⟩
  · rw [List.concat_eq_append, ← List.cons_append, ← List.append_assoc] at h
    obtain ⟨hl, hx⟩ := List.append_inj' h rfl
    rw [← List.singleton_injective hx]
    exact .inr ⟨rest, List.concat_eq_append .., hl⟩

inductive Deed (T : Type) where
  | exchanged (r : Request) (reply : Except Outage Reply)
  | looked (s : Shelf) (time : T) (key : Text) (found : Option s.Value)
  | stored (s : Shelf) (time : T) (key : Text) (data : Option s.Value) (life : Option T)

namespace Deed

def event? (s : Shelf) : Deed T → Option (Cache.Event T s.Value)
  | exchanged _ _ => none
  | looked t time key _ => if t = s then some ⟨time, .get key⟩ else none
  | stored t time key data life => if h : t = s then some ⟨time, .set key (h ▸ data) life⟩ else none

def events (s : Shelf) (deeds : List (Deed T)) : List (Cache.Event T s.Value) :=
  deeds.filterMap (event? s)

@[simp] theorem events_nil (s : Shelf) : events s ([] : List (Deed T)) = [] := rfl

@[simp] theorem events_append (s : Shelf) (a b : List (Deed T)) :
    events s (a ++ b) = events s a ++ events s b := List.filterMap_append

@[simp] theorem events_exchanged (s : Shelf) (r : Request) (reply : Except Outage Reply)
    (deeds : List (Deed T)) : events s (exchanged r reply :: deeds) = events s deeds := rfl

@[simp] theorem events_looked (s : Shelf) (time : T) (key : Text) (found : Option s.Value)
    (deeds : List (Deed T)) :
    events s (looked s time key found :: deeds) = ⟨time, .get key⟩ :: events s deeds :=
  List.filterMap_cons_some (if_pos rfl)

@[simp] theorem events_stored (s : Shelf) (time : T) (key : Text) (data : Option s.Value)
    (life : Option T) (deeds : List (Deed T)) :
    events s (stored s time key data life :: deeds) =
      ⟨time, .set key data life⟩ :: events s deeds :=
  List.filterMap_cons_some (dif_pos rfl)

theorem events_looked_of_ne {s t : Shelf} (h : t ≠ s) (time : T) (key : Text)
    (found : Option t.Value) (deeds : List (Deed T)) :
    events s (looked t time key found :: deeds) = events s deeds :=
  List.filterMap_cons_none (if_neg h)

theorem events_stored_of_ne {s t : Shelf} (h : t ≠ s) (time : T) (key : Text)
    (data : Option t.Value) (life : Option T) (deeds : List (Deed T)) :
    events s (stored t time key data life :: deeds) = events s deeds :=
  List.filterMap_cons_none (dif_neg h)

def isOf (s : Shelf) : Deed T → Bool
  | exchanged _ _ => false
  | looked t _ _ _ => t = s
  | stored t _ _ _ _ => t = s

def uses (s : Shelf) (deeds : List (Deed T)) : List (Deed T) := deeds.filter (isOf s)

@[simp]
theorem uses_append (s : Shelf) (a b : List (Deed T)) : uses s (a ++ b) = uses s a ++ uses s b :=
  List.filter_append ..

theorem events_uses (s : Shelf) (deeds : List (Deed T)) : events s (uses s deeds) = events s deeds := by
  induction deeds with
  | nil => rfl
  | cons d deeds ih =>
    cases d with
    | exchanged r reply => exact ih
    | looked t time key found =>
      by_cases ht : t = s
      · subst ht
        rw [uses, List.filter_cons_of_pos (by simp [isOf]), events_looked, events_looked]
        exact congrArg _ ih
      · rw [uses, List.filter_cons_of_neg (by simp [isOf, ht]), events_looked_of_ne ht]
        exact ih
    | stored t time key data life =>
      by_cases ht : t = s
      · subst ht
        rw [uses, List.filter_cons_of_pos (by simp [isOf]), events_stored, events_stored]
        exact congrArg _ ih
      · rw [uses, List.filter_cons_of_neg (by simp [isOf, ht]), events_stored_of_ne ht]
        exact ih

theorem cases_of_mem_events {s : Shelf} {deeds : List (Deed T)} {x : Cache.Event T s.Value}
    (h : x ∈ events s deeds) :
    (∃ time key found, looked s time key found ∈ deeds ∧ x = ⟨time, .get key⟩) ∨
      ∃ time key data life, stored s time key data life ∈ deeds ∧ x = ⟨time, .set key data life⟩ := by
  obtain ⟨d, hd, hevent⟩ := List.mem_filterMap.1 h
  cases d with
  | exchanged r reply => cases hevent
  | looked t time key found =>
    dsimp only [event?] at hevent
    split_ifs at hevent with ht
    subst ht
    cases hevent
    exact .inl ⟨time, key, found, hd, rfl⟩
  | stored t time key data life =>
    dsimp only [event?] at hevent
    split_ifs at hevent with ht
    subst ht
    cases hevent
    exact .inr ⟨time, key, data, life, hd, rfl⟩

theorem stored_mem_of_event {s : Shelf} {deeds : List (Deed T)} {time : T} {key : Text}
    {data : Option s.Value} {life : Option T}
    (h : ⟨time, .set key data life⟩ ∈ events s deeds) : stored s time key data life ∈ deeds := by
  rcases cases_of_mem_events h with ⟨t, k, found, -, hx⟩ | ⟨t, k, data, life, hd, hx⟩
  · cases hx
  · cases hx
    exact hd

theorem act_ne_clear_of_mem {s : Shelf} {deeds : List (Deed T)} {x : Cache.Event T s.Value}
    (h : x ∈ events s deeds) : x.act ≠ .clear := by
  rcases cases_of_mem_events h with ⟨time, key, found, -, rfl⟩ | ⟨time, key, data, life, -, rfl⟩
  · exact nofun
  · exact nofun

end Deed

open Deed

variable [Service S] [TimeScale T]

namespace Talk

def deeds : Talk J α → World S T → List (Deed T)
  | send r _, w => [.exchanged r (Service.answer w.service r).1]
  | consult s key _, w => [.looked s w.time key (w.consult s key).1]
  | keep s key data life _, w => [.stored s w.time key data (life.map TimeScale.seconds)]
  | _, _ => []

theorem Step.time_eq {t t' : Talk J α} {w w' : World S T} (h : Step t w t' w') :
    w'.time = w.time := by
  cases h with
  | keep s key data life next =>
    unfold World.keep
    cases (w.caches s).evicted? key <;> rfl
  | _ => rfl

theorem Step.caches_eq {t t' : Talk J α} {w w' : World S T} (h : Step t w t' w') (s : Shelf) :
    w'.caches s = (w.caches s).run (events s (t.deeds w)) := by
  cases h with
  | consult u key next =>
    show w.caches.put u ((w.caches u).get w.time key).2 s = _
    by_cases hu : u = s
    · subst hu
      rw [Caches.put_self, Talk.deeds, events_looked]
      rfl
    · rw [Caches.put_of_ne _ hu, Talk.deeds, events_looked_of_ne hu]
      rfl
  | keep u key data life next =>
    have hput : (w.keep u key data life).caches = w.caches.put u
        ((w.caches u).set w.time key data (life.map TimeScale.seconds)) := by
      unfold World.keep
      cases (w.caches u).evicted? key <;> rfl
    rw [hput]
    by_cases hu : u = s
    · subst hu
      rw [Caches.put_self, Talk.deeds, events_stored]
      rfl
    · rw [Caches.put_of_ne _ hu, Talk.deeds, events_stored_of_ne hu]
      rfl
  | _ => rfl

end Talk

namespace Talk

theorem deeds_cases (t : Talk J α) (w : World S T) : t.deeds w = [] ∨ ∃ d, t.deeds w = [d] := by
  cases t <;> first | exact .inl rfl | exact .inr ⟨_, rfl⟩

theorem looked_of_mem_deeds {t : Talk J α} {w : World S T} {s : Shelf} {time : T} {key : Text}
    {found : Option s.Value} (h : .looked s time key found ∈ t.deeds w) :
    found = ((w.caches s).get time key).1 := by
  cases t with
  | consult u k next =>
    cases List.mem_singleton.1 h
    rfl
  | send r next => cases List.mem_singleton.1 h
  | keep u k data life next => cases List.mem_singleton.1 h
  | _ => cases h

theorem time_of_mem_events {t : Talk J α} {w : World S T} {s : Shelf} {x : Cache.Event T s.Value}
    (h : x ∈ events s (t.deeds w)) : x.time = w.time := by
  rcases cases_of_mem_events h with ⟨time, key, found, hd, rfl⟩ | ⟨time, key, data, life, hd, rfl⟩
  · cases t with
    | consult u k next =>
      cases List.mem_singleton.1 hd
      rfl
    | send r next => cases List.mem_singleton.1 hd
    | keep u k data life next => cases List.mem_singleton.1 hd
    | _ => cases hd
  · cases t with
    | keep u k data life next =>
      cases List.mem_singleton.1 hd
      rfl
    | send r next => cases List.mem_singleton.1 hd
    | consult u k next => cases List.mem_singleton.1 hd
    | _ => cases hd

end Talk

def Strand.outcome? : Strand α → Option (Outcome α)
  | .going p => p.outcome?
  | _ => none

/-- A strand of a plan, and the errands of the plan that nobody waits for any more. -/
structure Undertaking (α : Type) where
  strand : Strand α
  left : List Errand

namespace Undertaking

def start (p : Plan α) : Undertaking α := ⟨.going p, []⟩

inductive Step : Undertaking α → World S T → List (Deed T) → Undertaking α → World S T → Prop
  | go {p p' : Plan α} {left : List Errand} {w w' : World S T} (h : Talk.Step p w p' w') :
    Step ⟨.going p, left⟩ w (p.deeds w) ⟨.going p', left⟩ w'
  | spread (errands : List Errand) (next : List (Outcome Payload) → Plan α) (left : List Errand)
      (w : World S T) :
    Step ⟨.going (.together errands next), left⟩ w [] ⟨.waiting errands next, left⟩ w
  | errand {before after : List Errand} {next : List (Outcome Payload) → Plan α} {e e' : Errand}
      {left : List Errand} {w w' : World S T} (h : Talk.Step e w e' w') :
    Step ⟨.waiting (before ++ e :: after) next, left⟩ w (e.deeds w)
      ⟨.waiting (before ++ e' :: after) next, left⟩ w'
  | join {errands : List Errand} {next : List (Outcome Payload) → Plan α}
      {results : List (Outcome Payload)} {left : List Errand} {w : World S T}
      (h : List.Forall₂ (fun e o => e.outcome? = some o) errands results) :
    Step ⟨.waiting errands next, left⟩ w [] ⟨.going (next results), left⟩ w
  | abandon {errands : List Errand} {next : List (Outcome Payload) → Plan α} {f : Fault}
      {left : List Errand} {w : World S T} (h : .failed f ∈ errands) :
    Step ⟨.waiting errands next, left⟩ w [] ⟨.going (.failed f), left ++ errands⟩ w
  | stray {strand : Strand α} {before after : List Errand} {e e' : Errand} {w w' : World S T}
      (h : Talk.Step e w e' w') :
    Step ⟨strand, before ++ e :: after⟩ w (e.deeds w) ⟨strand, before ++ e' :: after⟩ w'

/-- What is done until some point is reached, while others act as they may. -/
inductive Run (others : World S T → World S T → Prop) (c : Undertaking α) (w : World S T) :
    List (Deed T) → Undertaking α → World S T → Prop
  | refl : Run others c w [] c w
  | step {deeds more : List (Deed T)} {c' c'' : Undertaking α} {w' w'' : World S T}
      (hrun : Run others c w deeds c' w') (hstep : Step c' w' more c'' w'') :
    Run others c w (deeds ++ more) c'' w''
  | beside {deeds : List (Deed T)} {c' : Undertaking α} {w' w'' : World S T}
      (hrun : Run others c w deeds c' w') (h : others w' w'') : Run others c w deeds c' w''

theorem Step.cases_task {c c' : Undertaking α} {w w' : World S T} {deeds : List (Deed T)}
    (h : Step c w deeds c' w') :
    (∃ (p p' : Plan α), Talk.Step p w p' w' ∧ deeds = p.deeds w) ∨
      (∃ e e' : Errand, Talk.Step e w e' w' ∧ deeds = e.deeds w) ∨ deeds = [] ∧ w' = w := by
  cases h with
  | go h => exact .inl ⟨_, _, h, rfl⟩
  | errand h => exact .inr (.inl ⟨_, _, h, rfl⟩)
  | stray h => exact .inr (.inl ⟨_, _, h, rfl⟩)
  | spread => exact .inr (.inr ⟨rfl, rfl⟩)
  | join => exact .inr (.inr ⟨rfl, rfl⟩)
  | abandon => exact .inr (.inr ⟨rfl, rfl⟩)

variable {others : World S T → World S T → Prop} {c c' : Undertaking α} {w w' : World S T}
  {deeds : List (Deed T)}

theorem Step.caches_eq (h : Step c w deeds c' w') (s : Shelf) :
    w'.caches s = (w.caches s).run (events s deeds) := by
  rcases h.cases_task with ⟨p, p', hp, rfl⟩ | ⟨e, e', he, rfl⟩ | ⟨rfl, rfl⟩
  · exact hp.caches_eq s
  · exact he.caches_eq s
  · rfl

theorem Step.time_eq (h : Step c w deeds c' w') : w'.time = w.time := by
  rcases h.cases_task with ⟨p, p', hp, -⟩ | ⟨e, e', he, -⟩ | ⟨-, rfl⟩
  · exact hp.time_eq
  · exact he.time_eq
  · rfl

theorem Step.deeds_cases (h : Step c w deeds c' w') : deeds = [] ∨ ∃ d, deeds = [d] := by
  rcases h.cases_task with ⟨p, p', -, rfl⟩ | ⟨e, e', -, rfl⟩ | ⟨rfl, -⟩
  · exact p.deeds_cases w
  · exact e.deeds_cases w
  · exact .inl rfl

theorem Step.looked_of_mem (h : Step c w deeds c' w') {s : Shelf} {time : T} {key : Text}
    {found : Option s.Value} (hd : .looked s time key found ∈ deeds) :
    found = ((w.caches s).get time key).1 := by
  rcases h.cases_task with ⟨p, p', -, rfl⟩ | ⟨e, e', -, rfl⟩ | ⟨rfl, -⟩
  · exact Talk.looked_of_mem_deeds hd
  · exact Talk.looked_of_mem_deeds hd
  · cases hd

theorem Step.time_of_mem_events (h : Step c w deeds c' w') {s : Shelf}
    {x : Cache.Event T s.Value} (hx : x ∈ events s deeds) : x.time = w.time := by
  rcases h.cases_task with ⟨p, p', -, rfl⟩ | ⟨e, e', -, rfl⟩ | ⟨rfl, -⟩
  · exact Talk.time_of_mem_events hx
  · exact Talk.time_of_mem_events hx
  · cases hx

theorem Run.caches_eq {s : Shelf} (halone : ∀ w w', others w w' → w'.caches s = w.caches s)
    (h : Run others c w deeds c' w') : w'.caches s = (w.caches s).run (events s deeds) := by
  induction h with
  | refl => rfl
  | step hrun hstep ih => rw [hstep.caches_eq s, ih, events_append, Cache.run_append]
  | beside hrun hothers ih => rw [halone _ _ hothers, ih]

theorem Run.found_eq {s : Shelf} (halone : ∀ w w', others w w' → w'.caches s = w.caches s)
    (h : Run others c w deeds c' w') {before after : List (Deed T)} {time : T} {key : Text}
    {found : Option s.Value} (hdeeds : deeds = before ++ .looked s time key found :: after) :
    found = (((w.caches s).run (events s before)).get time key).1 := by
  induction h generalizing after with
  | refl => simp at hdeeds
  | @step deeds more c' c'' w' w'' hrun hstep ih =>
    rcases hstep.deeds_cases with rfl | ⟨d, rfl⟩
    · rw [List.append_nil] at hdeeds
      exact ih hdeeds
    -- the look is the last deed, or it came before
    · rcases split_concat hdeeds with ⟨rfl, rfl, rfl⟩ | ⟨rest, rfl, hbefore⟩
      · rw [← hrun.caches_eq halone]
        exact hstep.looked_of_mem (List.mem_singleton_self _)
      · exact ih hbefore
  | beside hrun hothers ih => exact ih hdeeds

theorem Run.clockRuns {s : Shelf} (hclock : ∀ w w', others w w' → Cache.Follows w.time w'.time)
    (h : Run others c w deeds c' w') {past : List (Cache.Event T s.Value)}
    (hpast : Cache.ClockRuns past w.time) : Cache.ClockRuns (past ++ events s deeds) w'.time := by
  induction h with
  | refl => rwa [events_nil, List.append_nil]
  | @step deeds more c' c'' w' w'' hrun hstep ih =>
    rw [hstep.time_eq, events_append, ← List.append_assoc]
    exact ih.now fun x hx => hstep.time_of_mem_events hx
  | beside hrun hothers ih => exact ih.later (hclock _ _ hothers)

theorem Run.mono {others' : World S T → World S T → Prop} (hothers : ∀ w w', others w w' → others' w w')
    (h : Run others c w deeds c' w') : Run others' c w deeds c' w' := by
  induction h with
  | refl => exact .refl
  | step hrun hstep ih => exact ih.step hstep
  | beside hrun h ih => exact ih.beside (hothers _ _ h)

theorem Run.time_of_still (hstill : ∀ w w', others w w' → w'.time = w.time)
    (h : Run others c w deeds c' w') :
    w'.time = w.time ∧ ∀ s, ∀ x ∈ events s deeds, x.time = w.time := by
  induction h with
  | refl => exact ⟨rfl, fun s x hx => nomatch hx⟩
  | step hrun hstep ih =>
    refine ⟨hstep.time_eq.trans ih.1, fun s x hx => ?_⟩
    rw [events_append, List.mem_append] at hx
    rcases hx with hx | hx
    · exact ih.2 s x hx
    · exact (hstep.time_of_mem_events hx).trans ih.1
  | beside hrun h ih => exact ⟨(hstill _ _ h).trans ih.1, ih.2⟩

theorem exists_run (p : Plan α) (w : World S T) :
    ∃ deeds, Run others (start p) w deeds ⟨.going (Talk.ofOutcome (World.run p w).1), []⟩
      (World.run p w).2 := by
  have hkept : Strand.IsKept fun strand w' =>
      ∃ deeds, Run others (start p) w deeds ⟨strand, []⟩ w' := by
    refine ⟨?_, ?_, ?_, ?_⟩
    · rintro p p' w w' ⟨deeds, h⟩ hstep
      exact ⟨_, h.step (.go hstep)⟩
    · rintro errands next w ⟨deeds, h⟩
      exact ⟨_, h.step (.spread errands next [] w)⟩
    · rintro before after next e e' w w' ⟨deeds, h⟩ hstep
      exact ⟨_, h.step (.errand hstep)⟩
    · rintro errands next results w ⟨deeds, h⟩ hends
      exact ⟨_, h.step (.join hends)⟩
  exact hkept.run p ⟨[], .refl⟩

end Undertaking

end PullGauge
