import Mathlib
import PullGauge.World
import PullGauge.Proofs.Cache.History

/-!
# What a task can count on

A task goes on with whatever comes back: replies, and values that any other task may have
cached. Terms say which replies come to a request and which values a cache holds under a key.
A task meets a condition under such terms if the condition holds of its outcome whatever comes
back within them, and if it keeps to them itself in what it caches. Nothing in this depends on
what runs beside the task, so a condition that is met stands in every world in which the terms
hold, and other tasks that keep to the terms cannot take that away.
-/

namespace PullGauge

structure Terms where
  replies : Request → Except Outage Reply → Prop
  holds : (s : Shelf) → Text → s.Value → Prop

namespace Talk

variable {J α β : Type}

/-- The condition on the requests that are sent and on the outcome holds whatever comes back
within the terms, and what is cached is within them. Of the jobs that run together each meets
a condition of its own; which requests they send is left open. -/
def Meets (terms : Terms) (job : J → (Outcome Payload → Prop) → Prop) :
    Talk J α → (List Request → Outcome α → Prop) → Prop
  | done a, Q => Q [] (.ok a)
  | failed f, Q => Q [] (.error f)
  | send r next, Q =>
    ∀ reply, terms.replies r reply → Meets terms job (next reply) fun sent o => Q (r :: sent) o
  | consult s key next, Q =>
    ∀ found, (∀ v ∈ found, terms.holds s key v) → Meets terms job (next found) Q
  | keep s key data _ next, Q => (∀ v ∈ data, terms.holds s key v) ∧ Meets terms job next Q
  | note _ next, Q => Meets terms job next Q
  | clock next, Q => ∀ now, Meets terms job (next now) Q
  | together jobs next, Q =>
    ∃ posts : List (Outcome Payload → Prop), List.Forall₂ job jobs posts ∧
      ∀ results, List.Forall₂ (fun post result => post result) posts results →
        ∀ sent, Meets terms job (next results) fun more o => Q (sent ++ more) o

variable {terms : Terms} {job : J → (Outcome Payload → Prop) → Prop}

theorem Meets.mono {t : Talk J α} {Q R : List Request → Outcome α → Prop}
    (h : t.Meets terms job Q) (hQR : ∀ sent o, Q sent o → R sent o) : t.Meets terms job R := by
  induction t generalizing Q R with
  | done a => exact hQR _ _ h
  | failed f => exact hQR _ _ h
  | send r next ih => exact fun reply hreply => ih reply (h reply hreply) fun sent => hQR (r :: sent)
  | consult s key next ih => exact fun found hfound => ih found (h found hfound) hQR
  | keep s key data life next ih => exact ⟨h.1, ih h.2 hQR⟩
  | note line next ih => exact ih h hQR
  | clock next ih => exact fun now => ih now (h now) hQR
  | together jobs next ih =>
    obtain ⟨posts, hposts, hnext⟩ := h
    refine ⟨posts, hposts, fun results hresults sent => ?_⟩
    exact ih results (hnext results hresults sent) fun more => hQR (sent ++ more)

theorem Meets.bind {t : Talk J α} {f : α → Talk J β} {Q : List Request → Outcome β → Prop}
    (h : t.Meets terms job fun sent o =>
      match o with
      | .ok a => (f a).Meets terms job fun more o => Q (sent ++ more) o
      | .error e => Q sent (.error e)) : (t >>= f).Meets terms job Q := by
  show (t.bind f).Meets terms job Q
  induction t generalizing Q with
  | done a => exact h
  | failed e => exact h
  | send r next ih => exact fun reply hreply => ih reply (h reply hreply)
  | consult s key next ih => exact fun found hfound => ih found (h found hfound)
  | keep s key data life next ih => exact ⟨h.1, ih h.2⟩
  | note line next ih => exact ih h
  | clock next ih => exact fun now => ih now (h now)
  | together jobs next ih =>
    obtain ⟨posts, hposts, hnext⟩ := h
    refine ⟨posts, hposts, fun results hresults sent => ih results ?_⟩
    refine (hnext results hresults sent).mono ?_
    intro more o ho
    cases o with
    | error e => exact ho
    | ok a => exact ho.mono fun rest o hQ => by rwa [List.append_assoc] at hQ

theorem meets_ofOutcome {x : Outcome α} {Q : List Request → Outcome α → Prop} :
    (ofOutcome x : Talk J α).Meets terms job Q ↔ Q [] x := by
  cases x <;> rfl

theorem meets_lift_bind {x : Outcome α} {f : α → Talk J β} {Q : List Request → Outcome β → Prop}
    (herror : ∀ e, x = .error e → Q [] (.error e))
    (hok : ∀ a, x = .ok a → (f a).Meets terms job Q) :
    ((liftM x : Talk J α) >>= f).Meets terms job Q := by
  cases x with
  | error e => exact herror e rfl
  | ok a => exact hok a rfl

theorem meets_ok_bind {a : α} {f : α → Talk J β} {Q : List Request → Outcome β → Prop}
    (h : (f a).Meets terms job Q) : ((liftM (.ok a : Outcome α) : Talk J α) >>= f).Meets terms job Q := h

theorem meets_say_bind {logger : Text} {level : Int} {message : Text} {f : Unit → Talk J β}
    {Q : List Request → Outcome β → Prop} (h : (f ()).Meets terms job Q) :
    (say logger level message >>= f).Meets terms job Q := h

def Answers (terms : Terms) (job : J → (Outcome Payload → Prop) → Prop) (t : Talk J α)
    (R : α → Prop) : Prop :=
  t.Meets terms job fun _ o => ∀ a, o = .ok a → R a

theorem Meets.answers {t : Talk J α} {Q : List Request → Outcome α → Prop} {R : α → Prop}
    (h : t.Meets terms job Q) (hQ : ∀ sent a, Q sent (.ok a) → R a) : t.Answers terms job R := by
  refine h.mono ?_
  rintro sent _ ho a rfl
  exact hQ sent a ho

theorem answers_failed (f : Fault) (R : α → Prop) : (failed f : Talk J α).Answers terms job R :=
  nofun

theorem answers_done {a : α} {R : α → Prop} (h : R a) : (done a : Talk J α).Answers terms job R := by
  rintro _ ⟨⟩
  exact h

theorem Answers.bind {t : Talk J α} {f : α → Talk J β} {R : α → Prop} {R' : β → Prop}
    (h : t.Answers terms job R) (hf : ∀ a, R a → (f a).Answers terms job R') :
    (t >>= f).Answers terms job R' := by
  refine Meets.bind (h.mono ?_)
  intro sent o ho
  cases o with
  | error e => exact nofun
  | ok a => exact hf a (ho a rfl)

theorem answers_ofOutcome {x : Outcome α} {R : α → Prop} (h : ∀ a, x = .ok a → R a) :
    (ofOutcome x : Talk J α).Answers terms job R :=
  meets_ofOutcome.2 h

theorem answers_lift_bind {x : Outcome α} {f : α → Talk J β} {R : β → Prop}
    (h : ∀ a, x = .ok a → (f a).Answers terms job R) :
    ((liftM x : Talk J α) >>= f).Answers terms job R :=
  (answers_ofOutcome h).bind fun _ ha => ha

theorem answers_say_bind {logger : Text} {level : Int} {message : Text} {f : Unit → Talk J β}
    {R : β → Prop} (h : (f ()).Answers terms job R) :
    (say logger level message >>= f).Answers terms job R := h

theorem answers_find_bind {s : Shelf} {key : Text} {f : Option s.Value → Talk J β} {R : β → Prop}
    (h : ∀ found, (∀ v ∈ found, terms.holds s key v) → (f found).Answers terms job R) :
    (find s key >>= f).Answers terms job R := h

theorem answers_store_bind {s : Shelf} {key : Text} {data : Option s.Value} {life : Option Nat}
    {f : Unit → Talk J β} {R : β → Prop} (hdata : ∀ v ∈ data, terms.holds s key v)
    (h : (f ()).Answers terms job R) : (store s key data life >>= f).Answers terms job R :=
  ⟨hdata, h⟩

def ErrandMeets (terms : Terms) (e : Errand) (post : Outcome Payload → Prop) : Prop :=
  e.Meets terms (fun none _ => nomatch none) fun _ o => post o

end Talk

structure Recorder (S : Type) where
  service : S
  sent : List Request := []

instance {S : Type} [Service S] : Service (Recorder S) where
  answer s r :=
    let (reply, service) := Service.answer s.service r
    (reply, ⟨service, s.sent ++ [r]⟩)

namespace World

def fresh {S : Type} (service : S) (room : Nat) : World S (Number Float) where
  service
  caches _ := ⟨room, []⟩
  now := .midnight ⟨2000, 1, 1, by decide⟩
  time := .int 0

variable {S T J α : Type} [TimeScale T] {terms : Terms}

def Coherent (terms : Terms) (w : World S T) : Prop :=
  ∀ s, ∀ e ∈ (w.caches s).entries, ∀ v ∈ e.data, terms.holds s e.key v

omit [TimeScale T] in
theorem Coherent.put {w : World S T} (h : w.Coherent terms) {s : Shelf} {c : Cache T s.Value}
    (hc : ∀ e ∈ c.entries, ∀ v ∈ e.data, terms.holds s e.key v) :
    Coherent terms { w with caches := w.caches.put s c } := by
  intro t e he v hv
  dsimp only at he
  by_cases ht : s = t
  · subst ht
    rw [Caches.put_self] at he
    exact hc e he v hv
  · rw [Caches.put_of_ne _ ht] at he
    exact h t e he v hv

theorem Coherent.consult {w : World S T} (h : w.Coherent terms) (s : Shelf) (key : Text) :
    (∀ v ∈ (w.consult s key).1, terms.holds s key v) ∧ (w.consult s key).2.Coherent terms := by
  constructor
  · intro v hv
    simp only [World.consult, Cache.get] at hv
    cases hf : (w.caches s).find? key with
    | none => simp [hf] at hv
    | some e =>
      have hkey : e.key = key := by simpa using List.find?_some hf
      have hdata : v ∈ e.data := by
        by_cases he : e.isExpired w.time = true
        · simp [hf, he] at hv
        · simpa [hf, he] using hv
      exact hkey ▸ h s e (List.mem_of_find?_eq_some hf) v hdata
  · have hleft : (w.consult s key).2 =
        { w with caches := w.caches.put s ((w.caches s).get w.time key).2 } := rfl
    rw [hleft]
    refine h.put ?_
    intro e he
    rcases Cache.get_snd (w.caches s) w.time key with hget | hget
    · rw [hget] at he
      exact h s e he
    · rw [hget] at he
      exact h s e (List.mem_filter.1 he).1

theorem Coherent.keep {w : World S T} (h : w.Coherent terms) {s : Shelf} {key : Text}
    {data : Option s.Value} (hdata : ∀ v ∈ data, terms.holds s key v) (life : Option Nat) :
    (w.keep s key data life).Coherent terms := by
  have hput (u : World S T) (hu : u.caches = w.caches) (hut : u.Coherent terms) :
      Coherent terms { u with
        caches := u.caches.put s ((u.caches s).set u.time key data (life.map TimeScale.seconds)) } := by
    refine hut.put ?_
    intro e he
    rw [Cache.entries_set, List.mem_append, List.mem_singleton] at he
    rcases he with he | rfl
    · exact hut s e ((Cache.kept_sublist _ key).subset he)
    · exact hdata
  unfold World.keep
  cases (w.caches s).evicted? key with
  | none => exact hput w rfl h
  | some dropped => exact hput (w.note (dropLine dropped)) rfl h

def Ends (terms : Terms) (P : S → Prop) (w : World (Recorder S) T)
    (Q : List Request → Outcome α → Prop) (last : Outcome α × World (Recorder S) T) : Prop :=
  last.2.Coherent terms ∧ P last.2.service.service ∧
    ∃ sent, last.2.service.sent = w.service.sent ++ sent ∧ Q sent last.1

variable [Service S] {P : S → Prop} {job : J → (Outcome Payload → Prop) → Prop}
  {run : J → World (Recorder S) T → Outcome Payload × World (Recorder S) T}

omit [TimeScale T] [Service S] in
theorem ends_inOrder
    (hjob : ∀ j post w, job j post → Coherent terms w → P w.service.service →
      Ends terms P w (fun _ => post) (run j w))
    {jobs : List J} {posts : List (Outcome Payload → Prop)} (h : List.Forall₂ job jobs posts)
    {w : World (Recorder S) T} (hw : w.Coherent terms) (hs : P w.service.service) :
    (inOrder run jobs w).2.Coherent terms ∧ P (inOrder run jobs w).2.service.service ∧
      (∃ sent, (inOrder run jobs w).2.service.sent = w.service.sent ++ sent) ∧
      List.Forall₂ (fun post result => post result) posts (inOrder run jobs w).1 := by
  induction h generalizing w with
  | nil => exact ⟨hw, hs, ⟨[], by simp [inOrder]⟩, .nil⟩
  | @cons j post jobs posts hj hrest ih =>
    obtain ⟨hfirst, hkind, ⟨sent, hsent, hpost⟩⟩ := hjob j post w hj hw hs
    obtain ⟨hlast, hend, ⟨more, hmore⟩, hposts⟩ := ih hfirst hkind
    refine ⟨hlast, hend, ⟨sent ++ more, ?_⟩, .cons hpost hposts⟩
    simp [inOrder, hmore, hsent]

theorem ends_runWith
    (hreply : ∀ s r, P s → terms.replies r (Service.answer s r).1 ∧ P (Service.answer s r).2)
    (hjob : ∀ j post w, job j post → Coherent terms w → P w.service.service →
      Ends terms P w (fun _ => post) (run j w))
    {t : Talk J α} {Q : List Request → Outcome α → Prop} (h : t.Meets terms job Q)
    {w : World (Recorder S) T} (hw : w.Coherent terms) (hs : P w.service.service) :
    Ends terms P w Q (runWith run t w) := by
  induction t generalizing Q w with
  | done a => exact ⟨hw, hs, [], by simp [runWith], h⟩
  | failed f => exact ⟨hw, hs, [], by simp [runWith], h⟩
  | send r next ih =>
    obtain ⟨hin, hnext⟩ := hreply w.service.service r hs
    obtain ⟨hend, hkind, sent, hsent, hQ⟩ := ih _ (h _ hin)
      (w := { w with service := (Service.answer w.service r).2 }) hw hnext
    refine ⟨hend, hkind, r :: sent, ?_, hQ⟩
    rw [runWith]
    simpa [Service.answer] using hsent
  | consult s key next ih =>
    obtain ⟨hfound, hleft⟩ := hw.consult s key
    exact ih _ (h _ hfound) hleft hs
  | keep s key data life next ih =>
    have hservice : (w.keep s key data life).service = w.service := by
      unfold World.keep
      cases (w.caches s).evicted? key <;> rfl
    obtain ⟨hend, hkind, sent, hsent, hQ⟩ := ih h.2 (hw.keep h.1 life) (hservice ▸ hs)
    refine ⟨hend, hkind, sent, ?_, hQ⟩
    rwa [hservice] at hsent
  | note line next ih => exact ih h hw hs
  | clock next ih => exact ih w.now (h w.now) hw hs
  | together jobs next ih =>
    obtain ⟨posts, hposts, hnext⟩ := h
    obtain ⟨hjobs, hkind, ⟨sent, hsent⟩, hresults⟩ := ends_inOrder hjob hposts hw hs
    obtain ⟨hend, hlast, more, hmore, hQ⟩ := ih _ (hnext _ hresults sent) hjobs hkind
    refine ⟨hend, hlast, sent ++ more, ?_, hQ⟩
    rw [hsent, List.append_assoc] at hmore
    exact hmore

theorem ends_run
    (hreply : ∀ s r, P s → terms.replies r (Service.answer s r).1 ∧ P (Service.answer s r).2)
    {p : Plan α} {Q : List Request → Outcome α → Prop}
    (h : p.Meets terms (Talk.ErrandMeets terms) Q) {w : World (Recorder S) T}
    (hw : w.Coherent terms) (hs : P w.service.service) : Ends terms P w Q (World.run p w) := by
  refine ends_runWith hreply ?_ h hw hs
  intro e post v he hv hkind
  exact ends_runWith hreply (fun j => nomatch j) he hv hkind

end World

end PullGauge
