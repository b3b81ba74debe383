import Mathlib
import PullGauge.Proofs.Exchange.Terms
import PullGauge.Proofs.Outcome.Rows

/-!
# Tasks that run at the same time

In a crowd many plans work on one world. Any strand may take the next step: a plan of its own,
or one of the errands for which a plan waits. New plans may come at any time, and the clocks
may show anything. A plan whose errand fails goes on without the others, which are left to
themselves.

Every step of one strand keeps the world within the terms that the strands count on, so what
each plan meets on its own terms it meets in the crowd.
-/

namespace PullGauge

variable {J K S T α : Type} [Service S] [TimeScale T]

namespace Talk

/-- One step of a task: what it does to the world, and how it goes on. Where jobs are let go
together, only that there are none is a step of the task alone. -/
inductive Step : Talk J α → World S T → Talk J α → World S T → Prop
  | send (r : Request) (next : Except Outage Reply → Talk J α) (w : World S T) :
    Step (send r next) w (next (Service.answer w.service r).1)
      { w with service := (Service.answer w.service r).2 }
  | consult (s : Shelf) (key : Text) (next : Option s.Value → Talk J α) (w : World S T) :
    Step (consult s key next) w (next (w.consult s key).1) (w.consult s key).2
  | keep (s : Shelf) (key : Text) (data : Option s.Value) (life : Option Nat) (next : Talk J α)
      (w : World S T) : Step (keep s key data life next) w next (w.keep s key data life)
  | note (line : LogLine) (next : Talk J α) (w : World S T) :
    Step (note line next) w next (w.note line)
  | clock (next : Moment → Talk J α) (w : World S T) : Step (clock next) w (next w.now) w
  | nobody (next : List (Outcome Payload) → Talk J α) (w : World S T) :
    Step (together [] next) w (next []) w

def outcome? : Talk J α → Option (Outcome α)
  | done a => some (.ok a)
  | failed f => some (.error f)
  | _ => none

theorem outcome?_ofOutcome (o : Outcome α) : (ofOutcome o : Talk J α).outcome? = some o := by
  cases o <;> rfl

theorem outcomes_ofOutcome (results : List (Outcome Payload)) :
    List.Forall₂ (fun (e : Errand) o => e.outcome? = some o) (results.map ofOutcome) results := by
  rw [List.forall₂_map_left_iff, List.forall₂_same]
  intro o _
  exact outcome?_ofOutcome o

def Yields (terms : Terms) (job : J → (Outcome Payload → Prop) → Prop) (t : Talk J α)
    (Q : Outcome α → Prop) : Prop :=
  t.Meets terms job fun _ o => Q o

theorem Yields.of_outcome? {terms : Terms} {job : J → (Outcome Payload → Prop) → Prop}
    {t : Talk J α} {Q : Outcome α → Prop} (h : t.Yields terms job Q) {o : Outcome α}
    (ho : t.outcome? = some o) : Q o := by
  cases t with
  | done a => cases ho; exact h
  | failed f => cases ho; exact h
  | _ => cases ho

theorem Yields.step {terms : Terms} {job : J → (Outcome Payload → Prop) → Prop} {P : S → Prop}
    (hreply : ∀ s r, P s → terms.replies r (Service.answer s r).1 ∧ P (Service.answer s r).2)
    {t t' : Talk J α} {Q : Outcome α → Prop} {w w' : World S T} (h : t.Yields terms job Q)
    (hw : w.Coherent terms) (hs : P w.service) (hstep : Step t w t' w') :
    t'.Yields terms job Q ∧ w'.Coherent terms ∧ P w'.service := by
  cases hstep with
  | send r next =>
    obtain ⟨hin, hnext⟩ := hreply w.service r hs
    exact ⟨h _ hin, hw, hnext⟩
  | consult s key next =>
    obtain ⟨hfound, hleft⟩ := hw.consult s key
    exact ⟨h _ hfound, hleft, hs⟩
  | keep s key data life next =>
    have hservice : (w.keep s key data life).service = w.service := by
      unfold World.keep
      cases (w.caches s).evicted? key <;> rfl
    exact ⟨h.2, hw.keep h.1 life, hservice ▸ hs⟩
  | note line next => exact ⟨h, hw, hs⟩
  | clock next => exact ⟨h _, hw, hs⟩
  | nobody next =>
    obtain ⟨posts, hposts, hnext⟩ := h
    rw [List.forall₂_nil_left_iff.1 hposts] at hnext
    exact ⟨hnext [] .nil [], hw, hs⟩

end Talk

/-- A plan on its way: going on, waiting for errands, or only an errand that nobody waits for. -/
inductive Strand (α : Type) where
  | going (p : Plan α)
  | waiting (errands : List Errand) (next : List (Outcome Payload) → Plan α)
  | stray (e : Errand)

namespace Strand

/-- A property of a plan on its way that none of its steps ends, as long as no errand fails it. -/
structure IsKept (P : Strand α → World S T → Prop) : Prop where
  go {p p' : Plan α} {w w' : World S T} (h : P (.going p) w) (hstep : Talk.Step p w p' w') :
    P (.going p') w'
  spread {errands : List Errand} {next : List (Outcome Payload) → Plan α} {w : World S T}
    (h : P (.going (.together errands next)) w) : P (.waiting errands next) w
  errand {before after : List Errand} {next : List (Outcome Payload) → Plan α} {e e' : Errand}
    {w w' : World S T} (h : P (.waiting (before ++ e :: after) next) w)
    (hstep : Talk.Step e w e' w') : P (.waiting (before ++ e' :: after) next) w'
  join {errands : List Errand} {next : List (Outcome Payload) → Plan α}
    {results : List (Outcome Payload)} {w : World S T} (h : P (.waiting errands next) w)
    (hends : List.Forall₂ (fun e o => e.outcome? = some o) errands results) :
    P (.going (next results)) w

variable {P : Strand α → World S T → Prop}

theorem IsKept.runErrand (hP : IsKept P) {before after : List Errand}
    {next : List (Outcome Payload) → Plan α} (e : Errand) {w : World S T}
    (h : P (.waiting (before ++ e :: after) next) w) :
    P (.waiting (before ++ Talk.ofOutcome (World.runErrand e w).1 :: after) next)
      (World.runErrand e w).2 := by
  induction e generalizing w with
  | done p => exact h
  | failed f => exact h
  | send r next ih => exact ih _ (hP.errand h (.send r next w))
  | consult s key next ih => exact ih _ (hP.errand h (.consult s key next w))
  | keep s key data life next ih => exact ih (hP.errand h (.keep s key data life next w))
  | note line next ih => exact ih (hP.errand h (.note line next w))
  | clock next ih => exact ih _ (hP.errand h (.clock next w))
  | together jobs next ih =>
    cases jobs with
    | nil => exact ih _ (hP.errand h (.nobody next w))
    | cons job jobs => exact nomatch job

theorem IsKept.inOrder (hP : IsKept P) {before : List Errand}
    {next : List (Outcome Payload) → Plan α} (errands : List Errand) {w : World S T}
    (h : P (.waiting (before ++ errands) next) w) :
    P (.waiting (before ++ (World.inOrder World.runErrand errands w).1.map Talk.ofOutcome) next)
      (World.inOrder World.runErrand errands w).2 := by
  induction errands generalizing before w with
  | nil => exact h
  | cons e errands ih =>
    have hrest := @ih (before ++ [Talk.ofOutcome (World.runErrand e w).1]) (World.runErrand e w).2
    rw [List.append_assoc, List.append_assoc] at hrest
    exact hrest (hP.runErrand e h)

theorem IsKept.run (hP : IsKept P) (p : Plan α) {w : World S T} (h : P (.going p) w) :
    P (.going (Talk.ofOutcome (World.run p w).1)) (World.run p w).2 := by
  induction p generalizing w with
  | done r => exact h
  | failed f => exact h
  | send r next ih => exact ih _ (hP.go h (.send r next w))
  | consult s key next ih => exact ih _ (hP.go h (.consult s key next w))
  | keep s key data life next ih => exact ih (hP.go h (.keep s key data life next w))
  | note line next ih => exact ih (hP.go h (.note line next w))
  | clock next ih => exact ih _ (hP.go h (.clock next w))
  | together errands next ih =>
    have hends := Talk.outcomes_ofOutcome (World.inOrder World.runErrand errands w).1
    have hall := @IsKept.inOrder S T α _ _ P hP [] next errands w (hP.spread h)
    exact ih _ (hP.join hall hends)

end Strand

/-- A world with the strands of the plans that work on it, each with what it was called for. -/
structure Crowd (K S T α : Type) where
  world : World S T
  strands : List (K × Strand α)

namespace Crowd

inductive Step (plan : K → Plan α) (allowed : K → Prop) : Crowd K S T α → Crowd K S T α → Prop
  | call {w : World S T} {strands : List (K × Strand α)} (k : K) (h : allowed k) :
    Step plan allowed ⟨w, strands⟩ ⟨w, strands ++ [(k, .going (plan k))]⟩
  | pass {w : World S T} {strands : List (K × Strand α)} (now : Moment) (time : T) :
    Step plan allowed ⟨w, strands⟩ ⟨{ w with now := now, time := time }, strands⟩
  | go {w w' : World S T} {a b : List (K × Strand α)} {k : K} {p p' : Plan α}
      (h : Talk.Step p w p' w') :
    Step plan allowed ⟨w, a ++ (k, .going p) :: b⟩ ⟨w', a ++ (k, .going p') :: b⟩
  | spread {w : World S T} {a b : List (K × Strand α)} (k : K) (errands : List Errand)
      (next : List (Outcome Payload) → Plan α) :
    Step plan allowed ⟨w, a ++ (k, .going (.together errands next)) :: b⟩
      ⟨w, a ++ (k, .waiting errands next) :: b⟩
  | errand {w w' : World S T} {a b : List (K × Strand α)} {k : K} {before after : List Errand}
      {next : List (Outcome Payload) → Plan α} {e e' : Errand} (h : Talk.Step e w e' w') :
    Step plan allowed ⟨w, a ++ (k, .waiting (before ++ e :: after) next) :: b⟩
      ⟨w', a ++ (k, .waiting (before ++ e' :: after) next) :: b⟩
  | join {w : World S T} {a b : List (K × Strand α)} {k : K} {errands : List Errand}
      {next : List (Outcome Payload) → Plan α} {results : List (Outcome Payload)}
      (h : List.Forall₂ (fun e o => e.outcome? = some o) errands results) :
    Step plan allowed ⟨w, a ++ (k, .waiting errands next) :: b⟩
      ⟨w, a ++ (k, .going (next results)) :: b⟩
  | abandon {w : World S T} {a b : List (K × Strand α)} {k : K} {errands : List Errand}
      {next : List (Outcome Payload) → Plan α} {f : Fault} (h : .failed f ∈ errands) :
    Step plan allowed ⟨w, a ++ (k, .waiting errands next) :: b⟩
      ⟨w, a ++ ((k, .going (.failed f)) :: errands.map (fun e => (k, .stray e)) ++ b)⟩
  | stray {w w' : World S T} {a b : List (K × Strand α)} {k : K} {e e' : Errand}
      (h : Talk.Step e w e' w') :
    Step plan allowed ⟨w, a ++ (k, .stray e) :: b⟩ ⟨w', a ++ (k, .stray e') :: b⟩

def Reaches (plan : K → Plan α) (allowed : K → Prop) : Crowd K S T α → Crowd K S T α → Prop :=
  Relation.ReflTransGen (Step plan allowed)

variable {plan : K → Plan α} {allowed : K → Prop}

theorem reaches_run (k : K) {a b : List (K × Strand α)} (p : Plan α) (w : World S T) :
    Reaches plan allowed ⟨w, a ++ (k, .going p) :: b⟩
      ⟨(World.run p w).2, a ++ (k, .going (Talk.ofOutcome (World.run p w).1)) :: b⟩ := by
  have hkept : Strand.IsKept fun strand w' =>
      Reaches plan allowed ⟨w, a ++ (k, .going p) :: b⟩ ⟨w', a ++ (k, strand) :: b⟩ := by
    refine ⟨?_, ?_, ?_, ?_⟩
    · exact fun h hstep => h.tail (.go hstep)
    · exact fun h => h.tail (.spread k _ _)
    · exact fun h hstep => h.tail (.errand hstep)
    · exact fun h hends => h.tail (.join hends)
  exact hkept.run p .refl

end Crowd

def Strand.Yields (terms : Terms) (good : α → Prop) : Strand α → Prop
  | .going p => p.Answers terms (Talk.ErrandMeets terms) good
  | .waiting errands next =>
    ∃ posts : List (Outcome Payload → Prop),
      List.Forall₂ (Talk.ErrandMeets terms) errands posts ∧
      ∀ results, List.Forall₂ (fun post result => post result) posts results →
        (next results).Answers terms (Talk.ErrandMeets terms) good
  | .stray e => ∃ post, Talk.ErrandMeets terms e post

namespace Crowd

structure Sound (terms : Terms) (P : S → Prop) (good : K → α → Prop) (c : Crowd K S T α) : Prop where
  coherent : c.world.Coherent terms
  service : P c.world.service
  strands : ∀ x ∈ c.strands, x.2.Yields terms (good x.1)

variable {terms : Terms} {P : S → Prop} {good : K → α → Prop} {plan : K → Plan α}
  {allowed : K → Prop}

omit [Service S] [TimeScale T] in
theorem Sound.strand {w : World S T} {a b : List (K × Strand α)} {x : K × Strand α}
    (h : Sound terms P good ⟨w, a ++ x :: b⟩) : x.2.Yields terms (good x.1) :=
  h.strands x (List.mem_append_right _ (List.mem_cons_self ..))

omit [Service S] [TimeScale T] in
theorem Sound.replace {w w' : World S T} {a b new : List (K × Strand α)} {x : K × Strand α}
    (h : Sound terms P good ⟨w, a ++ x :: b⟩) (hw : w'.Coherent terms) (hs : P w'.service)
    (hnew : ∀ y ∈ new, y.2.Yields terms (good y.1)) :
    Sound terms P good ⟨w', a ++ (new ++ b)⟩ := by
  refine ⟨hw, hs, ?_⟩
  intro y hy
  rcases List.mem_append.1 hy with hy | hy
  · exact h.strands y (List.mem_append_left _ hy)
  · rcases List.mem_append.1 hy with hy | hy
    · exact hnew y hy
    · exact h.strands y (List.mem_append_right _ (List.mem_cons_of_mem _ hy))

omit [Service S] [TimeScale T] in
theorem Sound.replace_one {w w' : World S T} {a b : List (K × Strand α)} {x y : K × Strand α}
    (h : Sound terms P good ⟨w, a ++ x :: b⟩) (hw : w'.Coherent terms) (hs : P w'.service)
    (hy : y.2.Yields terms (good y.1)) : Sound terms P good ⟨w', a ++ y :: b⟩ :=
  @replace _ _ _ _ _ _ _ _ _ a b [y] x h hw hs fun _ hz => List.mem_singleton.1 hz ▸ hy

theorem Sound.step
    (hreply : ∀ s r, P s → terms.replies r (Service.answer s r).1 ∧ P (Service.answer s r).2)
    (hplan : ∀ k, allowed k → (Strand.going (plan k)).Yields terms (good k))
    {c c' : Crowd K S T α} (h : c.Sound terms P good) (hstep : Step plan allowed c c') :
    c'.Sound terms P good := by
  cases hstep with
  | call k hk =>
    refine ⟨h.coherent, h.service, ?_⟩
    intro x hx
    rcases List.mem_append.1 hx with hx | hx
    · exact h.strands x hx
    · rw [List.mem_singleton.1 hx]
      exact hplan k hk
  | pass now time => exact ⟨h.coherent, h.service, h.strands⟩
  | go hgo =>
    obtain ⟨hyields, hw, hs⟩ := Talk.Yields.step hreply h.strand h.coherent h.service hgo
    exact h.replace_one hw hs hyields
  | spread k errands next =>
    -- what the errands sent counts for nothing here, so none is as good as any
    obtain ⟨posts, hposts, hnext⟩ := h.strand
    exact h.replace_one h.coherent h.service ⟨posts, hposts, fun results hr => hnext results hr []⟩
  | @errand w w' a b k before after next e e' hgo =>
    obtain ⟨posts, hposts, hnext⟩ := h.strand
    obtain ⟨first, rest, hfirst, hrest, rfl⟩ := exists_append_of_forall₂ hposts
    rw [List.forall₂_cons_left_iff] at hrest
    obtain ⟨post, more, hpost, hmore, rfl⟩ := hrest
    obtain ⟨hyields, hw, hs⟩ := Talk.Yields.step hreply hpost h.coherent h.service hgo
    refine h.replace_one hw hs ⟨first ++ post :: more, ?_, hnext⟩
    exact List.rel_append hfirst (.cons hyields hmore)
  | @join w a b k errands next results hends =>
    obtain ⟨posts, hposts, hnext⟩ := h.strand
    have hresults : List.Forall₂ (fun post result => post result) posts results :=
      forall₂_of_common (fun _ _ _ hpost he => Talk.Yields.of_outcome? hpost he) hposts hends
    exact h.replace_one h.coherent h.service (hnext results hresults)
  | @abandon w a b k errands next f hfailed =>
    obtain ⟨posts, hposts, -⟩ := h.strand
    refine Sound.replace (b := b) h h.coherent h.service ?_
    intro y hy
    rcases List.mem_cons.1 hy with rfl | hy
    · -- the plan has failed, and the errands left to themselves keep to the terms as before
      exact nofun
    · obtain ⟨e, he, rfl⟩ := List.mem_map.1 hy
      obtain ⟨post, -, hpost⟩ := exists_of_mem_of_forall₂ hposts he
      exact ⟨post, hpost⟩
  | stray hgo =>
    obtain ⟨post, hpost⟩ := h.strand
    obtain ⟨hyields, hw, hs⟩ := Talk.Yields.step hreply hpost h.coherent h.service hgo
    exact h.replace_one hw hs ⟨post, hyields⟩

theorem Sound.reaches
    (hreply : ∀ s r, P s → terms.replies r (Service.answer s r).1 ∧ P (Service.answer s r).2)
    (hplan : ∀ k, allowed k → (Strand.going (plan k)).Yields terms (good k))
    {c c' : Crowd K S T α} (h : c.Sound terms P good) (hreach : Reaches plan allowed c c') :
    c'.Sound terms P good := by
  induction hreach with
  | refl => exact h
  | tail _ hstep ih => exact ih.step hreply hplan hstep

theorem good_of_reaches
    (hreply : ∀ s r, P s → terms.replies r (Service.answer s r).1 ∧ P (Service.answer s r).2)
    (hplan : ∀ k, allowed k → (Strand.going (plan k)).Yields terms (good k))
    {w : World S T} (hw : w.Coherent terms) (hs : P w.service) {c : Crowd K S T α}
    (hreach : Reaches plan allowed ⟨w, []⟩ c) {k : K} {a : α}
    (hdone : (k, .going (.done a)) ∈ c.strands) : good k a := by
  have hstart : Sound terms P good (⟨w, []⟩ : Crowd K S T α) := ⟨hw, hs, fun x hx => nomatch hx⟩
  exact (hstart.reaches hreply hplan hreach).strands _ hdone a rfl

end Crowd

end PullGauge
