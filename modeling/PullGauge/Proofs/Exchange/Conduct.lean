import Mathlib
import PullGauge.Proofs.Exchange.Deeds

/-!
# Rules of conduct

A rule says which deed may come after which. A task abides by its own rule, while the deeds of
others that come between are within another one, if a condition on all that was done stands at
each of its steps, whatever comes back. What has been done only grows, and so each condition on a
task that waits stands for all that may be done meanwhile.

Every step of an undertaking keeps to the rules of its strands, so the condition of its plan
stands at every point of its run.
-/

namespace PullGauge

variable {J S T α β : Type}

abbrev Rule (T : Type) := List (Deed T) → Deed T → Prop

inductive Rule.Grows (rule : Rule T) (h : List (Deed T)) : List (Deed T) → Prop
  | refl : Grows rule h h
  | snoc {h' : List (Deed T)} {d : Deed T} (hgrows : Grows rule h h') (hd : rule h' d) :
    Grows rule h (h' ++ [d])

open Rule

namespace Rule.Grows

variable {rule rule' : Rule T} {a b c : List (Deed T)}

theorem trans (h : Grows rule a b) (h' : Grows rule b c) : Grows rule a c := by
  induction h' with
  | refl => exact h
  | snoc _ hd ih => exact ih.snoc hd

theorem mono (hrule : ∀ h d, rule h d → rule' h d) (h : Grows rule a b) : Grows rule' a b := by
  induction h with
  | refl => exact .refl
  | snoc _ hd ih => exact ih.snoc (hrule _ _ hd)

theorem keeps {I : List (Deed T) → Prop} (hI : ∀ h d, I h → rule h d → I (h ++ [d]))
    (h : Grows rule a b) (ha : I a) : I b := by
  induction h with
  | refl => exact ha
  | snoc _ hd ih => exact hI _ _ ih hd

theorem rule_of_split (h : Grows rule [] a) {before after : List (Deed T)} {d : Deed T}
    (ha : a = before ++ d :: after) : rule before d := by
  induction h generalizing after with
  | refl => simp at ha
  | @snoc h' x _ hx ih =>
    rcases split_concat ha with ⟨-, rfl, rfl⟩ | ⟨rest, -, hbefore⟩
    · exact hx
    · exact ih hbefore

end Rule.Grows

variable [TimeScale T]

namespace Talk

/-- The condition stands at every step, for all that was done and for the outcome, if there is
one. Of the jobs that run together each has a condition of its own, and if one fails the task
may fail as it does. -/
def Abides (own beside : Rule T)
    (job : J → List (Deed T) → (List (Deed T) → Outcome Payload → Prop) → Prop) :
    Talk J α → List (Deed T) → (List (Deed T) → Option (Outcome α) → Prop) → Prop
  | done a, h, Q => ∀ h', Grows beside h h' → Q h' (some (.ok a))
  | failed f, h, Q => ∀ h', Grows beside h h' → Q h' (some (.error f))
  | send r next, h, Q => ∀ h', Grows beside h h' → Q h' none ∧ ∀ reply,
    own h' (.exchanged r reply) ∧
      Abides own beside job (next reply) (h' ++ [.exchanged r reply]) Q
  | consult s key next, h, Q => ∀ h', Grows beside h h' → Q h' none ∧ ∀ time found,
    own h' (.looked s time key found) ∧
      Abides own beside job (next found) (h' ++ [.looked s time key found]) Q
  | keep s key data life next, h, Q => ∀ h', Grows beside h h' → Q h' none ∧ ∀ time,
    own h' (.stored s time key data (life.map TimeScale.seconds)) ∧
      Abides own beside job next
        (h' ++ [.stored s time key data (life.map TimeScale.seconds)]) Q
  | note _ next, h, Q => ∀ h', Grows beside h h' → Q h' none ∧ Abides own beside job next h' Q
  | clock next, h, Q => ∀ h', Grows beside h h' → Q h' none ∧
    ∀ now, Abides own beside job (next now) h' Q
  | together jobs next, h, Q => ∀ h', Grows beside h h' → Q h' none ∧
    ∃ posts : List (List (Deed T) → Outcome Payload → Prop),
      List.Forall₂ (fun j post => job j h' post) jobs posts ∧
      (∀ post ∈ posts, ∀ h'' f, Grows beside h' h'' → post h'' (.error f) →
        Q h'' (some (.error f))) ∧
      ∀ h'' results, Grows beside h' h'' →
        List.Forall₂ (fun post result => post h'' result) posts results →
        Abides own beside job (next results) h'' Q

variable {own own' beside : Rule T}
  {job : J → List (Deed T) → (List (Deed T) → Outcome Payload → Prop) → Prop}
  {h h' : List (Deed T)}

theorem Abides.grows {t : Talk J α} {Q : List (Deed T) → Option (Outcome α) → Prop}
    (ht : t.Abides own beside job h Q) (hgrows : Grows beside h h') :
    t.Abides own beside job h' Q := by
  cases t <;> exact fun h'' hmore => ht h'' (hgrows.trans hmore)

theorem Abides.now {t : Talk J α} {Q : List (Deed T) → Option (Outcome α) → Prop}
    (ht : t.Abides own beside job h Q) : Q h t.outcome? := by
  cases t with
  | done a => exact ht h .refl
  | failed f => exact ht h .refl
  | _ => exact (ht h .refl).1

theorem Abides.mono {I : List (Deed T) → Prop}
    (hown : ∀ h d, I h → own h d → own' h d ∧ I (h ++ [d]))
    (hbeside : ∀ h d, I h → beside h d → I (h ++ [d])) {t : Talk J α}
    {Q R : List (Deed T) → Option (Outcome α) → Prop} (hQR : ∀ h o, I h → Q h o → R h o)
    (hI : I h) (ht : t.Abides own beside job h Q) : t.Abides own' beside job h R := by
  -- `I` is carried along: over what is done beside by the one rule, over a step by the other
  have hkeeps {a b : List (Deed T)} (ha : I a) (hgrows : Grows beside a b) : I b :=
    hgrows.keeps hbeside ha
  induction t generalizing h Q R with
  | done a => exact fun h' hgrows => hQR _ _ (hkeeps hI hgrows) (ht h' hgrows)
  | failed f => exact fun h' hgrows => hQR _ _ (hkeeps hI hgrows) (ht h' hgrows)
  | send r next ih =>
    intro h' hgrows
    obtain ⟨hnow, hnext⟩ := ht h' hgrows
    refine ⟨hQR _ _ (hkeeps hI hgrows) hnow, fun reply => ?_⟩
    obtain ⟨hrule, hkept⟩ := hown _ _ (hkeeps hI hgrows) (hnext reply).1
    exact ⟨hrule, ih reply hQR hkept (hnext reply).2⟩
  | consult s key next ih =>
    intro h' hgrows
    obtain ⟨hnow, hnext⟩ := ht h' hgrows
    refine ⟨hQR _ _ (hkeeps hI hgrows) hnow, fun time found => ?_⟩
    obtain ⟨hrule, hkept⟩ := hown _ _ (hkeeps hI hgrows) (hnext time found).1
    exact ⟨hrule, ih found hQR hkept (hnext time found).2⟩
  | keep s key data life next ih =>
    intro h' hgrows
    obtain ⟨hnow, hnext⟩ := ht h' hgrows
    refine ⟨hQR _ _ (hkeeps hI hgrows) hnow, fun time => ?_⟩
    obtain ⟨hrule, hkept⟩ := hown _ _ (hkeeps hI hgrows) (hnext time).1
    exact ⟨hrule, ih hQR hkept (hnext time).2⟩
  | note line next ih =>
    intro h' hgrows
    obtain ⟨hnow, hnext⟩ := ht h' hgrows
    exact ⟨hQR _ _ (hkeeps hI hgrows) hnow, ih hQR (hkeeps hI hgrows) hnext⟩
  | clock next ih =>
    intro h' hgrows
    obtain ⟨hnow, hnext⟩ := ht h' hgrows
    exact ⟨hQR _ _ (hkeeps hI hgrows) hnow, fun now => ih now hQR (hkeeps hI hgrows) (hnext now)⟩
  | together jobs next ih =>
    intro h' hgrows
    obtain ⟨hnow, posts, hposts, hfails, hnext⟩ := ht h' hgrows
    have hI' := hkeeps hI hgrows
    refine ⟨hQR _ _ hI' hnow, posts, hposts, ?_, ?_⟩
    · intro post hpost h'' f hmore hf
      exact hQR _ _ (hkeeps hI' hmore) (hfails post hpost h'' f hmore hf)
    · intro h'' results hmore hresults
      exact ih results hQR (hkeeps hI' hmore) (hnext h'' results hmore hresults)

theorem Abides.imp {t : Talk J α} {Q R : List (Deed T) → Option (Outcome α) → Prop}
    (ht : t.Abides own beside job h Q) (hQR : ∀ h o, Q h o → R h o) :
    t.Abides own beside job h R :=
  ht.mono (I := fun _ => True) (fun _ _ _ hd => ⟨hd, trivial⟩) (fun _ _ _ _ => trivial)
    (fun h o _ => hQR h o) trivial

theorem Abides.bind {t : Talk J α} {f : α → Talk J β}
    {Q : List (Deed T) → Option (Outcome β) → Prop}
    (ht : t.Abides own beside job h fun h' o =>
      match o with
      | none => Q h' none
      | some (.error e) => Q h' (some (.error e))
      | some (.ok a) => (f a).Abides own beside job h' Q) :
    (t >>= f).Abides own beside job h Q := by
  show (t.bind f).Abides own beside job h Q
  induction t generalizing h with
  | done a => exact ht h .refl
  | failed e => exact ht
  | send r next ih =>
    intro h' hgrows
    obtain ⟨hnow, hnext⟩ := ht h' hgrows
    exact ⟨hnow, fun reply => ⟨(hnext reply).1, ih reply (hnext reply).2⟩⟩
  | consult s key next ih =>
    intro h' hgrows
    obtain ⟨hnow, hnext⟩ := ht h' hgrows
    exact ⟨hnow, fun time found => ⟨(hnext time found).1, ih found (hnext time found).2⟩⟩
  | keep s key data life next ih =>
    intro h' hgrows
    obtain ⟨hnow, hnext⟩ := ht h' hgrows
    exact ⟨hnow, fun time => ⟨(hnext time).1, ih (hnext time).2⟩⟩
  | note line next ih =>
    intro h' hgrows
    obtain ⟨hnow, hnext⟩ := ht h' hgrows
    exact ⟨hnow, ih hnext⟩
  | clock next ih =>
    intro h' hgrows
    obtain ⟨hnow, hnext⟩ := ht h' hgrows
    exact ⟨hnow, fun now => ih now (hnext now)⟩
  | together jobs next ih =>
    intro h' hgrows
    obtain ⟨hnow, posts, hposts, hfails, hnext⟩ := ht h' hgrows
    exact ⟨hnow, posts, hposts, hfails, fun h'' results hmore hresults =>
      ih results (hnext h'' results hmore hresults)⟩

variable [Service S]

theorem Abides.step {t t' : Talk J α} {Q : List (Deed T) → Option (Outcome α) → Prop}
    {w w' : World S T} (ht : t.Abides own beside job h Q) (hstep : Step t w t' w') :
    Grows own h (h ++ t.deeds w) ∧ t'.Abides own beside job (h ++ t.deeds w) Q := by
  cases hstep with
  | send r next =>
    obtain ⟨hrule, hnext⟩ := (ht h .refl).2 (Service.answer w.service r).1
    exact ⟨.snoc .refl hrule, hnext⟩
  | consult s key next =>
    obtain ⟨hrule, hnext⟩ := (ht h .refl).2 w.time (w.consult s key).1
    exact ⟨.snoc .refl hrule, hnext⟩
  | keep s key data life next =>
    obtain ⟨hrule, hnext⟩ := (ht h .refl).2 w.time
    exact ⟨.snoc .refl hrule, hnext⟩
  | note line next =>
    show Grows own h (h ++ []) ∧ t'.Abides own beside job (h ++ []) Q
    rw [List.append_nil]
    exact ⟨.refl, (ht h .refl).2⟩
  | clock next =>
    show Grows own h (h ++ []) ∧ (next w.now).Abides own beside job (h ++ []) Q
    rw [List.append_nil]
    exact ⟨.refl, (ht h .refl).2 w.now⟩
  | nobody next =>
    show Grows own h (h ++ []) ∧ (next []).Abides own beside job (h ++ []) Q
    rw [List.append_nil]
    obtain ⟨-, posts, hposts, -, hnext⟩ := ht h .refl
    rw [List.forall₂_nil_left_iff.1 hposts] at hnext
    exact ⟨.refl, hnext h [] .refl .nil⟩

def ErrandAbides (chore : Rule T) (e : Errand) (h : List (Deed T))
    (post : List (Deed T) → Outcome Payload → Prop) : Prop :=
  e.Abides chore chore (fun none _ _ => nomatch none) h fun h' o =>
    ∀ result, o = some result → post h' result

theorem ErrandAbides.grows {chore : Rule T} {e : Errand}
    {post : List (Deed T) → Outcome Payload → Prop} (he : ErrandAbides chore e h post)
    (hgrows : Grows chore h h') : ErrandAbides chore e h' post :=
  Abides.grows he hgrows

theorem ErrandAbides.of_outcome? {chore : Rule T} {e : Errand}
    {post : List (Deed T) → Outcome Payload → Prop} (he : ErrandAbides chore e h post)
    {o : Outcome Payload} (ho : e.outcome? = some o) : post h o :=
  Abides.now he o ho

end Talk

open Talk

def Strand.Abides (own chore : Rule T) (h : List (Deed T))
    (Q : List (Deed T) → Option (Outcome α) → Prop) : Strand α → Prop
  | .going p => p.Abides own chore (ErrandAbides chore) h Q
  | .waiting errands next =>
    (∀ h', Grows chore h h' → Q h' none) ∧
    ∃ posts : List (List (Deed T) → Outcome Payload → Prop),
      List.Forall₂ (fun e post => ErrandAbides chore e h post) errands posts ∧
      (∀ post ∈ posts, ∀ h' f, Grows chore h h' → post h' (.error f) → Q h' (some (.error f))) ∧
      ∀ h' results, Grows chore h h' →
        List.Forall₂ (fun post result => post h' result) posts results →
        (next results).Abides own chore (ErrandAbides chore) h' Q
  | .stray _ => False

namespace Strand

variable {own chore : Rule T} {h h' : List (Deed T)}
  {Q : List (Deed T) → Option (Outcome α) → Prop} {strand : Strand α}

theorem Abides.grows (hs : strand.Abides own chore h Q) (hgrows : Grows chore h h') :
    strand.Abides own chore h' Q := by
  cases strand with
  | going p => exact Talk.Abides.grows hs hgrows
  | waiting errands next =>
    obtain ⟨hnow, posts, hposts, hfails, hnext⟩ := hs
    refine ⟨fun h'' hmore => hnow h'' (hgrows.trans hmore), posts, ?_, ?_, ?_⟩
    · exact hposts.imp fun _ _ he => he.grows hgrows
    · exact fun post hpost h'' f hmore => hfails post hpost h'' f (hgrows.trans hmore)
    · exact fun h'' results hmore => hnext h'' results (hgrows.trans hmore)
  | stray e => exact hs

theorem Abides.now (hs : strand.Abides own chore h Q) : Q h strand.outcome? := by
  cases strand with
  | going p => exact Talk.Abides.now hs
  | waiting errands next => exact hs.1 h .refl
  | stray e => exact hs.elim

end Strand

namespace Undertaking

variable {own chore : Rule T} {h : List (Deed T)} {Q : List (Deed T) → Option (Outcome α) → Prop}

/-- What stands at a point of a run. Only errands of a plan that has failed are left. -/
structure Sound (own chore : Rule T) (Q : List (Deed T) → Option (Outcome α) → Prop)
    (h : List (Deed T)) (c : Undertaking α) : Prop where
  grown : Grows (fun h d => own h d ∨ chore h d) [] h
  strand : c.strand.Abides own chore h Q
  left : ∀ e ∈ c.left, ∃ post, ErrandAbides chore e h post
  failed : c.left = [] ∨ ∃ f, c.strand = .going (.failed f)

variable [Service S]

theorem abides_errand {before after : List Errand}
    {posts : List (List (Deed T) → Outcome Payload → Prop)} {e e' : Errand} {w w' : World S T}
    (hposts : List.Forall₂ (fun e post => ErrandAbides chore e h post) (before ++ e :: after) posts)
    (hstep : Talk.Step e w e' w') :
    Grows chore h (h ++ e.deeds w) ∧
      List.Forall₂ (fun x post => ErrandAbides chore x (h ++ e.deeds w) post)
        (before ++ e' :: after) posts := by
  obtain ⟨first, rest, hfirst, hrest, rfl⟩ := exists_append_of_forall₂ hposts
  rw [List.forall₂_cons_left_iff] at hrest
  obtain ⟨post, more, hpost, hmore, rfl⟩ := hrest
  obtain ⟨hgrows, habides⟩ := Abides.step hpost hstep
  have hlater {x : Errand} {post : List (Deed T) → Outcome Payload → Prop}
      (hx : ErrandAbides chore x h post) : ErrandAbides chore x (h ++ e.deeds w) post :=
    hx.grows hgrows
  exact ⟨hgrows, List.rel_append (hfirst.imp fun _ _ => hlater)
    (.cons habides (hmore.imp fun _ _ => hlater))⟩

theorem Sound.step {c c' : Undertaking α} {w w' : World S T} {deeds : List (Deed T)}
    (hc : c.Sound own chore Q h) (hstep : Step c w deeds c' w') :
    c'.Sound own chore Q (h ++ deeds) := by
  obtain ⟨hgrown, hstrand, hleft, hfailed⟩ := hc
  have hgrow {h' : List (Deed T)} (hmore : Grows chore h h') :
      Grows (fun h d => own h d ∨ chore h d) [] h' :=
    hgrown.trans (hmore.mono fun _ _ => .inr)
  cases hstep with
  | @go p p' left _ _ hgo =>
    obtain ⟨hmore, habides⟩ := Talk.Abides.step hstrand hgo
    -- a plan that takes a step has not failed, and so nothing is left behind
    have hnone : left = [] := by
      rcases hfailed with hnone | ⟨f, hp⟩
      · exact hnone
      · cases hp
        cases hgo
    refine ⟨hgrown.trans (hmore.mono fun _ _ => .inl), habides, ?_, .inl hnone⟩
    rw [hnone]
    exact nofun
  | spread errands next left =>
    rw [List.append_nil]
    obtain ⟨-, posts, hposts, hfails, hnext⟩ := hstrand h .refl
    refine ⟨hgrown, ⟨fun h' hmore => (hstrand h' hmore).1, posts, hposts, hfails, hnext⟩, hleft, ?_⟩
    exact hfailed.imp_right fun ⟨f, hp⟩ => nomatch hp
  | errand hgo =>
    obtain ⟨hnow, posts, hposts, hfails, hnext⟩ := hstrand
    obtain ⟨hmore, hposts⟩ := abides_errand hposts hgo
    refine ⟨hgrow hmore, ⟨fun h' hlater => hnow h' (hmore.trans hlater), posts, hposts, ?_, ?_⟩, ?_,
      hfailed.imp_right fun ⟨f, hp⟩ => nomatch hp⟩
    · exact fun post hpost h' f hlater => hfails post hpost h' f (hmore.trans hlater)
    · exact fun h' results hlater => hnext h' results (hmore.trans hlater)
    · exact fun e he => (hleft e he).imp fun _ => (·.grows hmore)
  | join hends =>
    rw [List.append_nil]
    obtain ⟨-, posts, hposts, -, hnext⟩ := hstrand
    have hresults : List.Forall₂ (fun post result => post h result) posts _ :=
      forall₂_of_common (fun _ _ _ hpost he => hpost.of_outcome? he) hposts hends
    refine ⟨hgrown, hnext h _ .refl hresults, hleft, ?_⟩
    exact hfailed.imp_right fun ⟨f, hp⟩ => nomatch hp
  | @abandon errands next f left _ hmem =>
    rw [List.append_nil]
    obtain ⟨-, posts, hposts, hfails, -⟩ := hstrand
    refine ⟨hgrown, ?_, ?_, .inr ⟨f, rfl⟩⟩
    · -- the plan fails as the errand does, and what else is done later is done beside it
      obtain ⟨post, hpost, habides⟩ := exists_of_mem_of_forall₂ hposts hmem
      intro h' hmore
      exact hfails post hpost h' f hmore ((habides.grows hmore).of_outcome? rfl)
    · intro e he
      rcases List.mem_append.1 he with he | he
      · exact hleft e he
      · obtain ⟨post, -, habides⟩ := exists_of_mem_of_forall₂ hposts he
        exact ⟨post, habides⟩
  | @stray strand before after e e' _ _ hgo =>
    obtain ⟨post, hpost⟩ := hleft e (by simp)
    obtain ⟨hmore, habides⟩ := Talk.Abides.step hpost hgo
    refine ⟨hgrow hmore, hstrand.grows hmore, ?_, ?_⟩
    · intro x hx
      rcases List.mem_append.1 hx with hx | hx
      · exact (hleft x (by simp [hx])).imp fun _ => (·.grows hmore)
      · rcases List.mem_cons.1 hx with rfl | hx
        · exact ⟨post, habides⟩
        · exact (hleft x (by simp [hx])).imp fun _ => (·.grows hmore)
    · rcases hfailed with hnone | hfailed
      · simp at hnone
      · exact .inr hfailed

theorem holds_of_run {p : Plan α} (hp : p.Abides own chore (ErrandAbides chore) [] Q)
    {others : World S T → World S T → Prop} {c : Undertaking α} {w w' : World S T}
    {deeds : List (Deed T)} (hrun : Run others (start p) w deeds c w') :
    Grows (fun h d => own h d ∨ chore h d) [] deeds ∧ Q deeds c.strand.outcome? := by
  have hsound : c.Sound own chore Q deeds := by
    induction hrun with
    | refl => exact ⟨.refl, hp, nofun, .inl rfl⟩
    | step _ hstep ih => exact ih.step hstep
    | beside _ _ ih => exact ih
  exact ⟨hsound.grown, hsound.strand.now⟩

end Undertaking

end PullGauge
