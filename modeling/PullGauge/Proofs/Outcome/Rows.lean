import Mathlib
import PullGauge.Fault

/-!
# Rows of outcomes

A row of steps gives answers if each step does, and then those answers in the same order.
-/

namespace PullGauge

section Told

variable {α β γ : Type} {R : α → β → Prop} {told : List α} {items : List β}

theorem exists_of_mem_of_forall₂ (h : List.Forall₂ R told items) {a : α} (ha : a ∈ told) :
    ∃ b ∈ items, R a b := by
  induction h with
  | nil => cases ha
  | @cons c b told items hone hmore ih =>
    rcases List.mem_cons.1 ha with rfl | ha
    · exact ⟨b, List.mem_cons_self .., hone⟩
    · obtain ⟨d, hd, had⟩ := ih ha
      exact ⟨d, List.mem_cons_of_mem _ hd, had⟩

theorem exists_append_of_forall₂ {a b : List α} (h : List.Forall₂ R (a ++ b) items) :
    ∃ x y, List.Forall₂ R a x ∧ List.Forall₂ R b y ∧ items = x ++ y :=
  ⟨items.take a.length, items.drop a.length, (List.forall₂_take_append _ _ _ h.flip).flip,
    (List.forall₂_drop_append _ _ _ h.flip).flip, (List.take_append_drop _ _).symm⟩

theorem exists_perm_append_of_forall₂ {a b : List β} (h : List.Forall₂ R told items)
    (hperm : items.Perm (a ++ b)) :
    ∃ x y, told.Perm (x ++ y) ∧ List.Forall₂ R x a ∧ List.Forall₂ R y b := by
  obtain ⟨l, hl, hsame⟩ := List.perm_comp_forall₂ hperm.symm h.flip
  obtain ⟨x, y, hx, hy, rfl⟩ := exists_append_of_forall₂ hl
  exact ⟨x, y, hsame.symm, hx.flip, hy.flip⟩

theorem forall_of_forall₂ {Q : α → Prop} (h : List.Forall₂ R told items)
    (hitems : ∀ b ∈ items, ∀ a, R a b → Q a) : ∀ a ∈ told, Q a := by
  intro a ha
  obtain ⟨b, hb, hab⟩ := exists_of_mem_of_forall₂ h ha
  exact hitems b hb a hab

theorem forall₂_of_common {S : α → γ → Prop} {P : β → γ → Prop} {answers : List γ}
    (hstep : ∀ a b c, R a b → S a c → P b c) (h : List.Forall₂ R told items)
    (h' : List.Forall₂ S told answers) : List.Forall₂ P items answers := by
  induction h generalizing answers with
  | nil =>
    rw [List.forall₂_nil_left_iff.1 h']
    exact .nil
  | cons hone hmore ih =>
    rw [List.forall₂_cons_left_iff] at h'
    obtain ⟨c, more, hc, hrest, rfl⟩ := h'
    exact .cons (hstep _ _ _ hone hc) (ih hrest)

end Told

namespace Outcome

theorem mapM_eq_ok_iff {α β : Type} {f : α → Outcome β} {items : List α}
    {results : List β} :
    items.mapM f = .ok results ↔ List.Forall₂ (fun a b => f a = .ok b) items results := by
  induction items generalizing results with
  | nil =>
    rw [List.mapM_nil, List.forall₂_nil_left_iff]
    constructor
    · intro h
      exact (Except.ok.inj h).symm
    · rintro rfl
      rfl
  | cons a items ih =>
    rw [List.mapM_cons, List.forall₂_cons_left_iff]
    constructor
    · intro h
      obtain ⟨b, hb, h⟩ := Outcome.exists_of_bind h
      obtain ⟨more, hmore, h⟩ := Outcome.exists_of_bind h
      exact ⟨b, more, hb, ih.1 hmore, (Except.ok.inj h).symm⟩
    · rintro ⟨b, more, hb, hmore, rfl⟩
      rw [hb, ih.2 hmore]
      rfl

theorem exists_of_mem_mapM {α β : Type} {f : α → Outcome β} {items : List α}
    {results : List β} (h : items.mapM f = .ok results) {b : β} (hb : b ∈ results) :
    ∃ a ∈ items, f a = .ok b := by
  have htold : List.Forall₂ (fun b a => f a = .ok b) results items := (mapM_eq_ok_iff.1 h).flip
  exact exists_of_mem_of_forall₂ htold hb

theorem mapM_append_eq_ok_iff {α β : Type} {f : α → Outcome β} {a b : List α}
    {results : List β} :
    (a ++ b).mapM f = .ok results ↔
      ∃ first rest, a.mapM f = .ok first ∧ b.mapM f = .ok rest ∧ results = first ++ rest := by
  rw [List.mapM_append]
  constructor
  · intro h
    obtain ⟨first, hfirst, h⟩ := Outcome.exists_of_bind h
    obtain ⟨rest, hrest, h⟩ := Outcome.exists_of_bind h
    exact ⟨first, rest, hfirst, hrest, (Except.ok.inj h).symm⟩
  · rintro ⟨first, rest, hfirst, hrest, rfl⟩
    rw [hfirst, hrest]
    rfl

theorem eq_map_ok_of_mapM_id {α : Type} {results : List (Outcome α)} {answers : List α}
    (h : results.mapM id = .ok answers) : results = answers.map .ok := by
  induction results generalizing answers with
  | nil =>
    obtain rfl := Except.ok.inj h
    rfl
  | cons result results ih =>
    rw [List.mapM_cons] at h
    obtain ⟨a, ha, h⟩ := Outcome.exists_of_bind h
    obtain ⟨more, hmore, h⟩ := Outcome.exists_of_bind h
    obtain rfl := Except.ok.inj h
    have hfirst : result = .ok a := ha
    rw [List.map_cons, ← ih hmore, hfirst]

theorem perm_of_mapM {α β : Type} {f : α → Outcome β} {items others : List α}
    {results answers : List β} (hperm : items.Perm others) (h : items.mapM f = .ok results)
    (h' : others.mapM f = .ok answers) : results.Perm answers := by
  obtain ⟨moved, hmoved, hsame⟩ := List.perm_comp_forall₂ hperm.symm (mapM_eq_ok_iff.1 h)
  obtain rfl := Except.ok.inj ((mapM_eq_ok_iff.2 hmoved).symm.trans h')
  exact hsame.symm

theorem exists_mapM {α β : Type} {f : α → Outcome β} {items : List α}
    (h : ∀ a ∈ items, ∃ b, f a = .ok b) : ∃ results, items.mapM f = .ok results := by
  induction items with
  | nil => exact ⟨[], rfl⟩
  | cons a items ih =>
    obtain ⟨⟨b, hb⟩, hitems⟩ := List.forall_mem_cons.1 h
    obtain ⟨results, hresults⟩ := ih hitems
    exact ⟨b :: results, mapM_eq_ok_iff.2 (.cons hb (mapM_eq_ok_iff.1 hresults))⟩

theorem mapM_eq_ok_map {α β : Type} {f : α → Outcome β} {g : α → β} {items : List α}
    (h : ∀ a ∈ items, f a = .ok (g a)) : items.mapM f = .ok (items.map g) := by
  rw [mapM_eq_ok_iff, List.forall₂_map_right_iff, List.forall₂_same]
  exact h

end Outcome

end PullGauge
