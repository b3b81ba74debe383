import PullGauge.Payload.Access

/-!
# Places in an object

What an object tells at a place, a path of keys. Where an object on the way there is missing or
empty, a fallback stands for it; where something else is on the way, the place tells nothing. Taking
an object apart key by key comes to what stands at the place.
-/

namespace PullGauge.Payload

/-- What stands at a place, or `fallback` if the way there ends early. -/
def told (place : List Text) (p : Payload) (fallback : Payload := .null) : Option Payload :=
  match place, p with
  | [key], .object fields => some ((Fields.find? key fields).getD fallback)
  | key :: next :: place, .object fields =>
    let inner := (Fields.find? key fields).getD .null
    if inner.isPresent then told (next :: place) inner fallback else some fallback
  | _, _ => none

variable {fallback p q : Payload} {key next : Text} {place : List Text}

theorem fieldOr_of_told (h : p.told [key] fallback = some q) : p.fieldOr key fallback = .ok q := by
  cases p with
  | object fields => exact congrArg Except.ok (Option.some.inj h)
  | null | bool _ | int _ | real _ | text _ | list _ => cases h

theorem field_of_told (h : p.told [key] = some q) : p.field key = .ok q :=
  fieldOr_of_told h

theorem member_of_told (h : p.told [key] = some q) (hq : q ≠ .null) :
    p.isPresent = true ∧ p.member key = .ok q := by
  cases p with
  | object fields =>
    have hfound := Option.some.inj h
    cases hvalue : Fields.find? key fields with
    | none =>
      rw [hvalue] at hfound
      exact absurd hfound.symm hq
    | some value =>
      rw [hvalue] at hfound
      obtain rfl : value = q := hfound
      refine ⟨?_, by rw [member, hvalue]⟩
      cases fields with
      | nil => cases hvalue
      | cons field fields => rfl
  | null | bool _ | int _ | real _ | text _ | list _ => cases h

theorem told_empty (fallback : Payload) (key : Text) (place : List Text) :
    (object []).told (key :: place) fallback = some fallback := by
  cases place <;> rfl

theorem exists_part_of_told (h : p.told (key :: next :: place) fallback = some q) :
    ∃ inner, p.part key = .ok inner ∧ inner.told (next :: place) fallback = some q := by
  cases p with
  | object fields =>
    refine ⟨_, rfl, ?_⟩
    rw [told] at h
    by_cases hpresent : ((Fields.find? key fields).getD .null).isPresent
    · rw [if_pos hpresent] at h
      simpa only [orElse, if_pos hpresent] using h
    · rw [if_neg hpresent] at h
      simpa only [orElse, if_neg hpresent, told_empty] using h
  | null | bool _ | int _ | real _ | text _ | list _ => cases h

theorem nodes_of_told (h : p.told [key, "nodes".toList] = some q) :
    p.nodes key = .ok (q.orElse (.list [])) := by
  obtain ⟨inner, hpart, hinner⟩ := exists_part_of_told h
  unfold nodes
  simp only [hpart, Outcome.ok_bind, field_of_told hinner]
  rfl

end PullGauge.Payload
