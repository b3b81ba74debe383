import Mathlib
import PullGauge.Log.Redaction
import PullGauge.Proofs.Log.Residue

/-!
# What a redacted copy leaves standing

A place in a payload is a path of keys and positions. The redaction of an object goes into the
objects that are values of its fields, and into those that are items of a list that is one.
What else stands in such a list, be it a text or a list again, is copied as it is. So nothing
is left in the copy exactly if there was nothing to redact in those items.
-/

namespace PullGauge

namespace Payload

/-- One turn on the way into a payload: to the value of a key, or to an item of a list. -/
inductive Turn where
  | key (k : Text)
  | item (i : Nat)

abbrev Path := List Turn

def at? : Path → Payload → Option Payload
  | [], p => some p
  | .key k :: path, .object fields => (Fields.find? k fields).bind (at? path)
  | .item i :: path, .list items => items[i]?.bind (at? path)
  | _ :: _, _ => none

theorem at?_append (front back : Path) (p : Payload) :
    at? (front ++ back) p = (at? front p).bind (at? back) := by
  induction front generalizing p with
  | nil => rfl
  | cons turn front ih =>
    cases turn with
    | key k =>
      cases p with
      | object fields => cases h : Fields.find? k fields <;> simp [at?, h, ih]
      | _ => rfl
    | item i =>
      cases p with
      | list items => cases h : items[i]? <;> simp [at?, h, ih]
      | _ => rfl

end Payload

open Payload

namespace Redaction

variable {words : List Text}

def IsOpen (words : List Text) (path : Path) : Prop :=
  ∀ k, .key k ∈ path → isSensitive words k = false

/-- The values of the sensitive keys of `p` are redacted in `q`, those keys apart that stand
inside of such a value; and the texts that are left in `q` are masked. -/
structure Clears (words : List Text) (p q : Payload) : Prop where
  replaced : ∀ path k v, IsOpen words path → isSensitive words k = true →
    at? (path ++ [.key k]) p = some v → at? (path ++ [.key k]) q = some redacted
  masked : ∀ path t, at? path q = some (.text t) → mask t = t

/-- The places of items in lists that the redaction of an object goes through. -/
inductive IsItem (words : List Text) : Path → Prop where
  | here {k : Text} (hk : isSensitive words k = false) (i : Nat) : IsItem words [.key k, .item i]
  | field {k : Text} (hk : isSensitive words k = false) {path : Path} (h : IsItem words path) :
    IsItem words (.key k :: path)
  | item {k : Text} (hk : isSensitive words k = false) (i : Nat) {path : Path}
    (h : IsItem words path) : IsItem words (.key k :: .item i :: path)

theorem IsItem.isOpen {path : Path} (h : IsItem words path) : IsOpen words path := by
  induction h with
  | here hk i => simpa [IsOpen] using hk
  | field hk h ih => simpa [IsOpen] using ⟨hk, ih⟩
  | item hk i h ih => simpa [IsOpen] using ⟨hk, ih⟩

theorem find?_fields (words : List Text) (k : Text) (fs : Fields) :
    Fields.find? k (fields words fs) =
      (Fields.find? k fs).map fun p => if isSensitive words k then redacted else value words p := by
  induction fs with
  | nil => rfl
  | cons field fs ih =>
    obtain ⟨k', p⟩ := field
    by_cases h : k' = k
    · subst h
      simp [fields, Fields.find?]
    · simp [fields, Fields.find?, h, ih]

theorem items_eq_map (words : List Text) (l : List Payload) : items words l = l.map (item words) := by
  induction l with
  | nil => rfl
  | cons p l ih => rw [items, ih, List.map_cons]

theorem item_of_not_object {p : Payload} (h : ∀ fs, p ≠ .object fs) : item words p = p := by
  cases p with
  | object fs => exact absurd rfl (h fs)
  | _ => rfl

theorem at?_key_fields {k : Text} (hk : isSensitive words k = false) (path : Path) (fs : Fields) :
    at? (.key k :: path) (.object (fields words fs)) =
      (Fields.find? k fs).bind fun p => at? path (value words p) := by
  rw [at?, find?_fields, Option.bind_map]
  simp [hk]

theorem at?_item_items (i : Nat) (path : Path) (l : List Payload) :
    at? (.item i :: path) (.list (items words l)) =
      l[i]?.bind fun p => at? path (item words p) := by
  rw [at?, items_eq_map, List.getElem?_map, Option.bind_map]
  rfl

theorem mask_redacted : mask "[REDACTED]".toList = "[REDACTED]".toList := by decide

theorem clears_leaf {p : Payload} (hp : ∀ turn path, at? (turn :: path) p = none)
    (ht : ∀ t, p ≠ .text t) : Clears words p p := by
  refine ⟨?_, ?_⟩
  · intro path k v _ _ hv
    cases path with
    | nil => rw [List.nil_append, hp] at hv; cases hv
    | cons turn path => rw [List.cons_append, hp] at hv; cases hv
  · intro path t h
    cases path with
    | nil => exact absurd (Option.some.inj h) (ht t)
    | cons turn path => rw [hp] at h; cases h

theorem clears_text (t : Text) : Clears words (.text t) (.text (mask t)) := by
  refine ⟨?_, ?_⟩
  · intro path k v _ _ hv
    rcases path with - | ⟨⟨⟩, path⟩ <;> cases hv
  · intro path s h
    rcases path with - | ⟨⟨⟩, path⟩
    · cases h
      exact Masking.mask_mask t
    all_goals cases h

theorem clears_fields {fs : Fields}
    (h : ∀ k p, isSensitive words k = false → Fields.find? k fs = some p →
      Clears words p (value words p)) :
    Clears words (.object fs) (.object (fields words fs)) := by
  refine ⟨?_, ?_⟩
  · intro path k v hopen hk hv
    match path with
    | [] =>
      obtain ⟨p, hp, -⟩ := Option.bind_eq_some_iff.1 hv
      rw [List.nil_append, at?, find?_fields, hp]
      simp [hk, at?]
    | .item i :: path => cases hv
    | .key k' :: path =>
      have hk' : isSensitive words k' = false := hopen k' (List.mem_cons_self ..)
      have hrest : IsOpen words path := fun x hx => hopen x (List.mem_cons_of_mem _ hx)
      obtain ⟨p, hp, hv⟩ := Option.bind_eq_some_iff.1 hv
      rw [List.cons_append, at?_key_fields hk', hp]
      exact (h k' p hk' hp).replaced path k v hrest hk hv
  · intro path t ht
    match path with
    | [] => cases ht
    | .item i :: path => cases ht
    | .key k :: path =>
      by_cases hk : isSensitive words k = true
      · rw [at?, find?_fields, Option.bind_map] at ht
        obtain ⟨p, -, ht⟩ := Option.bind_eq_some_iff.1 ht
        rw [Function.comp_apply, if_pos hk] at ht
        -- nothing stands inside of the text that took the place of the value
        rcases path with - | ⟨⟨⟩, path⟩
        · cases ht
          exact mask_redacted
        all_goals cases ht
      · rw [Bool.not_eq_true] at hk
        rw [at?_key_fields hk] at ht
        obtain ⟨p, hp, ht⟩ := Option.bind_eq_some_iff.1 ht
        exact (h k p hk hp).masked path t ht

theorem clears_items {l : List Payload} (h : ∀ p ∈ l, Clears words p (item words p)) :
    Clears words (.list l) (.list (items words l)) := by
  refine ⟨?_, ?_⟩
  · intro path k v hopen hk hv
    match path with
    | [] => cases hv
    | .key k' :: path => cases hv
    | .item i :: path =>
      have hrest : IsOpen words path := fun x hx => hopen x (List.mem_cons_of_mem _ hx)
      obtain ⟨p, hp, hv⟩ := Option.bind_eq_some_iff.1 hv
      rw [List.cons_append, at?_item_items, hp]
      exact (h p (List.mem_of_getElem? hp)).replaced path k v hrest hk hv
  · intro path t ht
    match path with
    | [] => cases ht
    | .key k :: path => cases ht
    | .item i :: path =>
      rw [at?_item_items] at ht
      obtain ⟨p, hp, ht⟩ := Option.bind_eq_some_iff.1 ht
      exact (h p (List.mem_of_getElem? hp)).masked path t ht

def Spares (words : List Text) (fs : Fields) : Prop :=
  ∀ path p, IsItem words path → at? path (.object fs) = some p → (∀ gs, p ≠ .object gs) →
    Clears words p p

variable {fs gs : Fields} {k : Text}

theorem Spares.field (h : Spares words fs) (hk : isSensitive words k = false)
    (hf : Fields.find? k fs = some (.object gs)) : Spares words gs := by
  intro path p hpath hp
  refine h (.key k :: path) p (.field hk hpath) ?_
  rw [at?, hf]
  exact hp

theorem Spares.item {l : List Payload} (h : Spares words fs) (hk : isSensitive words k = false)
    (hf : Fields.find? k fs = some (.list l)) (hl : .object gs ∈ l) : Spares words gs := by
  obtain ⟨i, hi⟩ := List.getElem?_of_mem hl
  intro path p hpath hp
  refine h (.key k :: .item i :: path) p (.item hk i hpath) ?_
  rw [at?, hf, Option.bind_some, at?, hi]
  exact hp

theorem Spares.clears_item {l : List Payload} {p : Payload} (h : Spares words fs)
    (hk : isSensitive words k = false) (hf : Fields.find? k fs = some (.list l)) (hp : p ∈ l)
    (hobject : ∀ gs, p ≠ .object gs) : Clears words p p := by
  obtain ⟨i, hi⟩ := List.getElem?_of_mem hp
  refine h [.key k, .item i] p (.here hk i) ?_ hobject
  rw [at?, hf, Option.bind_some, at?, hi]
  rfl

theorem sizeOf_find? {p : Payload} (h : Fields.find? k fs = some p) : sizeOf p < sizeOf fs := by
  induction fs with
  | nil => cases h
  | cons field fs ih =>
    obtain ⟨k', q⟩ := field
    rw [Fields.find?] at h
    split_ifs at h with hk
    · cases h
      simp
      omega
    · have := ih h
      simp
      omega

theorem Spares.clears (h : Spares words fs) :
    Clears words (.object fs) (.object (fields words fs)) := by
  -- on the size of the fields: the redaction goes on in objects, and in objects in lists
  induction hn : sizeOf fs using Nat.strong_induction_on generalizing fs with
  | _ n ih =>
    subst hn
    refine clears_fields ?_
    intro k p hk hp
    have hsize := sizeOf_find? hp
    cases p with
    | object gs => exact ih _ (by simp at hsize; omega) (h.field hk hp) rfl
    | list l =>
      refine clears_items ?_
      intro q hq
      have hless := List.sizeOf_lt_of_mem hq
      cases q with
      | object gs => exact ih _ (by simp at hsize hless; omega) (h.item hk hp hq) rfl
      | _ => exact h.clears_item hk hp hq nofun
    | text t => exact clears_text t
    | _ => exact clears_leaf (by rintro ⟨⟩ path <;> rfl) nofun

theorem IsItem.at?_fields {path : Path} (h : IsItem words path) {p : Payload}
    (hp : at? path (.object fs) = some p) (hobject : ∀ gs, p ≠ .object gs) :
    at? path (.object (fields words fs)) = some p := by
  induction h generalizing fs with
  | here hk i =>
    obtain ⟨q, hq, hp⟩ := Option.bind_eq_some_iff.1 hp
    rw [at?_key_fields hk, hq]
    cases q with
    | list l =>
      obtain ⟨r, hr, hp⟩ := Option.bind_eq_some_iff.1 hp
      cases hp
      rw [Option.bind_some, value, at?_item_items, hr, Option.bind_some, item_of_not_object hobject]
      rfl
    | _ => cases hp
  | @field k hk path hpath ih =>
    obtain ⟨q, hq, hp⟩ := Option.bind_eq_some_iff.1 hp
    rw [at?_key_fields hk, hq]
    cases q with
    | object gs => exact ih hp
    | _ => cases hpath <;> cases hp
  | @item k hk i path hpath ih =>
    obtain ⟨q, hq, hp⟩ := Option.bind_eq_some_iff.1 hp
    rw [at?_key_fields hk, hq]
    cases q with
    | list l =>
      obtain ⟨r, hr, hp⟩ := Option.bind_eq_some_iff.1 hp
      rw [Option.bind_some, value, at?_item_items, hr, Option.bind_some]
      cases r with
      | object gs => exact ih hp
      | _ => cases hpath <;> cases hp
    | _ => cases hp

theorem Clears.item {path : Path} (h : Clears words (.object fs) (.object (fields words fs)))
    (hpath : IsItem words path) {p : Payload} (hp : at? path (.object fs) = some p)
    (hobject : ∀ gs, p ≠ .object gs) : Clears words p p := by
  have hcopy := hpath.at?_fields hp hobject
  have hin (rest : Path) : at? (path ++ rest) (.object fs) = at? rest p := by
    rw [at?_append, hp, Option.bind_some]
  have hout (rest : Path) : at? (path ++ rest) (.object (fields words fs)) = at? rest p := by
    rw [at?_append, hcopy, Option.bind_some]
  refine ⟨?_, ?_⟩
  · intro rest k v hrest hk hv
    have hopen : IsOpen words (path ++ rest) := by
      intro x hx
      rcases List.mem_append.1 hx with hx | hx
      · exact hpath.isOpen x hx
      · exact hrest x hx
    have hv' := h.replaced (path ++ rest) k v hopen hk (by rw [List.append_assoc, hin, hv])
    rwa [List.append_assoc, hout] at hv'
  · intro rest t ht
    exact h.masked (path ++ rest) t (by rw [hout, ht])

/-- The copy of an object is clear at every depth exactly if there is nothing to redact in the
items of its lists that are no objects: no credential in a text, and in a list that stands in a
list no sensitive key and no text with a credential. -/
theorem clears_redact_iff (words : List Text) (data : Fields) :
    Clears words (.object data) (.object (redact words data)) ↔
      ∀ path p, IsItem words path → at? path (.object data) = some p →
        (∀ fs, p ≠ .object fs) → Clears words p p := by
  constructor
  · intro h path p hpath hp hobject
    exact h.item hpath hp hobject
  · intro h
    exact Spares.clears h

def seen : Fields :=
  [("seen".toList, .list [.text "Bearer abc".toList,
    .list [.object [("token".toList, .text "abc".toList)]]])]

theorem seen_not_clear :
    ¬ Clears sensitiveWords (.object seen) (.object (redact sensitiveWords seen)) := by
  intro h
  have hmask := h.masked [.key "seen".toList, .item 0] "Bearer abc".toList rfl
  exact absurd hmask (by decide)

end Redaction

end PullGauge
