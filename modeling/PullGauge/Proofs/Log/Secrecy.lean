import Mathlib
import PullGauge.Proofs.Log.Redaction

/-!
# What a redacted copy tells

The redaction goes through the objects that are values of fields or items of lists, as long as
no key on the way is sensitive. Objects that agree but for what stands under sensitive keys have
the same copy, so nothing can be learned of these values from it. The copy has the same keys at
every level that the redaction goes through, and to redact it again changes nothing.
-/

namespace PullGauge

open Payload

namespace Redaction

mutual
/-- The same keys in the same order, with values that agree where the key is not sensitive. -/
inductive FieldsAgree (words : List Text) : Fields → Fields → Prop where
  | nil : FieldsAgree words [] []
  | secret {k : Text} {p q : Payload} {fs gs : Fields} (hk : isSensitive words k = true)
    (h : FieldsAgree words fs gs) : FieldsAgree words ((k, p) :: fs) ((k, q) :: gs)
  | shown {k : Text} {p q : Payload} {fs gs : Fields} (hp : ValuesAgree words p q)
    (h : FieldsAgree words fs gs) : FieldsAgree words ((k, p) :: fs) ((k, q) :: gs)

inductive ValuesAgree (words : List Text) : Payload → Payload → Prop where
  | same (p : Payload) : ValuesAgree words p p
  | object {fs gs : Fields} (h : FieldsAgree words fs gs) :
    ValuesAgree words (.object fs) (.object gs)
  | list {l m : List Payload} (h : ItemsAgree words l m) : ValuesAgree words (.list l) (.list m)

inductive ItemsAgree (words : List Text) : List Payload → List Payload → Prop where
  | nil : ItemsAgree words [] []
  | same (p : Payload) {l m : List Payload} (h : ItemsAgree words l m) :
    ItemsAgree words (p :: l) (p :: m)
  | object {fs gs : Fields} {l m : List Payload} (hf : FieldsAgree words fs gs)
    (h : ItemsAgree words l m) : ItemsAgree words (.object fs :: l) (.object gs :: m)
end

variable {words : List Text}

mutual
theorem fields_eq_of_agree :
    ∀ {fs gs : Fields}, FieldsAgree words fs gs → fields words fs = fields words gs
  | _, _, .nil => rfl
  | _, _, .secret hk h => by rw [fields, fields, if_pos hk, if_pos hk, fields_eq_of_agree h]
  | _, _, .shown hp h => by rw [fields, fields, value_eq_of_agree hp, fields_eq_of_agree h]
termination_by structural _ _ h => h

theorem value_eq_of_agree :
    ∀ {p q : Payload}, ValuesAgree words p q → value words p = value words q
  | _, _, .same _ => rfl
  | _, _, .object h => by rw [value, value, fields_eq_of_agree h]
  | _, _, .list h => by rw [value, value, items_eq_of_agree h]
termination_by structural _ _ h => h

theorem items_eq_of_agree :
    ∀ {l m : List Payload}, ItemsAgree words l m → items words l = items words m
  | _, _, .nil => rfl
  | _, _, .same _ h => by rw [items, items, items_eq_of_agree h]
  | _, _, .object hf h => by
    rw [items, items, item, item, fields_eq_of_agree hf, items_eq_of_agree h]
termination_by structural _ _ h => h
end

mutual
theorem fields_fields (words : List Text) :
    ∀ fs : List (Text × Payload), fields words (fields words fs) = fields words fs
  | [] => rfl
  | (k, p) :: fs => by
    rw [fields, fields, fields_fields words fs]
    by_cases hk : isSensitive words k = true
    · simp only [hk, if_true]
    · simp only [hk, Bool.false_eq_true, if_false, value_value words p]
termination_by structural fs => fs

theorem value_value (words : List Text) :
    ∀ p : Payload, value words (value words p) = value words p
  | .object fs => by rw [value, value, fields_fields words fs]
  | .list l => by rw [value, value, items_items words l]
  | .text t => by rw [value, value, Masking.mask_mask]
  | .null => rfl
  | .bool _ => rfl
  | .int _ => rfl
  | .real _ => rfl
termination_by structural p => p

theorem items_items (words : List Text) :
    ∀ l : List Payload, items words (items words l) = items words l
  | [] => rfl
  | p :: l => by rw [items, items, item_item words p, items_items words l]
termination_by structural l => l

theorem item_item (words : List Text) :
    ∀ p : Payload, item words (item words p) = item words p
  | .object fs => by rw [item, item, fields_fields words fs]
  | .list _ => rfl
  | .text _ => rfl
  | .null => rfl
  | .bool _ => rfl
  | .int _ => rfl
  | .real _ => rfl
termination_by structural p => p
end

inductive IsLevel (words : List Text) : Path → Prop where
  | top : IsLevel words []
  | field {k : Text} (hk : isSensitive words k = false) {path : Path} (h : IsLevel words path) :
    IsLevel words (.key k :: path)
  | item {k : Text} (hk : isSensitive words k = false) (i : Nat) {path : Path}
    (h : IsLevel words path) : IsLevel words (.key k :: .item i :: path)

def keysAt? (path : Path) (p : Payload) : Option (List Text) :=
  match at? path p with
  | some (.object fs) => some (fs.map Prod.fst)
  | _ => none

theorem keysAt?_of_not_object {path : Path} (h : IsLevel words path) {p : Payload}
    (hp : ∀ fs, p ≠ .object fs) : keysAt? path p = none := by
  cases h with
  | top =>
    cases p with
    | object fs => exact absurd rfl (hp fs)
    | _ => rfl
  | _ =>
    cases p with
    | object fs => exact absurd rfl (hp fs)
    | _ => rfl

theorem map_fst_fields (words : List Text) (fs : Fields) :
    (fields words fs).map Prod.fst = fs.map Prod.fst := by
  induction fs with
  | nil => rfl
  | cons field fs ih =>
    obtain ⟨k, p⟩ := field
    rw [fields, List.map_cons, List.map_cons, ih]

theorem keysAt?_key (k : Text) (path : Path) (fs : Fields) :
    keysAt? (.key k :: path) (.object fs) = (Fields.find? k fs).bind (keysAt? path) := by
  unfold keysAt?
  rw [at?]
  cases Fields.find? k fs <;> rfl

theorem keysAt?_item (i : Nat) (path : Path) (l : List Payload) :
    keysAt? (.item i :: path) (.list l) = l[i]?.bind (keysAt? path) := by
  unfold keysAt?
  rw [at?]
  cases l[i]? <;> rfl

theorem keysAt?_key_fields {k : Text} (hk : isSensitive words k = false) (path : Path)
    (fs : Fields) : keysAt? (.key k :: path) (.object (fields words fs)) =
      (Fields.find? k fs).bind fun p => keysAt? path (value words p) := by
  rw [keysAt?_key, find?_fields, Option.bind_map]
  simp [hk]

theorem keysAt?_fields {path : Path} (h : IsLevel words path) (fs : Fields) :
    keysAt? path (.object (fields words fs)) = keysAt? path (.object fs) := by
  induction h generalizing fs with
  | top => exact congrArg some (map_fst_fields words fs)
  | @field k hk path h ih =>
    rw [keysAt?_key_fields hk, keysAt?_key]
    refine Option.bind_congr fun p _ => ?_
    cases p with
    | object gs => exact ih gs
    | _ => rw [keysAt?_of_not_object h (by nofun), keysAt?_of_not_object h (by nofun)]
  | @item k hk i path h ih =>
    rw [keysAt?_key_fields hk, keysAt?_key]
    refine Option.bind_congr fun p _ => ?_
    cases p with
    | list l =>
      rw [value, keysAt?_item, keysAt?_item, items_eq_map, List.getElem?_map, Option.bind_map]
      refine Option.bind_congr fun q _ => ?_
      cases q with
      | object gs => exact ih gs
      | _ => rfl
    | _ => rfl

/-- The copy of an object does not depend on what stands under sensitive keys, has the same keys
at every level, and is its own copy. -/
theorem redact_keeps_secrets (words : List Text) (data : Fields) :
    (∀ other, FieldsAgree words data other → redact words data = redact words other) ∧
    (∀ path, IsLevel words path →
      keysAt? path (.object (redact words data)) = keysAt? path (.object data)) ∧
    redact words (redact words data) = redact words data :=
  ⟨fun _ h => fields_eq_of_agree h, fun _ h => keysAt?_fields h data, fields_fields words data⟩

def ledger (first second third : Payload) : Fields :=
  [("API_Key".toList, first),
    ("user".toList, .object [("keyring".toList, second), ("name".toList, .text "token abc".toList)]),
    ("seen".toList, .list [.text "Bearer abc".toList, .object [("monKEY".toList, third)]])]

def keyWords : List Text := ["key".toList]

theorem redact_keeps_secrets_ledger :
    FieldsAgree keyWords (ledger (.int 1) (.text "a".toList) (.object [("b".toList, .null)]))
        (ledger .null (.list []) (.int 2)) ∧
      redact keyWords (ledger (.int 1) (.text "a".toList) (.object [("b".toList, .null)])) =
        redact keyWords (ledger .null (.list []) (.int 2)) ∧
      IsLevel keyWords [.key "seen".toList, .item 1] ∧
      keysAt? [.key "seen".toList, .item 1]
        (.object (redact keyWords (ledger .null (.list []) (.int 2)))) = some ["monKEY".toList] := by
  have hkey : isSensitive keyWords "API_Key".toList = true := by decide
  have hring : isSensitive keyWords "keyring".toList = true := by decide
  have hmonkey : isSensitive keyWords "monKEY".toList = true := by decide
  have hseen : isSensitive keyWords "seen".toList = false := by decide
  have hagree : FieldsAgree keyWords
      (ledger (.int 1) (.text "a".toList) (.object [("b".toList, .null)]))
      (ledger .null (.list []) (.int 2)) :=
    .secret hkey (.shown (.object (.secret hring (.shown (.same _) .nil)))
      (.shown (.list (.same _ (.object (.secret hmonkey .nil) .nil))) .nil))
  have hlevel : IsLevel keyWords [.key "seen".toList, .item 1] := .item hseen 1 .top
  exact ⟨hagree, (redact_keeps_secrets keyWords _).1 _ hagree, hlevel,
    ((redact_keeps_secrets keyWords (ledger .null (.list []) (.int 2))).2.1 _ hlevel).trans rfl⟩

end Redaction

end PullGauge
