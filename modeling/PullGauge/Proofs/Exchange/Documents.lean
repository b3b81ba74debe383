import Mathlib
import PullGauge.Exchange.Batch
import PullGauge.Proofs.Number.Integers
import PullGauge.Proofs.Outcome.Rows

/-!
# What a document asks for

A document asks for the pull requests at some places: under the tag of its index each, with the
owner and the name between quotes and the number in digits. It can be written if no number has
too many of them.
-/

namespace PullGauge

namespace Payload

theorem check_eq_ok_iff {sent : Bool} {p : Payload} {u : Unit} :
    p.check sent = .ok u ↔ p.flaw? sent Reading.depthLimit = none := by
  unfold check
  cases p.flaw? sent Reading.depthLimit with
  | none => exact iff_of_true rfl rfl
  | some fault => exact iff_of_false nofun nofun

theorem literal_text (t : Text) : (Payload.text t).literal = .ok (Text.asciiQuoted t) := rfl

theorem literal_int (i : Int) : (Payload.int i).literal =
    if Reading.isShort i then .ok (Text.ofInt i) else .error .unsendable := by
  unfold literal check
  rw [flaw?]
  split_ifs <;> rfl

end Payload

/-- Where a pull request is found: the texts of two names, and a number. -/
structure Place where
  owner : Text
  name : Text
  number : Int
  deriving DecidableEq

namespace Place

def ref (p : Place) : PullRef := ⟨.text p.owner, .text p.name, .int p.number⟩

def IsReadable (p : Place) : Prop := Reading.isShort p.number = true

instance (p : Place) : Decidable p.IsReadable := inferInstanceAs (Decidable (_ = true))

theorem isReadable_iff {p : Place} : p.IsReadable ↔ p.number.natAbs < 10 ^ Reading.digitLimit := by
  rw [IsReadable, Reading.isShort, decide_eq_true_eq]
  exact Nat.length_toDigits_le_iff (by decide) (by decide)

theorem not_isReadable_pow (owner name : Text) :
    ¬ (⟨owner, name, (10 ^ 4300 : Nat)⟩ : Place).IsReadable := by
  -- the power is the limit as it is written, and is not computed
  rw [isReadable_iff, Int.natAbs_natCast, Reading.digitLimit]
  exact lt_irrefl _

theorem literal_number (p : Place) : (Payload.int p.number).literal =
    if p.IsReadable then .ok (Text.ofInt p.number) else .error .unsendable :=
  Payload.literal_int p.number

def ask (selection : Text) (index : Nat) (p : Place) : Text :=
  "pr".toList ++ Text.ofNat index ++ ": repository(owner: ".toList ++ Text.asciiQuoted p.owner ++
    ", name: ".toList ++ Text.asciiQuoted p.name ++ ") \x7b pullRequest(number: ".toList ++
    Text.ofInt p.number ++ ") \x7b ".toList ++ selection ++ " \x7d \x7d".toList

def asks (selection : Text) (index : Nat) (places : List Place) : List Text :=
  (places.zipIdx index).map fun (p, k) => p.ask selection k

theorem asks_cons (selection : Text) (index : Nat) (p : Place) (places : List Place) :
    asks selection index (p :: places) =
      p.ask selection index :: asks selection (index + 1) places := rfl

end Place

def documentFor (selection : Text) (places : List Place) : Text :=
  "query \x7b ".toList ++ List.intercalate [' '] (Place.asks selection 0 places) ++ " \x7d".toList

namespace PullRef

theorem tag_injective : Function.Injective tag := by
  intro i j h
  exact Text.ofNat_injective (List.append_cancel_left h)

theorem tag_ne_of_lt {i j : Nat} (h : i < j) : tag i ≠ tag j :=
  fun he => h.ne (tag_injective he)

structure Names (ref : PullRef) (p : Place) : Prop where
  owner : ref.owner = .text p.owner
  name : ref.name = .text p.name
  number : ref.number.toInteger = .ok p.number

theorem Names.eq {ref : PullRef} {p q : Place} (hp : ref.Names p) (hq : ref.Names q) : p = q := by
  obtain ⟨owner, name, number⟩ := p
  obtain ⟨owner', name', number'⟩ := q
  obtain rfl : owner = owner' := Payload.text.inj (hp.owner.symm.trans hq.owner)
  obtain rfl : name = name' := Payload.text.inj (hp.name.symm.trans hq.name)
  obtain rfl : number = number' := Except.ok.inj (hp.number.symm.trans hq.number)
  rfl

theorem names_ref (p : Place) : p.ref.Names p := ⟨rfl, rfl, rfl⟩

theorem forall₂_names_ref (places : List Place) :
    List.Forall₂ Names (places.map Place.ref) places := by
  rw [List.forall₂_map_left_iff, List.forall₂_same]
  exact fun p _ => names_ref p

theorem Names.write_eq {ref : PullRef} {p : Place} (h : ref.Names p) (selection : Text)
    (index : Nat) : ref.write selection index =
      if p.IsReadable then .ok (p.ask selection index) else .error .unsendable := by
  unfold write
  rw [h.owner, h.name, h.number, Payload.literal_text, Payload.literal_text]
  simp only [Outcome.ok_bind, p.literal_number]
  split_ifs <;> rfl

theorem writeAll_of_names {refs : List PullRef} {places : List Place}
    (h : List.Forall₂ Names refs places) (selection : Text) (index : Nat) :
    writeAll selection index refs = if ∀ p ∈ places, p.IsReadable then
      .ok (Place.asks selection index places)
      else .error .unsendable := by
  induction h generalizing index with
  | nil => rfl
  | @cons ref p refs places href hrest ih =>
    rw [writeAll, href.write_eq, ih]
    by_cases hp : p.IsReadable
    · have hall : (∀ x ∈ p :: places, x.IsReadable) ↔ ∀ x ∈ places, x.IsReadable := by simp [hp]
      rw [if_pos hp, if_congr hall rfl rfl]
      split_ifs <;> rfl
    · have hnone : ¬ ∀ x ∈ p :: places, x.IsReadable := fun h => hp (h p (List.mem_cons_self ..))
      rw [if_neg hp, if_neg hnone]
      rfl

theorem exists_names_of_writeAll {refs : List PullRef} {selection : Text} {index : Nat}
    {parts : List Text} (h : writeAll selection index refs = .ok parts)
    (htexts : ∀ ref ∈ refs, ∃ owner name, ref.owner = .text owner ∧ ref.name = .text name) :
    ∃ places, List.Forall₂ Names refs places := by
  induction refs generalizing index parts with
  | nil => exact ⟨[], .nil⟩
  | cons ref refs ih =>
    obtain ⟨⟨owner, name, howner, hname⟩, hrefs⟩ := List.forall_mem_cons.1 htexts
    obtain ⟨part, hpart, h⟩ := Outcome.exists_of_bind h
    obtain ⟨more, hmore, -⟩ := Outcome.exists_of_bind h
    obtain ⟨_, -, hrest⟩ := Outcome.exists_of_bind hpart
    obtain ⟨_, -, hdigits⟩ := Outcome.exists_of_bind hrest
    obtain ⟨number, hnumber, -⟩ := Outcome.exists_of_bind hdigits
    obtain ⟨places, hplaces⟩ := ih hmore hrefs
    exact ⟨⟨owner, name, number⟩ :: places, .cons ⟨howner, hname, hnumber⟩ hplaces⟩

theorem document_of_names {refs : List PullRef} {places : List Place}
    (h : List.Forall₂ Names refs places) (selection : Text) :
    document refs selection = if ∀ p ∈ places, p.IsReadable then
      .ok (documentFor selection places) else .error .unsendable := by
  unfold document
  rw [writeAll_of_names h]
  split_ifs <;> rfl

theorem exists_names_of_document {refs : List PullRef} {selection text : Text}
    (h : document refs selection = .ok text)
    (htexts : ∀ ref ∈ refs, ∃ owner name, ref.owner = .text owner ∧ ref.name = .text name) :
    ∃ places, List.Forall₂ Names refs places := by
  obtain ⟨parts, hparts, -⟩ := Outcome.exists_of_bind h
  exact exists_names_of_writeAll hparts htexts

end PullRef

end PullGauge
