import Mathlib
import PullGauge.Proofs.Query.Marker
import PullGauge.Proofs.Text.Trimming

/-!
# Parts with blanks between them

A written query is a row of parts with blanks between them. Where each part is one word that
leaves no quote open, the tokens of the query are those of its parts; and what validation
looks at besides tokens, the quotes, the parentheses, doubled characters and the blanks at
both ends, is found part by part as well.
-/

namespace PullGauge

open Token (oddQuotes IsWord Splits Breaks isParen)

abbrev joined (parts : List Text) : Text := List.intercalate [' '] parts

theorem joined_cons_cons (p q : Text) (parts : List Text) :
    joined (p :: q :: parts) = p ++ ' ' :: joined (q :: parts) := by
  simp [joined, List.intercalate_cons_cons]

@[simp] theorem joined_singleton (p : Text) : joined [p] = p := List.intercalate_singleton

theorem joined_induction {P : List Text → Text → Prop} (nil : P [] [])
    (single : ∀ p, P [p] p)
    (step : ∀ p q parts, P (q :: parts) (joined (q :: parts)) →
      P (p :: q :: parts) (p ++ ' ' :: joined (q :: parts)))
    (parts : List Text) : P parts (joined parts) := by
  induction parts with
  | nil => exact nil
  | cons p parts ih =>
    cases parts with
    | nil => rw [joined_singleton]; exact single p
    | cons q parts => rw [joined_cons_cons]; exact step p q parts ih

theorem prefix_joined (p : Text) (parts : List Text) : p <+: joined (p :: parts) := by
  cases parts with
  | nil => rw [joined_singleton]
  | cons q parts => rw [joined_cons_cons]; exact List.prefix_append ..

theorem filter_joined {keep : Char → Bool} (hk : keep ' ' = true) (parts : List Text) :
    (joined parts).filter keep = joined (parts.map (List.filter keep)) := by
  refine joined_induction (P := fun ps t => t.filter keep = joined (ps.map (List.filter keep)))
    rfl ?_ ?_ parts
  · intro p
    rw [List.map_singleton, joined_singleton]
  · intro p q parts ih
    rw [List.filter_append, List.filter_cons_of_pos hk, ih, List.map_cons, List.map_cons,
      List.map_cons, joined_cons_cons]

theorem filter_joined_flatMap {keep : Char → Bool} (hk : keep ' ' = false) (parts : List Text) :
    (joined parts).filter keep = parts.flatMap (List.filter keep) := by
  refine joined_induction (P := fun ps t => t.filter keep = ps.flatMap (List.filter keep))
    rfl ?_ ?_ parts
  · intro p
    rw [List.flatMap_singleton]
  · intro p q parts ih
    rw [List.filter_append, List.filter_cons_of_neg (by simp [hk]), ih]
    rfl

theorem oddQuotes_joined {parts : List Text} (h : ∀ p ∈ parts, oddQuotes p = false) :
    oddQuotes (joined parts) = false := by
  refine joined_induction (P := fun ps t => (∀ p ∈ ps, oddQuotes p = false) → oddQuotes t = false)
    ?_ ?_ ?_ parts h
  · exact fun _ => rfl
  · exact fun p hp => hp p (by simp)
  · intro p q parts ih hall
    have hblank : (' ' == '"') = false := by decide
    rw [Token.oddQuotes_append, Token.oddQuotes_cons, hall p (by simp),
      ih fun r hr => hall r (by simp [hr]), hblank]
    rfl

def IsPart (p : Text) : Prop := IsWord p ∧ oddQuotes p = false

theorem breaks_blank (t : Text) : Breaks (' ' :: t) := by
  intro c hc
  obtain rfl := Option.some.inj hc
  decide

theorem kinds_joined {parts : List Text} (h : ∀ p ∈ parts, IsPart p) :
    (tokenize (joined parts)).map Token.kind = parts.map Token.kindOf := by
  have hword {p : Text} (hp : IsPart p) : (tokenize p).map Token.kind = [Token.kindOf p] := by
    rw [Token.tokenize_word hp.1]
    rfl
  have hshift (k : Nat) (ts : List Token) :
      (ts.map (Token.shift k)).map Token.kind = ts.map Token.kind := by
    rw [List.map_map]
    rfl
  refine joined_induction (P := fun ps t => (∀ p ∈ ps, IsPart p) →
    (tokenize t).map Token.kind = ps.map Token.kindOf) ?_ ?_ ?_ parts h
  · exact fun _ => rfl
  · exact fun p hp => hword (hp p (by simp))
  · intro p q parts ih hall
    have hp := hall p (by simp)
    have hblank (t : Text) : (tokenize (' ' :: t)).map Token.kind = (tokenize t).map Token.kind := by
      rw [tokenize, Token.scan_none_blank (by decide), Token.scan_none_eq, hshift]
    rw [Token.tokenize_append ⟨hp.2, .inl (breaks_blank _)⟩, List.map_append, hshift, hword hp,
      hblank, ih fun r hr => hall r (by simp [hr])]
    rfl

theorem prefix_append_cons {piece a b : Text} {d : Char} (hd : d ∉ piece) :
    piece <+: a ++ d :: b ↔ piece <+: a := by
  constructor
  · intro h
    rcases List.prefix_or_prefix_of_prefix h (List.prefix_append a (d :: b)) with ha | ⟨rest, rfl⟩
    · exact ha
    · cases rest with
      | nil => rw [List.append_nil]
      | cons e rest =>
        obtain ⟨rfl, -⟩ := List.cons_prefix_cons.1 ((List.prefix_append_right_inj a).1 h)
        exact absurd (by simp) hd
  · exact fun h => h.trans (List.prefix_append a _)

theorem infix_append_cons {piece a b : Text} {d : Char} (hd : d ∉ piece) :
    piece <:+: a ++ d :: b ↔ piece <:+: a ∨ piece <:+: b := by
  induction a with
  | nil =>
    have hempty : piece <+: d :: b ↔ piece <+: [] := prefix_append_cons hd (a := [])
    rw [List.nil_append, List.infix_cons_iff, hempty, List.prefix_nil, List.infix_nil]
  | cons e a ih =>
    rw [List.cons_append, List.infix_cons_iff, List.infix_cons_iff, ih, ← List.cons_append,
      prefix_append_cons hd, or_assoc]

theorem suffix_of_infix_append_cons {name key raw : Text} {c : Char} (hkey : c ∉ key)
    (hraw : c ∉ raw) (h : name ++ [c] <:+: key ++ c :: raw) : name <:+ key := by
  obtain ⟨a, b, hparts⟩ := h
  have hsame : key ++ c :: raw = (a ++ name) ++ c :: b := by
    rw [← hparts]
    simp
  obtain ⟨hname, -, -⟩ := (List.append_cons_inj_of_notMem hkey hraw).1 hsame
  exact ⟨a, hname.symm⟩

theorem doubled_infix_append_cons {c d : Char} (hd : d ≠ c) {a b : Text} :
    [c, c] <:+: a ++ d :: b ↔ [c, c] <:+: a ∨ [c, c] <:+: b :=
  infix_append_cons (by simpa using hd)

theorem not_infix_joined {piece : Text} (hne : piece ≠ []) (hblank : ' ' ∉ piece)
    {parts : List Text} (h : ∀ p ∈ parts, ¬ piece <:+: p) : ¬ piece <:+: joined parts := by
  refine joined_induction (P := fun ps t => (∀ p ∈ ps, ¬ piece <:+: p) → ¬ piece <:+: t)
    ?_ ?_ ?_ parts h
  · exact fun _ hi => hne (List.infix_nil.1 hi)
  · exact fun p hp => hp p (by simp)
  · intro p q parts ih hall hi
    rcases (infix_append_cons hblank).1 hi with hi | hi
    · exact hall p (by simp) hi
    · exact ih (fun r hr => hall r (by simp [hr])) hi

def IsEdged (t : Text) : Prop :=
  t ≠ [] ∧ (∀ c ∈ t.head?, Text.isBlank c = false) ∧ ∀ c ∈ t.getLast?, Text.isBlank c = false

theorem IsEdged.trim {t : Text} (h : IsEdged t) : Text.trim t = t := Text.trimBy_of_ends h.2.1 h.2.2

theorem isEdged_of_isPlain {t : Text} (hne : t ≠ []) (h : t.IsPlain) : IsEdged t := by
  have hblank {c : Char} (hc : c ∈ t) : Text.isBlank c = false := by
    have hs := (h c hc).2
    rw [Token.isSeparator, Bool.or_eq_false_iff] at hs
    exact hs.1
  exact ⟨hne, fun c hc => hblank (List.mem_of_head? hc), fun c hc => hblank (List.mem_of_getLast? hc)⟩

theorem isEdged_joined {parts : List Text} (hne : parts ≠ []) (h : ∀ p ∈ parts, IsEdged p) :
    IsEdged (joined parts) := by
  refine joined_induction (P := fun ps t => ps ≠ [] → (∀ p ∈ ps, IsEdged p) → IsEdged t)
    ?_ ?_ ?_ parts hne h
  · exact fun hne => absurd rfl hne
  · exact fun p _ hp => hp p (by simp)
  · intro p q parts ih _ hall
    obtain ⟨hpne, hhead, -⟩ := hall p (by simp)
    obtain ⟨hrne, -, hlast⟩ := ih (by simp) fun r hr => hall r (by simp [hr])
    refine ⟨by simp, ?_, ?_⟩
    · rwa [List.head?_append_of_ne_nil _ hpne]
    · rwa [List.getLast?_append_of_ne_nil _ (by simp), List.getLast?_cons_of_ne_nil hrne]

namespace Validation

theorem balancedFrom_filter (depth : Nat) (t : Text) :
    balancedFrom depth (t.filter isParen) = balancedFrom depth t := by
  induction t generalizing depth with
  | nil => rfl
  | cons c t ih =>
    by_cases hl : c = '('
    · subst hl
      rw [List.filter_cons_of_pos (by decide)]
      simp only [balancedFrom, if_true]
      exact ih _
    · by_cases hr : c = ')'
      · subst hr
        rw [List.filter_cons_of_pos (by decide)]
        cases depth with
        | zero => simp [balancedFrom]
        | succ d =>
          simp only [balancedFrom, if_true]
          exact ih _
      · rw [List.filter_cons_of_neg (by simp [isParen, hl, hr])]
        simp only [balancedFrom, hl, hr, if_false]
        exact ih _

theorem balanced_filter (t : Text) : balanced (t.filter isParen) = balanced t :=
  balancedFrom_filter 0 t

end Validation

end PullGauge
