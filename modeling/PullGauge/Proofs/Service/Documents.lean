import Mathlib
import PullGauge.Service.Script
import PullGauge.Proofs.Exchange.Documents
import PullGauge.Proofs.Payload.Quoted
import PullGauge.Proofs.Pipeline.Keys

/-!
# The parts of a document

A document is scanned for the parts that ask for one pull request each. Owners and names may
hold anything, the text of another part among it, but they stand between quotes that end where
they are meant to. Outside of them a part can only start where its tag stands, because what
leads up to its first quote holds no blank before the tag ends.
-/

namespace PullGauge

namespace Text

variable {α : Type} {matchHead : Text → Option (α × Nat)}

theorem findAllFrom_length (u r : Text) :
    findAllFrom matchHead u.length (u ++ r) = findAllFrom matchHead 0 r := by
  induction u with
  | nil => rfl
  | cons c u ih => exact ih

theorem findAll_of_match {u r : Text} {a : α} (hu : u ≠ [])
    (h : matchHead (u ++ r) = some (a, u.length)) :
    findAll matchHead (u ++ r) = a :: findAll matchHead r := by
  obtain ⟨c, u, rfl⟩ := List.exists_cons_of_ne_nil hu
  rw [List.cons_append] at h ⊢
  rw [findAll, findAllFrom, h]
  exact congrArg _ (findAllFrom_length u r)

theorem findAll_append {u r : Text}
    (h : ∀ w, w ≠ [] → w <:+ u → matchHead (w ++ r) = none) :
    findAll matchHead (u ++ r) = findAll matchHead r := by
  induction u with
  | nil => rfl
  | cons c u ih =>
    have hhead : matchHead (c :: (u ++ r)) = none := h _ (by simp) List.suffix_rfl
    rw [List.cons_append, findAll, findAllFrom, hhead]
    exact ih fun w hw hsuffix => h w hw (hsuffix.trans (List.suffix_cons c u))

end Text

namespace Script

open Text

theorem digits?_ofNat {n : Nat} {t : Text} (ht : ∀ c ∈ t.head?, isDigit c = false) :
    digits? (ofNat n ++ t) = some (ofNat n, t) := by
  have hall : ∀ c ∈ ofNat n, isDigit c = true := fun c h => isDigit_of_mem h
  have hnone : t.takeWhile isDigit = [] := by
    cases t with
    | nil => rfl
    | cons c t => rw [List.takeWhile_cons_of_neg (by simp [ht c rfl])]
  have htake : (ofNat n ++ t).takeWhile isDigit = ofNat n := by
    rw [List.takeWhile_append_of_pos hall, hnone, List.append_nil]
  simp [digits?, htake]

theorem eq_append_of_digits? {t digits r : Text} (h : digits? t = some (digits, r)) :
    t = digits ++ r ∧ ∀ c ∈ digits, isDigit c = true := by
  unfold digits? at h
  dsimp only at h
  split_ifs at h with hempty
  obtain ⟨rfl, rfl⟩ := Prod.mk.inj (Option.some.inj h)
  refine ⟨?_, fun c hc => List.mem_takeWhile_imp hc⟩
  have hprefix := List.takeWhile_prefix (p := isDigit) (l := t)
  exact (List.prefix_iff_eq_append.1 hprefix).symm

theorem literalRest_plain {c : Char} (hquote : c ≠ '"') (hslash : c ≠ '\\') (r : Text) :
    literalRest (c :: r) = (literalRest r).map fun (t, r) => (c :: t, r) := by
  rw [literalRest.eq_def]
  split <;> simp_all

theorem literalRest_slash {c : Char} (hline : c ≠ '\n') (r : Text) :
    literalRest ('\\' :: c :: r) = (literalRest r).map fun (t, r) => ('\\' :: c :: t, r) := by
  rw [literalRest, if_neg hline]

theorem literalRest_lowerHex (width n : Nat) (r : Text) :
    literalRest (lowerHex width n ++ r) =
      (literalRest r).map fun (t, r) => (lowerHex width n ++ t, r) := by
  have hdigit {c : Char} (h : c ∈ lowerHex width n) : c ≠ '"' ∧ c ≠ '\\' := by
    obtain ⟨d, hd, rfl⟩ := exists_of_mem_lowerHex h
    have hall : ∀ d < 16, lowerHexDigit d ≠ '"' ∧ lowerHexDigit d ≠ '\\' := by decide
    exact hall d hd
  generalize lowerHex width n = t at hdigit
  induction t with
  | nil => simp
  | cons c t ih =>
    obtain ⟨hquote, hslash⟩ := hdigit (List.mem_cons_self ..)
    rw [List.cons_append, literalRest_plain hquote hslash, ih fun h => hdigit (by simp [h])]
    cases literalRest r <;> simp

theorem literalRest_append {c : Char} {e : Text} (h : IsEscape c e) (r : Text) :
    literalRest (e ++ r) = (literalRest r).map fun (t, r) => (e ++ t, r) := by
  have hu : 'u' ≠ '\n' := by decide
  cases h with
  | plain hspace hquote hslash => exact literalRest_plain hquote hslash r
  | @short e he =>
    have hline : e ≠ '\n' := by
      rintro rfl
      simp [Payload.Reading.shortEscape?] at he
    exact literalRest_slash hline r
  | unit hlt =>
    rw [List.cons_append, List.cons_append, literalRest_slash hu, literalRest_lowerHex]
    cases literalRest r <;> rfl
  | pair hge =>
    simp only [List.cons_append, List.append_assoc, literalRest_slash hu, literalRest_lowerHex]
    cases literalRest r <;> simp

theorem literalRest_flatMap (t r : Text) :
    literalRest (t.flatMap asciiEscape ++ '"' :: r) = some (t.flatMap asciiEscape ++ ['"'], r) := by
  induction t with
  | nil => simp [literalRest]
  | cons c t ih =>
    rw [List.flatMap_cons, List.append_assoc, literalRest_append (isEscape_asciiEscape c), ih]
    simp

theorem literal?_asciiQuoted (t r : Text) :
    literal? (asciiQuoted t ++ r) = some (asciiQuoted t, r) := by
  have hrest := literalRest_flatMap t r
  simp [asciiQuoted, literal?, hrest]

theorem exists_of_literal? {t : Text} {found : Text × Text} (h : literal? t = some found) :
    ∃ r, t = '"' :: r := by
  unfold literal? at h
  split at h
  · exact ⟨_, rfl⟩
  · cases h

def Part.write (p : Part) : Text :=
  p.tag ++ ": repository(owner: ".toList ++ p.owner ++ ", name: ".toList ++ p.name ++
    ") \x7b pullRequest(number: ".toList ++ p.number ++ ")".toList

@[simp] theorem Part.write_ne_nil (p : Part) : p.write ≠ [] := by simp [write]

def Part.ofPlace (index : Nat) (p : Place) : Part :=
  ⟨PullRef.tag index, asciiQuoted p.owner, asciiQuoted p.name, ofInt p.number⟩

theorem part?_write (index : Nat) {p : Place} (hp : 0 ≤ p.number) (r : Text) :
    part? ((Part.ofPlace index p).write ++ r) =
      some (Part.ofPlace index p, (Part.ofPlace index p).write.length) := by
  have hdrop (piece r : Text) : dropPiece? piece (piece ++ r) = some r :=
    dropPiece?_eq_some_iff.2 rfl
  have hindex (r : Text) : digits? (ofNat index ++ (": repository(owner: ".toList ++ r)) =
      some (ofNat index, ": repository(owner: ".toList ++ r) := digits?_ofNat (by simp; decide)
  have hnumber (r : Text) : digits? (ofNat p.number.toNat ++ (")".toList ++ r)) =
      some (ofNat p.number.toNat, ")".toList ++ r) := digits?_ofNat (by simp; decide)
  have hread : part? ((Part.ofPlace index p).write ++ r) = some (Part.ofPlace index p,
      ((Part.ofPlace index p).write ++ r).length - r.length) := by
    simp only [Part.ofPlace, part?, Part.write, PullRef.tag, List.append_assoc, hdrop, hindex,
      hnumber, literal?_asciiQuoted, ofInt_of_nonneg hp, Option.bind_eq_bind, Option.bind_some]
  rw [hread, List.length_append, Nat.add_sub_cancel]

theorem exists_of_part? {t : Text} {found : Part × Nat} (h : part? t = some found) :
    ∃ digits r, (∀ c ∈ digits, isDigit c = true) ∧
      t = "pr".toList ++ digits ++ ": repository(owner: ".toList ++ '"' :: r := by
  simp only [part?, Option.bind_eq_bind, Option.bind_eq_some_iff, dropPiece?_eq_some_iff] at h
  obtain ⟨after, rfl, ⟨digits, more⟩, hdigits, quoted, rfl, ⟨owner, rest⟩, howner, -⟩ := h
  obtain ⟨rfl, hall⟩ := eq_append_of_digits? hdigits
  obtain ⟨r, rfl⟩ := exists_of_literal? howner
  exact ⟨digits, r, hall, by simp⟩

theorem part?_eq_none {w : Text} (hquote : '"' ∉ w) (hblank : ' ' ∈ w) (index : Nat) (r : Text) :
    part? (w ++ (PullRef.tag index ++ ": repository(owner: ".toList ++ '"' :: r)) = none := by
  have hpiece : '"' ∉ ": repository(owner: ".toList := by decide
  have hpr : '"' ∉ "pr".toList ∧ ' ' ∉ "pr".toList := by decide
  have hmark : isDigit '"' = false ∧ isDigit ' ' = false := by decide
  have hindex : '"' ∉ ofNat index := notMem_of_isDigit (fun c hc => isDigit_of_mem hc) hmark.1
  rw [Option.eq_none_iff_forall_ne_some]
  intro found hfound
  obtain ⟨digits, rest, hdigits, heq⟩ := exists_of_part? hfound
  have hleft : '"' ∉ w ++ PullRef.tag index ++ ": repository(owner: ".toList := by
    simp only [PullRef.tag, List.mem_append, not_or]
    exact ⟨⟨hquote, hpr.1, hindex⟩, hpiece⟩
  have hright : '"' ∉ "pr".toList ++ digits ++ ": repository(owner: ".toList := by
    simp only [List.mem_append, not_or]
    exact ⟨⟨hpr.1, notMem_of_isDigit hdigits hmark.1⟩, hpiece⟩
  -- both sides come to their first quote behind the same piece, so the tag would hold the blank
  rw [← List.append_assoc, ← List.append_assoc] at heq
  obtain ⟨hstart, -⟩ := eq_of_append_first hleft hright heq
  have htag := List.append_cancel_right hstart
  have hmem : ' ' ∈ "pr".toList ++ digits := htag ▸ List.mem_append_left _ hblank
  rcases List.mem_append.1 hmem with hmem | hmem
  · exact hpr.2 hmem
  · exact notMem_of_isDigit hdigits hmark.2 hmem

theorem findAll_write {u : Text} (hquote : '"' ∉ u) (hblank : ∃ v, u = v ++ [' ']) (index : Nat)
    {p : Place} (hp : 0 ≤ p.number) (r : Text) :
    findAll part? (u ++ ((Part.ofPlace index p).write ++ r)) =
      Part.ofPlace index p :: findAll part? r := by
  rw [findAll_append, findAll_of_match (Part.write_ne_nil _) (part?_write index hp r)]
  intro w hw hsuffix
  have hlast : ' ' ∈ w := by
    obtain ⟨v, rfl⟩ := hblank
    have hsame := hsuffix.getLast hw
    rw [List.getLast_append_singleton] at hsame
    exact hsame ▸ List.getLast_mem hw
  have hnone := part?_eq_none (fun h => hquote (hsuffix.subset h)) hlast index
    (p.owner.flatMap asciiEscape ++ '"' :: (", name: ".toList ++ (asciiQuoted p.name ++
      (") \x7b pullRequest(number: ".toList ++ (ofInt p.number ++ (")".toList ++ r))))))
  simpa [Part.ofPlace, Part.write, asciiQuoted] using hnone

theorem findAll_of_quote_notMem {t : Text} (h : '"' ∉ t) : findAll part? t = [] := by
  have hnone : findAll part? (t ++ []) = findAll part? [] := by
    refine findAll_append fun w hw hsuffix => ?_
    rw [Option.eq_none_iff_forall_ne_some]
    intro found hfound
    obtain ⟨digits, rest, -, heq⟩ := exists_of_part? hfound
    refine h (hsuffix.subset ?_)
    rw [List.append_nil] at heq
    simp [heq]
  rw [List.append_nil] at hnone
  exact hnone

def partsOf (index : Nat) (places : List Place) : List Part :=
  (places.zipIdx index).map fun (p, k) => Part.ofPlace k p

theorem partsOf_cons (index : Nat) (p : Place) (places : List Place) :
    partsOf index (p :: places) = Part.ofPlace index p :: partsOf (index + 1) places := rfl

def closing (selection : Text) : Text := " \x7b ".toList ++ selection ++ " \x7d \x7d".toList

theorem ask_eq (selection : Text) (index : Nat) (p : Place) :
    p.ask selection index = (Part.ofPlace index p).write ++ closing selection := by
  have hmiddle : ") \x7b ".toList = ")".toList ++ " \x7b ".toList := rfl
  unfold Place.ask Part.write closing
  rw [hmiddle]
  simp only [Part.ofPlace, PullRef.tag, List.append_assoc]

theorem asks_eq (selection : Text) (index : Nat) (places : List Place) :
    Place.asks selection index places =
      (partsOf index places).map fun p => p.write ++ closing selection := by
  simp only [Place.asks, partsOf, List.map_map]
  exact List.map_congr_left fun _ _ => ask_eq ..

theorem quote_notMem_closing {selection : Text} (h : '"' ∉ selection) : '"' ∉ closing selection := by
  simp [closing, h]

theorem findAll_intercalate {selection : Text} (hselection : '"' ∉ selection) {places : List Place}
    (hplaces : ∀ p ∈ places, 0 ≤ p.number) (index : Nat) {u : Text} (hquote : '"' ∉ u)
    (hblank : ∃ v, u = v ++ [' ']) :
    findAll part? (u ++ (List.intercalate [' '] ((partsOf index places).map fun p =>
      p.write ++ closing selection) ++ " \x7d".toList)) = partsOf index places := by
  have hclosing := quote_notMem_closing hselection
  have hend : '"' ∉ " \x7d".toList := by decide
  induction places generalizing index u with
  | nil =>
    refine findAll_of_quote_notMem ?_
    simp [partsOf, hquote]
  | cons p places ih =>
    have hp := hplaces p (List.mem_cons_self ..)
    rw [partsOf_cons, List.map_cons]
    cases places with
    | nil =>
      have hlast : '"' ∉ closing selection ++ " \x7d".toList := by
        rw [List.mem_append, not_or]
        exact ⟨hclosing, hend⟩
      simp only [partsOf, List.zipIdx_nil, List.map_nil, List.intercalate_singleton,
        List.append_assoc]
      rw [findAll_write hquote hblank index hp, findAll_of_quote_notMem hlast]
    | cons q places =>
      -- what closes a part and the blank behind it lead up to the next part
      have hlead : '"' ∉ closing selection ++ [' '] := by simpa using hclosing
      have hrest := ih (fun x hx => hplaces x (List.mem_cons_of_mem _ hx)) (index + 1) hlead
        ⟨_, rfl⟩
      rw [partsOf_cons, List.map_cons] at hrest ⊢
      rw [List.intercalate_cons_cons]
      simp only [List.append_assoc] at hrest ⊢
      rw [findAll_write hquote hblank index hp, hrest]

/-- A document is scanned for the parts that it was written from, whatever stands between the
quotes of their owners and names. -/
theorem findAll_documentFor {selection : Text} (hselection : '"' ∉ selection) {places : List Place}
    (hplaces : ∀ p ∈ places, 0 ≤ p.number) :
    findAll part? (documentFor selection places) = partsOf 0 places := by
  have hquote : '"' ∉ "query \x7b ".toList := by decide
  unfold documentFor
  rw [asks_eq, List.append_assoc]
  exact findAll_intercalate hselection hplaces 0 hquote ⟨"query \x7b".toList, by decide⟩

end Script

end PullGauge
