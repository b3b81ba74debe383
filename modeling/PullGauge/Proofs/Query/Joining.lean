import Mathlib
import PullGauge.Proofs.Query.Normalization

/-!
# Joining queries with blanks

A query that leaves no quote open keeps its tokens to itself when blanks and another query
follow: the tokens of the whole are those of the one, and then those of the other, further on.
So the filter of the whole is merged from the filters of the two, where lists are appended, the
state of higher precedence and a negated draft flag win, and the later query overrides the
ends of the date bounds that it says itself.
-/

namespace PullGauge

open Token (oddQuotes Breaks Rests isSeparator shift)

namespace Token

theorem isSeparator_of_isBlank {c : Char} (h : Text.isBlank c = true) : isSeparator c = true := by
  simp [isSeparator, h]

theorem rests_of_blanks {w : Text} (hw : ∀ c ∈ w, Text.isBlank c = true) : Rests w := by
  induction w with
  | nil => exact .nil
  | cons c w ih =>
    rw [List.forall_mem_cons] at hw
    exact (ih hw.2).cons (isSeparator_of_isBlank hw.1)

theorem scan_blanks {w : Text} (hw : ∀ c ∈ w, Text.isBlank c = true) (p : Nat) :
    scan p none w = [] := by
  induction w generalizing p with
  | nil => rfl
  | cons c w ih =>
    rw [List.forall_mem_cons] at hw
    rw [scan_none_blank hw.1, ih hw.2]

variable {a w : Text}

theorem tokenize_append_blanks (ha : oddQuotes a = false)
    (hw : ∀ c ∈ w, Text.isBlank c = true) : tokenize (a ++ w) = tokenize a := by
  have hb : Breaks w := fun c hc => isSeparator_of_isBlank (hw c (List.mem_of_head? hc))
  rw [tokenize_append ⟨ha, .inl hb⟩, tokenize, tokenize, scan_blanks hw]
  simp

theorem rests_append_blanks (ha : oddQuotes a = false) (hne : w ≠ [])
    (hw : ∀ c ∈ w, Text.isBlank c = true) : Rests (a ++ w) := by
  obtain ⟨hodd, hlast⟩ := rests_of_blanks hw
  refine ⟨by rw [oddQuotes_append, ha, hodd]; rfl, ?_⟩
  rwa [List.getLast?_append_of_ne_nil _ hne]

/-- Blanks between two queries keep their tokens apart. -/
theorem tokenize_join (ha : oddQuotes a = false) (hne : w ≠ [])
    (hw : ∀ c ∈ w, Text.isBlank c = true) (b : Text) :
    tokenize (a ++ w ++ b) = tokenize a ++ (tokenize b).map (shift (a ++ w).length) := by
  rw [tokenize_append ((rests_append_blanks ha hne hw).splits b),
    tokenize_append_blanks ha hw]

def closedQuery : Text := "(a\"b c\")is:pr"

def twoBlanks : Text := "\n\x1f"

def unclosedQuery : Text := "d) \"e f"

theorem tokenize_join_unclosed :
    oddQuotes closedQuery = false ∧ twoBlanks ≠ [] ∧
      (∀ c ∈ twoBlanks, Text.isBlank c = true) ∧
      tokenize (closedQuery ++ twoBlanks ++ unclosedQuery) =
        tokenize closedQuery ++
          (tokenize unclosedQuery).map (shift (closedQuery ++ twoBlanks).length) ∧
      (tokenize (closedQuery ++ twoBlanks ++ unclosedQuery)).map Token.position =
        [0, 1, 7, 8, 15, 16, 18] := by
  have ha : oddQuotes closedQuery = false := by decide
  have hne : twoBlanks ≠ [] := by decide
  have hw : ∀ c ∈ twoBlanks, Text.isBlank c = true := Text.forall_mem_of_all (by decide)
  exact ⟨ha, hne, hw, tokenize_join ha hne hw unclosedQuery, by decide +kernel⟩

end Token

namespace Standing

def prefer (s s' : Standing) : Standing :=
  if s = .opened ∨ s' = .opened then .opened
  else if s = .closed ∨ s' = .closed then .closed
  else if s = .merged ∨ s' = .merged then .merged
  else .all

theorem prefer_assoc (r s t : Standing) : (r.prefer s).prefer t = r.prefer (s.prefer t) := by
  cases r <;> cases s <;> cases t <;> rfl

theorem prefer_comm (s t : Standing) : s.prefer t = t.prefer s := by
  simp only [prefer, or_comm]

theorem prefer_all {s : Standing} (hs : ∀ w, s ≠ .other w) : s.prefer .all = s := by
  cases s with
  | other w => exact absurd rfl (hs w)
  | _ => rfl

end Standing

namespace Bounds

def override (b later : Bounds) : Bounds := ⟨later.start.or b.start, later.stop.or b.stop⟩

def merge (b later : Option Bounds) : Option Bounds := ((b.getD {}).override (later.getD {})).settle

theorem override_assoc (b c d : Bounds) :
    (b.override c).override d = b.override (c.override d) := by
  simp [override, Option.or_assoc]

theorem getD_settle (b : Bounds) : b.settle.getD {} = b := by
  obtain ⟨first, last⟩ := b
  cases first <;> cases last <;> rfl

theorem refine_eq_override (b : Bounds) (value : Text) :
    b.refine value = b.override (refine {} value) := by
  unfold refine
  split
  · simp [override]
  · split <;> simp [override]

theorem foldl_refine (b : Bounds) (values : List Text) :
    values.foldl refine b = b.override (values.foldl refine {}) := by
  induction values generalizing b with
  | nil => rfl
  | cons v values ih =>
    rw [List.foldl_cons, List.foldl_cons, ih (b.refine v), ih (refine {} v),
      refine_eq_override b v, override_assoc]

theorem ofValues_append (u v : List Text) : ofValues (u ++ v) = merge (ofValues u) (ofValues v) := by
  rw [merge, ofValues, ofValues, ofValues, getD_settle, getD_settle, List.foldl_append,
    foldl_refine (u.foldl refine {})]

theorem merge_assoc (b c d : Option Bounds) : merge (merge b c) d = merge b (merge c d) := by
  simp only [merge, getD_settle, override_assoc]

theorem none_merge {b : Option Bounds} (hb : b ≠ some {}) : merge none b = b := by
  simpa [merge, override] using settle_getD hb

theorem merge_none {b : Option Bounds} (hb : b ≠ some {}) : merge b none = b := by
  simpa [merge, override] using settle_getD hb

end Bounds

namespace Filter

open Qualifier

def preferDraft (d d' : Option Bool) : Option Bool :=
  if d = some false ∨ d' = some false then some false
  else if d = some true ∨ d' = some true then some true
  else none

/-- The filter that asks for what either of two filters asks for; the second one is the later. -/
def merge (f g : Filter) : Filter where
  authors := f.authors ++ g.authors
  reviewers := f.reviewers ++ g.reviewers
  repositories := f.repositories ++ g.repositories
  labels := f.labels ++ g.labels
  assignees := f.assignees ++ g.assignees
  involves := f.involves ++ g.involves
  state := f.state.prefer g.state
  draft := preferDraft f.draft g.draft
  created := Bounds.merge f.created g.created
  updated := Bounds.merge f.updated g.updated

theorem standingOf_append (u v : List Text) :
    standingOf (u ++ v) = (standingOf u).prefer (standingOf v) := by
  simp only [standingOf, List.contains_eq_mem, List.mem_append, decide_eq_true_eq]
  split_ifs <;> simp_all [Standing.prefer]

theorem draftOf_append (u v m n : List Text) :
    draftOf (u ++ v) (m ++ n) = preferDraft (draftOf u m) (draftOf v n) := by
  simp only [draftOf, List.contains_eq_mem, List.mem_append, decide_eq_true_eq]
  split_ifs <;> simp_all [preferDraft]

@[simp] theorem valuesOf_append (key : Text) (p q : List Qualifier) :
    valuesOf key (p ++ q) = valuesOf key p ++ valuesOf key q := by
  simp [valuesOf]

@[simp]
theorem labelsOf_append (p q : List Qualifier) : labelsOf (p ++ q) = labelsOf p ++ labelsOf q := by
  simp [labelsOf]

theorem ofQualifiers_append (p q : List Qualifier) :
    ofQualifiers (p ++ q) = (ofQualifiers p).merge (ofQualifiers q) := by
  simp only [ofQualifiers, merge, valuesOf_append, labelsOf_append, pick_append, List.map_append,
    standingOf_append, draftOf_append, Bounds.ofValues_append]

theorem preferDraft_assoc (d e g : Option Bool) :
    preferDraft (preferDraft d e) g = preferDraft d (preferDraft e g) := by
  revert d e g
  decide

theorem merge_assoc (f g h : Filter) : (f.merge g).merge h = f.merge (g.merge h) := by
  simp only [merge, List.append_assoc, Standing.prefer_assoc, preferDraft_assoc,
    Bounds.merge_assoc]

theorem preferDraft_none (d : Option Bool) : preferDraft d none = d := by
  revert d
  decide

theorem none_preferDraft (d : Option Bool) : preferDraft none d = d := by
  revert d
  decide

theorem settled_read (t : Text) : (∀ w, (read t).state ≠ .other w) ∧
    (read t).created ≠ some {} ∧ (read t).updated ≠ some {} :=
  ⟨standingOf_ne_other _, Bounds.settle_ne _, Bounds.settle_ne _⟩

theorem read_merge_empty (t : Text) : (read t).merge {} = read t := by
  obtain ⟨hs, hc, hu⟩ := settled_read t
  simp only [merge, List.append_nil, Standing.prefer_all hs, preferDraft_none,
    Bounds.merge_none hc, Bounds.merge_none hu]

theorem empty_merge_read (t : Text) : merge {} (read t) = read t := by
  obtain ⟨hs, hc, hu⟩ := settled_read t
  simp only [merge, List.nil_append, Standing.prefer_comm .all, Standing.prefer_all hs,
    none_preferDraft, Bounds.none_merge hc, Bounds.none_merge hu]

/-- To read a query made of two is to merge what the two describe, provided that the first one
leaves no quote open. The empty query describes what changes nothing in a merge. -/
theorem read_join : read [] = {} ∧
    (∀ t, (read t).merge {} = read t ∧ merge {} (read t) = read t) ∧
    ∀ a b, oddQuotes a = false → read (a ++ ' ' :: b) = (read a).merge (read b) := by
  refine ⟨rfl, fun t => ⟨read_merge_empty t, empty_merge_read t⟩, fun a b ha => ?_⟩
  rw [read_eq_ofQualifiers, qualifiersIn_append_blank ha (by decide), ofQualifiers_append,
    ← read_eq_ofQualifiers, ← read_eq_ofQualifiers]

def earlier : Text :=
  "author:\"x y\" is:merged -is:draft created:2024-01-01..2024-02-01"

def later : Text :=
  "author:z is:open is:draft created:>soon created:<2024-03-01 updated:>=2023-05-05 \"is:closed"

theorem read_join_dates : oddQuotes earlier = false ∧
    read (earlier ++ ' ' :: later) = (read earlier).merge (read later) ∧
    (read earlier).merge (read later) = {
      authors := ["x y", "z"]
      state := .opened
      draft := some false
      created := some ⟨some (.day ⟨2024, 1, 1, by decide⟩), some (.day ⟨2024, 3, 1, by decide⟩)⟩
      updated := some ⟨some (.day ⟨2023, 5, 5, by decide⟩), none⟩ } :=
  ⟨by decide, read_join.2.2 earlier later (by decide), by decide +kernel⟩

end Filter

end PullGauge
