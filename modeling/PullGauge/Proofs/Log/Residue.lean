import Mathlib
import PullGauge.Proofs.Log.Replacing

/-!
# What masking leaves

A masked text holds none of the four kinds of credentials. Each kind has a core, the stretch that
decides an occurrence, and neither its own pass nor a later one brings an occurrence about: a
scheme and its value are one whatever follows; a replacement stands behind an access token only
where no word went on; and an assignment whose value runs into a replacement was one before,
since what is replaced held a quote that closed it.
-/

namespace PullGauge.Masking

open Text (foldChar isBlank isWordChar isAsciiLetter)

theorem isLetter_of_mem {words : List Text}
    (hw : (words.all fun w => w.all isAsciiLetter) = true) {k : Text}
    (hk : k.map foldChar ∈ words) : ∀ c ∈ k, isAsciiLetter (foldChar c) = true := by
  intro c hc
  exact List.all_eq_true.1 (List.all_eq_true.1 hw _ hk) _ (List.mem_map_of_mem hc)

theorem ne_of_class {p : Char → Bool} {c : Char} (hc : p c = true)
    (hp : p ' ' = false ∧ p ':' = false) : c ≠ ' ' ∧ c ≠ ':' := by
  constructor
  · intro h
    simp [h, hp.1] at hc
  · intro h
    simp [h, hp.2] at hc

theorem isSchemeValueChar_of_isLetter {c : Char} (h : isAsciiLetter (foldChar c) = true) :
    isSchemeValueChar c = true := by
  simp [isSchemeValueChar, h]

theorem isLetter_of_isBlank {c : Char} (h : isBlank c = true) :
    isAsciiLetter (foldChar c) = false := by
  by_contra hl
  have := isBlank_of_isSchemeValueChar (isSchemeValueChar_of_isLetter (by simpa using hl))
  simp [h] at this

theorem isLetter_of_mem_schemeWords {k : Text} (hk : k.map foldChar ∈ schemeWords) :
    ∀ c ∈ k, isAsciiLetter (foldChar c) = true := isLetter_of_mem (by decide) hk

theorem isLetter_of_mem_secretWords {k : Text} (hk : k.map foldChar ∈ secretWords) :
    ∀ c ∈ k, isAsciiLetter (foldChar c) = true := isLetter_of_mem (by decide) hk

/-! ## A scheme and its value -/

def IsSchemeCore (p : Text) : Prop :=
  ∃ word blanks c, p = word ++ (blanks ++ [c]) ∧ word.map foldChar ∈ schemeWords ∧ blanks ≠ [] ∧
    (∀ d ∈ blanks, isBlank d = true) ∧ isSchemeValueChar c = true

theorem IsSchemeCore.occursAt {p : Text} (hp : IsSchemeCore p) (b : Option Char) (t : Text) :
    OccursAt schemePattern b (p ++ t) := by
  obtain ⟨word, blanks, c, rfl, hword, hne, hblanks, hc⟩ := hp
  exact ⟨word, blanks ++ [c], t, by simp, hword, blanks, [c], rfl, hne, hblanks, by simp, by simpa⟩

theorem hasCore_scheme : HasCore schemePattern IsSchemeCore where
  exists_core := by
    intro b t h
    obtain ⟨word, gone, rest, rfl, hword, blanks, value, rfl, hne, hblanks, hvne, hvalue⟩ := h
    obtain ⟨c, value, rfl⟩ := List.exists_cons_of_ne_nil hvne
    exact ⟨word ++ (blanks ++ [c]), ⟨word, blanks, c, rfl, hword, hne, hblanks, hvalue c (by simp)⟩,
      by simp⟩
  bracket := by
    intro p hp
    obtain ⟨word, blanks, c, rfl, hword, -, hblanks, hc⟩ := hp
    have hmem {d : Char} (hd : d ∈ word ++ (blanks ++ [c])) :
        isBlank d = true ∨ isSchemeValueChar d = true := by
      simp only [List.mem_append, List.mem_singleton] at hd
      rcases hd with hd | hd | rfl
      · exact .inr (isSchemeValueChar_of_isLetter (isLetter_of_mem_schemeWords hword d hd))
      · exact .inl (hblanks d hd)
      · exact .inr hc
    exact ⟨fun h => absurd (hmem h) (by decide), fun h => absurd (hmem h) (by decide)⟩
  last := by
    intro p hp d hd
    obtain ⟨word, blanks, c, rfl, -, -, -, hc⟩ := hp
    obtain rfl : c = d := by simpa using hd
    exact ne_of_class hc (by decide)
  notLetter := by
    intro p hp
    obtain ⟨word, blanks, c, rfl, -, hne, hblanks, -⟩ := hp
    obtain ⟨d, blanks, rfl⟩ := List.exists_cons_of_ne_nil hne
    exact ⟨d, by simp, isLetter_of_isBlank (hblanks d (by simp))⟩
  not_prefix := by
    intro p tail v hp ht hv hpre
    obtain ⟨t, rfl⟩ := hpre
    have hall : ∀ tail ∈ tails, ∀ v ∈ tail.tails, schemeShape none v = none := by decide
    exact describes_scheme.of_none (hall tail ht _ ((List.mem_tails _ _).2 hv)) (hp.occursAt none t)

theorem isPass_scheme : IsPass schemePattern " [REDACTED]" schemeShape where
  describes := describes_scheme
  mem_tails := by decide
  letters := by
    intro b word gone a h
    exact isLetter_of_mem_schemeWords h.1

theorem seals_scheme {P : Pattern} {tail : Text} (ht : tail ∈ tails) :
    Seals (fun _ _ _ => True) schemePattern P tail where
  refl _ _ := trivial
  same _ h := h
  across := by
    intro b u kept gone t o _ h
    obtain ⟨p, hp, hpre⟩ := hasCore_scheme.exists_core h
    rw [← List.append_assoc] at hpre
    obtain ⟨y, hy⟩ := hasCore_scheme.prefix_of_tail ht hp hpre
    rw [← List.append_assoc, ← hy, List.append_assoc]
    exact hp.occursAt b _
  edge _ := trivial

/-! ## Access tokens -/

/-- The characters before a place are alike unless a word goes on behind it. -/
def alike (b b' h : Option Char) : Prop := isWordAt h = true → isWordAt b = isWordAt b'

section Tokens

variable {marks : List Text} {inToken : Char → Bool}

def IsTokenCore (marks : List Text) (inToken : Char → Bool) (p : Text) : Prop :=
  ∃ mark ∈ marks, ∃ value, p = mark ++ value ∧ tokenLength ≤ value.length ∧
    ∀ c ∈ value, inToken c = true

theorem IsTokenCore.chars (hf : IsFamily marks inToken) {p : Text}
    (hp : IsTokenCore marks inToken p) : ∀ c ∈ p, isTokenChar c = true := by
  obtain ⟨mark, hm, value, rfl, -, hvalue⟩ := hp
  intro c hc
  rcases List.mem_append.1 hc with hc | hc
  · exact hf.mark_chars mark hm c hc
  · exact hf.chars c (hvalue c hc)

theorem IsTokenCore.head? (hf : IsFamily marks inToken) {p : Text}
    (hp : IsTokenCore marks inToken p) : p.head? = some 'g' := by
  obtain ⟨mark, hm, value, rfl, -, -⟩ := hp
  rw [List.head?_append, hf.head mark hm]
  rfl

theorem hasCore_token (hf : IsFamily marks inToken) :
    HasCore (tokenPattern marks inToken) (IsTokenCore marks inToken) where
  exists_core := by
    intro b t h
    obtain ⟨kept, gone, rest, rfl, rfl, -, -, hcore⟩ := h
    exact ⟨gone, hcore, by simp⟩
  bracket hp := ⟨fun h => absurd (hp.chars hf _ h) (by decide),
    fun h => absurd (hp.chars hf _ h) (by decide)⟩
  last := by
    intro p hp c hc
    exact ne_of_class (hp.chars hf c (List.mem_of_getLast? hc)) (by decide)
  notLetter := by
    intro p hp
    obtain ⟨mark, hm, value, rfl, -, -⟩ := hp
    exact ⟨'_', List.mem_append_left _ (hf.low mark hm), by decide⟩
  not_prefix := by
    intro p tail v hp ht hv hpre
    have hall : ∀ tail ∈ tails, 'g' ∉ tail := by decide
    exact hall tail ht (hv.subset (hpre.subset (List.mem_of_head? (hp.head? hf))))

theorem isPass_token (hf : IsFamily marks inToken) :
    IsPass (tokenPattern marks inToken) "[TOKEN_REDACTED]" (tokenShape marks inToken) where
  describes := describes_token hf
  mem_tails := by decide
  letters := by
    intro b kept gone a h
    simp [h.1]

theorem occursAt_token_append (hf : IsFamily marks inToken) {tail : Text} (ht : tail ∈ tails)
    {b : Option Char} {v x o : Text} (h : OccursAt (tokenPattern marks inToken) b (v ++ (tail ++ o)))
    (hx : isWordAt v.getLast? = true → isWordAt x.head? = false) :
    OccursAt (tokenPattern marks inToken) b (v ++ x) := by
  obtain ⟨kept, gone, rest, hparts, rfl, hb, hafter, hcore⟩ := h
  have hcore : IsTokenCore marks inToken gone := hcore
  obtain ⟨y, rfl⟩ := (hasCore_token hf).prefix_of_tail ht hcore ⟨rest, hparts.symm⟩
  refine ⟨[], gone, y ++ x, by simp, rfl, hb, ?_, hcore⟩
  cases y with
  | nil =>
    refine hx ?_
    obtain ⟨c, hc⟩ : ∃ c, gone.getLast? = some c := by
      cases hg : gone.getLast? with
      | none =>
        have := hcore.head? hf
        simp_all
      | some c => exact ⟨c, rfl⟩
    rw [List.append_nil, hc]
    exact isWordChar_of_isTokenChar (hcore.chars hf c (List.mem_of_getLast? hc))
  | cons e y =>
    rw [List.append_assoc, List.nil_append] at hparts
    rw [← List.append_cancel_left hparts] at hafter
    exact hafter

theorem same_token (hf : IsFamily marks inToken) {b b' : Option Char} {o : Text}
    (hb : alike b b' o.head?) (h : OccursAt (tokenPattern marks inToken) b' o) :
    OccursAt (tokenPattern marks inToken) b o := by
  obtain ⟨kept, gone, rest, rfl, rfl, hb', hafter, hcore⟩ := h
  have hhead : ([] ++ (gone ++ rest)).head? = some 'g' := by
    rw [List.nil_append, List.head?_append, IsTokenCore.head? hf hcore]
    rfl
  rw [hhead] at hb
  exact ⟨[], gone, rest, rfl, rfl, (hb (by decide)).trans hb', hafter, hcore⟩

theorem seals_token_token (hf : IsFamily marks inToken) {marks' : List Text} {inToken' : Char → Bool} :
    Seals alike (tokenPattern marks inToken) (tokenPattern marks' inToken') "[TOKEN_REDACTED]" where
  refl _ _ _ := rfl
  same := same_token hf
  across := by
    intro b u kept gone t o hp h
    obtain ⟨rfl, hu, -⟩ := hp
    have ht : "[TOKEN_REDACTED]".toList ∈ tails := by decide
    refine occursAt_token_append hf ht h fun hlast => ?_
    cases hc : u.getLast? with
    | none => simp [hc, isWordAt] at hlast
    | some c => simp_all
  edge := by
    intro b kept gone t hp hw
    obtain ⟨-, -, hafter, -⟩ := hp
    simp [hafter] at hw

theorem IsLead.not_isWordAt {lead : Text} (h : IsLead lead) (t : Text) :
    isWordAt (lead ++ t).head? = false := by
  obtain ⟨quote, blanks, sign, blanks', opening, rfl, -, hquote, hblanks, hsign, -, -⟩ := h
  cases quote with
  | cons q quote => exact isWordChar_of_isQuote (hquote q (by simp))
  | nil =>
    cases blanks with
    | cons c blanks => exact Text.isWordChar_of_isBlank (hblanks c (by simp))
    | nil => exact isWordChar_of_isSign hsign

theorem seals_token_assignment (hf : IsFamily marks inToken) :
    Seals alike (tokenPattern marks inToken) assignmentPattern ": [REDACTED]" where
  refl _ _ _ := rfl
  same := same_token hf
  across := by
    intro b u kept gone t o hp h
    obtain ⟨-, lead, value, closing, rfl, hlead, -⟩ := hp
    have ht : ": [REDACTED]".toList ∈ tails := by decide
    rw [← List.append_assoc] at h ⊢
    refine occursAt_token_append hf ht h fun _ => ?_
    rw [List.append_assoc]
    exact hlead.not_isWordAt _
  edge := by
    intro b kept gone t hp _
    obtain ⟨-, lead, value, closing, rfl, -, -, -, hclosing⟩ := hp
    have hlast : (kept ++ (lead ++ (value ++ [closing]))).getLast?.or b = some closing := by simp
    rw [hlast]
    exact isWordChar_of_isQuote hclosing

end Tokens

/-! ## Assignments -/

theorem isLetter_of_isQuote {c : Char} (h : isQuote c = true) :
    isAsciiLetter (foldChar c) = false := by
  rcases eq_of_isQuote h with rfl | rfl <;> decide

def IsAssignmentCore (p : Text) : Prop :=
  ∃ name lead, p = name ++ lead ∧ name.map foldChar ∈ secretWords ∧ IsLead lead

theorem IsLead.getLast? {lead : Text} (h : IsLead lead) :
    ∃ q, lead.getLast? = some q ∧ isQuote q = true := by
  obtain ⟨quote, blanks, sign, blanks', opening, rfl, -, -, -, -, -, hopening⟩ := h
  exact ⟨opening, by simp [List.getLast?_cons], hopening⟩

theorem IsAssignmentCore.getLast? {p : Text} (hp : IsAssignmentCore p) :
    ∃ q, p.getLast? = some q ∧ isQuote q = true := by
  obtain ⟨name, lead, rfl, -, hlead⟩ := hp
  obtain ⟨q, hq, hquote⟩ := hlead.getLast?
  exact ⟨q, by rw [List.getLast?_append, hq, Option.some_or], hquote⟩

theorem isBlank_or_of_isLead {lead : Text} (h : IsLead lead) :
    ∀ c ∈ lead, isBlank c = true ∨ isSign c = true ∨ isQuote c = true := by
  obtain ⟨quote, blanks, sign, blanks', opening, rfl, -, hquote, hblanks, hsign, hblanks', hopen⟩ := h
  intro c hc
  simp only [List.mem_append, List.mem_cons, List.not_mem_nil, or_false] at hc
  rcases hc with hc | hc | rfl | hc | rfl
  · exact .inr (.inr (hquote c hc))
  · exact .inl (hblanks c hc)
  · exact .inr (.inl hsign)
  · exact .inl (hblanks' c hc)
  · exact .inr (.inr hopen)

theorem hasCore_assignment : HasCore assignmentPattern IsAssignmentCore where
  exists_core := by
    intro b t h
    obtain ⟨name, gone, rest, rfl, hname, lead, value, closing, rfl, hlead, -⟩ := h
    exact ⟨name ++ lead, ⟨name, lead, rfl, hname, hlead⟩, by simp⟩
  bracket := by
    intro p hp
    obtain ⟨name, lead, rfl, hname, hlead⟩ := hp
    have hmem {d : Char} (hd : d ∈ name ++ lead) : isAsciiLetter (foldChar d) = true ∨
        isBlank d = true ∨ isSign d = true ∨ isQuote d = true := by
      rcases List.mem_append.1 hd with hd | hd
      · exact .inl (isLetter_of_mem_secretWords hname d hd)
      · exact .inr (isBlank_or_of_isLead hlead d hd)
    exact ⟨fun h => absurd (hmem h) (by decide), fun h => absurd (hmem h) (by decide)⟩
  last := by
    intro p hp c hc
    obtain ⟨q, hq, hquote⟩ := hp.getLast?
    obtain rfl : q = c := Option.some.inj (hq.symm.trans hc)
    exact ne_of_class hquote (by decide)
  notLetter := by
    intro p hp
    obtain ⟨q, hq, hquote⟩ := hp.getLast?
    exact ⟨q, List.mem_of_getLast? hq, isLetter_of_isQuote hquote⟩
  not_prefix := by
    intro p tail v hp ht hv hpre
    obtain ⟨q, hq, hquote⟩ := hp.getLast?
    have hall : ∀ tail ∈ tails, '\x27' ∉ tail ∧ '"' ∉ tail := by decide
    have hmem := hv.subset (hpre.subset (List.mem_of_getLast? hq))
    rcases eq_of_isQuote hquote with rfl | rfl
    · exact (hall tail ht).1 hmem
    · exact (hall tail ht).2 hmem

theorem isPass_assignment : IsPass assignmentPattern ": [REDACTED]" assignmentShape where
  describes := describes_assignment
  mem_tails := by decide
  letters := by
    intro b name gone a h
    exact isLetter_of_mem_secretWords h.1

theorem IsAssignmentCore.occursAt {p v : Text} {d q : Char} (hp : IsAssignmentCore p)
    (hd : isQuote d = false) (hq : q ∈ v) (hquote : isQuote q = true) (b : Option Char) :
    OccursAt assignmentPattern b (p ++ d :: v) := by
  obtain ⟨name, lead, rfl, hname, hlead⟩ := hp
  obtain ⟨value, rest, hparts, hvalue, hrest⟩ := exists_span (fun c => !isQuote c) (d :: v)
  have hne : value ≠ [] := by
    rintro rfl
    have := hrest d (by rw [← List.nil_append rest, ← hparts]; rfl)
    simp [hd] at this
  cases rest with
  | nil =>
    rw [List.append_nil] at hparts
    have := hvalue q (hparts ▸ List.mem_cons_of_mem d hq)
    simp [hquote] at this
  | cons closing rest =>
    exact ⟨name, lead ++ (value ++ [closing]), rest, by simp [hparts], hname, lead, value, closing,
      rfl, hlead, hne, by simpa using hvalue, by simpa using hrest⟩

theorem seals_assignment :
    Seals (fun _ _ _ => True) assignmentPattern assignmentPattern ": [REDACTED]" where
  refl _ _ := trivial
  same _ h := h
  across := by
    intro b u kept gone t o hrepl h
    obtain ⟨hkept, lead, value, closing, rfl, -, -, -, hclosing⟩ := hrepl
    obtain ⟨name, gone', rest, hparts, hname, lead', value', closing', rfl, hlead', hne, hvalue', -⟩ := h
    have hp : IsAssignmentCore (name ++ lead') := ⟨name, lead', rfl, hname, hlead'⟩
    have ht : ": [REDACTED]".toList ∈ tails := by decide
    have hpre : name ++ lead' <+: u ++ kept ++ (": [REDACTED]".toList ++ o) := by
      rw [List.append_assoc, hparts]
      simp
    obtain ⟨y, hy⟩ := hasCore_assignment.prefix_of_tail ht hp hpre
    obtain ⟨q, hq, hquote⟩ := hp.getLast?
    obtain ⟨e, value', rfl⟩ := List.exists_cons_of_ne_nil hne
    cases y with
    | nil =>
      -- the core would end where the kept name does, in a letter
      have hkne : kept ≠ [] := by
        rintro rfl
        exact absurd hkept (by decide)
      rw [List.append_nil] at hy
      rw [hy, List.getLast?_append_of_ne_nil _ hkne] at hq
      have := isLetter_of_mem_secretWords hkept q (List.mem_of_getLast? hq)
      simp [isLetter_of_isQuote hquote] at this
    | cons d y =>
      have hde : d = e := by
        rw [← List.append_assoc, ← hy] at hparts
        simp only [List.append_assoc, List.append_cancel_left_eq, List.cons_append] at hparts
        exact (List.cons.inj hparts).1
      subst hde
      rw [← List.append_assoc, ← hy, List.append_assoc]
      exact hp.occursAt (hvalue' d (by simp)) (by simp) hclosing b
  edge _ := trivial

/-! ## The masked text -/

/-- What credentials look like, in the order in which they are masked. -/
def credentials : List Pattern :=
  [schemePattern, tokenPattern ["ghp_", "gho_", "ghu_", "ghs_", "ghr_"] isAlphanumeric,
    tokenPattern ["github_pat_"] fun c => isAlphanumeric c || c == '_', assignmentPattern]

theorem forall_mem_zip_shapes {p : Pattern × Shape → Prop} :
    (∀ q ∈ credentials.zip shapes, p q) ↔
      p (schemePattern, schemeShape) ∧ p (tokenPattern classicMarks isAlphanumeric, classicShape) ∧
      p (tokenPattern ["github_pat_"] fun c => isAlphanumeric c || c == '_', fineGrainedShape) ∧
      p (assignmentPattern, assignmentShape) := by
  simp [credentials, shapes, classicMarks]

theorem isPass_shapes : ∀ p ∈ credentials.zip shapes, ∃ tail, IsPass p.1 tail p.2 :=
  forall_mem_zip_shapes.2 ⟨⟨_, isPass_scheme⟩, ⟨_, isPass_token isFamily_classic⟩,
    ⟨_, isPass_token isFamily_fineGrained⟩, ⟨_, isPass_assignment⟩⟩

theorem clears_shapes : ∀ p ∈ credentials.zip shapes, Clears p.1 p.2 := by
  refine forall_mem_zip_shapes.2 ⟨?_, ?_, ?_, ?_⟩
  · exact (seals_scheme isPass_scheme.mem_tails).clears hasCore_scheme isPass_scheme
  · have hf := isFamily_classic
    exact (seals_token_token hf).clears (hasCore_token hf) (isPass_token hf)
  · have hf := isFamily_fineGrained
    exact (seals_token_token hf).clears (hasCore_token hf) (isPass_token hf)
  · exact seals_assignment.clears hasCore_assignment isPass_assignment

theorem spares_scheme {P : Pattern} {tail : Text} {shape : Shape} (hp : IsPass P tail shape) :
    Spares schemePattern shape :=
  (seals_scheme hp.mem_tails).spares hasCore_scheme hp

theorem spares_shapes : (credentials.zip shapes).Pairwise fun p q => Spares p.1 q.2 := by
  have hclassic := isFamily_classic
  have hfine := isFamily_fineGrained
  simp only [credentials, shapes, List.zip_cons_cons, List.zip_nil_left, List.pairwise_cons,
    List.forall_mem_cons, List.not_mem_nil, false_imp_iff, implies_true, and_true, List.Pairwise.nil]
  refine ⟨⟨?_, ?_, ?_⟩, ⟨?_, ?_⟩, ?_⟩
  · exact spares_scheme (isPass_token hclassic)
  · exact spares_scheme (isPass_token hfine)
  · exact spares_scheme isPass_assignment
  · exact (seals_token_token hclassic).spares (hasCore_token hclassic) (isPass_token hfine)
  · exact (seals_token_assignment hclassic).spares (hasCore_token hclassic) isPass_assignment
  · exact (seals_token_assignment hfine).spares (hasCore_token hfine) isPass_assignment

theorem mask_eq (t : Text) : mask t = maskAll ((credentials.zip shapes).map Prod.snd) t := rfl

theorem free_mask (t : Text) : ∀ p ∈ credentials.zip shapes, Free p.1 none (mask t) := by
  rw [mask_eq]
  exact free_maskAll clears_shapes spares_shapes t

theorem mask_mask (t : Text) : mask (mask t) = mask t := by
  rw [mask_eq (mask t)]
  exact maskAll_of_free isPass_shapes (free_mask t)

/-- No credential is left in a masked text, and masking it once more changes nothing. -/
theorem not_occurs_mask (t : Text) :
    (∀ P ∈ credentials, ¬ Occurs P (mask t)) ∧ mask (mask t) = mask t := by
  have hpatterns : credentials = (credentials.zip shapes).map Prod.fst := rfl
  refine ⟨?_, mask_mask t⟩
  rw [hpatterns, List.forall_mem_map]
  intro p hp
  exact (free_mask t p hp).not_occurs

theorem not_occurs_mask_bearer :
    Occurs schemePattern "x Bearer abc".toList ∧
      ¬ Occurs schemePattern (mask "x Bearer abc".toList) := by
  have hmem : schemePattern ∈ credentials := List.mem_cons_self
  refine ⟨⟨"x ".toList, "Bearer abc".toList, rfl, "Bearer".toList, " abc".toList, [], rfl, ?_⟩,
    (not_occurs_mask _).1 schemePattern hmem⟩
  exact ⟨by decide, " ".toList, "abc".toList, rfl, by decide,
    Text.forall_mem_of_all (by decide), by decide, Text.forall_mem_of_all (by decide)⟩

-- The name is masked as the value of a scheme, so nothing is assigned to it any more.
example : mask "token secret: 'a'".toList = "token [REDACTED]: 'a'".toList := by decide

end PullGauge.Masking
