import Mathlib
import PullGauge.Proofs.Log.Patterns

/-!
# Replacing what matches a pattern

Masking reads a text from left to right and looks once at each stretch. What comes of it can match
again in two ways only: a stretch matches that was passed by, since what follows it has changed,
or a stretch that takes in a part of a replacement. The first is ruled out pattern by pattern. The
second never happens, because each pattern asks for characters that no replacement offers.
-/

namespace PullGauge.Masking

open Text (foldChar isAsciiLetter)

def Free (S : Pattern) : Option Char → Text → Prop
  | before, [] => ¬ OccursAt S before []
  | before, c :: t => ¬ OccursAt S before (c :: t) ∧ Free S (some c) t

theorem getLast?_cons_or (c : Char) (u : Text) (b : Option Char) :
    (c :: u).getLast?.or b = u.getLast?.or (some c) := by
  cases u with
  | nil => rfl
  | cons d u => simp [List.getLast?_cons]

section Free

variable {S : Pattern} {b : Option Char}

theorem Free.not_occursAt {a t : Text} (h : Free S b (a ++ t)) :
    ¬ OccursAt S (a.getLast?.or b) t := by
  induction a generalizing b with
  | nil =>
    cases t with
    | nil => exact h
    | cons c t => exact h.1
  | cons c a ih =>
    rw [getLast?_cons_or]
    exact ih h.2

theorem Free.not_occurs {t : Text} (h : Free S none t) : ¬ Occurs S t := by
  intro hocc
  obtain ⟨a, r, rfl, hr⟩ := hocc
  have := h.not_occursAt
  rw [Option.or_none] at this
  exact this hr

theorem Free.of_append {x t : Text} (h : Free S b (x ++ t)) : Free S (x.getLast?.or b) t := by
  induction x generalizing b with
  | nil => exact h
  | cons c x ih =>
    rw [getLast?_cons_or]
    exact ih h.2

theorem Free.append {x t : Text}
    (hx : ∀ v b', v <:+ x → v ≠ [] → ¬ OccursAt S b' (v ++ t)) (ht : Free S (x.getLast?.or b) t) :
    Free S b (x ++ t) := by
  induction x generalizing b with
  | nil => exact ht
  | cons c x ih =>
    rw [getLast?_cons_or] at ht
    exact ⟨hx (c :: x) b List.suffix_rfl (by simp),
      ih (fun v b' hv => hx v b' (hv.trans (List.suffix_cons c x))) ht⟩

end Free

/-- `o` is `t` with stretches that match `P` replaced by what is kept of them and a tail, and
where nothing is replaced `S` does not occur in `t`. -/
inductive Masks (S P : Pattern) (tail : Text) : Option Char → Text → Text → Prop where
  | nil {b : Option Char} (hs : ¬ OccursAt S b []) : Masks S P tail b [] []
  | keep {b : Option Char} {c : Char} {t o : Text} (hs : ¬ OccursAt S b (c :: t))
      (rest : Masks S P tail (some c) t o) : Masks S P tail b (c :: t) (c :: o)
  | replace {b : Option Char} {kept gone t o : Text} (hp : P b kept gone t.head?)
      (rest : Masks S P tail ((kept ++ gone).getLast?.or b) t o) :
      Masks S P tail b (kept ++ (gone ++ t)) (kept ++ (tail ++ o))

section Masks

variable {S P Q : Pattern} {tail : Text} {shape : Shape}

theorem maskFrom_length (shape : Shape) (b : Option Char) (x t : Text) :
    maskFrom shape b x.length (x ++ t) = maskFrom shape (x.getLast?.or b) 0 t := by
  induction x generalizing b with
  | nil => rfl
  | cons c x ih =>
    rw [getLast?_cons_or, ← ih]
    rfl

theorem Describes.not_occursAt_nil (hd : Describes P tail shape) (b : Option Char) :
    ¬ OccursAt P b [] := by
  rcases h : shape b [] with _ | ⟨n, out⟩
  · exact hd.of_none h
  · obtain ⟨kept, gone, rest, hparts, -, hne, -⟩ := hd.of_some h
    simp_all

theorem masks_maskFrom (hd : Describes P tail shape) (b : Option Char) (t : Text) :
    Masks P P tail b t (maskFrom shape b 0 t) := by
  induction hn : t.length using Nat.strongRecOn generalizing t b with
  | _ n ih =>
    cases t with
    | nil => exact .nil (hd.not_occursAt_nil b)
    | cons c t =>
      rcases h : shape b (c :: t) with _ | ⟨k, out⟩
      · have hmask : maskFrom shape b 0 (c :: t) = c :: maskFrom shape (some c) 0 t := by
          simp [maskFrom, h]
        rw [hmask]
        exact .keep (hd.of_none h) (ih _ (by simp [← hn]) (some c) t rfl)
      · obtain ⟨kept, gone, rest, hparts, hp, hne, rfl, rfl⟩ := hd.of_some h
        obtain ⟨x, hx⟩ : ∃ x, kept ++ gone = c :: x := by
          cases hk : kept ++ gone with
          | nil => simp_all
          | cons d x =>
            rw [← List.append_assoc, hk] at hparts
            exact ⟨x, by rw [(List.cons.inj hparts).1]⟩
        have ht : t = x ++ rest := by
          rw [← List.append_assoc, hx] at hparts
          exact (List.cons.inj hparts).2
        have hmask : maskFrom shape b 0 (c :: t) =
            kept ++ (tail ++ maskFrom shape ((kept ++ gone).getLast?.or b) 0 rest) := by
          rw [hx] at h
          rw [hx, getLast?_cons_or, ← maskFrom_length, ← ht]
          simp [maskFrom, h]
        rw [hmask, hparts]
        refine .replace hp (ih _ ?_ _ rest rfl)
        rw [← hn, ht]
        simp only [List.length_cons, List.length_append]
        omega

theorem maskFrom_of_free (hd : Describes P tail shape) {b : Option Char} {t : Text}
    (h : Free P b t) : maskFrom shape b 0 t = t := by
  induction t generalizing b with
  | nil => rfl
  | cons c t ih =>
    rcases hs : shape b (c :: t) with _ | ⟨k, out⟩
    · rw [maskFrom, hs, ih h.2]
    · obtain ⟨kept, gone, rest, hparts, hp, -⟩ := hd.of_some hs
      exact absurd ⟨kept, gone, rest, hparts, hp⟩ h.1

theorem Masks.of_free {b : Option Char} {t o : Text} (h : Masks Q P tail b t o) (hs : Free S b t) :
    Masks S P tail b t o := by
  induction h with
  | nil _ => exact .nil hs
  | keep _ _ ih => exact .keep hs.1 (ih hs.2)
  | replace hp _ ih =>
    rw [← List.append_assoc] at hs
    exact .replace hp (ih hs.of_append)

theorem Masks.eq_or_first {b : Option Char} {t o : Text} (h : Masks S P tail b t o) :
    t = o ∨ ∃ u kept gone t' o', t = u ++ (kept ++ (gone ++ t')) ∧
      o = u ++ (kept ++ (tail ++ o')) ∧ P (u.getLast?.or b) kept gone t'.head? := by
  induction h with
  | nil _ => exact .inl rfl
  | @keep b c t o _ _ ih =>
    rcases ih with rfl | ⟨u, kept, gone, t', o', rfl, rfl, hp⟩
    · exact .inl rfl
    · refine .inr ⟨c :: u, kept, gone, t', o', rfl, rfl, ?_⟩
      rwa [getLast?_cons_or]
  | @replace b kept gone t o hp _ _ => exact .inr ⟨[], kept, gone, t, o, rfl, rfl, hp⟩

end Masks

/-! ## Cores

What decides an occurrence is a stretch that no tail can take part in. -/

def tails : List Text := [" [REDACTED]", "[TOKEN_REDACTED]", ": [REDACTED]"]

theorem getLast?_of_mem_tails : ∀ tail ∈ tails, tail.getLast? = some ']' := by decide

theorem prefix_append_cases {p v s : Text} (h : p <+: v ++ s) :
    p <+: v ∨ ∃ y, y <+: s ∧ p = v ++ y := by
  rcases List.prefix_or_prefix_of_prefix h (List.prefix_append v s) with hp | ⟨y, rfl⟩
  · exact .inl hp
  · exact .inr ⟨y, (List.prefix_append_right_inj v).1 h, rfl⟩

theorem prefix_of_barrier {p v z : Text} {d : Char} (h : p <+: v ++ d :: z) (hd : d ∉ p) :
    p <+: v := by
  rcases prefix_append_cases h with hp | ⟨y, hy, rfl⟩
  · exact hp
  · cases y with
    | nil => simp
    | cons e y =>
      obtain rfl := (List.cons_prefix_cons.1 hy).1
      simp at hd

theorem prefix_of_getLast? {p v s : Text} (h : p <+: v ++ s) (hs : ∀ c ∈ p.getLast?, c ∉ s) :
    p <+: v := by
  rcases prefix_append_cases h with hp | ⟨y, hy, rfl⟩
  · exact hp
  · cases he : y.getLast? with
    | none => simp_all
    | some e => exact absurd (hy.subset (List.mem_of_getLast? he)) (hs e (by simp [he]))

theorem prefix_of_tail {tail p v z : Text} (ht : tail ∈ tails) (h : p <+: v ++ (tail ++ z))
    (hd : '[' ∉ p) (hl : ∀ c ∈ p.getLast?, c ≠ ' ' ∧ c ≠ ':') : p <+: v := by
  have hopen : ∃ s r, tail = s ++ '[' :: r ∧ ∀ c ∈ s, c = ' ' ∨ c = ':' := by
    simp only [tails, List.mem_cons, List.not_mem_nil, or_false] at ht
    rcases ht with rfl | rfl | rfl
    · exact ⟨[' '], "REDACTED]".toList, rfl, by simp⟩
    · exact ⟨[], "TOKEN_REDACTED]".toList, rfl, by simp⟩
    · exact ⟨[':', ' '], "REDACTED]".toList, rfl, by simp⟩
  obtain ⟨s, r, rfl, hs⟩ := hopen
  rw [List.append_assoc, List.cons_append, ← List.append_assoc] at h
  refine prefix_of_getLast? (prefix_of_barrier h hd) fun c hc hmem => ?_
  rcases hs c hmem with rfl | rfl
  · exact (hl _ hc).1 rfl
  · exact (hl _ hc).2 rfl

/-- Each occurrence of `S` begins with a text of `K`, which no tail can hold or go on. -/
structure HasCore (S : Pattern) (K : Text → Prop) : Prop where
  exists_core : ∀ {b t}, OccursAt S b t → ∃ p, K p ∧ p <+: t
  bracket : ∀ {p}, K p → '[' ∉ p ∧ ']' ∉ p
  last : ∀ {p}, K p → ∀ c ∈ p.getLast?, c ≠ ' ' ∧ c ≠ ':'
  notLetter : ∀ {p}, K p → ∃ c ∈ p, isAsciiLetter (foldChar c) = false
  not_prefix : ∀ {p tail v}, K p → tail ∈ tails → v <:+ tail → ¬ p <+: v

def KeepsLetters (P : Pattern) : Prop :=
  ∀ {b kept gone a}, P b kept gone a → ∀ c ∈ kept, isAsciiLetter (foldChar c) = true

/-- Masking by `P` cannot make `S` occur where it did not; `R` relates the characters before a
place that `S` takes for one another, given the one behind. -/
structure Seals (R : Option Char → Option Char → Option Char → Prop) (S P : Pattern)
    (tail : Text) : Prop where
  refl : ∀ b h, R b b h
  same : ∀ {b b' : Option Char} {o : Text}, R b b' o.head? → OccursAt S b' o → OccursAt S b o
  across : ∀ {b : Option Char} {u kept gone t o : Text}, P (u.getLast?.or b) kept gone t.head? →
    OccursAt S b (u ++ (kept ++ (tail ++ o))) → OccursAt S b (u ++ (kept ++ (gone ++ t)))
  edge : ∀ {b : Option Char} {kept gone t : Text}, P b kept gone t.head? →
    R ((kept ++ gone).getLast?.or b) (some ']') t.head?

section Residue

variable {S P : Pattern} {K : Text → Prop} {tail : Text}
  {R : Option Char → Option Char → Option Char → Prop}

theorem HasCore.prefix_of_tail (hk : HasCore S K) (ht : tail ∈ tails) {p v z : Text} (hp : K p)
    (h : p <+: v ++ (tail ++ z)) : p <+: v :=
  Masking.prefix_of_tail ht h (hk.bracket hp).1 (hk.last hp)

theorem HasCore.not_occursAt_kept (hk : HasCore S K) (ht : tail ∈ tails) {v o : Text}
    (hv : ∀ c ∈ v, isAsciiLetter (foldChar c) = true) (b : Option Char) :
    ¬ OccursAt S b (v ++ (tail ++ o)) := by
  intro h
  obtain ⟨p, hp, hpre⟩ := hk.exists_core h
  obtain ⟨c, hc, hlet⟩ := hk.notLetter hp
  have := hv c ((hk.prefix_of_tail ht hp hpre).subset hc)
  simp [hlet] at this

theorem HasCore.not_occursAt_tail (hk : HasCore S K) (ht : tail ∈ tails) {v o : Text}
    (hv : v <:+ tail) (hne : v ≠ []) (b : Option Char) : ¬ OccursAt S b (v ++ o) := by
  intro h
  obtain ⟨p, hp, hpre⟩ := hk.exists_core h
  have hclose := getLast?_of_mem_tails tail ht
  obtain ⟨w, rfl⟩ : ∃ w, v = w ++ [']'] := by
    obtain ⟨y, rfl⟩ := hv
    rw [List.getLast?_append_of_ne_nil _ hne] at hclose
    exact ⟨v.dropLast, by rw [List.dropLast_append_getLast? _ hclose]⟩
  rw [List.append_assoc] at hpre
  have hw := prefix_of_barrier hpre (hk.bracket hp).2
  exact hk.not_prefix hp ht hv (hw.trans (List.prefix_append w _))

/-- Where nothing is replaced an occurrence would be one of the original text; what is kept
holds letters only, and a tail is closed by a bracket. -/
theorem Masks.free (hk : HasCore S K) (ht : tail ∈ tails) (hl : KeepsLetters P)
    (hs : Seals R S P tail) {b b' : Option Char} {t o : Text} (h : Masks S P tail b t o)
    (hb : R b b' t.head?) : Free S b' o := by
  induction h generalizing b' with
  | nil hno => exact fun h => hno (hs.same hb h)
  | @keep b c t o hno rest ih =>
    refine ⟨fun h => ?_, ih (hs.refl _ _)⟩
    have hout : OccursAt S b (c :: o) := hs.same hb h
    rcases (Masks.keep hno rest).eq_or_first with heq | ⟨u, kept, gone, t', o', ht', ho', hp⟩
    · rw [heq] at hno
      exact hno hout
    · rw [ht'] at hno
      rw [ho'] at hout
      exact hno (hs.across hp hout)
  | @replace b kept gone t o hp rest ih =>
    refine Free.append (fun v b₁ hv hne => ?_) (Free.append (fun v b₁ hv hne => ?_) ?_)
    · exact hk.not_occursAt_kept ht (fun c hc => hl hp c (hv.subset hc)) b₁
    · exact hk.not_occursAt_tail ht hv hne b₁
    · rw [getLast?_of_mem_tails tail ht]
      exact ih (hs.edge hp)

end Residue

/-! ## One pass after the other -/

structure IsPass (P : Pattern) (tail : Text) (shape : Shape) : Prop where
  describes : Describes P tail shape
  mem_tails : tail ∈ tails
  letters : KeepsLetters P

def Clears (P : Pattern) (shape : Shape) : Prop := ∀ t, Free P none (maskFrom shape none 0 t)

def Spares (S : Pattern) (shape : Shape) : Prop :=
  ∀ t, Free S none t → Free S none (maskFrom shape none 0 t)

section Passes

variable {S P : Pattern} {K : Text → Prop} {tail : Text} {shape : Shape}
  {R : Option Char → Option Char → Option Char → Prop}

theorem Seals.clears (hs : Seals R P P tail) (hk : HasCore P K) (hp : IsPass P tail shape) :
    Clears P shape := by
  intro t
  exact (masks_maskFrom hp.describes none t).free hk hp.mem_tails hp.letters hs (hs.refl none _)

theorem Seals.spares (hs : Seals R S P tail) (hk : HasCore S K) (hp : IsPass P tail shape) :
    Spares S shape := by
  intro t h
  have hmasks := (masks_maskFrom hp.describes none t).of_free h
  exact hmasks.free hk hp.mem_tails hp.letters hs (hs.refl none _)

def maskAll (l : List Shape) (t : Text) : Text := l.foldl (fun t shape => maskFrom shape none 0 t) t

theorem Free.maskAll {l : List Shape} (hl : ∀ shape ∈ l, Spares S shape) {t : Text}
    (h : Free S none t) : Free S none (maskAll l t) := by
  induction l generalizing t with
  | nil => exact h
  | cons shape l ih =>
    rw [List.forall_mem_cons] at hl
    exact ih hl.2 (hl.1 t h)

theorem free_maskAll {l : List (Pattern × Shape)} (hclears : ∀ p ∈ l, Clears p.1 p.2)
    (hspares : l.Pairwise fun p q => Spares p.1 q.2) (t : Text) :
    ∀ p ∈ l, Free p.1 none (maskAll (l.map Prod.snd) t) := by
  induction l generalizing t with
  | nil => nofun
  | cons q l ih =>
    rw [List.forall_mem_cons] at hclears
    obtain ⟨hq, hl⟩ := List.pairwise_cons.1 hspares
    intro p hp
    rcases List.mem_cons.1 hp with rfl | hp
    · exact (hclears.1 t).maskAll (List.forall_mem_map.2 hq)
    · exact ih hclears.2 hl _ p hp

theorem maskAll_of_free {l : List (Pattern × Shape)} (hl : ∀ p ∈ l, ∃ tail, IsPass p.1 tail p.2)
    {t : Text} (h : ∀ p ∈ l, Free p.1 none t) : maskAll (l.map Prod.snd) t = t := by
  induction l with
  | nil => rfl
  | cons q l ih =>
    rw [List.forall_mem_cons] at hl h
    obtain ⟨tail, hp⟩ := hl.1
    change maskAll (l.map Prod.snd) (maskFrom q.2 none 0 t) = t
    rw [maskFrom_of_free hp.describes h.1]
    exact ih hl.2 h.2

end Passes

end PullGauge.Masking
