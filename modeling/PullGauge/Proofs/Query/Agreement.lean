import Mathlib
import PullGauge.Proofs.Query.Parts

/-!
# Written filters are accepted

A filter whose names are users and repositories and whose labels keep clear of what
validation objects to writes a query in which nothing is wrong. Validation takes the
comparisons out of its dates and leaves the rest alone, and a date without a comparison is
admitted but bounds nothing: what is left reads as the filter without its dates.
-/

namespace PullGauge

open Token (oddQuotes IsWord isParen)
open Validation (qualifierProblem? stripAngles problemsOf marker)
open ValueRule (isBareChar IsBareText)

namespace Bound

theorem exists_date_of_write {b : Bound} {w : Text} (h : b.write = .ok w) :
    ∃ d : Date, w = d.write := by
  cases b with
  | day d => exact ⟨d, (Except.ok.inj h).symm⟩
  | moment m =>
    cases hu : m.toUniversal? with
    | none => simp [write, hu] at h
    | some u =>
      simp only [write, hu] at h
      exact ⟨u.date, (Except.ok.inj h).symm⟩

end Bound

namespace Bounds

def writeDays (key : Text) : Option Bounds → Outcome (List Text)
  | none => .ok []
  | some b => do
    let start ← match b.start with
      | none => pure []
      | some d => do pure [key ++ ':' :: (← d.write)]
    let stop ← match b.stop with
      | none => pure []
      | some d => do pure [key ++ ':' :: (← d.write)]
    pure (start ++ stop)

def dayValues (first last : Option Date) : List Text :=
  first.toList.map Date.write ++ last.toList.map Date.write

theorem exists_dates_of_write {key : Text} {B : Option Bounds} {parts : List Text}
    (h : write key B = .ok parts) :
    ∃ first last : Option Date, parts = (endValues first last).map (Filter.writeValue key) ∧
      writeDays key B = .ok ((dayValues first last).map (Filter.writeValue key)) := by
  cases B with
  | none => exact ⟨none, none, (Except.ok.inj h).symm, rfl⟩
  | some b =>
    obtain ⟨start, stop⟩ := b
    cases start with
    | none =>
      cases stop with
      | none => exact ⟨none, none, (Except.ok.inj h).symm, rfl⟩
      | some e =>
        cases he : e.write with
        | error fault => simp [write, he] at h
        | ok w =>
          obtain ⟨d, rfl⟩ := Bound.exists_date_of_write he
          simp only [write, writeDays, he] at h ⊢
          exact ⟨none, some d, (Except.ok.inj h).symm, rfl⟩
    | some s =>
      cases hs : s.write with
      | error fault => simp [write, hs] at h
      | ok v =>
        obtain ⟨c, rfl⟩ := Bound.exists_date_of_write hs
        cases stop with
        | none =>
          simp only [write, writeDays, hs] at h ⊢
          exact ⟨some c, none, (Except.ok.inj h).symm, rfl⟩
        | some e =>
          cases he : e.write with
          | error fault => simp [write, hs, he] at h
          | ok w =>
            obtain ⟨d, rfl⟩ := Bound.exists_date_of_write he
            simp only [write, writeDays, hs, he] at h ⊢
            exact ⟨some c, some d, (Except.ok.inj h).symm, rfl⟩

theorem refine_day (b : Bounds) (d : Date) : refine b d.write = b := by
  have hmem (c : Char) (hc : c ∈ d.write) : c ≠ '>' ∧ c ≠ '<' ∧ c ≠ '.' := by
    have hall : ∀ c ∈ "0123456789-".toList, c ≠ '>' ∧ c ≠ '<' ∧ c ≠ '.' :=
      Text.forall_mem_of_all (by decide)
    exact hall c (Date.mem_of_mem_write hc)
  have hsplit : Text.splitAtFirst ['.', '.'] d.write = none := by
    cases hs : Text.splitAtFirst ['.', '.'] d.write with
    | none => rfl
    | some r =>
      have hdot : '.' ∈ d.write := by rw [Text.eq_of_splitAtFirst hs]; simp
      exact absurd rfl (hmem '.' hdot).2.2
  unfold refine
  rw [hsplit]
  dsimp only
  split
  · rename_i hw
    exact absurd rfl (hmem '>' (by rw [hw]; simp)).1
  · rename_i hw
    exact absurd rfl (hmem '<' (by rw [hw]; simp)).2.1
  · rfl

theorem ofValues_dayValues (first last : Option Date) : ofValues (dayValues first last) = none := by
  cases first with
  | none =>
    cases last with
    | none => rfl
    | some e => simp [ofValues, dayValues, refine_day, settle]
  | some d =>
    cases last with
    | none => simp [ofValues, dayValues, refine_day, settle]
    | some e => simp [ofValues, dayValues, refine_day, settle]

end Bounds

namespace Filter

def IsPlainPart (p : Text) : Prop :=
  p ≠ [] ∧ (∀ c ∈ p, isBareChar c = true ∨ c = ':') ∧
    ∃ q, Token.kindOf p = .qualifier q ∧ qualifierProblem? q = none

def IsQuietLabel (l : Text) : Prop :=
  '"' ∉ l ∧ ∀ o ∈ Validation.repeatedOperators, ¬ o <:+: l

theorem not_mem_of_isPlainPart {p : Text} (hp : IsPlainPart p) {c : Char}
    (hc : c ∈ "\"()<>&|!\n".toList) : c ∉ p := by
  intro hm
  have hmarks : ∀ d ∈ "\"()<>&|!\n".toList, d ∈ ValueRule.marks ∧ d ≠ ':' :=
    Text.forall_mem_of_all (by decide)
  rcases hp.2.1 c hm with hb | rfl
  · exact ValueRule.not_mem_marks hb (hmarks c hc).1
  · exact absurd rfl (hmarks ':' hc).2

theorem isBlank_of_mem_isPlainPart {p : Text} (hp : IsPlainPart p) {c : Char} (hc : c ∈ p) :
    Text.isBlank c = false := by
  rcases hp.2.1 c hc with hb | rfl
  · exact ValueRule.not_isBlank_of_isBareChar hb
  · decide

theorem IsPlainPart.isPlain {p : Text} (hp : IsPlainPart p) : p.IsPlain := by
  intro c hc
  have hne {d : Char} (hd : d ∈ "\"()<>&|!\n".toList) : c ≠ d := by
    rintro rfl
    exact not_mem_of_isPlainPart hp hd hc
  refine ⟨hne (by decide), ?_⟩
  rw [Token.isSeparator, isBlank_of_mem_isPlainPart hp hc, isParen]
  have hl : c ≠ '(' := hne (by decide)
  have hr : c ≠ ')' := hne (by decide)
  simp [hl, hr]

theorem IsPlainPart.isPart {p : Text} (hp : IsPlainPart p) : IsPart p :=
  ⟨⟨hp.1, holds_of_isPlain hp.isPlain⟩,
    Token.oddQuotes_of_not_mem (not_mem_of_isPlainPart hp (by decide))⟩

theorem IsPlainPart.filter_isParen {p : Text} (hp : IsPlainPart p) : p.filter isParen = [] := by
  rw [List.filter_eq_nil_iff]
  intro c hc hparen
  have := Token.isSeparator_of_isParen hparen
  rw [(hp.isPlain c hc).2] at this
  exact absurd this (by decide)

def IsJudged (rule : ValueRule) (key : Text) : Prop :=
  Token.IsKey key ∧ key.all isBareChar = true ∧ Validation.supportedKeys.contains key = true ∧
    ValueRule.ofKey? key = some rule

instance (rule : ValueRule) (key : Text) : Decidable (IsJudged rule key) :=
  inferInstanceAs (Decidable (_ ∧ _ ∧ _ ∧ _))

theorem isPlainPart_writeValue {rule : ValueRule} {key v : Text} (hk : IsJudged rule key)
    (hv : IsBareText v) (hr : rule.allows v = true) : IsPlainPart (writeValue key v) := by
  obtain ⟨hkey, hb, hs, ho⟩ := hk
  refine ⟨by simp [writeValue], fun c hc => ?_, ⟨key, v, false⟩, Token.kindOf_writeValue hkey v, ?_⟩
  · rw [writeValue, List.mem_append, List.mem_cons] at hc
    rcases hc with hc | rfl | hc
    · exact .inl (List.all_eq_true.1 hb c hc)
    · exact .inr rfl
    · exact .inl (hv.2 c hc)
  · have hvalue : Qualifier.value ⟨key, v, false⟩ = v := Qualifier.value_of_isPlain hv.isBare.2
    unfold qualifierProblem?
    rw [if_pos hs, hvalue, if_neg (by simpa using hv.1), ho]
    simp [hr]

theorem isPlainPart_user {key v : Text} (hk : IsJudged .user key)
    (hv : ValueRule.isUser v = true) : IsPlainPart (writeValue key v) :=
  isPlainPart_writeValue hk (ValueRule.isBareText_of_isUser hv)
    (by simp [ValueRule.allows, ValueRule.fits, hv])

theorem isPlainPart_repository {v : Text}
    (hv : ValueRule.isPair ValueRule.isDottedName v = true) : IsPlainPart (writeValue "repo" v) :=
  @isPlainPart_writeValue .repository _ _ (by decide) (ValueRule.isBareText_of_isPair hv)
    (by simp [ValueRule.allows, ValueRule.fits, hv])

theorem isDay_write (d : Date) : ValueRule.isDay d.write = true := by
  obtain ⟨hy, hm, hd⟩ := d.fields_lt
  have hdigit {n : Nat} (hn : n < 10) : Text.isDigit n.digitChar = true := by
    have hall : ∀ k < 10, Text.isDigit (Nat.digitChar k) = true := by decide
    exact hall n hn
  have htwo {n : Nat} (hn : n < 10 ^ 2) :
      Text.padZeros 2 (Text.ofNat n) = [(n / 10).digitChar, (n % 10).digitChar] := by
    rw [Text.padZeros_ofNat_succ (by decide), Text.padZeros_ofNat_of_lt (by omega)]
    rfl
  have hfour : Text.padZeros 4 (Text.ofNat d.year) =
      [(d.year / 10 / 10 / 10).digitChar, (d.year / 10 / 10 % 10).digitChar,
        (d.year / 10 % 10).digitChar, (d.year % 10).digitChar] := by
    rw [Text.padZeros_ofNat_succ (by decide), Text.padZeros_ofNat_succ (by decide), htwo (by omega)]
    rfl
  rw [Date.write, hfour, htwo hm, htwo hd]
  simp only [List.cons_append, List.nil_append, ValueRule.isDay, List.all_cons, List.all_nil,
    Bool.and_true, Bool.and_eq_true]
  refine ⟨?_, ?_, ?_, ?_, ?_, ?_, ?_, ?_⟩ <;> exact hdigit (by omega)

theorem isBareText_write (d : Date) : IsBareText d.write := by
  have hall : ∀ c ∈ "0123456789-".toList, isBareChar c = true := Text.forall_mem_of_all (by decide)
  refine ⟨fun h => ?_, fun c hc => hall c (Date.mem_of_mem_write hc)⟩
  have hl := d.length_write
  simp [h] at hl

theorem isPlainPart_date {key : Text} (hk : IsJudged .date key) (d : Date) :
    IsPlainPart (writeValue key d.write) :=
  isPlainPart_writeValue hk (isBareText_write d)
    (by simp [ValueRule.allows, ValueRule.fits, ValueRule.isRangeOf, isDay_write])

theorem isPlainPart_state {f : Filter} (hf : ∀ w, f.state ≠ .other w) {p : Text}
    (hp : p ∈ if f.state = .all then [] else [writeValue "is" f.state.word]) : IsPlainPart p := by
  have hword {w : Text} (hw : w ∈ ["open".toList, "closed".toList, "merged".toList]) :
      IsPlainPart (writeValue "is" w) := by
    have hbare : ∀ w ∈ ["open".toList, "closed".toList, "merged".toList],
        w ≠ [] ∧ w.all isBareChar = true ∧ ValueRule.allows .category w = true := by decide
    obtain ⟨hne, hc, hr⟩ := hbare w hw
    exact @isPlainPart_writeValue .category _ _ (by decide) ⟨hne, List.all_eq_true.1 hc⟩ hr
  cases hs : f.state with
  | all => simp [hs] at hp
  | other w => exact absurd hs (hf w)
  | opened =>
    rw [hs, if_neg (by decide), List.mem_singleton] at hp
    exact hp ▸ hword (by decide)
  | closed =>
    rw [hs, if_neg (by decide), List.mem_singleton] at hp
    exact hp ▸ hword (by decide)
  | merged =>
    rw [hs, if_neg (by decide), List.mem_singleton] at hp
    exact hp ▸ hword (by decide)

theorem isPlainPart_of_decide {p : Text} {q : Qualifier} (hne : p ≠ [])
    (hc : (p.all fun c => decide (isBareChar c = true ∨ c = ':')) = true)
    (hk : Token.kindOf p = .qualifier q) (hq : qualifierProblem? q = none) : IsPlainPart p :=
  ⟨hne, Text.forall_mem_of_all hc, q, hk, hq⟩

theorem isPlainPart_draft {f : Filter} {p : Text}
    (hp : p ∈ match f.draft with
      | some true => ["is:draft".toList]
      | some false => ["-is:draft".toList]
      | none => []) : IsPlainPart p := by
  rcases hd : f.draft with _ | _ | _
  · simp [hd] at hp
  · rw [hd, List.mem_singleton] at hp
    rw [hp]
    exact @isPlainPart_of_decide _ ⟨"is", "draft", true⟩ (by decide) (by decide) (by decide) (by decide)
  · rw [hd, List.mem_singleton] at hp
    rw [hp]
    exact @isPlainPart_of_decide _ ⟨"is", "draft", false⟩ (by decide) (by decide) (by decide) (by decide)

theorem isPlainPart_marker : IsPlainPart marker :=
  @isPlainPart_of_decide _ ⟨"is", "pr", false⟩ (by decide) (by decide) (by decide) (by decide)

/-- What validation has nothing against once it is written: users, repositories, and labels
that can stand between quotes, double no operator, hold no angle bracket and balance their
parentheses. -/
structure IsAdmissible (f : Filter) : Prop where
  state : ∀ w, f.state ≠ .other w
  authors : ∀ v ∈ f.authors, ValueRule.isUser v = true
  reviewers : ∀ v ∈ f.reviewers, ValueRule.isUser v = true
  repositories : ∀ v ∈ f.repositories, ValueRule.isPair ValueRule.isDottedName v = true
  labels : ∀ l ∈ f.labels, l ≠ [] ∧ '"' ∉ l ∧ '<' ∉ l ∧ '>' ∉ l ∧
    ¬ "&&".toList <:+: l ∧ ¬ "||".toList <:+: l ∧ ¬ "!!".toList <:+: l
  assignees : ∀ v ∈ f.assignees, ValueRule.isUser v = true
  involves : ∀ v ∈ f.involves, ValueRule.isUser v = true
  balanced : Validation.balanced f.labels.flatten = true

def leading (f : Filter) : List Text :=
  marker :: f.authors.map (writeValue "author") ++ f.reviewers.map (writeValue "reviewed-by") ++
    f.repositories.map (writeValue "repo")

def trailing (f : Filter) : List Text :=
  f.assignees.map (writeValue "assignee") ++ f.involves.map (writeValue "involves") ++
    (if f.state = .all then [] else [writeValue "is" f.state.word]) ++
    (match f.draft with
     | some true => ["is:draft".toList]
     | some false => ["-is:draft".toList]
     | none => [])

theorem plainParts_eq (f : Filter) :
    f.plainParts = f.leading ++ f.labels.map writeLabel ++ f.trailing := by
  rcases hd : f.draft with _ | _ | _ <;>
    simp [plainParts, leading, trailing, marker, List.append_assoc, hd]

theorem isPlainPart_of_mem_leading {f : Filter} (hf : f.IsAdmissible) {p : Text}
    (hp : p ∈ f.leading) : IsPlainPart p := by
  simp only [leading, List.cons_append, List.mem_cons, List.mem_append, List.mem_map] at hp
  rcases hp with rfl | (⟨v, hv, rfl⟩ | ⟨v, hv, rfl⟩) | ⟨v, hv, rfl⟩
  · exact isPlainPart_marker
  · exact isPlainPart_user (by decide) (hf.authors v hv)
  · exact isPlainPart_user (by decide) (hf.reviewers v hv)
  · exact isPlainPart_repository (hf.repositories v hv)

theorem isPlainPart_of_mem_trailing {f : Filter} (hf : f.IsAdmissible) {p : Text}
    (hp : p ∈ f.trailing) : IsPlainPart p := by
  simp only [trailing, List.mem_append] at hp
  rcases hp with ((hp | hp) | hp) | hp
  · obtain ⟨v, hv, rfl⟩ := List.mem_map.1 hp
    exact isPlainPart_user (by decide) (hf.assignees v hv)
  · obtain ⟨v, hv, rfl⟩ := List.mem_map.1 hp
    exact isPlainPart_user (by decide) (hf.involves v hv)
  · exact isPlainPart_state hf.state hp
  · exact isPlainPart_draft hp

theorem kindOf_writeLabel (l : Text) : Token.kindOf (writeLabel l) = .qualifier (Qualifier.label l) :=
  @Token.kindOf_writeValue "label".toList (by decide) ('"' :: l ++ ['"'])

theorem qualifierProblem?_label (l : Text) : qualifierProblem? (Qualifier.label l) = none := by
  have hs : Validation.supportedKeys.contains (Qualifier.label l).key = true :=
    (by decide : Validation.supportedKeys.contains "label".toList = true)
  have ho : ValueRule.ofKey? (Qualifier.label l).key = none :=
    (by decide : ValueRule.ofKey? "label".toList = none)
  unfold qualifierProblem?
  rw [if_pos hs, ho]
  split <;> rfl

@[simp] theorem writeLabel_ne_nil (l : Text) : writeLabel l ≠ [] := by
  rw [writeLabel_eq]
  simp

theorem isPart_writeLabel {l : Text} (hl : '"' ∉ l) : IsPart (writeLabel l) := by
  refine ⟨⟨writeLabel_ne_nil l, ?_⟩, oddQuotes_writeLabel hl⟩
  have hlabel : oddQuotes "label:".toList = false := by decide
  have hheld : Token.holds false "label:".toList = true := by decide
  rw [writeLabel_eq, Token.holds_append, hheld, hlabel, Token.holds, Token.holds_append]
  simp [Token.holds_of_not_mem hl, Token.oddQuotes_of_not_mem hl, Token.holds]

def IsQuietPart (p : Text) : Prop := IsPlainPart p ∨ ∃ l, IsQuietLabel l ∧ p = writeLabel l

theorem IsQuietPart.isPart {p : Text} (hp : IsQuietPart p) : IsPart p := by
  rcases hp with hp | ⟨l, hl, rfl⟩
  · exact hp.isPart
  · exact isPart_writeLabel hl.1

theorem IsQuietPart.exists_qualifier {p : Text} (hp : IsQuietPart p) :
    ∃ q, Token.kindOf p = .qualifier q ∧ qualifierProblem? q = none := by
  rcases hp with hp | ⟨l, -, rfl⟩
  · exact hp.2.2
  · exact ⟨_, kindOf_writeLabel l, qualifierProblem?_label l⟩

theorem IsQuietPart.not_doubled {p : Text} (hp : IsQuietPart p) {c : Char}
    (hc : c ∈ "&|!".toList) : ¬ [c, c] <:+: p := by
  rcases hp with hp | ⟨l, hl, rfl⟩
  · have hmarks : ∀ d ∈ "&|!".toList, d ∈ "\"()<>&|!\n".toList := Text.forall_mem_of_all (by decide)
    exact fun hi => not_mem_of_isPlainPart hp (hmarks c hc) (hi.subset (by simp))
  · have hne : '"' ≠ c := by
      rintro rfl
      exact absurd hc (by decide)
    have hlabel : ∀ d ∈ "&|!".toList, ¬ [d, d] <:+: "label:".toList :=
      Text.forall_mem_of_all (by decide)
    have hoperator : ∀ d ∈ "&|!".toList, [d, d] ∈ Validation.repeatedOperators :=
      Text.forall_mem_of_all (by decide)
    rw [writeLabel_eq, doubled_infix_append_cons hne, doubled_infix_append_cons hne]
    rintro (hi | hi | hi)
    · exact hlabel c hc hi
    · exact hl.2 _ (hoperator c hc) hi
    · simp at hi

theorem problemsOf_joined {parts : List Text} (h : ∀ p ∈ parts, IsQuietPart p)
    (hb : Validation.balanced (parts.flatMap (List.filter isParen)) = true) :
    problemsOf (joined parts) = [] := by
  have hkinds := kinds_joined fun p hp => (h p hp).isPart
  have hkind (k : Token) (hk : k ∈ tokenize (joined parts)) :
      ∃ q, k.kind = .qualifier q ∧ qualifierProblem? q = none := by
    have hmem : k.kind ∈ parts.map Token.kindOf := hkinds ▸ List.mem_map_of_mem hk
    obtain ⟨p, hp, hpk⟩ := List.mem_map.1 hmem
    rw [← hpk]
    exact (h p hp).exists_qualifier
  have hquotes : (joined parts).count '"' % 2 = 0 := by
    have := oddQuotes_joined fun p hp => (h p hp).isPart.2
    simp only [oddQuotes, decide_eq_false_iff_not] at this
    omega
  have hbalanced : Validation.balanced (joined parts) = true := by
    rw [← Validation.balanced_filter, filter_joined_flatMap (by decide), hb]
  have hdoubled : Validation.repeatedOperators.filter (fun o => Text.has o (joined parts)) = [] := by
    have hform : Validation.repeatedOperators = "&|!".toList.map fun c => [c, c] := by decide
    rw [List.filter_eq_nil_iff, hform]
    intro o ho
    obtain ⟨c, hc, rfl⟩ := List.mem_map.1 ho
    have hblank : ' ' ≠ c := by
      rintro rfl
      exact absurd hc (by decide)
    rw [Text.has_iff]
    exact not_infix_joined (by simp) (by simpa using hblank) fun p hp => (h p hp).not_doubled hc
  have hoperators : (tokenize (joined parts)).any Validation.isMiscased = false := by
    rw [List.any_eq_false]
    intro k hk
    obtain ⟨q, hq, -⟩ := hkind k hk
    simp [Validation.isMiscased, hq]
  have hqualifiers : Validation.qualifierProblems (tokenize (joined parts)) = [] := by
    rw [Validation.qualifierProblems, List.filterMap_eq_nil_iff]
    intro q hq
    obtain ⟨k, hk, hkq⟩ := List.mem_filterMap.1 hq
    obtain ⟨r, hr, hproblem⟩ := hkind k hk
    rw [Token.asQualifier?, hr] at hkq
    obtain rfl := Option.some.inj hkq
    exact hproblem
  simp [problemsOf, Validation.shapeProblems, Validation.operatorProblems, hquotes, hbalanced,
    hdoubled, hoperators, hqualifiers]

theorem stripAngles_of_isPlainPart {p : Text} (hp : IsPlainPart p) : stripAngles p = p :=
  Validation.stripAngles_of_not_mem (not_mem_of_isPlainPart hp (by decide))
    (not_mem_of_isPlainPart hp (by decide))

theorem stripAngles_writeLabel {l : Text} (hl : '<' ∉ l) (hr : '>' ∉ l) :
    stripAngles (writeLabel l) = writeLabel l := by
  refine List.filter_eq_self.2 fun c hc => ?_
  have hc : c ∈ "label:\"".toList ∨ c ∈ l := by
    simp only [writeLabel_eq, List.mem_append, List.mem_cons] at hc
    rcases hc with hc | rfl | hc | hc
    · exact .inl (List.mem_append_left ['"'] hc)
    · exact .inl (by decide)
    · exact .inr hc
    · rcases hc with rfl | hc
      · exact .inl (by decide)
      · simp at hc
  rcases hc with hc | hc
  · have hall : ∀ d ∈ "label:\"".toList, (d != '<' && d != '>') = true :=
      Text.forall_mem_of_all (by decide)
    exact hall c hc
  · have hnl : c ≠ '<' := by
      rintro rfl
      exact hl hc
    have hnr : c ≠ '>' := by
      rintro rfl
      exact hr hc
    simp [hnl, hnr]

theorem stripAngles_write (d : Date) : stripAngles d.write = d.write := by
  have hall : ∀ c ∈ "0123456789-".toList, (c != '<' && c != '>') = true :=
    Text.forall_mem_of_all (by decide)
  exact List.filter_eq_self.2 fun c hc => hall c (Date.mem_of_mem_write hc)

theorem stripAngles_writeValue_cons {key : Text} (hk : stripAngles key = key) {c : Char}
    (hc : (c != '<' && c != '>') = false) (d : Date) :
    stripAngles (writeValue key (c :: d.write)) = writeValue key d.write := by
  have happend : stripAngles (writeValue key (c :: d.write)) =
      stripAngles key ++ ':' :: stripAngles d.write := by
    simp [stripAngles, writeValue, List.filter_append, hc]
  rw [happend, hk, stripAngles_write]
  rfl

theorem stripAngles_endValues {key : Text} (hk : stripAngles key = key) (first last : Option Date) :
    ((Bounds.endValues first last).map (writeValue key)).map stripAngles =
      (Bounds.dayValues first last).map (writeValue key) := by
  have hl (d : Date) := @stripAngles_writeValue_cons key hk '<' (by decide) d
  have hr (d : Date) := @stripAngles_writeValue_cons key hk '>' (by decide) d
  simp [Bounds.endValues, Bounds.dayValues, Function.comp_def, hl, hr]

def writeBare (f : Filter) : Outcome Text := do
  let created ← Bounds.writeDays "created" f.created
  let updated ← Bounds.writeDays "updated" f.updated
  pure (List.intercalate [' '] (f.plainParts ++ created ++ updated))

theorem exists_parts_of_write {f : Filter} {t : Text} (h : f.write = .ok t) :
    ∃ c₁ c₂ u₁ u₂ : Option Date,
      t = joined (f.plainParts ++ (Bounds.endValues c₁ c₂).map (writeValue "created") ++
        (Bounds.endValues u₁ u₂).map (writeValue "updated")) ∧
      f.writeBare = .ok (joined (f.plainParts ++
        (Bounds.dayValues c₁ c₂).map (writeValue "created") ++
        (Bounds.dayValues u₁ u₂).map (writeValue "updated"))) := by
  obtain ⟨c, hc, h⟩ := Outcome.exists_of_bind h
  obtain ⟨u, hu, h⟩ := Outcome.exists_of_bind h
  obtain ⟨c₁, c₂, rfl, hcd⟩ := Bounds.exists_dates_of_write hc
  obtain ⟨u₁, u₂, rfl, hud⟩ := Bounds.exists_dates_of_write hu
  refine ⟨c₁, c₂, u₁, u₂, (Except.ok.inj h).symm, ?_⟩
  rw [writeBare, hcd, hud]
  rfl

def undated (f : Filter) : Filter := { f with created := none, updated := none }

theorem IsAdmissible.survives_undated {f : Filter} (hf : f.IsAdmissible) : f.undated.Survives where
  authors v hv := (ValueRule.isBareText_of_isUser (hf.authors v hv)).isBare
  reviewers v hv := (ValueRule.isBareText_of_isUser (hf.reviewers v hv)).isBare
  repositories v hv := (ValueRule.isBareText_of_isPair (hf.repositories v hv)).isBare
  labels l hl := ⟨(hf.labels l hl).1, (hf.labels l hl).2.1⟩
  assignees v hv := (ValueRule.isBareText_of_isUser (hf.assignees v hv)).isBare
  involves v hv := (ValueRule.isBareText_of_isUser (hf.involves v hv)).isBare
  created := nofun
  updated := nofun

theorem IsAdmissible.isDated_undated {f : Filter} (hf : f.IsAdmissible) : f.undated.IsDated :=
  ⟨hf.state, fun _ => nofun, fun _ => nofun⟩

theorem IsAdmissible.isQuietLabel {f : Filter} (hf : f.IsAdmissible) {l : Text} (hl : l ∈ f.labels) :
    IsQuietLabel l := by
  obtain ⟨-, hq, -, -, hand, hor, hnot⟩ := hf.labels l hl
  refine ⟨hq, fun o ho => ?_⟩
  simp only [Validation.repeatedOperators, List.mem_cons, List.not_mem_nil, or_false] at ho
  rcases ho with rfl | rfl | rfl
  · exact hand
  · exact hor
  · exact hnot

theorem plainParts_cases {f : Filter} (hf : f.IsAdmissible) {p : Text} (hp : p ∈ f.plainParts) :
    IsPlainPart p ∨ ∃ l ∈ f.labels, p = writeLabel l := by
  rw [plainParts_eq, List.mem_append, List.mem_append] at hp
  rcases hp with (hp | hp) | hp
  · exact .inl (isPlainPart_of_mem_leading hf hp)
  · obtain ⟨l, hl, rfl⟩ := List.mem_map.1 hp
    exact .inr ⟨l, hl, rfl⟩
  · exact .inl (isPlainPart_of_mem_trailing hf hp)

theorem isPlainPart_of_mem_dayValues {key : Text} (hk : IsJudged .date key)
    {first last : Option Date} {p : Text}
    (hp : p ∈ (Bounds.dayValues first last).map (writeValue key)) : IsPlainPart p := by
  obtain ⟨v, hv, rfl⟩ := List.mem_map.1 hp
  simp only [Bounds.dayValues, List.mem_append, List.mem_map] at hv
  rcases hv with ⟨d, -, rfl⟩ | ⟨d, -, rfl⟩
  · exact isPlainPart_date hk d
  · exact isPlainPart_date hk d

theorem isQuietPart_of_mem_parts {f : Filter} (hf : f.IsAdmissible) {c₁ c₂ u₁ u₂ : Option Date}
    {p : Text} (hp : p ∈ f.plainParts ++ (Bounds.dayValues c₁ c₂).map (writeValue "created") ++
      (Bounds.dayValues u₁ u₂).map (writeValue "updated")) : IsQuietPart p := by
  rw [List.mem_append, List.mem_append] at hp
  rcases hp with (hp | hp) | hp
  · rcases plainParts_cases hf hp with hp | ⟨l, hl, rfl⟩
    · exact .inl hp
    · exact .inr ⟨l, hf.isQuietLabel hl, rfl⟩
  · exact .inl (isPlainPart_of_mem_dayValues (by decide) hp)
  · exact .inl (isPlainPart_of_mem_dayValues (by decide) hp)

theorem filter_isParen_writeLabel (l : Text) :
    (writeLabel l).filter isParen = l.filter isParen := by
  have hlabel : "label:".toList.filter isParen = [] := by decide
  have hquote : isParen '"' = false := by decide
  rw [writeLabel_eq, List.filter_append, hlabel, List.filter_cons_of_neg (by simp [hquote]),
    List.filter_append, List.filter_cons_of_neg (by simp [hquote])]
  simp

theorem flatMap_filter_isParen {f : Filter} (hf : f.IsAdmissible) (c₁ c₂ u₁ u₂ : Option Date) :
    (f.plainParts ++ (Bounds.dayValues c₁ c₂).map (writeValue "created") ++
      (Bounds.dayValues u₁ u₂).map (writeValue "updated")).flatMap (List.filter isParen) =
      f.labels.flatten.filter isParen := by
  have hplain {ps : List Text} (h : ∀ p ∈ ps, IsPlainPart p) :
      ps.flatMap (List.filter isParen) = [] :=
    List.flatMap_eq_nil_iff.2 fun p hp => (h p hp).filter_isParen
  have hlabels : (f.labels.map writeLabel).flatMap (List.filter isParen) =
      f.labels.flatten.filter isParen := by
    rw [List.flatMap_map, List.filter_flatten, List.flatMap]
    exact congrArg List.flatten (List.map_congr_left fun l _ => filter_isParen_writeLabel l)
  rw [List.flatMap_append, List.flatMap_append, plainParts_eq, List.flatMap_append,
    List.flatMap_append, hplain fun p hp => isPlainPart_of_mem_leading hf hp,
    hplain fun p hp => isPlainPart_of_mem_trailing hf hp,
    hplain fun p hp => isPlainPart_of_mem_dayValues (by decide) hp,
    hplain fun p hp => isPlainPart_of_mem_dayValues (by decide) hp, hlabels]
  simp

theorem problemsOf_parts {f : Filter} (hf : f.IsAdmissible) (c₁ c₂ u₁ u₂ : Option Date) :
    problemsOf (joined (f.plainParts ++ (Bounds.dayValues c₁ c₂).map (writeValue "created") ++
      (Bounds.dayValues u₁ u₂).map (writeValue "updated"))) = [] := by
  refine problemsOf_joined (fun p hp => isQuietPart_of_mem_parts hf hp) ?_
  rw [flatMap_filter_isParen hf, Validation.balanced_filter, hf.balanced]

theorem stripAngles_joined (parts : List Text) :
    stripAngles (joined parts) = joined (parts.map stripAngles) :=
  filter_joined (by decide) parts

theorem stripAngles_parts {f : Filter} (hf : f.IsAdmissible) (c₁ c₂ u₁ u₂ : Option Date) :
    stripAngles (joined (f.plainParts ++ (Bounds.endValues c₁ c₂).map (writeValue "created") ++
      (Bounds.endValues u₁ u₂).map (writeValue "updated"))) =
      joined (f.plainParts ++ (Bounds.dayValues c₁ c₂).map (writeValue "created") ++
        (Bounds.dayValues u₁ u₂).map (writeValue "updated")) := by
  have hplain : f.plainParts.map stripAngles = f.plainParts := by
    refine (List.map_congr_left fun p hp => ?_).trans (List.map_id _)
    rcases plainParts_cases hf hp with hp | ⟨l, hl, rfl⟩
    · exact stripAngles_of_isPlainPart hp
    · obtain ⟨-, -, hlt, hgt, -⟩ := hf.labels l hl
      exact stripAngles_writeLabel hlt hgt
  rw [stripAngles_joined, List.map_append, List.map_append, hplain,
    stripAngles_endValues (by decide), stripAngles_endValues (by decide)]

theorem isEdged_writeLabel (l : Text) : IsEdged (writeLabel l) := by
  have hquote : Text.isBlank '"' = false := by decide
  have hhead : Text.isBlank 'l' = false := by decide
  refine ⟨writeLabel_ne_nil l, ?_, ?_⟩
  · rintro c ⟨⟩
    exact hhead
  · intro c hc
    have hlast : (writeLabel l).getLast? = some '"' :=
      List.getLast?_concat (l := "label:".toList ++ '"' :: l)
    rw [hlast] at hc
    obtain rfl := Option.some.inj hc
    exact hquote

theorem isEdged_writeValue {key v : Text} (hk : key.IsPlain) (hv : v.IsPlain) :
    IsEdged (writeValue key v) := by
  refine isEdged_of_isPlain (by simp [writeValue]) fun c hc => ?_
  rw [writeValue, List.mem_append, List.mem_cons] at hc
  rcases hc with hc | rfl | hc
  · exact hk c hc
  · decide
  · exact hv c hc

theorem isEdged_parts {f : Filter} (hf : f.IsAdmissible) (c₁ c₂ u₁ u₂ : Option Date) :
    IsEdged (joined (f.plainParts ++ (Bounds.endValues c₁ c₂).map (writeValue "created") ++
      (Bounds.endValues u₁ u₂).map (writeValue "updated"))) := by
  refine isEdged_joined (by simp [plainParts]) fun p hp => ?_
  rw [List.mem_append, List.mem_append] at hp
  rcases hp with (hp | hp) | hp
  · rcases plainParts_cases hf hp with hp | ⟨l, -, rfl⟩
    · exact isEdged_of_isPlain hp.1 hp.isPlain
    · exact isEdged_writeLabel l
  · obtain ⟨v, hv, rfl⟩ := List.mem_map.1 hp
    exact isEdged_writeValue (by decide) (Bounds.isPlain_endValues hv).2
  · obtain ⟨v, hv, rfl⟩ := List.mem_map.1 hp
    exact isEdged_writeValue (by decide) (Bounds.isPlain_endValues hv).2

theorem has_marker_parts (f : Filter) (parts : List Text) :
    Text.has marker (joined (f.plainParts ++ parts)) = true :=
  Text.has_iff.2 (prefix_joined marker _).isInfix

theorem read_parts {f : Filter} (hf : f.IsAdmissible) (c₁ c₂ u₁ u₂ : Option Date) :
    read (joined (f.plainParts ++ (Bounds.dayValues c₁ c₂).map (writeValue "created") ++
      (Bounds.dayValues u₁ u₂).map (writeValue "updated"))) = f.undated := by
  have hplain {first last : Option Date} {v : Text} (hv : v ∈ Bounds.dayValues first last) :
      v.IsPlain := by
    simp only [Bounds.dayValues, List.mem_append, List.mem_map] at hv
    rcases hv with ⟨d, -, rfl⟩ | ⟨d, -, rfl⟩
    · exact (isBareText_write d).isBare.2
    · exact (isBareText_write d).isBare.2
  have hq := qualifiersIn_parts hf.isDated_undated hf.survives_undated
    (fun v (hv : v ∈ Bounds.dayValues c₁ c₂) => hplain hv)
    (fun v (hv : v ∈ Bounds.dayValues u₁ u₂) => hplain hv)
  rw [read_eq_ofQualifiers]
  refine (congrArg ofQualifiers hq).trans ?_
  exact ofQualifiers_toQualifiers hf.isDated_undated hf.survives_undated
    (fun v hv => hplain hv) (fun v hv => hplain hv)
    (Bounds.ofValues_dayValues c₁ c₂) (Bounds.ofValues_dayValues u₁ u₂)

/-- Nothing is wrong with a written filter that fits the length of a query, and all that
sanitizing it takes away is its dates. -/
theorem ofQuery_write {f : Filter} (hf : f.IsAdmissible) {t : Text} (hw : f.write = .ok t)
    (hl : t.length ≤ Validation.lengthLimit) :
    ∃ s, f.writeBare = .ok s ∧ Validation.ofQuery t = ⟨s, [], [], true⟩ ∧ read s = f.undated := by
  obtain ⟨c₁, c₂, u₁, u₂, rfl, hb⟩ := exists_parts_of_write hw
  refine ⟨_, hb, ?_, read_parts hf c₁ c₂ u₁ u₂⟩
  have hedged := isEdged_parts hf c₁ c₂ u₁ u₂
  have hstrip := stripAngles_parts hf c₁ c₂ u₁ u₂
  have hproblems := problemsOf_parts hf c₁ c₂ u₁ u₂
  have hmarker : Text.has marker (joined (f.plainParts ++
      (Bounds.endValues c₁ c₂).map (writeValue "created") ++
      (Bounds.endValues u₁ u₂).map (writeValue "updated"))) = true := by
    rw [List.append_assoc]
    exact has_marker_parts f _
  generalize joined (_ ++ (Bounds.endValues c₁ c₂).map _ ++ _) = t at *
  generalize joined (_ ++ (Bounds.dayValues c₁ c₂).map _ ++ _) = s at *
  have hne : t.isEmpty = false := by simpa using hedged.1
  simp [Validation.ofQuery, hedged.trim, hne, Validation.complete, hmarker, hstrip, hproblems,
    Nat.not_lt.2 hl]

/-- Labels that balance their parentheses together only, and a bound that is a moment: its day
in universal time is the day before. -/
def quiet : Filter where
  authors := ["octocat"]
  reviewers := ["app/é"]
  repositories := ["a.b/c"]
  labels := ["(a b", ")\n"]
  state := .opened
  draft := some false
  created := some ⟨some (.moment ⟨⟨2024, 1, 1, by decide⟩, 1, some (3600 * 1000000), by decide⟩),
    some (.day ⟨2028, 2, 29, by decide⟩)⟩

def quietQuery : Text :=
  "is:pr author:octocat reviewed-by:app/é repo:a.b/c label:\"(a b\" label:\")\n\" is:open -is:draft created:>2023-12-31 created:<2028-02-29"

set_option maxRecDepth 4000 in
theorem quiet_ofQuery_write :
    quiet.IsAdmissible ∧ quiet.write = .ok quietQuery ∧
      quietQuery.length ≤ Validation.lengthLimit ∧
      ∃ s, quiet.writeBare = .ok s ∧ Validation.ofQuery quietQuery = ⟨s, [], [], true⟩ ∧
        read s = quiet.undated := by
  have hq : quiet.IsAdmissible := by
    refine ⟨nofun, ?_, ?_, ?_, ?_, ?_, ?_, ?_⟩ <;> decide
  have hw : quiet.write = .ok quietQuery := by rfl
  have hl : quietQuery.length ≤ Validation.lengthLimit := by decide +kernel
  exact ⟨hq, hw, hl, ofQuery_write hq hw hl⟩

end Filter

end PullGauge
