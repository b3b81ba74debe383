import Mathlib
import PullGauge.Proofs.Query.Joining
import PullGauge.Proofs.Query.Marker
import PullGauge.Proofs.Query.Parts
import PullGauge.Proofs.Suggestion.LastWord

/-!
# The qualifier at the cursor

The editor looks for a qualifier that waits for its value by text alone, wherever the name of one
stands; the query is read word by word, with quotes. Behind a point of rest both find the same
qualifier. A name in what stands before it is out of the question: a value there would have to
reach over the blank at its end, or over the quote that is open now. And in the qualifier itself
there is one colon, so that no other name ends there.
-/

namespace PullGauge

open Token (oddQuotes holds IsWord Rests ofWord)

namespace Token

theorem getLast?_tokenize_append {a w : Text} (ha : Rests a) (hw : IsWord w) :
    (tokenize (a ++ w)).getLast? = some (ofWord w a.length) := by
  rw [tokenize_append (ha.splits w), tokenize_word hw, List.map_singleton,
    List.getLast?_append_of_ne_nil _ (by simp), List.getLast?_singleton]
  simp [shift, ofWord]

end Token

namespace Suggestion

section Search

variable {name : Text} {value? : Text → Option Text} {a t : Text}

theorem openValue_append
    (h : ∀ b r, b <:+ a → b ≠ [] → b ++ t = name ++ r → value? r = none) :
    openValue name value? (a ++ t) = openValue name value? t := by
  induction a with
  | nil => rfl
  | cons c a ih =>
    have hrest := ih fun b r hb => h b r (hb.trans (List.suffix_cons c a))
    rw [List.cons_append, openValue, hrest]
    split_ifs with hname
    · obtain ⟨r, hr⟩ := List.isPrefixOf_iff_prefix.1 hname
      have hnone := h (c :: a) r List.suffix_rfl (by simp) hr.symm
      rw [← hr, List.drop_left, hnone]
    · rfl

theorem openValue_self (hne : name ≠ []) {r v : Text} (hv : value? r = some v) :
    openValue name value? (name ++ r) = some v := by
  obtain ⟨c, s, rfl⟩ := List.exists_cons_of_ne_nil hne
  have hprefix : (c :: s).isPrefixOf (c :: (s ++ r)) = true :=
    List.isPrefixOf_iff_prefix.2 (List.prefix_append (c :: s) r)
  have hdrop : (c :: (s ++ r)).drop (c :: s).length = r := @List.drop_left _ (c :: s) r
  rw [List.cons_append, openValue, if_pos hprefix, hdrop, hv]

theorem openValue_eq_none (h : ¬ name <:+: t) :
    openValue name value? t = none := by
  rw [← List.append_nil t, openValue_append, openValue]
  intro b r hb _ hparts
  rw [List.append_nil] at hparts
  exact absurd (List.IsInfix.trans ⟨[], r, hparts.symm⟩ hb.isInfix) h

end Search

variable {before t : Text}

theorem exists_of_name_before {name b r : Text} (hname : ∀ c ∈ name, Text.isBlank c = false)
    (hblank : ∀ c ∈ before.getLast?, Text.isBlank c = true) (hb : b <:+ before) (hne : b ≠ [])
    (hparts : b ++ t = name ++ r) : ∃ s c, r = s ++ c :: t ∧ Text.isBlank c = true := by
  obtain ⟨u, rfl⟩ := hb
  obtain ⟨b, c, rfl⟩ := (List.eq_nil_or_concat' b).resolve_left hne
  have hc : Text.isBlank c = true := hblank c (by simp)
  rw [List.append_assoc, List.singleton_append] at hparts
  rcases List.append_eq_append_iff.1 hparts with ⟨n, rfl, hn⟩ | ⟨s, -, rfl⟩
  · cases n with
    | nil => exact ⟨[], c, hn.symm, hc⟩
    | cons d n =>
      obtain ⟨rfl, -⟩ := List.cons.inj hn
      rw [hname c (by simp)] at hc
      cases hc
  · exact ⟨s, c, rfl, hc⟩

theorem wordValue?_of_blank {c : Char} (hc : Text.isBlank c = true) (s : Text) (ht : t ≠ []) :
    wordValue? (s ++ c :: t) = none := by
  have hmem : c ∈ withoutLineEnd (s ++ c :: t) := by
    unfold withoutLineEnd
    split_ifs
    · rw [List.dropLast_append_of_ne_nil (by simp), List.dropLast_cons_of_ne_nil ht]
      simp
    · simp
  have hall : (withoutLineEnd (s ++ c :: t)).all isInk = false :=
    List.all_eq_false.2 ⟨c, hmem, by simp [isInk, hc]⟩
  simp [wordValue?, hall]

theorem wordValue?_of_ink {v : Text} (hv : ∀ c ∈ v, Text.isBlank c = false) :
    wordValue? v = some v := by
  have hend : v.getLast? ≠ some '\n' := by
    intro hlast
    have := hv _ (List.mem_of_getLast? hlast)
    exact absurd this (by decide)
  have hall : v.all isInk = true := List.all_eq_true.2 fun c hc => isInk_iff.2 (hv c hc)
  simp [wordValue?, withoutLineEnd, hend, hall]

theorem openValue_word_append {name : Text} (hname : ∀ c ∈ name, Text.isBlank c = false)
    (hblank : ∀ c ∈ before.getLast?, Text.isBlank c = true) (ht : t ≠ []) :
    openValue name wordValue? (before ++ t) = openValue name wordValue? t := by
  refine openValue_append fun b r hb hne hparts => ?_
  obtain ⟨s, c, rfl, hc⟩ := exists_of_name_before hname hblank hb hne hparts
  exact wordValue?_of_blank hc s ht

theorem openValue_quoted_append {name : Text} (hname : ∀ c ∈ name, Text.isBlank c = false)
    (hblank : ∀ c ∈ before.getLast?, Text.isBlank c = true) (ht : '"' ∈ t) :
    openValue name quotedValue? (before ++ t) = openValue name quotedValue? t := by
  refine openValue_append fun b r hb hne hparts => ?_
  obtain ⟨s, c, rfl, -⟩ := exists_of_name_before hname hblank hb hne hparts
  simp [quotedValue?, ht]

theorem openValue_of_not_suffix {name key raw : Text} {value? : Text → Option Text}
    (hkey : ':' ∉ key) (hraw : ':' ∉ raw) (h : ¬ name <:+ key) :
    openValue (name ++ [':']) value? (key ++ ':' :: raw) = none :=
  openValue_eq_none (mt (suffix_of_infix_append_cons hkey hraw) h)

def wordKeys : List (Text × ValueKind) :=
  [("author", .user), ("reviewed-by", .user), ("repo", .repository)]

theorem valueContext_eq (t : Text) : valueContext t =
    ((openValue ("author".toList ++ [':']) wordValue? t).map (ValueKind.user, ·)).or
      (((openValue ("reviewed-by".toList ++ [':']) wordValue? t).map (ValueKind.user, ·)).or
        (((openValue ("repo".toList ++ [':']) wordValue? t).map (ValueKind.repository, ·)).or
          ((openValue "label:\"".toList quotedValue? t).map (ValueKind.label, ·)))) := rfl

section Keys

variable {name key raw : Text}

theorem isBlank_of_mem_isKey (hk : Token.IsKey key) :
    ∀ c ∈ key ++ [':'], Text.isBlank c = false := by
  intro c hc
  rcases List.mem_append.1 hc with hc | hc
  · exact (Bool.or_eq_false_iff.1 (hk.1 c hc).2).1
  · obtain rfl := List.mem_singleton.1 hc
    decide

theorem openValue_word_self (hk : Token.IsKey key)
    (hblank : ∀ c ∈ before.getLast?, Text.isBlank c = true)
    (hraw : ∀ c ∈ raw, Text.isBlank c = false) :
    openValue (key ++ [':']) wordValue? (before ++ (key ++ ':' :: raw)) = some raw := by
  have hne : key ++ [':'] ≠ [] := by simp
  rw [openValue_word_append (isBlank_of_mem_isKey hk) hblank (by simp),
    List.append_cons key ':' raw]
  exact openValue_self hne (wordValue?_of_ink hraw)

theorem openValue_word_other (hname : Token.IsKey name) (hk : Token.IsKey key)
    (hblank : ∀ c ∈ before.getLast?, Text.isBlank c = true) (hraw : ':' ∉ raw)
    (hother : ¬ name <:+ key) :
    openValue (name ++ [':']) wordValue? (before ++ (key ++ ':' :: raw)) = none := by
  rw [openValue_word_append (isBlank_of_mem_isKey hname) hblank (by simp)]
  exact openValue_of_not_suffix hk.2.1 hraw hother

end Keys

theorem valueContext_word {key : Text} {kind : ValueKind} (hkey : (key, kind) ∈ wordKeys)
    (hblank : ∀ c ∈ before.getLast?, Text.isBlank c = true) {value : Text}
    (hvalue : ∀ c ∈ value, Text.isBlank c = false) (hcolon : ':' ∉ value) :
    valueContext (before ++ (key ++ ':' :: value)) = some (kind, value) := by
  simp only [wordKeys, List.mem_cons, Prod.mk.injEq, List.not_mem_nil, or_false] at hkey
  have hself {name : Text} (hname : Token.IsKey name) :
      openValue (name ++ [':']) wordValue? (before ++ (name ++ ':' :: value)) = some value :=
    openValue_word_self hname hblank hvalue
  have hother {name key : Text} (hname : Token.IsKey name) (hk : Token.IsKey key)
      (h : ¬ name <:+ key) :
      openValue (name ++ [':']) wordValue? (before ++ (key ++ ':' :: value)) = none :=
    openValue_word_other hname hk hblank hcolon h
  rcases hkey with ⟨rfl, rfl⟩ | ⟨rfl, rfl⟩ | ⟨rfl, rfl⟩
  · rw [valueContext_eq, hself (by decide)]
    rfl
  · rw [valueContext_eq, hother (by decide) (by decide) (by decide), hself (by decide)]
    rfl
  · rw [valueContext_eq, hother (by decide) (by decide) (by decide),
      hother (by decide) (by decide) (by decide), hself (by decide)]
    rfl

theorem valueContext_label (hblank : ∀ c ∈ before.getLast?, Text.isBlank c = true)
    {partialName : Text} (hquote : '"' ∉ partialName) (hcolon : ':' ∉ partialName) :
    valueContext (before ++ ("label:\"".toList ++ partialName)) = some (.label, partialName) := by
  have hother {name : Text} (hname : Token.IsKey name) (h : ¬ name <:+ "label".toList) :
      openValue (name ++ [':']) wordValue? (before ++ ("label:\"".toList ++ partialName)) = none :=
    @openValue_word_other before name "label".toList ('"' :: partialName) hname (by decide) hblank
      (by simpa using hcolon) h
  have hlabel : openValue "label:\"".toList quotedValue?
      (before ++ ("label:\"".toList ++ partialName)) = some partialName := by
    have hname : ∀ c ∈ "label:\"".toList, Text.isBlank c = false :=
      Text.forall_mem_of_all (by decide)
    rw [openValue_quoted_append hname hblank (by simp)]
    exact openValue_self (by decide) (by simp [quotedValue?, hquote])
  rw [valueContext_eq, hother (by decide) (by decide), hother (by decide) (by decide),
    hother (by decide) (by decide), hlabel]
  rfl

theorem isPlain_of_marks {value : Text} (hink : ∀ c ∈ value, Text.isBlank c = false)
    (hquote : '"' ∉ value) (hleft : '(' ∉ value) (hright : ')' ∉ value) : value.IsPlain := by
  intro c hc
  have hl : c ≠ '(' := fun h => hleft (h ▸ hc)
  have hr : c ≠ ')' := fun h => hright (h ▸ hc)
  refine ⟨fun h => hquote (h ▸ hc), ?_⟩
  simp [Token.isSeparator, hink c hc, Token.isParen, hl, hr]

def EndsInQualifier (t key value : Text) (quoted : Bool) : Prop :=
  ∃ k q, (tokenize t).getLast? = some k ∧ k.kind = .qualifier q ∧ q.key = key ∧
    q.value = value ∧ q.negated = false ∧ q.quoted = quoted

theorem endsInQualifier_of_isKey {q : Qualifier} (hrests : Rests before) (hk : Token.IsKey q.key)
    (hraw : holds false q.raw = true) (hq : q.negated = false) :
    EndsInQualifier (before ++ (q.key ++ ':' :: q.raw)) q.key q.value q.quoted := by
  obtain ⟨key, raw, negated⟩ := q
  obtain rfl : negated = false := hq
  exact ⟨_, _, Token.getLast?_tokenize_append hrests (Token.isWord_of_isKey hk hraw),
    Token.kindOf_writeValue hk raw, rfl, rfl, rfl, rfl⟩

/-- Behind a text that leaves neither a word nor a quote open, the editor and the tokens see the
same qualifier: one of a user or a repository whose value is typed as a word, and a label whose
quote is still open. -/
theorem valueContext_and_last_token (hblank : ∀ c ∈ before.getLast?, Text.isBlank c = true)
    (heven : before.count '"' % 2 = 0) :
    (∀ key kind, (key, kind) ∈ wordKeys → ∀ value : Text,
      (∀ c ∈ value, Text.isBlank c = false ∧ c ∉ "\"():".toList) →
        valueContext (before ++ (key ++ ':' :: value)) = some (kind, value) ∧
          EndsInQualifier (before ++ (key ++ ':' :: value)) key value false) ∧
    ∀ partialName : Text, '"' ∉ partialName → ':' ∉ partialName →
      valueContext (before ++ ("label:\"".toList ++ partialName)) = some (.label, partialName) ∧
        EndsInQualifier (before ++ ("label:\"".toList ++ partialName)) "label" partialName
          true := by
  have hrests : Rests before := by
    refine ⟨by rw [oddQuotes, decide_eq_false_iff_not]; omega, fun c hc => ?_⟩
    exact Token.isSeparator_of_isBlank (hblank c hc)
  constructor
  · intro key kind hkey value hvalue
    have hink : ∀ c ∈ value, Text.isBlank c = false := fun c hc => (hvalue c hc).1
    have hmark {c : Char} (hc : c ∈ "\"():".toList) : c ∉ value := fun hm => (hvalue c hm).2 hc
    have hplain : value.IsPlain := isPlain_of_marks hink (hmark (by decide)) (hmark (by decide))
      (hmark (by decide))
    have hkeys : ∀ k ∈ wordKeys, Token.IsKey k.1 := by decide
    have hends := @endsInQualifier_of_isKey before (Qualifier.plain key value) hrests
      (hkeys _ hkey) (holds_of_isPlain hplain) rfl
    have hunquoted : (Qualifier.plain key value).quoted = false :=
      beq_eq_false_iff_ne.2 fun hhead => hmark (by decide) (List.mem_of_head? hhead)
    rw [Qualifier.value_of_isPlain hplain, hunquoted] at hends
    exact ⟨valueContext_word hkey hblank hink (hmark (by decide)), hends⟩
  · intro partialName hquote hcolon
    have hlabel : Token.IsKey "label" := by decide
    have hends := @endsInQualifier_of_isKey before ⟨"label", '"' :: partialName, false⟩ hrests
      hlabel (by simp [holds, Token.holds_of_not_mem hquote]) rfl
    have hvalue : Qualifier.value ⟨"label", '"' :: partialName, false⟩ = partialName := by
      rw [Qualifier.value, List.filter_cons_of_neg (by simp), List.filter_eq_self]
      exact fun c hc => bne_iff_ne.2 fun he => hquote (he ▸ hc)
    rw [hvalue] at hends
    exact ⟨valueContext_label hblank hquote hcolon, hends⟩

def typedBefore : Text := "-repo:x label:\"(a\nauthor:b\" author:\"c \"\t"

theorem typedBefore_valueContext :
    ((∀ c ∈ typedBefore.getLast?, Text.isBlank c = true) ∧ typedBefore.count '"' % 2 = 0) ∧
      (valueContext (typedBefore ++ ("reviewed-by".toList ++ ':' :: "octo-é/@".toList)) =
          some (.user, "octo-é/@".toList) ∧
        EndsInQualifier (typedBefore ++ ("reviewed-by".toList ++ ':' :: "octo-é/@".toList))
          "reviewed-by" "octo-é/@" false) ∧
      valueContext (typedBefore ++ ("label:\"".toList ++ "good (first\n".toList)) =
          some (.label, "good (first\n".toList) ∧
        EndsInQualifier (typedBefore ++ ("label:\"".toList ++ "good (first\n".toList))
          "label" "good (first\n" true := by
  have hblank : ∀ c ∈ typedBefore.getLast?, Text.isBlank c = true := by
    rintro c ⟨⟩
    decide
  have heven : typedBefore.count '"' % 2 = 0 := by decide
  obtain ⟨hword, hlabel⟩ := valueContext_and_last_token hblank heven
  exact ⟨⟨hblank, heven⟩,
    hword "reviewed-by" .user (by decide) "octo-é/@" (Text.forall_mem_of_all (by decide)),
    hlabel "good (first\n" (by decide) (by decide)⟩

end Suggestion

end PullGauge
