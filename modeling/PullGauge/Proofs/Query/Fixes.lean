import Mathlib
import PullGauge.Proofs.Query.Surroundings
import PullGauge.Proofs.Query.Values

/-!
# Quick fixes of accepted queries

A quick fix puts the marker in front of a query, or the searcher in the place of the first author
that is named. The author goes as far as word characters reach, while the value of a qualifier may
go on behind them, and the name of the key may stand inside another value. A fix of an accepted
query that fits is accepted exactly if this left no author that begins with the searcher and goes
on, and no branch that holds one.
-/

namespace PullGauge

namespace Token

open Validation (supportedKeys)

theorem negation_append_cons {c : Char} (hc : c ≠ '-') (u r : Text) :
    negation (u ++ c :: r) = ((negation u).1, (negation u).2 ++ c :: r) := by
  cases u with
  | nil => simp [negation, hc]
  | cons d u =>
    by_cases hd : d = '-'
    · rw [hd]
      rfl
    · simp [negation, hd]

theorem exists_qualifier?_author (u : Text) :
    ∃ key negated, (∃ lead, ∀ raw, qualifier? (u ++ ("author:".toList ++ raw)) =
        if isQualifierKey key then some ⟨Text.lower key, lead ++ ("author:".toList ++ raw), negated⟩
        else none) ∨
      ((∃ before, key = before ++ "author".toList) ∧
        ∀ raw, qualifier? (u ++ ("author:".toList ++ raw)) =
          if isQualifierKey key then some ⟨Text.lower key, raw, negated⟩ else none) := by
  have hneg (raw : Text) : negation (u ++ ("author:".toList ++ raw)) =
      ((negation u).1, (negation u).2 ++ ("author:".toList ++ raw)) :=
    negation_append_cons (by decide) u _
  by_cases hcolon : ':' ∈ (negation u).2
  · obtain ⟨key, lead, hu, hkey⟩ := List.eq_append_cons_of_mem hcolon
    refine ⟨key, (negation u).1, .inl ⟨lead, fun raw => ?_⟩⟩
    have hsplit : Text.splitAtFirst [':'] ((negation u).2 ++ ("author:".toList ++ raw)) =
        some (key, lead ++ ("author:".toList ++ raw)) := by
      rw [hu, List.append_assoc, List.cons_append, Text.splitAtFirst_of_not_mem hkey]
    simp only [qualifier?, hneg, hsplit]
  · refine ⟨(negation u).2 ++ "author".toList, (negation u).1,
      .inr ⟨⟨(negation u).2, rfl⟩, fun raw => ?_⟩⟩
    have hkey : ':' ∉ (negation u).2 ++ "author".toList := by
      rw [List.mem_append, not_or]
      exact ⟨hcolon, by decide⟩
    have hsplit : Text.splitAtFirst [':'] ((negation u).2 ++ ("author:".toList ++ raw)) =
        some ((negation u).2 ++ "author".toList, raw) := by
      have hparts : (negation u).2 ++ ("author:".toList ++ raw) =
          (negation u).2 ++ "author".toList ++ ':' :: raw := by simp
      rw [hparts, Text.splitAtFirst_of_not_mem hkey]
    simp only [qualifier?, hneg, hsplit]

theorem lower_eq_author {before : Text}
    (h : Text.lower (before ++ "author".toList) ∈ supportedKeys) :
    Text.lower (before ++ "author".toList) = "author".toList := by
  obtain ⟨r, hr⟩ := Text.lowerFrom_append [] before "author".toList
  have hauthor : Text.lowerFrom (before.reverse ++ []) "author".toList = "author".toList := rfl
  have hkeys : ∀ key ∈ supportedKeys, "author".toList <:+ key → key = "author".toList := by decide
  refine hkeys _ h ⟨r, ?_⟩
  rw [Text.lower, hr, hauthor]

theorem isMiscased_ofWord_of_length {w : Text} (h : 2 < w.length) (p : Nat) :
    Validation.isMiscased (ofWord w p) = false := by
  have hlower : Text.lower w ≠ "or".toList := by
    intro he
    have hlength := Text.length_le_length_lowerFrom [] w
    rw [← Text.lower, he] at hlength
    have htwo : "or".toList.length = 2 := rfl
    omega
  unfold Validation.isMiscased
  split
  · exact decide_eq_false hlower
  · rfl

end Token

/-- No author begins with the searcher and goes on, and no branch holds the searcher as author. -/
def Qualifier.IsWhole (q : Qualifier) : Prop :=
  (q.key = "author".toList → "@me".toList <+: q.value →
    q.value = "@me".toList ∨ q.value = "@me\n".toList) ∧
  (q.key = "head".toList ∨ q.key = "base".toList → ¬ "author:@me".toList <:+: q.value)

namespace Validation

open Token (Around ofWord isMiscased_ofWord_of_length)

variable {q : Qualifier}

theorem mem_supportedKeys (h : qualifierProblem? q = none) : q.key ∈ supportedKeys := by
  unfold qualifierProblem? at h
  split_ifs at h with hk
  · exact List.contains_iff_mem.1 hk
  · exact List.contains_iff_mem.1 hk

theorem qualifierProblem?_eq_none_of_rule (hk : q.key ∈ supportedKeys)
    (hr : ∀ rule, ValueRule.ofKey? q.key = some rule → rule.allows q.value = true) :
    qualifierProblem? q = none := by
  unfold qualifierProblem?
  rw [if_pos (List.contains_iff_mem.2 hk)]
  split_ifs with he
  · rfl
  · cases ho : ValueRule.ofKey? q.key with
    | none => rfl
    | some rule => rw [Option.bind_some, if_pos (hr rule ho)]

instance : Decidable q.IsWhole := inferInstanceAs (Decidable (_ ∧ _))

theorem isWhole_of_qualifierProblem? (h : qualifierProblem? q = none) : q.IsWhole := by
  constructor
  · intro hk ⟨r, hr⟩
    have hrule : ValueRule.ofKey? q.key = some .user := by
      rw [hk]
      decide
    have hallows := allows_of_qualifierProblem? h hrule (by rw [← hr]; simp)
    rw [← hr] at hallows ⊢
    rcases (ValueRule.allows_searcher_iff r).1 hallows with rfl | rfl
    · exact .inl rfl
    · exact .inr rfl
  · intro hk hin
    have hrule : ValueRule.ofKey? q.key = some .branch := by
      rcases hk with hk | hk
      · rw [hk]
        decide
      · rw [hk]
        decide
    have hat : '@' ∈ q.value := hin.subset (by decide)
    have hallows := allows_of_qualifierProblem? h hrule (List.ne_nil_of_mem hat)
    exact ValueRule.not_mem_of_fits (by decide) (fun _ => ValueRule.at_not_mem_of_isBranch)
      hallows hat

theorem key_of_branch {key : Text} (h : ValueRule.ofKey? key = some .branch) :
    key = "head".toList ∨ key = "base".toList := by
  have hrows : ∀ row ∈ ValueRule.keys, row.1 = .branch → row.2 = ["head".toList, "base".toList] := by
    decide
  obtain ⟨row, hrow, hbranch⟩ := Option.map_eq_some_iff.1 h
  have hfound := List.find?_some hrow
  have hnames : row.2.contains key = true := hfound
  rw [hrows row (List.mem_of_find?_eq_some hrow) hbranch] at hnames
  simpa using hnames

theorem value_append (key raw₁ raw₂ : Text) (n : Bool) :
    Qualifier.value ⟨key, raw₁ ++ raw₂, n⟩ =
      Qualifier.value ⟨key, raw₁, n⟩ ++ Qualifier.value ⟨key, raw₂, n⟩ :=
  List.filter_append ..

theorem qualifierProblem?_searcher_iff {u v w : Text}
    (h : ∀ q ∈ Token.qualifier? (u ++ ("author:".toList ++ (w ++ v))), qualifierProblem? q = none) :
    (∀ q ∈ Token.qualifier? (u ++ ("author:".toList ++ ("@me".toList ++ v))),
        qualifierProblem? q = none) ↔
      ∀ q ∈ Token.qualifier? (u ++ ("author:".toList ++ ("@me".toList ++ v))), q.IsWhole := by
  refine ⟨fun hp q hq => isWhole_of_qualifierProblem? (hp q hq), fun hw q hq => ?_⟩
  obtain ⟨key, negated, hform⟩ := Token.exists_qualifier?_author u
  rcases hform with ⟨lead, hlead⟩ | ⟨⟨before, rfl⟩, hkey⟩
  · -- the name stands in a value: any rule for it admits a colon
    have hwhole := hw q hq
    rw [hlead] at h hq
    split_ifs at h hq with hname
    · have hold := h _ rfl
      obtain rfl := Option.some.inj hq
      have hsupported : Text.lower key ∈ supportedKeys := mem_supportedKeys hold
      refine qualifierProblem?_eq_none_of_rule hsupported fun rule hrule => ?_
      have hcolon : ':' ∈ Qualifier.value
          ⟨Text.lower key, lead ++ ("author:".toList ++ (w ++ v)), negated⟩ := by
        simp [Qualifier.value]
      have hallows := allows_of_qualifierProblem? hold hrule (List.ne_nil_of_mem hcolon)
      rw [ValueRule.eq_branch_of_colon hallows hcolon] at hrule
      refine absurd ?_ (hwhole.2 (key_of_branch hrule))
      rw [value_append, ← List.append_assoc, value_append, ← List.append_assoc]
      exact List.infix_append _ "author:@me".toList _
    · cases hq
  · have hwhole := hw q hq
    rw [hkey] at h hq
    split_ifs at h hq with hname
    · have hauthor := Token.lower_eq_author (mem_supportedKeys (h _ rfl))
      obtain rfl := Option.some.inj hq
      have hsupported : Text.lower (before ++ "author".toList) ∈ supportedKeys :=
        mem_supportedKeys (h _ rfl)
      refine qualifierProblem?_eq_none_of_rule hsupported fun rule hrule => ?_
      have huser : rule = .user := by
        rw [hauthor] at hrule
        exact (Option.some.inj hrule).symm
      have hvalue := hwhole.1 hauthor ⟨_, (value_append _ "@me".toList v negated).symm⟩
      rw [huser]
      rcases hvalue with hvalue | hvalue
      · rw [hvalue]
        decide
      · rw [hvalue]
        decide
    · cases hq

theorem fixAuthor_cases (t : Text) : fixAuthor t = t ∨ ∃ a w b, w ≠ [] ∧
    (∀ c ∈ w, Text.isWordChar c = true) ∧ t = a ++ ("author:".toList ++ w ++ b) ∧
      fixAuthor t = a ++ ("author:@me".toList ++ b) := by
  induction t with
  | nil => exact .inl rfl
  | cons c r ih =>
    unfold fixAuthor
    dsimp only
    split_ifs with h
    · right
      obtain ⟨hp, hw⟩ := Bool.and_eq_true_iff.1 h
      obtain ⟨rest, hrest⟩ := List.isPrefixOf_iff_prefix.1 hp
      have hdrop : (c :: r).drop 7 = rest := by
        rw [← hrest]
        rfl
      rw [hdrop] at hw ⊢
      refine ⟨[], rest.takeWhile Text.isWordChar, rest.dropWhile Text.isWordChar, ?_,
        fun d hd => List.mem_takeWhile_imp hd, ?_, rfl⟩
      · cases rest with
        | nil => simp at hw
        | cons d rest =>
          have hd : Text.isWordChar d = true := by simpa using hw
          simp [hd]
      · rw [List.nil_append, List.append_assoc, List.takeWhile_append_dropWhile, hrest]
    · rcases ih with ih | ⟨a, w, b, hne, hw, hr, hfix⟩
      · exact .inl (by rw [ih])
      · exact .inr ⟨c :: a, w, b, hne, hw, by rw [hr]; rfl, by rw [hfix]; rfl⟩

structure IsFirm (piece : Text) : Prop where
  ne_nil : piece ≠ []
  isPlain : piece.IsPlain
  angles : stripAngles piece = piece

theorem isFirm_searcher : IsFirm "author:@me".toList :=
  ⟨by decide, by decide, by decide⟩

theorem isFirm_author {w : Text} (hw : ∀ c ∈ w, Text.isWordChar c = true) :
    IsFirm ("author:".toList ++ w) := by
  have hword (c : Char) (hc : Text.isWordChar c = false) : c ∉ w := by
    intro hmem
    rw [hw c hmem] at hc
    exact absurd hc (by decide)
  refine ⟨by simp, ?_, ?_⟩
  · intro c hc
    rcases List.mem_append.1 hc with hc | hc
    · have hkey : Text.IsPlain "author:".toList := by decide
      exact hkey c hc
    · have hblank : Text.isBlank c = false := by
        by_contra hb
        have hnot := Text.isWordChar_of_isBlank (by simpa using hb)
        exact hword c hnot hc
      refine ⟨fun hq => hword '"' (by decide) (hq ▸ hc), ?_⟩
      have hopen : c ≠ '(' := fun hp => hword '(' (by decide) (hp ▸ hc)
      have hclose : c ≠ ')' := fun hp => hword ')' (by decide) (hp ▸ hc)
      simp [Token.isSeparator, Token.isParen, hblank, hopen, hclose]
  · refine stripAngles_of_not_mem ?_ ?_
    · rw [List.mem_append, not_or]
      exact ⟨by decide, hword '<' (by decide)⟩
    · rw [List.mem_append, not_or]
      exact ⟨by decide, hword '>' (by decide)⟩

theorem stripAngles_trim_piece {piece : Text} (h : IsFirm piece) (a b : Text) :
    stripAngles (Text.trim (a ++ (piece ++ b))) = stripAngles (a.dropWhile Text.isBlank) ++
      (piece ++ stripAngles (Text.dropTrailing Text.isBlank b)) := by
  have hpiece : piece.filter (fun c => c != '<' && c != '>') = piece := h.angles
  rw [Text.trim_append_piece (isEdged_of_isPlain h.ne_nil h.isPlain), stripAngles,
    List.filter_append, List.filter_append, hpiece]
  rfl

theorem trim_marker_append {t : Text} (ht : Text.trim t ≠ []) :
    ∃ lead, (∀ c ∈ lead, Text.isBlank c = true) ∧
      Text.trim (marker ++ ' ' :: t) = marker ++ ' ' :: (lead ++ Text.trim t) := by
  obtain ⟨lead, trail, hparts, hlead, htrail⟩ := Text.exists_blanks_around_trim t
  refine ⟨lead, hlead, ?_⟩
  have hwhole : marker ++ ' ' :: t = [] ++ (marker ++ ' ' :: (lead ++ Text.trim t)) ++ trail := by
    conv_lhs => rw [hparts]
    simp
  have hlast : marker ++ ' ' :: (lead ++ Text.trim t) =
      (marker ++ ' ' :: lead) ++ Text.trim t := by simp
  rw [hwhole]
  refine Text.trimBy_append nofun htrail (by simp) isEdged_marker.2.1 ?_
  rw [hlast, List.getLast?_append_of_ne_nil _ ht]
  exact (isEdged_trim ht).2.2

theorem isValid_marker_append {query : Text} (h : (ofQuery query).isValid = true)
    (hl : (marker ++ ' ' :: query).length ≤ lengthLimit) :
    (ofQuery (marker ++ ' ' :: query)).isValid = true := by
  have hne := trim_ne_nil_of_isValid h
  obtain ⟨lead, hlead, htrim⟩ := trim_marker_append hne
  have hhas : Text.has marker (Text.trim (marker ++ ' ' :: query)) = true := by
    rw [htrim]
    exact Text.has_iff.2 (List.prefix_append marker _).isInfix
  have hangle (c : Char) (hc : Text.isBlank c = false) : c ∉ lead := by
    intro hmem
    rw [hlead c hmem] at hc
    exact absurd hc (by decide)
  have hleadFirm : stripAngles lead = lead :=
    stripAngles_of_not_mem (hangle '<' (by decide)) (hangle '>' (by decide))
  rw [isValid_iff (by rw [htrim]; simp), complete, if_pos hhas]
  constructor
  · exact (Text.trim_infix _).length_le.trans hl
  · rw [htrim, stripAngles_marker_append, isClean_marker_append, stripAngles, List.filter_append,
      ← stripAngles, ← stripAngles, hleadFirm, isClean_append_blanks hlead]
    exact ((isValid_iff hne).1 h).2

theorem isWhole_marker {t : Text} (h : ∀ q ∈ qualifiersIn t, q.IsWhole) :
    ∀ q ∈ qualifiersIn (marker ++ ' ' :: t), q.IsWhole := by
  have hmarker : qualifiersIn marker = [⟨"is", "pr", false⟩] := by decide
  rw [qualifiersIn_append_blank (by decide) (by decide), hmarker, List.singleton_append,
    List.forall_mem_cons]
  refine ⟨⟨fun hk => ?_, fun hk => ?_⟩, h⟩
  · exact absurd hk (by decide)
  · exact absurd hk (by decide)

theorem isWhole_sanitized_iff {query : Text} (hne : Text.trim query ≠ []) :
    (∀ q ∈ qualifiersIn (ofQuery query).sanitized, q.IsWhole) ↔
      ∀ q ∈ qualifiersIn (stripAngles (Text.trim query)), q.IsWhole := by
  rw [sanitized_of_trim_ne_nil hne]
  unfold complete
  split_ifs
  · rfl
  · rw [stripAngles_marker_append]
    refine ⟨fun h q hq => h q ?_, isWhole_marker⟩
    rw [qualifiersIn_append_blank (by decide) (by decide)]
    exact List.mem_append_right _ hq

theorem isClean_searcher_iff {before after w : Text}
    (hw : ∀ c ∈ w, Text.isWordChar c = true)
    (hc : IsClean (before ++ ("author:".toList ++ w ++ after))) :
    IsClean (before ++ ("author:@me".toList ++ after)) ↔
      ∀ q ∈ qualifiersIn (before ++ ("author:@me".toList ++ after)), q.IsWhole := by
  refine ⟨fun h q hq => isWhole_of_qualifierProblem? (h.qualifiers q hq), fun hwhole => ?_⟩
  obtain ⟨a, u, v, rest, ha⟩ := Token.exists_around before after
  have hold := isFirm_author hw
  have hnew := isFirm_searcher
  refine (hc.replace_iff ha ⟨hold.ne_nil, hold.isPlain⟩ ⟨hnew.ne_nil, hnew.isPlain⟩).2
    ⟨fun c hmark => ?_, isMiscased_ofWord_of_length (by simp; omega) _, ?_⟩
  · -- the operators of the whole are those of the texts around the piece
    have hclear : ∀ d ∈ operatorMarks, 'a' ≠ d ∧ 'e' ≠ d ∧ ¬ [d, d] <:+: "uthor:@m".toList :=
      Text.forall_mem_of_all (by decide)
    obtain ⟨hfirst, hlast, hmiddle⟩ := hclear c hmark
    have hnot := hc.operators c hmark
    refine not_infix_piece hfirst hlast hmiddle (fun hi => hnot ?_) (fun hi => hnot ?_)
    · exact hi.trans (List.prefix_append before _).isInfix
    · exact hi.trans ((List.suffix_append _ after).trans (List.suffix_append before _)).isInfix
  · have hwas := (qualifiers_iff (ha.wordAt _ hold.ne_nil hold.isPlain)).1 hc.qualifiers
    have his := (ha.wordAt _ hnew.ne_nil hnew.isPlain).qualifiersIn_eq
    have hword := hwas.2.1
    rw [List.append_assoc, Token.asQualifier?_ofWord] at hword
    have hsplit : u ++ ("author:@me".toList ++ v) =
        u ++ ("author:".toList ++ ("@me".toList ++ v)) := rfl
    rw [hsplit, Token.asQualifier?_ofWord] at his ⊢
    refine (qualifierProblem?_searcher_iff hword).2 fun q hq => hwhole q ?_
    rw [his]
    exact List.mem_append_right _ (List.mem_append_left _ (Option.mem_toList.2 hq))

theorem isValid_searcher_iff {query a w b : Text} (h : (ofQuery query).isValid = true)
    (hw : ∀ c ∈ w, Text.isWordChar c = true) (hq : query = a ++ ("author:".toList ++ w ++ b)) :
    (ofQuery (a ++ ("author:@me".toList ++ b))).isValid = true ↔
      (complete (Text.trim (a ++ ("author:@me".toList ++ b)))).length ≤ lengthLimit ∧
        ∀ q ∈ qualifiersIn (ofQuery (a ++ ("author:@me".toList ++ b))).sanitized, q.IsWhole := by
  have hclean := ((isValid_iff (trim_ne_nil_of_isValid h)).1 h).2
  rw [hq, stripAngles_trim_piece (isFirm_author hw)] at hclean
  have hne : Text.trim (a ++ ("author:@me".toList ++ b)) ≠ [] := by
    have hedged := isEdged_of_isPlain isFirm_searcher.ne_nil isFirm_searcher.isPlain
    rw [Text.trim_append_piece hedged]
    simp
  rw [isValid_iff hne, isWhole_sanitized_iff hne, stripAngles_trim_piece isFirm_searcher,
    isClean_searcher_iff hw hclean]

theorem mem_quickFixes {query fix : Text} (h : fix ∈ quickFixes query) :
    Text.trim fix ≠ Text.trim query ∧ (fix = marker ++ ' ' :: query ∨ fix = fixAuthor query) := by
  obtain ⟨hmem, hne⟩ := List.mem_filter.1 h
  refine ⟨of_decide_eq_true hne, ?_⟩
  rcases List.mem_append.1 hmem with hmem | hmem
  · split_ifs at hmem
    · simp at hmem
    · exact .inl (List.mem_singleton.1 hmem)
  · split_ifs at hmem
    · exact .inr (List.mem_singleton.1 hmem)
    · simp at hmem

/-- A quick fix of an accepted query differs from it by more than blanks at its ends. The marker in
front of it is harmless, and any fix is accepted exactly if it fits when it is completed and all
its qualifiers are whole. -/
theorem quickFixes_accepted {query fix : Text} (h : (ofQuery query).isValid = true)
    (hf : fix ∈ quickFixes query) (hl : fix.length ≤ lengthLimit) :
    Text.trim fix ≠ Text.trim query ∧
      (fix = marker ++ ' ' :: query → (ofQuery fix).isValid = true) ∧
      ((ofQuery fix).isValid = true ↔
        (complete (Text.trim fix)).length ≤ lengthLimit ∧
          ∀ q ∈ qualifiersIn (ofQuery fix).sanitized, q.IsWhole) := by
  obtain ⟨hne, hform⟩ := mem_quickFixes hf
  refine ⟨hne, ?_, ?_⟩
  · rintro rfl
    exact isValid_marker_append h hl
  · rcases hform with rfl | rfl
    · have hvalid := isValid_marker_append h hl
      refine ⟨fun _ => ⟨length_complete_le hvalid, fun q hq => ?_⟩, fun _ => hvalid⟩
      exact isWhole_of_qualifierProblem? (qualifierProblem?_of_mem hvalid hq)
    · rcases fixAuthor_cases query with hsame | ⟨a, w, b, -, hw, hq, hfix⟩
      · rw [hsame] at hne
        exact absurd rfl hne
      · rw [hfix]
        exact isValid_searcher_iff h hw hq

def named : Text := "-draft:true author:octocat (label:\"a b\")"

def mine : Text := "-draft:true author:@me (label:\"a b\")"

theorem named_fixes_accepted :
    quickFixes named = [marker ++ ' ' :: named, mine] ∧
      (ofQuery (marker ++ ' ' :: named)).isValid = true ∧ (ofQuery mine).isValid = true := by
  have hvalid : (ofQuery named).isValid = true := by decide +kernel
  have hfixes : quickFixes named = [marker ++ ' ' :: named, mine] := by decide +kernel
  have hmarked := @quickFixes_accepted named (marker ++ ' ' :: named) hvalid
    (by rw [hfixes]; simp) (by decide)
  have hmine := @quickFixes_accepted named mine hvalid (by rw [hfixes]; simp) (by decide)
  exact ⟨hfixes, hmarked.2.1 rfl, hmine.2.2.2 (by decide +kernel)⟩

/-- A login with a hyphen: the fix leaves what stands behind the hyphen. -/
def hyphened : Text := "is:pr author:octo-cat"

theorem hyphened_fix_refused :
    (ofQuery hyphened).isValid = true ∧ quickFixes hyphened = ["is:pr author:@me-cat"] ∧
      (ofQuery "is:pr author:@me-cat").isValid = false := by
  decide +kernel

end Validation

end PullGauge
