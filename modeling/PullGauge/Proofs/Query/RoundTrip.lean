import Mathlib
import PullGauge.Proofs.Query.Qualifiers
import PullGauge.Proofs.Calendar.Written
import PullGauge.Proofs.Text.Trimming

/-!
# Filters that survive being written

A filter is read back from what it writes when each part that it writes is one qualifier
again. Conversely what is read from a written filter never holds a quote, so the parts
cannot mix, and a value outside labels comes from a word without quotes: no filter with a
blank or a parenthesis in such a value is ever read back.
-/

namespace PullGauge

open Token (oddQuotes holds IsWord isSeparator)

namespace Qualifier

def pick (key : Text) (negated : Bool) (qs : List Qualifier) : List Qualifier :=
  qs.filter fun q => decide (q.key = key) && q.negated == negated

def valuesOf (key : Text) (qs : List Qualifier) : List Text :=
  ((pick key false qs).map value).filter fun v => !v.isEmpty

def plain (key value : Text) : Qualifier := ⟨key, value, false⟩

def label (l : Text) : Qualifier := ⟨"label", '"' :: l ++ ['"'], false⟩

@[simp] theorem pick_append (key : Text) (n : Bool) (a b : List Qualifier) :
    pick key n (a ++ b) = pick key n a ++ pick key n b := List.filter_append ..

theorem pick_cons (key : Text) (n : Bool) (q : Qualifier) (qs : List Qualifier) :
    pick key n (q :: qs) = (if q.key = key ∧ q.negated = n then [q] else []) ++ pick key n qs := by
  by_cases h : q.key = key ∧ q.negated = n
  · simp [pick, h.1, h.2]
  · rw [if_neg h, List.nil_append, pick, List.filter_cons_of_neg (by simpa using h)]
    rfl

theorem pick_map {key : Text} {n : Bool} {f : Text → Qualifier} (k : Text)
    (hk : ∀ v, (f v).key = k) (hn : ∀ v, (f v).negated = false) (vs : List Text) :
    pick key n (vs.map f) = if k = key ∧ n = false then vs.map f else [] := by
  induction vs with
  | nil => simp [pick]
  | cons v vs ih =>
    rw [List.map_cons, pick_cons, ih, hk, hn]
    by_cases h : k = key ∧ n = false
    · simp [h]
    · rw [if_neg h, if_neg fun hc => h ⟨hc.1, hc.2.symm⟩, if_neg h, List.nil_append]

theorem pick_map_plain (key k : Text) (n : Bool) (vs : List Text) :
    pick key n (vs.map (plain k)) = if k = key ∧ n = false then vs.map (plain k) else [] :=
  pick_map k (fun _ => rfl) (fun _ => rfl) vs

theorem pick_map_label (key : Text) (n : Bool) (ls : List Text) :
    pick key n (ls.map label) = if "label".toList = key ∧ n = false then ls.map label else [] :=
  pick_map "label" (fun _ => rfl) (fun _ => rfl) ls

theorem value_of_isPlain {q : Qualifier} (h : q.raw.IsPlain) : q.value = q.raw :=
  List.filter_eq_self.2 fun c hc => by simpa using (h c hc).1

theorem value_label {l : Text} (h : '"' ∉ l) : (label l).value = l := by
  have hl : l.filter (· != '"') = l :=
    List.filter_eq_self.2 fun c hc => by simpa using fun he : c = '"' => h (he ▸ hc)
  simp [value, label, hl]

theorem closed_label (l : Text) : (label l).closed = true := by
  have hlast : ('"' :: (l ++ ['"'])).getLast? = some '"' := List.getLast?_concat (l := '"' :: l)
  simp [closed, quoted, label, hlast]

theorem not_mem_quote_value (q : Qualifier) : '"' ∉ q.value := by
  simp [value]

theorem mem_valuesOf {key v : Text} {qs : List Qualifier} (h : v ∈ valuesOf key qs) :
    v ≠ [] ∧ ∃ q ∈ qs, q.key = key ∧ q.value = v := by
  simp only [valuesOf, pick, List.mem_filter, List.mem_map, Bool.and_eq_true,
    decide_eq_true_eq] at h
  obtain ⟨⟨q, ⟨hq, hk, -⟩, hv⟩, hne⟩ := h
  exact ⟨by simpa using hne, q, hq, hk, hv⟩

theorem valuesOf_map {key : Text} {vs : List Text} {qs : List Qualifier}
    (hp : pick key false qs = vs.map (plain key)) (hne : ∀ v ∈ vs, v ≠ [] ∧ v.IsPlain) :
    valuesOf key qs = vs := by
  have hv : (vs.map (plain key)).map value = vs := by
    rw [List.map_map]
    exact (List.map_congr_left fun v hv => value_of_isPlain (q := plain key v) (hne v hv).2).trans
      (List.map_id _)
  rw [valuesOf, hp, hv]
  exact List.filter_eq_self.2 fun v hv => by simpa using (hne v hv).1

end Qualifier

namespace Filter

open Qualifier

def labelsOf (qs : List Qualifier) : List Text :=
  (((pick "label" false qs).filter closed).map value).filter fun v => !v.isEmpty

def ofQualifiers (qs : List Qualifier) : Filter where
  authors := valuesOf "author" qs
  reviewers := valuesOf "reviewed-by" qs
  repositories := valuesOf "repo" qs
  labels := labelsOf qs
  assignees := valuesOf "assignee" qs
  involves := valuesOf "involves" qs
  state := standingOf ((pick "is" false qs).map value)
  draft := draftOf ((pick "is" false qs).map value) ((pick "is" true qs).map value)
  created := Bounds.ofValues ((pick "created" false qs).map value)
  updated := Bounds.ofValues ((pick "updated" false qs).map value)

theorem qualifiersFor_eq_pick (tokens : List Token) (key : Text) :
    qualifiersFor tokens key = pick key false (tokens.filterMap Token.asQualifier?) := by
  simp [qualifiersFor, pick]

theorem read_eq_ofQualifiers (t : Text) : read t = ofQualifiers (qualifiersIn t) := by
  simp only [read, ofTokens, ofQualifiers, values, labelValues, isValues, qualifiersFor_eq_pick]
  rfl

end Filter

namespace Bounds

def IsDated (b : Bounds) : Prop :=
  ∃ first last : Option Date, b = ⟨first.map .day, last.map .day⟩

def endValues (first last : Option Date) : List Text :=
  first.toList.map (fun d => '>' :: d.write) ++ last.toList.map fun d => '<' :: d.write

theorem isPlain_endValues {first last : Option Date} {v : Text} (h : v ∈ endValues first last) :
    v ≠ [] ∧ v.IsPlain := by
  have hplain : ∀ c ∈ "><0123456789-".toList, c ≠ '"' ∧ isSeparator c = false :=
    Text.forall_mem_of_all (by decide)
  have hdate : ∀ c ∈ "0123456789-".toList, c ∈ "><0123456789-".toList :=
    Text.forall_mem_of_all (by decide)
  have hmarked {mark : Char} (hmark : mark ∈ "><0123456789-".toList) (d : Date) :
      mark :: d.write ≠ [] ∧ Text.IsPlain (mark :: d.write) := by
    refine ⟨List.cons_ne_nil _ _, fun c hc => hplain c ?_⟩
    rcases List.mem_cons.1 hc with rfl | hc
    · exact hmark
    · exact hdate c (Date.mem_of_mem_write hc)
  simp only [endValues, List.mem_append, List.mem_map] at h
  rcases h with ⟨d, -, rfl⟩ | ⟨d, -, rfl⟩
  · exact hmarked (by decide) d
  · exact hmarked (by decide) d

theorem write_of_isDated (key : Text) {B : Option Bounds} (h : ∀ b ∈ B, b.IsDated) :
    ∃ first last : Option Date, B.getD {} = ⟨first.map .day, last.map .day⟩ ∧
      write key B = .ok ((endValues first last).map (Filter.writeValue key)) := by
  cases B with
  | none => exact ⟨none, none, rfl, rfl⟩
  | some b =>
    obtain ⟨first, last, rfl⟩ := h b rfl
    refine ⟨first, last, rfl, ?_⟩
    cases first with
    | none => cases last <;> rfl
    | some d => cases last <;> rfl

theorem read?_write (d : Date) : Bound.read? d.write = some (.day d) := by
  rw [Bound.read?, List.take_of_length_le (Nat.le_of_eq d.length_write), Date.read?_write]
  rfl

theorem splitAtFirst_write {c : Char} (hc : c ≠ '.') (d : Date) :
    Text.splitAtFirst ['.', '.'] (c :: d.write) = none := by
  have hdot : '.' ∉ c :: d.write := by
    intro h
    rcases List.mem_cons.1 h with h | h
    · exact hc h.symm
    · exact absurd (Date.mem_of_mem_write h) (by decide)
  cases hs : Text.splitAtFirst ['.', '.'] (c :: d.write) with
  | none => rfl
  | some r => exact absurd (by rw [Text.eq_of_splitAtFirst hs]; simp) hdot

theorem dropWhile_write {p : Char → Bool} (hp : ∀ c ∈ "0123456789-".toList, p c = false)
    (d : Date) : d.write.dropWhile p = d.write :=
  Text.dropWhile_of_head fun c hc => hp c (Date.mem_of_mem_write (List.mem_of_head? hc))

theorem refine_first (b : Bounds) (d : Date) :
    refine b ('>' :: d.write) = ⟨some (.day d), b.stop⟩ := by
  have hp : ∀ c ∈ "0123456789-".toList, (c == '>' || c == '=') = false :=
    Text.forall_mem_of_all (by decide)
  rw [refine, splitAtFirst_write (by decide)]
  simp [dropWhile_write hp, read?_write]

theorem refine_last (b : Bounds) (d : Date) :
    refine b ('<' :: d.write) = ⟨b.start, some (.day d)⟩ := by
  have hp : ∀ c ∈ "0123456789-".toList, (c == '<' || c == '=') = false :=
    Text.forall_mem_of_all (by decide)
  rw [refine, splitAtFirst_write (by decide)]
  simp [dropWhile_write hp, read?_write]

theorem ofValues_endValues (first last : Option Date) :
    ofValues (endValues first last) = settle ⟨first.map .day, last.map .day⟩ := by
  cases first with
  | none =>
    cases last with
    | none => rfl
    | some e => rw [ofValues, endValues]; simp [refine_last]
  | some d =>
    cases last with
    | none => rw [ofValues, endValues]; simp [refine_first]
    | some e => rw [ofValues, endValues]; simp [refine_first, refine_last]

theorem settle_ne (b : Bounds) : settle b ≠ some {} := by
  unfold settle
  split_ifs with h
  · simp
  · rintro he
    obtain rfl := Option.some.inj he
    exact h rfl

theorem settle_getD {B : Option Bounds} (h : B ≠ some {}) : settle (B.getD {}) = B := by
  cases B with
  | none => rfl
  | some b =>
    obtain ⟨first, last⟩ := b
    cases first with
    | some d => rfl
    | none =>
      cases last with
      | some e => rfl
      | none => exact absurd rfl h

end Bounds

namespace Filter

open Qualifier

def IsBare (v : Text) : Prop := v ≠ [] ∧ v.IsPlain

instance (v : Text) : Decidable (IsBare v) := inferInstanceAs (Decidable (_ ∧ _))

structure IsDated (f : Filter) : Prop where
  state : ∀ w, f.state ≠ .other w
  created : ∀ b ∈ f.created, b.IsDated
  updated : ∀ b ∈ f.updated, b.IsDated

/-- Values that can stand without quotes, labels that can stand between them, and no bounds
without an end. -/
structure Survives (f : Filter) : Prop where
  authors : ∀ v ∈ f.authors, IsBare v
  reviewers : ∀ v ∈ f.reviewers, IsBare v
  repositories : ∀ v ∈ f.repositories, IsBare v
  labels : ∀ l ∈ f.labels, l ≠ [] ∧ '"' ∉ l
  assignees : ∀ v ∈ f.assignees, IsBare v
  involves : ∀ v ∈ f.involves, IsBare v
  created : f.created ≠ some {}
  updated : f.updated ≠ some {}

def entries (f : Filter) : List Text :=
  f.authors ++ f.reviewers ++ f.repositories ++ f.labels ++ f.assignees ++ f.involves

def stateQualifiers (f : Filter) : List Qualifier :=
  if f.state = .all then [] else [plain "is" f.state.word]

def draftQualifiers (f : Filter) : List Qualifier :=
  match f.draft with
  | some true => [plain "is" "draft"]
  | some false => [⟨"is", "draft", true⟩]
  | none => []

theorem flatMap_writeValue {key : Text} (hk : Token.IsKey key) {vs : List Text}
    (hv : ∀ v ∈ vs, v.IsPlain) :
    (vs.map (writeValue key)).flatMap qualifiersIn = vs.map (plain key) := by
  induction vs with
  | nil => rfl
  | cons v vs ih =>
    rw [List.map_cons, List.flatMap_cons, ih fun w hw => hv w (by simp [hw]), writeValue,
      qualifiersIn_of_isKey hk (holds_of_isPlain (hv v (by simp)))]
    rfl

theorem qualifiersIn_writeLabel {l : Text} (h : '"' ∉ l) :
    qualifiersIn (writeLabel l) = [label l] := by
  have hraw : holds false ('"' :: l ++ ['"']) = true := by
    rw [List.cons_append, holds, Token.holds_append]
    simp [Token.holds_of_not_mem h, Token.oddQuotes_of_not_mem h, holds]
  exact @qualifiersIn_of_isKey "label".toList _ (by decide) hraw

theorem flatMap_writeLabel {ls : List Text} (h : ∀ l ∈ ls, '"' ∉ l) :
    (ls.map writeLabel).flatMap qualifiersIn = ls.map label := by
  induction ls with
  | nil => rfl
  | cons l ls ih =>
    rw [List.map_cons, List.flatMap_cons, ih fun w hw => h w (by simp [hw]),
      qualifiersIn_writeLabel (h l (by simp))]
    rfl

theorem writeLabel_eq (l : Text) : writeLabel l = "label:".toList ++ '"' :: (l ++ ['"']) := rfl

theorem oddQuotes_writeLabel {l : Text} (h : '"' ∉ l) : oddQuotes (writeLabel l) = false := by
  have hl : oddQuotes "label:".toList = false := by decide
  rw [writeLabel_eq, Token.oddQuotes_append "label:".toList, Token.oddQuotes_cons,
    Token.oddQuotes_append l, Token.oddQuotes_of_not_mem h, hl]
  rfl

theorem mem_writeValue {key v : Text} {c : Char} (hk : c ∉ key) (hc : c ≠ ':') :
    c ∈ writeValue key v ↔ c ∈ v := by
  simp [writeValue, hk, hc]

theorem part_cases {f : Filter} (hf : f.IsDated) {p : Text} (hp : p ∈ f.plainParts) :
    (∃ l ∈ f.labels, p = writeLabel l) ∨ ('"' ∈ p → ∃ v ∈ f.entries, '"' ∈ v) := by
  have hvalue {key : Text} {vs : List Text} (hk : '"' ∉ key) (hvs : ∀ v ∈ vs, v ∈ f.entries)
      (h : p ∈ vs.map (writeValue key)) : '"' ∈ p → ∃ v ∈ f.entries, '"' ∈ v := by
    obtain ⟨v, hv, rfl⟩ := List.mem_map.1 h
    exact fun hq => ⟨v, hvs v hv, (mem_writeValue hk (by decide)).1 hq⟩
  simp only [plainParts, List.mem_append, List.mem_cons] at hp
  rcases hp with (((((((rfl | hp) | hp) | hp) | hp) | hp) | hp) | hp) | hp
  · exact .inr fun h => absurd h (by decide)
  · exact .inr (hvalue (by decide) (fun v hv => by simp [entries, hv]) hp)
  · exact .inr (hvalue (by decide) (fun v hv => by simp [entries, hv]) hp)
  · exact .inr (hvalue (by decide) (fun v hv => by simp [entries, hv]) hp)
  · obtain ⟨l, hl, rfl⟩ := List.mem_map.1 hp
    exact .inl ⟨l, hl, rfl⟩
  · exact .inr (hvalue (by decide) (fun v hv => by simp [entries, hv]) hp)
  · exact .inr (hvalue (by decide) (fun v hv => by simp [entries, hv]) hp)
  · refine .inr fun h => absurd h ?_
    cases hs : f.state with
    | all => simp [hs] at hp
    | other w => exact absurd hs (hf.state w)
    | opened => rw [hs, if_neg (by decide), List.mem_singleton] at hp; rw [hp]; decide
    | closed => rw [hs, if_neg (by decide), List.mem_singleton] at hp; rw [hp]; decide
    | merged => rw [hs, if_neg (by decide), List.mem_singleton] at hp; rw [hp]; decide
  · refine .inr fun h => absurd h ?_
    rcases hd : f.draft with _ | _ | _
    · simp [hd] at hp
    · rw [hd, List.mem_singleton] at hp; rw [hp]; decide
    · rw [hd, List.mem_singleton] at hp; rw [hp]; decide

def toQualifiers (f : Filter) (c u : List Text) : List Qualifier :=
  plain "is" "pr" ::
    (f.authors.map (plain "author") ++ f.reviewers.map (plain "reviewed-by") ++
      f.repositories.map (plain "repo") ++ f.labels.map label ++
      f.assignees.map (plain "assignee") ++ f.involves.map (plain "involves") ++
      f.stateQualifiers ++ f.draftQualifiers ++ c.map (plain "created") ++
      u.map (plain "updated"))

def Tidy (parts : List Text) : Prop :=
  ∀ p ∈ parts, '"' ∉ p ∨ ∃ l, '"' ∉ l ∧ p = writeLabel l

theorem Tidy.even {parts : List Text} (h : Tidy parts) : ∀ p ∈ parts, oddQuotes p = false := by
  intro p hp
  rcases h p hp with hq | ⟨l, hl, rfl⟩
  · exact Token.oddQuotes_of_not_mem hq
  · exact oddQuotes_writeLabel hl

theorem tidy_parts {f : Filter} (hf : f.IsDated) (he : ∀ v ∈ f.entries, '"' ∉ v)
    {c u : List Text} (hc : ∀ v ∈ c, v.IsPlain) (hu : ∀ v ∈ u, v.IsPlain) :
    Tidy (f.plainParts ++ c.map (writeValue "created") ++ u.map (writeValue "updated")) := by
  have hdates {key : Text} {vs : List Text} (hk : '"' ∉ key) (hv : ∀ v ∈ vs, v.IsPlain) {p : Text}
      (hp : p ∈ vs.map (writeValue key)) : '"' ∉ p := by
    obtain ⟨v, hm, rfl⟩ := List.mem_map.1 hp
    exact fun hq => (hv v hm _ ((mem_writeValue hk (by decide)).1 hq)).1 rfl
  intro p hp
  simp only [List.mem_append] at hp
  rcases hp with (hp | hp) | hp
  · rcases part_cases hf hp with ⟨l, hl, rfl⟩ | hq
    · exact .inr ⟨l, he l (by simp [entries, hl]), rfl⟩
    · refine .inl fun h => ?_
      obtain ⟨v, hv, hqv⟩ := hq h
      exact he v hv hqv
  · exact .inl (hdates (by decide) hc hp)
  · exact .inl (hdates (by decide) hu hp)

theorem isBare_of_mem_valuesOf {parts : List Text} (h : Tidy parts) {key v : Text}
    (hk : key ≠ "label".toList)
    (hv : v ∈ valuesOf key (qualifiersIn (List.intercalate [' '] parts))) : IsBare v := by
  obtain ⟨hne, q, hq, rfl, rfl⟩ := mem_valuesOf hv
  rw [qualifiersIn_intercalate h.even] at hq
  obtain ⟨p, hp, hq⟩ := List.mem_flatMap.1 hq
  rcases h p hp with hn | ⟨l, hl, rfl⟩
  · have hplain := isPlain_of_mem_qualifiersIn hn hq
    refine ⟨hne, ?_⟩
    rwa [value_of_isPlain hplain]
  · rw [qualifiersIn_writeLabel hl, List.mem_singleton] at hq
    exact absurd (congrArg Qualifier.key hq) hk

theorem mem_labelsOf {l : Text} {qs : List Qualifier} (h : l ∈ labelsOf qs) :
    l ≠ [] ∧ '"' ∉ l := by
  simp only [labelsOf, List.mem_filter, List.mem_map] at h
  obtain ⟨⟨q, -, rfl⟩, hne⟩ := h
  exact ⟨by simpa using hne, not_mem_quote_value q⟩

theorem not_mem_quote_of_mem_entries {qs : List Qualifier} {v : Text}
    (h : v ∈ (ofQualifiers qs).entries) : '"' ∉ v := by
  have hvalue {key : Text} (h : v ∈ valuesOf key qs) : '"' ∉ v := by
    obtain ⟨-, q, -, -, rfl⟩ := mem_valuesOf h
    exact not_mem_quote_value q
  simp only [entries, ofQualifiers, List.mem_append] at h
  rcases h with ((((h | h) | h) | h) | h) | h
  · exact hvalue h
  · exact hvalue h
  · exact hvalue h
  · exact (mem_labelsOf h).2
  · exact hvalue h
  · exact hvalue h

theorem write_eq {f : Filter} (hf : f.IsDated) :
    ∃ c₁ c₂ u₁ u₂ : Option Date,
      f.created.getD {} = ⟨c₁.map .day, c₂.map .day⟩ ∧
      f.updated.getD {} = ⟨u₁.map .day, u₂.map .day⟩ ∧
      f.write = .ok (List.intercalate [' '] (f.plainParts ++
        (Bounds.endValues c₁ c₂).map (writeValue "created") ++
        (Bounds.endValues u₁ u₂).map (writeValue "updated"))) := by
  obtain ⟨c₁, c₂, hc, hcw⟩ := Bounds.write_of_isDated "created" hf.created
  obtain ⟨u₁, u₂, hu, huw⟩ := Bounds.write_of_isDated "updated" hf.updated
  refine ⟨c₁, c₂, u₁, u₂, hc, hu, ?_⟩
  rw [write, hcw, huw]
  rfl

theorem qualifiersIn_parts {f : Filter} (hf : f.IsDated) (hs : f.Survives) {c u : List Text}
    (hc : ∀ v ∈ c, v.IsPlain) (hu : ∀ v ∈ u, v.IsPlain) :
    qualifiersIn (List.intercalate [' '] (f.plainParts ++ c.map (writeValue "created") ++
      u.map (writeValue "updated"))) = f.toQualifiers c u := by
  have he : ∀ v ∈ f.entries, '"' ∉ v := by
    intro v hv hq
    simp only [entries, List.mem_append] at hv
    rcases hv with ((((hv | hv) | hv) | hv) | hv) | hv
    · exact ((hs.authors v hv).2 _ hq).1 rfl
    · exact ((hs.reviewers v hv).2 _ hq).1 rfl
    · exact ((hs.repositories v hv).2 _ hq).1 rfl
    · exact (hs.labels v hv).2 hq
    · exact ((hs.assignees v hv).2 _ hq).1 rfl
    · exact ((hs.involves v hv).2 _ hq).1 rfl
  have hstate : (if f.state = .all then [] else [writeValue "is" f.state.word]).flatMap qualifiersIn =
      f.stateQualifiers := by
    cases h : f.state with
    | all => simp [stateQualifiers, h]
    | other w => exact absurd h (hf.state w)
    | opened => simp only [stateQualifiers, h]; decide
    | closed => simp only [stateQualifiers, h]; decide
    | merged => simp only [stateQualifiers, h]; decide
  have hdraft : qualifiersIn "is:draft".toList = [plain "is" "draft"] := by decide
  have hready : qualifiersIn "-is:draft".toList = [⟨"is", "draft", true⟩] := by decide
  have hpr : qualifiersIn "is:pr".toList = [plain "is" "pr"] := by decide
  rw [qualifiersIn_intercalate (tidy_parts hf he hc hu).even]
  simp only [plainParts, List.flatMap_append, List.flatMap_cons, hpr, hstate,
    @flatMap_writeValue "author".toList (by decide) f.authors fun v hv => (hs.authors v hv).2,
    @flatMap_writeValue "reviewed-by".toList (by decide) f.reviewers fun v hv => (hs.reviewers v hv).2,
    @flatMap_writeValue "repo".toList (by decide) f.repositories fun v hv => (hs.repositories v hv).2,
    @flatMap_writeValue "assignee".toList (by decide) f.assignees fun v hv => (hs.assignees v hv).2,
    @flatMap_writeValue "involves".toList (by decide) f.involves fun v hv => (hs.involves v hv).2,
    @flatMap_writeValue "created".toList (by decide) c hc,
    @flatMap_writeValue "updated".toList (by decide) u hu,
    flatMap_writeLabel fun l hl => (hs.labels l hl).2, toQualifiers,
    draftQualifiers]
  rcases f.draft with _ | _ | _
  · simp [List.append_assoc]
  · simp only [List.flatMap_singleton, hready]
    simp [List.append_assoc]
  · simp only [List.flatMap_singleton, hdraft]
    simp [List.append_assoc]

theorem pick_stateQualifiers {f : Filter} {key : Text} (hk : key ≠ "is".toList) (n : Bool) :
    pick key n f.stateQualifiers = [] := by
  rw [stateQualifiers]
  split_ifs
  · rfl
  · rw [pick_cons, if_neg fun h => hk h.1.symm]
    rfl

theorem pick_draftQualifiers {f : Filter} {key : Text} (hk : key ≠ "is".toList) (n : Bool) :
    pick key n f.draftQualifiers = [] := by
  rcases hd : f.draft with _ | _ | _
  · simp [draftQualifiers, hd, pick]
  · rw [draftQualifiers, hd, pick_cons, if_neg fun h => hk h.1.symm]
    rfl
  · rw [draftQualifiers, hd, pick_cons, if_neg fun h => hk h.1.symm]
    rfl

theorem pick_toQualifiers (f : Filter) (c u : List Text) :
    pick "author" false (f.toQualifiers c u) = f.authors.map (plain "author") ∧
    pick "reviewed-by" false (f.toQualifiers c u) = f.reviewers.map (plain "reviewed-by") ∧
    pick "repo" false (f.toQualifiers c u) = f.repositories.map (plain "repo") ∧
    pick "label" false (f.toQualifiers c u) = f.labels.map label ∧
    pick "assignee" false (f.toQualifiers c u) = f.assignees.map (plain "assignee") ∧
    pick "involves" false (f.toQualifiers c u) = f.involves.map (plain "involves") ∧
    pick "created" false (f.toQualifiers c u) = c.map (plain "created") ∧
    pick "updated" false (f.toQualifiers c u) = u.map (plain "updated") := by
  have hpr (key : Text) (hk : key ≠ "is".toList) : pick key false [plain "is" "pr"] = [] := by
    rw [pick_cons, if_neg fun h => hk h.1.symm]
    rfl
  rw [toQualifiers, ← List.singleton_append]
  simp only [pick_append, pick_map_plain, pick_map_label]
  refine ⟨?_, ?_, ?_, ?_, ?_, ?_, ?_, ?_⟩ <;>
    rw [hpr _ (by decide), pick_stateQualifiers (by decide), pick_draftQualifiers (by decide)] <;>
    simp

theorem pick_is_toQualifiers (f : Filter) (c u : List Text) (n : Bool) :
    pick "is" n (f.toQualifiers c u) =
      pick "is" n (plain "is" "pr" :: (f.stateQualifiers ++ f.draftQualifiers)) := by
  rw [toQualifiers, ← List.singleton_append, ← List.singleton_append (l := _ ++ _)]
  simp only [pick_append, pick_map_plain, pick_map_label]
  simp

theorem flags_toQualifiers {f : Filter} (hf : f.IsDated) (c u : List Text) :
    (ofQualifiers (f.toQualifiers c u)).state = f.state ∧
      (ofQualifiers (f.toQualifiers c u)).draft = f.draft := by
  simp only [ofQualifiers, pick_is_toQualifiers, stateQualifiers, draftQualifiers]
  cases hs : f.state with
  | other w => exact absurd hs (hf.state w)
  | all => rcases f.draft with _ | _ | _ <;> decide
  | opened => rcases f.draft with _ | _ | _ <;> decide
  | closed => rcases f.draft with _ | _ | _ <;> decide
  | merged => rcases f.draft with _ | _ | _ <;> decide

theorem labelsOf_map {ls : List Text} {qs : List Qualifier}
    (hp : pick "label" false qs = ls.map label) (h : ∀ l ∈ ls, l ≠ [] ∧ '"' ∉ l) :
    labelsOf qs = ls := by
  have hclosed : (ls.map label).filter closed = ls.map label :=
    List.filter_eq_self.2 fun q hq => by
      obtain ⟨l, -, rfl⟩ := List.mem_map.1 hq
      exact closed_label l
  have hvalue : (ls.map label).map value = ls := by
    rw [List.map_map]
    exact (List.map_congr_left fun l hl => value_label (h l hl).2).trans (List.map_id _)
  rw [labelsOf, hp, hclosed, hvalue]
  exact List.filter_eq_self.2 fun l hl => by simpa using (h l hl).1

theorem values_plain {key : Text} {vs : List Text} (h : ∀ v ∈ vs, v.IsPlain) :
    (vs.map (plain key)).map value = vs := by
  rw [List.map_map]
  exact (List.map_congr_left fun v hv => value_of_isPlain (q := plain key v) (h v hv)).trans
    (List.map_id _)

theorem ofQualifiers_toQualifiers {f : Filter} (hf : f.IsDated) (hs : f.Survives)
    {c u : List Text} (hcp : ∀ v ∈ c, v.IsPlain) (hup : ∀ v ∈ u, v.IsPlain)
    (hc : Bounds.ofValues c = f.created) (hu : Bounds.ofValues u = f.updated) :
    ofQualifiers (f.toQualifiers c u) = f := by
  have hp := pick_toQualifiers f c u
  have hflags := flags_toQualifiers hf c u
  generalize f.toQualifiers c u = qs at hp hflags
  obtain ⟨hauthor, hreviewer, hrepository, hlabel, hassignee, hinvolves, hcreated, hupdated⟩ := hp
  have hc' : (ofQualifiers qs).created = f.created := by
    simp only [ofQualifiers, hcreated]
    rw [values_plain hcp, hc]
  have hu' : (ofQualifiers qs).updated = f.updated := by
    simp only [ofQualifiers, hupdated]
    rw [values_plain hup, hu]
  have hlists : (ofQualifiers qs).authors = f.authors ∧ (ofQualifiers qs).reviewers = f.reviewers ∧
      (ofQualifiers qs).repositories = f.repositories ∧ (ofQualifiers qs).labels = f.labels ∧
      (ofQualifiers qs).assignees = f.assignees ∧ (ofQualifiers qs).involves = f.involves :=
    ⟨valuesOf_map hauthor hs.authors, valuesOf_map hreviewer hs.reviewers,
      valuesOf_map hrepository hs.repositories, labelsOf_map hlabel hs.labels,
      valuesOf_map hassignee hs.assignees, valuesOf_map hinvolves hs.involves⟩
  generalize ofQualifiers qs = g at *
  cases f
  cases g
  simp_all

theorem survives_of_tidy {parts : List Text} (h : Tidy parts) :
    (read (List.intercalate [' '] parts)).Survives := by
  have hbare := @isBare_of_mem_valuesOf _ h
  rw [read_eq_ofQualifiers]
  generalize List.intercalate _ _ = t at hbare
  constructor
  · exact fun v hv => hbare (by decide) hv
  · exact fun v hv => hbare (by decide) hv
  · exact fun v hv => hbare (by decide) hv
  · exact fun l hl => mem_labelsOf hl
  · exact fun v hv => hbare (by decide) hv
  · exact fun v hv => hbare (by decide) hv
  · exact Bounds.settle_ne _
  · exact Bounds.settle_ne _

theorem survives_of_read {f : Filter} (hf : f.IsDated) {c u : List Text}
    (hc : ∀ v ∈ c, v.IsPlain) (hu : ∀ v ∈ u, v.IsPlain)
    (h : read (List.intercalate [' '] (f.plainParts ++ c.map (writeValue "created") ++
      u.map (writeValue "updated"))) = f) : f.Survives := by
  have he : ∀ v ∈ f.entries, '"' ∉ v := by
    rw [← h, read_eq_ofQualifiers]
    exact fun v hv => not_mem_quote_of_mem_entries hv
  rw [← h]
  exact survives_of_tidy (tidy_parts hf he hc hu)

theorem exists_write_of_survives {f : Filter} (hf : f.IsDated) (hs : f.Survives) :
    ∃ t, f.write = .ok t ∧ read t = f := by
  obtain ⟨c₁, c₂, u₁, u₂, hc, hu, hw⟩ := write_eq hf
  refine ⟨_, hw, ?_⟩
  have hplain {first last : Option Date} : ∀ v ∈ Bounds.endValues first last, v.IsPlain :=
    fun v hv => (Bounds.isPlain_endValues hv).2
  rw [read_eq_ofQualifiers, qualifiersIn_parts hf hs hplain hplain]
  refine ofQualifiers_toQualifiers hf hs hplain hplain ?_ ?_
  · rw [Bounds.ofValues_endValues, ← hc, Bounds.settle_getD hs.created]
  · rw [Bounds.ofValues_endValues, ← hu, Bounds.settle_getD hs.updated]

theorem survives_of_write {f : Filter} (hf : f.IsDated) (h : f.write.map read = .ok f) :
    f.Survives := by
  obtain ⟨c₁, c₂, u₁, u₂, -, -, hw⟩ := write_eq hf
  have hplain {first last : Option Date} : ∀ v ∈ Bounds.endValues first last, v.IsPlain :=
    fun v hv => (Bounds.isPlain_endValues hv).2
  rw [hw] at h
  exact survives_of_read hf hplain hplain (Except.ok.inj h)

/-- The filters that come back from the query that they write. -/
theorem read_write_iff_survives {f : Filter} (hf : f.IsDated) :
    f.write.map read = .ok f ↔ f.Survives := by
  refine ⟨survives_of_write hf, fun hs => ?_⟩
  obtain ⟨t, hw, hr⟩ := exists_write_of_survives hf hs
  rw [hw]
  exact congrArg Except.ok hr

def crowded : Filter where
  authors := ["is:open", "-é"]
  repositories := ["a/b:c"]
  labels := ["(x OR y:z)\n author:q "]
  state := .merged
  draft := some false
  created := some ⟨some (.day ⟨2024, 2, 29, by decide⟩), none⟩

def doubled : Filter := { authors := ["a author:b"] }

theorem crowded_read_write :
    crowded.IsDated ∧ crowded.write.map read = .ok crowded ∧
      doubled.IsDated ∧ doubled.write.map read ≠ .ok doubled := by
  have hc : crowded.IsDated := by
    refine ⟨fun w => nofun, ?_, fun b => nofun⟩
    rintro b ⟨⟩
    exact ⟨some ⟨2024, 2, 29, by decide⟩, none, rfl⟩
  have hd : doubled.IsDated := ⟨fun w => nofun, fun b => nofun, fun b => nofun⟩
  have hs : crowded.Survives := by
    constructor <;> decide
  refine ⟨hc, (read_write_iff_survives hc).2 hs, hd, fun h => ?_⟩
  have hbare := ((read_write_iff_survives hd).1 h).authors _ (List.mem_singleton_self _)
  exact absurd (hbare.2 ' ' (by decide)).2 (by decide)

end Filter

end PullGauge
