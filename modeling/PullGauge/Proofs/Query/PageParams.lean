import Mathlib
import PullGauge.Query.PageParams
import PullGauge.Proofs.Number.Integers
import PullGauge.Proofs.Text.Forms

/-!
# Searches carried in addresses

What is left out of an address is what reading puts in: a usual value that is not written and a
value that is missing come to the same. The other values stand in the address under keys of their
own, whatever characters they hold, so that an address belongs to one search only.
-/

namespace PullGauge.PageParams

/-- The search with the usual values where it says nothing, and no page before the first. -/
def completed (p : PageParams) : PageParams where
  query := p.query.filter fun q => !q.isEmpty
  page := max 1 p.page
  sort := if p.sort.isEmpty then "updated" else p.sort
  perPage := if p.perPage = 0 then 20 else p.perPage

def IsReadable (p : PageParams) : Prop :=
  (Text.ofNat p.page.natAbs).length ≤ Reading.digitLimit ∧
    (Text.ofNat p.perPage.natAbs).length ≤ Reading.digitLimit

instance (p : PageParams) : Decidable p.IsReadable := inferInstanceAs (Decidable (_ ∧ _))

structure IsExplicit (p : PageParams) : Prop where
  query : p.query ≠ some []
  page : 1 ≤ p.page
  sort : p.sort ≠ []
  perPage : p.perPage ≠ 0

theorem IsExplicit.completed {p : PageParams} (h : p.IsExplicit) : p.completed = p := by
  obtain ⟨query, page, sort, perPage⟩ := p
  obtain ⟨hquery, hpage, hsort, hper⟩ := h
  dsimp only at hquery hpage hsort hper
  have hkept : query.filter (fun q => !q.isEmpty) = query := by
    cases query with
    | none => rfl
    | some q => simpa using hquery
  simp [PageParams.completed, hkept, max_eq_right hpage, hsort, hper]

def entry (key : Text) (value : Option Text) : List (Text × Text) := (value.map (key, ·)).toList

theorem lookup_entry (key other : Text) (value : Option Text) :
    (entry other value).lookup key = if key = other then value else none := by
  cases value with
  | none => simp [entry]
  | some v =>
    by_cases h : key = other
    · simp [entry, h]
    · simp [entry, List.lookup_cons, h, beq_eq_false_iff_ne.2 h]

theorem keys_entry (key : Text) (value : Option Text) :
    ((entry key value).map Prod.fst).Sublist [key] := by
  cases value with
  | none => exact List.nil_sublist _
  | some v => exact List.Sublist.refl _

def unlessUsual (usual : Prop) [Decidable usual] (value : Text) : Option Text :=
  if usual then none else some value

theorem pairs_eq (p : PageParams) :
    p.pairs = entry "q" (p.query.filter fun q => !q.isEmpty) ++
      entry "page" (unlessUsual (p.page ≤ 1) (Text.ofInt p.page)) ++
      entry "sort" (unlessUsual (p.sort = [] ∨ p.sort = "updated".toList) p.sort) ++
      entry "per_page" (unlessUsual (p.perPage = 0 ∨ p.perPage = 20) (Text.ofInt p.perPage)) := by
  obtain ⟨query, page, sort, perPage⟩ := p
  have hpage : (if page > 1 then [("page".toList, Text.ofInt page)] else []) =
      entry "page" (unlessUsual (page ≤ 1) (Text.ofInt page)) := by
    unfold unlessUsual
    split_ifs with hlate hearly hearly
    · omega
    · rfl
    · rfl
    · omega
  have hsort : (if sort.isEmpty || sort == "updated".toList then [] else [("sort".toList, sort)]) =
      entry "sort" (unlessUsual (sort = [] ∨ sort = "updated".toList) sort) := by
    have hcond : (sort.isEmpty || sort == "updated".toList) = true ↔
        sort = [] ∨ sort = "updated".toList := by
      rw [Bool.or_eq_true, List.isEmpty_iff, beq_iff_eq]
    rw [unlessUsual, if_congr hcond rfl rfl]
    split_ifs <;> rfl
  have hper : (if perPage = 0 ∨ perPage = 20 then []
      else [("per_page".toList, Text.ofInt perPage)]) =
      entry "per_page" (unlessUsual (perPage = 0 ∨ perPage = 20) (Text.ofInt perPage)) := by
    unfold unlessUsual
    split_ifs <;> rfl
  rw [← hpage, ← hsort, ← hper]
  rcases query with - | ⟨- | -⟩ <;> rfl

theorem nodup_keys_pairs (p : PageParams) : (p.pairs.map Prod.fst).Nodup := by
  have hkeys : (p.pairs.map Prod.fst).Sublist
      (["q".toList] ++ ["page".toList] ++ ["sort".toList] ++ ["per_page".toList]) := by
    rw [pairs_eq, List.map_append, List.map_append, List.map_append]
    exact (((keys_entry _ _).append (keys_entry _ _)).append
      (keys_entry _ _)).append (keys_entry _ _)
  exact hkeys.nodup (by decide)

theorem lookup_pairs (p : PageParams) :
    p.pairs.lookup "q".toList = (p.query.filter fun q => !q.isEmpty) ∧
      p.pairs.lookup "page".toList = unlessUsual (p.page ≤ 1) (Text.ofInt p.page) ∧
      p.pairs.lookup "sort".toList =
        unlessUsual (p.sort = [] ∨ p.sort = "updated".toList) p.sort ∧
      p.pairs.lookup "per_page".toList =
        unlessUsual (p.perPage = 0 ∨ p.perPage = 20) (Text.ofInt p.perPage) := by
  simp only [pairs_eq, List.lookup_append, lookup_entry]
  simp

theorem value?_eq_filter (params : List (Text × Text)) (key : Text) :
    value? params key = (params.lookup key).filter fun v => !v.isEmpty := by
  unfold value?
  cases params.lookup key with
  | none => rfl
  | some v => cases v <;> rfl

theorem isEmpty_ofInt (i : Int) : (Text.ofInt i).isEmpty = false := by
  cases i with
  | ofNat n => exact List.isEmpty_eq_false_iff.2 (Text.ofNat_ne_nil n)
  | negSucc n => rfl

theorem integerOr_unlessUsual {fallback i : Int} {usual : Prop} [Decidable usual]
    (hi : (Text.ofNat i.natAbs).length ≤ Reading.digitLimit) :
    integerOr fallback ((unlessUsual usual (Text.ofInt i)).filter fun v => !v.isEmpty) =
      if usual then fallback else i := by
  have hread : Reading.integer? (Text.ofInt i) = some i := by
    rw [Reading.integer?_ofInt, if_pos hi]
  unfold unlessUsual
  split_ifs
  · rfl
  · rw [Option.filter_some, isEmpty_ofInt, integerOr]
    simp [hread]

theorem read_pairs {p : PageParams} (h : p.IsReadable) : read p.pairs = p.completed := by
  obtain ⟨hquery, hpage, hsort, hper⟩ := lookup_pairs p
  have hpages : (if p.page ≤ 1 then 1 else p.page) = max 1 p.page := by
    split_ifs <;> omega
  have hsizes : (if p.perPage = 0 ∨ p.perPage = 20 then 20 else p.perPage) =
      if p.perPage = 0 then 20 else p.perPage := by
    split_ifs <;> omega
  have hsorts : ((unlessUsual (p.sort = [] ∨ p.sort = "updated".toList) p.sort).filter
      fun v => !v.isEmpty).getD "updated".toList =
        if p.sort.isEmpty then "updated".toList else p.sort := by
    unfold unlessUsual
    by_cases hnone : p.sort = []
    · rw [if_pos (.inl hnone), hnone]
      rfl
    · rw [List.isEmpty_eq_false_iff.2 hnone]
      by_cases husual : p.sort = "updated".toList
      · rw [if_pos (.inr husual)]
        exact husual.symm
      · rw [if_neg (not_or.2 ⟨hnone, husual⟩), Option.filter_some,
          List.isEmpty_eq_false_iff.2 hnone]
        rfl
  unfold read completed
  rw [value?_eq_filter, value?_eq_filter, value?_eq_filter, value?_eq_filter, hquery, hpage, hsort,
    hper, integerOr_unlessUsual h.1, integerOr_unlessUsual h.2, hpages, hsizes, hsorts,
    Option.filter_filter]
  simp only [Bool.and_self]

/-- A search comes out of its address as it went in, completed where it said nothing; each key
stands in the address once. So of two searches that say everything no two share an address. -/
theorem read_form_write :
    (∀ p : PageParams, p.IsReadable → read (Text.Form.read p.write) = p.completed ∧
      ((Text.Form.read p.write).map Prod.fst).Nodup) ∧
    Set.InjOn write {p | p.IsReadable ∧ p.IsExplicit} := by
  have hform (p : PageParams) : Text.Form.read p.write = p.pairs := Text.Form.read_write p.pairs
  constructor
  · intro p hp
    rw [hform]
    exact ⟨read_pairs hp, nodup_keys_pairs p⟩
  · rintro p ⟨hp, hexplicit⟩ p' ⟨hp', hexplicit'⟩ h
    calc p = p.completed := hexplicit.completed.symm
      _ = read (Text.Form.read p.write) := by rw [hform, read_pairs hp]
      _ = read (Text.Form.read p'.write) := by rw [h]
      _ = p'.completed := by rw [hform, read_pairs hp']
      _ = p' := hexplicit'.completed

def crowded : PageParams := ⟨some "label:\"a&b=c\" +é%20 😀", -3, [], -7⟩

def spaced : PageParams := ⟨some "a b", 2, "created", 5⟩

def plussed : PageParams := ⟨some "a+b", 2, "created", 5⟩

theorem read_form_write_crowded :
    crowded.IsReadable ∧
      read (Text.Form.read crowded.write) =
        ⟨some "label:\"a&b=c\" +é%20 😀", 1, "updated", -7⟩ ∧
      spaced.write ≠ plussed.write := by
  have hcrowded : crowded.IsReadable := by decide
  have hspaced : spaced.IsReadable ∧ spaced.IsExplicit :=
    ⟨by decide, by decide, by decide, by decide, by decide⟩
  have hplussed : plussed.IsReadable ∧ plussed.IsExplicit :=
    ⟨by decide, by decide, by decide, by decide, by decide⟩
  have hne : spaced ≠ plussed := by decide
  exact ⟨hcrowded, (read_form_write.1 crowded hcrowded).1,
    fun h => hne (read_form_write.2 hspaced hplussed h)⟩

end PullGauge.PageParams
