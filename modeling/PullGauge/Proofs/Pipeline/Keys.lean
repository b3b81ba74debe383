import Mathlib
import PullGauge.Pipeline.Key
import PullGauge.Proofs.Number.Integers

/-!
# No two lookups share a key

A key of commits is read from the left, as owners and names hold no slash. A key of a search
is read from the right, because the query may hold anything, the labels of the other fields
among it; these fields are integers and words without a bar. Keys of different kinds that are kept
in one cache are told apart by how many slashes or colons they hold.
-/

namespace PullGauge

namespace Text

variable {sep : Char} {a b x y : Text}

theorem eq_of_append_first (ha : sep ∉ a) (hb : sep ∉ b) (h : a ++ sep :: x = b ++ sep :: y) :
    a = b ∧ x = y := by
  induction a generalizing b with
  | nil =>
    cases b with
    | nil => exact ⟨rfl, List.tail_eq_of_cons_eq h⟩
    | cons c b =>
      have hc : sep = c := List.head_eq_of_cons_eq h
      exact absurd (hc ▸ List.mem_cons_self ..) hb
  | cons c a ih =>
    cases b with
    | nil =>
      have hc : c = sep := List.head_eq_of_cons_eq h
      exact absurd (hc ▸ List.mem_cons_self ..) ha
    | cons d b =>
      obtain rfl : c = d := List.head_eq_of_cons_eq h
      have htail := List.tail_eq_of_cons_eq h
      obtain ⟨rfl, rfl⟩ := ih (fun hm => ha (List.mem_cons_of_mem _ hm))
        (fun hm => hb (List.mem_cons_of_mem _ hm)) htail
      exact ⟨rfl, rfl⟩

theorem eq_of_append_last (hx : sep ∉ x) (hy : sep ∉ y) (h : a ++ sep :: x = b ++ sep :: y) :
    a = b ∧ x = y := by
  have hreverse := congrArg List.reverse h
  simp only [List.reverse_append, List.reverse_cons, List.append_assoc, List.singleton_append]
    at hreverse
  obtain ⟨hends, hstarts⟩ := eq_of_append_first (fun hm => hx (List.mem_reverse.1 hm))
    (fun hm => hy (List.mem_reverse.1 hm)) hreverse
  exact ⟨List.reverse_injective hstarts, List.reverse_injective hends⟩

theorem eq_of_append_field {label rest : Text} (hlabel : label = sep :: rest) (hrest : sep ∉ rest)
    (hx : sep ∉ x) (hy : sep ∉ y) (h : a ++ label ++ x = b ++ label ++ y) : a = b ∧ x = y := by
  subst hlabel
  rw [List.append_assoc, List.append_assoc, List.cons_append, List.cons_append] at h
  have hnone {z : Text} (hz : sep ∉ z) : sep ∉ rest ++ z := by
    intro hm
    rcases List.mem_append.1 hm with hm | hm
    · exact hrest hm
    · exact hz hm
  obtain ⟨hstart, hend⟩ := eq_of_append_last (hnone hx) (hnone hy) h
  exact ⟨hstart, List.append_cancel_left hend⟩

theorem bar_notMem_ofInt (i : Int) : '|' ∉ ofInt i := by
  have hdigits {n : Nat} : '|' ∉ ofNat n := by
    intro hm
    have hdigit := isDigit_of_mem_ofNat hm
    revert hdigit
    decide
  cases i with
  | ofNat n => exact hdigits
  | negSucc n =>
    intro hm
    rcases List.mem_cons.1 hm with hbar | hm
    · revert hbar
      decide
    · exact hdigits hm

end Text

namespace Client.SearchOptions

def IsDocumented (o : SearchOptions) : Prop :=
  o.sort ∈ [none, some "updated".toList, some "created".toList, some "comments".toList] ∧
    o.order ∈ [none, some "asc".toList, some "desc".toList]

instance (o : SearchOptions) : Decidable o.IsDocumented := inferInstanceAs (Decidable (_ ∧ _))

end Client.SearchOptions

namespace Key

theorem repository_inj {owner owner' name name' rest rest' : Text} (ho : '/' ∉ owner)
    (ho' : '/' ∉ owner') (hn : '/' ∉ name) (hn' : '/' ∉ name')
    (h : repository owner name ++ '/' :: rest = repository owner' name' ++ '/' :: rest') :
    owner = owner' ∧ name = name' ∧ rest = rest' := by
  simp only [repository, List.append_assoc, List.cons_append] at h
  obtain ⟨howner, hafter⟩ := Text.eq_of_append_first ho ho' h
  obtain ⟨hname, hrest⟩ := Text.eq_of_append_first hn hn' hafter
  exact ⟨howner, hname, hrest⟩

theorem commits_inj {owner owner' name name' : Text} {number number' : Payload} (ho : '/' ∉ owner)
    (ho' : '/' ∉ owner') (hn : '/' ∉ name) (hn' : '/' ∉ name')
    (h : commits owner name number = commits owner' name' number') :
    owner = owner' ∧ name = name' ∧ number.display = number'.display := by
  have hlabel : "/pr/".toList = '/' :: "pr/".toList := by decide
  rw [commits, commits, hlabel, List.append_assoc, List.append_assoc] at h
  obtain ⟨howner, hname, hnumber⟩ := repository_inj ho ho' hn hn' h
  exact ⟨howner, hname, List.append_cancel_left hnumber⟩

theorem bar_notMem_word {o : Client.SearchOptions} (h : o.IsDocumented) :
    '|' ∉ word o.sort ∧ '|' ∉ word o.order := by
  have hsorts : ∀ t ∈ [none, some "updated".toList, some "created".toList, some "comments".toList],
      '|' ∉ word t := by decide
  have horders : ∀ t ∈ [none, some "asc".toList, some "desc".toList], '|' ∉ word t := by decide
  exact ⟨hsorts _ h.1, horders _ h.2⟩

theorem word_inj {o o' : Client.SearchOptions} (h : o.IsDocumented) (h' : o'.IsDocumented) :
    (word o.sort = word o'.sort → o.sort = o'.sort) ∧
      (word o.order = word o'.order → o.order = o'.order) := by
  have hsorts : ∀ t ∈ [none, some "updated".toList, some "created".toList, some "comments".toList],
      ∀ u ∈ [none, some "updated".toList, some "created".toList, some "comments".toList],
        word t = word u → t = u := by decide
  have horders : ∀ t ∈ [none, some "asc".toList, some "desc".toList],
      ∀ u ∈ [none, some "asc".toList, some "desc".toList], word t = word u → t = u := by decide
  exact ⟨hsorts _ h.1 _ h'.1, horders _ h.2 _ h'.2⟩

theorem search_inj {query query' : Text} {o o' : Client.SearchOptions} (ho : o.IsDocumented)
    (ho' : o'.IsDocumented) (h : search query o = search query' o') : query = query' ∧ o = o' := by
  obtain ⟨hsort, horder⟩ := bar_notMem_word ho
  obtain ⟨hsort', horder'⟩ := bar_notMem_word ho'
  obtain ⟨hsorts, horders⟩ := word_inj ho ho'
  unfold search at h
  -- the fields come off from the right, since the query on the left may hold the same labels
  obtain ⟨hthree, hord⟩ := Text.eq_of_append_field (by decide : "|order=".toList = '|' :: "order=".toList)
    (by decide) horder horder' h
  obtain ⟨htwo, hso⟩ := Text.eq_of_append_field (by decide : "|sort=".toList = '|' :: "sort=".toList)
    (by decide) hsort hsort' hthree
  obtain ⟨hone, hper⟩ := Text.eq_of_append_field
    (by decide : "|per_page=".toList = '|' :: "per_page=".toList) (by decide)
    (Text.bar_notMem_ofInt _) (Text.bar_notMem_ofInt _) htwo
  obtain ⟨hquery, hpage⟩ := Text.eq_of_append_field (by decide : "|page=".toList = '|' :: "page=".toList)
    (by decide) (Text.bar_notMem_ofInt _) (Text.bar_notMem_ofInt _) hone
  refine ⟨List.append_cancel_left hquery, ?_⟩
  cases o
  cases o'
  simp only [Client.SearchOptions.mk.injEq]
  exact ⟨Text.ofInt_injective hpage, Text.ofInt_injective hper, hsorts hso, horders hord⟩

section Slashes

variable {owner owner' name name' : Text} (ho : '/' ∉ owner) (ho' : '/' ∉ owner') (hn : '/' ∉ name)
  (hn' : '/' ∉ name')

include ho ho'

theorem repository_eq_iff :
    repository owner name = repository owner' name' ↔ owner = owner' ∧ name = name' := by
  refine ⟨fun h => Text.eq_of_append_first ho ho' h, ?_⟩
  rintro ⟨rfl, rfl⟩
  rfl

include hn hn'

theorem commits_eq_iff {n n' : Int} : commits owner name (.int n) = commits owner' name' (.int n') ↔
    owner = owner' ∧ name = name' ∧ n = n' := by
  constructor
  · intro h
    obtain ⟨howner, hname, hnumber⟩ := commits_inj ho ho' hn hn' h
    exact ⟨howner, hname, Text.ofInt_injective hnumber⟩
  · rintro ⟨rfl, rfl, rfl⟩
    rfl

theorem details_eq_iff {n n' : Int} : details owner name (.int n) = details owner' name' (.int n') ↔
    owner = owner' ∧ name = name' ∧ n = n' := by
  rw [details, details, List.append_left_inj]
  exact commits_eq_iff ho ho' hn hn'

end Slashes

theorem repository_ne_details {owner owner' name name' : Text} (ho : '/' ∉ owner) (hn : '/' ∉ name)
    (number : Payload) : repository owner name ≠ details owner' name' number := by
  intro h
  have hone : (repository owner name).count '/' = 1 := by
    rw [repository, List.count_append, List.count_cons_self, List.count_eq_zero.2 ho,
      List.count_eq_zero.2 hn]
  have hmore : 2 ≤ (details owner' name' number).count '/' := by
    have hlabel : "/pr/".toList.count '/' = 2 := by decide
    rw [details, commits, List.count_append, List.count_append, List.count_append, hlabel]
    omega
  rw [h] at hone
  omega

theorem profile_ne_searcher (login : Text) : profile login ≠ searcher := by
  intro h
  have hcolon : ':' ∈ profile login := List.mem_append_left _ (by decide)
  have hnone : ':' ∉ searcher := by decide
  exact hnone (h ▸ hcolon)

/-- Lookups that differ have keys that differ, wherever they are kept together: searches among
searches, the commits of pull requests among themselves, the details of pull requests and the data
of repositories in one cache, and the profiles of users beside the searcher's account in another. -/
theorem apart_of_lookups :
    (∀ (query query' : Text) (o o' : Client.SearchOptions), o.IsDocumented → o'.IsDocumented →
      (search query o = search query' o' ↔ query = query' ∧ o = o')) ∧
    (∀ owner owner' name name' : Text, '/' ∉ owner → '/' ∉ owner' → '/' ∉ name → '/' ∉ name' →
      (∀ n n' : Int, commits owner name (.int n) = commits owner' name' (.int n') ↔
        owner = owner' ∧ name = name' ∧ n = n') ∧
      (∀ n n' : Int, details owner name (.int n) = details owner' name' (.int n') ↔
        owner = owner' ∧ name = name' ∧ n = n') ∧
      (repository owner name = repository owner' name' ↔ owner = owner' ∧ name = name') ∧
      ∀ n : Int, details owner name (.int n) ≠ repository owner' name') ∧
    ∀ login, profile login ≠ searcher := by
  refine ⟨?searches, ?slashes, profile_ne_searcher⟩
  case searches =>
    intro query query' o o' hdocumented hdocumented'
    refine ⟨fun h => search_inj hdocumented hdocumented' h, ?_⟩
    rintro ⟨rfl, rfl⟩
    rfl
  case slashes =>
    intro owner owner' name name' ho ho' hn hn'
    refine ⟨fun _ _ => commits_eq_iff ho ho' hn hn', fun _ _ => details_eq_iff ho ho' hn hn',
      repository_eq_iff ho ho', ?_⟩
    intro n h
    exact repository_ne_details ho' hn' (.int n) h.symm

/-- A query that spells out the fields of a search, and an owner named like a piece of a key. -/
theorem apart_of_lookups_spelled :
    search "is:pr|page=2|per_page=20|sort=updated|order=desc" {} ≠ search "is:pr" { page := 2 } ∧
    commits "pr" "pr" (.int 1) ≠ commits "pr" "pr" (.int (-1)) ∧
    details "pr" "pr" (.int 1) ≠ repository "pr" "details" := by
  obtain ⟨hsearch, hslash, -⟩ := apart_of_lookups
  obtain ⟨hcommits, -⟩ := hslash "pr" "pr" "pr" "pr" (by decide) (by decide) (by decide)
    (by decide)
  obtain ⟨-, -, -, hkinds⟩ := hslash "pr" "pr" "pr" "details" (by decide) (by decide) (by decide)
    (by decide)
  refine ⟨?_, ?_, hkinds 1⟩
  · rw [Ne, hsearch _ _ _ _ (by decide) (by decide)]
    decide
  · rw [Ne, hcommits]
    decide

end Key

end PullGauge
