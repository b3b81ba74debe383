import Mathlib
import PullGauge.Record.Basic
import PullGauge.Proofs.Text.Trimming

/-!
# The address of a repository

An address tells a repository by its last two pieces. Slashes at its end do not count, and the two
pieces are read from the end, so that what stands before them may be anything.
-/

namespace PullGauge

namespace Text

variable {sep : Char}

theorem intercalate_append_two (sep : Char) (before : List Text) (a b : Text) :
    List.intercalate [sep] (before ++ [a, b]) = a ++ sep :: b ∨
      sep :: (a ++ sep :: b) <:+ List.intercalate [sep] (before ++ [a, b]) := by
  induction before with
  | nil =>
    left
    rw [List.nil_append, List.intercalate_cons_cons, List.intercalate_singleton, List.append_assoc]
    rfl
  | cons piece before ih =>
    obtain ⟨next, more, hrest⟩ := List.exists_cons_of_ne_nil
      (List.append_ne_nil_of_right_ne_nil before (List.cons_ne_nil a [b]))
    right
    rw [List.cons_append, hrest, List.intercalate_cons_cons, ← hrest, List.append_assoc]
    refine List.suffix_append_of_suffix ?_
    rcases ih with heq | hsuffix
    · rw [heq]
      exact List.suffix_refl _
    · exact List.suffix_cons_iff.2 (.inr hsuffix)

theorem reverse_cut_eq_iff {t a b : Text} :
    (∃ before, (cut sep t).reverse = b :: a :: before) ↔
      (t = a ++ sep :: b ∨ sep :: (a ++ sep :: b) <:+ t) ∧ sep ∉ a ∧ sep ∉ b := by
  constructor
  · rintro ⟨before, hpieces⟩
    have hcut : cut sep t = before.reverse ++ [a, b] := by
      rw [List.reverse_eq_iff.1 hpieces, List.reverse_cons, List.reverse_cons, List.append_assoc]
      rfl
    have hpiece {p : Text} (hp : p ∈ [a, b]) : sep ∉ p :=
      not_mem_of_mem_cut (hcut ▸ List.mem_append_right _ hp)
    refine ⟨?_, hpiece (by simp), hpiece (by simp)⟩
    have hends := intercalate_append_two sep before.reverse a b
    rwa [← hcut, intercalate_cut] at hends
  · rintro ⟨hends, ha, hb⟩
    have htwo : cut sep (a ++ sep :: b) = [a, b] := by
      rw [cut_append_sep ha, cut_of_not_mem hb]
    rcases hends with rfl | ⟨before, rfl⟩
    · exact ⟨[], by rw [htwo]; rfl⟩
    · refine ⟨(cut sep before).reverse, ?_⟩
      rw [cut_append, htwo, List.reverse_append]
      rfl

end Text

def IsPiece (t : Text) : Prop := t ≠ [] ∧ '/' ∉ t

instance (t : Text) : Decidable (IsPiece t) := inferInstanceAs (Decidable (_ ∧ _))

/-- Whether an address without slashes at its end is an owner and a name, or ends in them behind
a slash. -/
def EndsInPlace (address owner name : Text) : Prop :=
  (address = owner ++ '/' :: name ∨ '/' :: (owner ++ '/' :: name) <:+ address) ∧
    IsPiece owner ∧ IsPiece name

theorem repositoryOf_eq_ok_iff {url owner name : Text} :
    repositoryOf url = .ok (owner, name) ↔
      EndsInPlace (Text.dropTrailing (· == '/') url) owner name := by
  have hpieces : EndsInPlace (Text.dropTrailing (· == '/') url) owner name ↔
      (∃ before, (Text.cut '/' (Text.dropTrailing (· == '/') url)).reverse =
        name :: owner :: before) ∧ owner ≠ [] ∧ name ≠ [] := by
    rw [Text.reverse_cut_eq_iff, EndsInPlace, IsPiece, IsPiece]
    tauto
  rw [hpieces]
  unfold repositoryOf
  split
  · rename_i last first more hcut
    rw [hcut]
    split_ifs with hempty
    · refine ⟨nofun, ?_⟩
      rintro ⟨⟨before, htwo⟩, howner, hname⟩
      obtain ⟨rfl, rfl, -⟩ : last = name ∧ first = owner ∧ more = before := by simpa using htwo
      simp [howner, hname] at hempty
    · constructor
      · rintro ⟨⟩
        exact ⟨⟨more, rfl⟩, by simpa using hempty⟩
      · rintro ⟨⟨before, htwo⟩, -⟩
        obtain ⟨rfl, rfl, -⟩ : last = name ∧ first = owner ∧ more = before := by simpa using htwo
        rfl
  · rename_i hfew
    exact ⟨nofun, fun ⟨⟨before, hcut⟩, _⟩ => absurd hcut (hfew name owner before)⟩

theorem repositoryOf_eq_error_iff {url : Text} :
    repositoryOf url = .error (.notARepository url) ↔
      ∀ owner name, ¬ EndsInPlace (Text.dropTrailing (· == '/') url) owner name := by
  simp only [← repositoryOf_eq_ok_iff]
  constructor
  · intro h owner name hok
    rw [h] at hok
    cases hok
  · intro hnone
    unfold repositoryOf at hnone ⊢
    split
    · split_ifs with hempty
      · rfl
      · rename_i last first more hcut
        rw [hcut] at hnone
        exact absurd (if_neg hempty) (hnone first last)
    · rfl

theorem slash_notMem_of_repositoryOf {url owner name : Text}
    (h : repositoryOf url = .ok (owner, name)) : '/' ∉ owner ∧ '/' ∉ name :=
  have ⟨_, howner, hname⟩ := repositoryOf_eq_ok_iff.1 h
  ⟨howner.2, hname.2⟩

theorem exists_replicate_slash (url : Text) :
    ∃ n, url = Text.dropTrailing (· == '/') url ++ List.replicate n '/' := by
  refine ⟨(Text.trailing (· == '/') url).length, ?_⟩
  have hslashes : ∀ c ∈ Text.trailing (· == '/') url, c = '/' := by
    simpa using List.all_eq_true.1 (Text.all_trailing (· == '/') url)
  rw [← List.eq_replicate_of_mem hslashes, Text.dropTrailing_append_trailing]

theorem dropTrailing_slashes {t : Text} (h : t.getLast? ≠ some '/') (n : Nat) :
    Text.dropTrailing (· == '/') (t ++ List.replicate n '/') = t := by
  refine Text.dropTrailing_append (fun c hc => ?_) fun c hc => ?_
  · rw [List.eq_of_mem_replicate hc]
    rfl
  · rw [beq_eq_false_iff_ne]
    rintro rfl
    exact h hc

/-- An address less the slashes at its end gives an owner and a name exactly if it is these two,
or ends in them behind a slash; in every other case it is no address of a repository. So an owner
and a name are found again behind whatever ends in a slash, and whatever slashes come after
them. -/
theorem repositoryOf_ends :
    (∀ url, ∃ bare n, url = bare ++ List.replicate n '/' ∧ bare.getLast? ≠ some '/' ∧
      (∀ owner name, repositoryOf url = .ok (owner, name) ↔ EndsInPlace bare owner name) ∧
      (repositoryOf url = .error (.notARepository url) ↔
        ∀ owner name, ¬ EndsInPlace bare owner name)) ∧
    ∀ (lead owner name : Text) (n : Nat), (∀ c ∈ lead.getLast?, c = '/') → IsPiece owner →
      IsPiece name →
      repositoryOf (lead ++ owner ++ '/' :: name ++ List.replicate n '/') = .ok (owner, name) := by
  refine ⟨?exactly, ?found⟩
  case exactly =>
    intro url
    obtain ⟨n, hurl⟩ := exists_replicate_slash url
    refine ⟨_, n, hurl, ?_, fun _ _ => repositoryOf_eq_ok_iff, repositoryOf_eq_error_iff⟩
    intro hlast
    have hends : ∀ c ∈ (Text.dropTrailing (· == '/') url).getLast?, (c == '/') = false :=
      Text.getLast?_dropTrailing
    cases hends _ hlast
  case found =>
    intro lead owner name n hlead howner hname
    have hlast : (lead ++ owner ++ '/' :: name).getLast? ≠ some '/' := by
      rw [List.getLast?_append_of_ne_nil _ (List.cons_ne_nil _ _), List.getLast?_cons_of_ne_nil hname.1]
      exact fun h => hname.2 (List.mem_of_getLast? h)
    rw [repositoryOf_eq_ok_iff, dropTrailing_slashes hlast]
    refine ⟨?_, howner, hname⟩
    rcases List.eq_nil_or_concat lead with rfl | ⟨before, c, rfl⟩
    · exact .inl rfl
    · obtain rfl : c = '/' := hlead c (by simp)
      exact .inr ⟨before, by simp⟩

theorem repositoryOf_ends_slashes :
    repositoryOf "https://api.github.com/repos//octocat/hello//" = .ok ("octocat", "hello") ∧
      repositoryOf "octocat/hello" = .ok ("octocat", "hello") := by
  obtain ⟨-, hfound⟩ := repositoryOf_ends
  have howner : IsPiece "octocat" := by decide
  have hname : IsPiece "hello" := by decide
  have hlead : ∀ c ∈ "https://api.github.com/repos//".toList.getLast?, c = '/' := by
    rintro c ⟨⟩
    rfl
  exact ⟨hfound _ _ _ 2 hlead howner hname, hfound [] _ _ 0 (by simp) howner hname⟩

end PullGauge
