/-!
# Text as a list of characters

Everything the library reads or writes is a list of code points, so that offsets
and lengths count code points and every definition is a recursion on the list.
The operations below are the few that core lists lack: cutting at a separator,
finding a piece, dropping a trailing run. Beside each stands what pins it down: the
pieces of a cut hold no separator and join to the text again (`intercalate_cut`), `has`
is the infix relation of lists, and `dropPiece?` takes exactly the piece off the head.
-/

namespace PullGauge

abbrev Text := List Char

instance : Coe String Text := ⟨String.toList⟩

namespace Text

def dropTrailing (p : Char → Bool) (t : Text) : Text :=
  (t.reverse.dropWhile p).reverse

def trimBy (p : Char → Bool) (t : Text) : Text :=
  dropTrailing p (t.dropWhile p)

def trailing (p : Char → Bool) (t : Text) : Text :=
  (t.reverse.takeWhile p).reverse

theorem dropTrailing_append_trailing (p : Char → Bool) (t : Text) :
    dropTrailing p t ++ trailing p t = t := by
  rw [dropTrailing, trailing, ← List.reverse_append, List.takeWhile_append_dropWhile,
    List.reverse_reverse]

theorem all_trailing (p : Char → Bool) (t : Text) : (trailing p t).all p = true := by
  rw [trailing, List.all_reverse]
  exact List.all_takeWhile

def cut (sep : Char) : Text → List Text
  | [] => [[]]
  | c :: r =>
    if c = sep then [] :: cut sep r
    else match cut sep r with
      | [] => [[c]]
      | piece :: more => (c :: piece) :: more

@[simp] theorem cut_ne_nil (sep : Char) (t : Text) : cut sep t ≠ [] := by
  cases t with
  | nil => simp [cut]
  | cons c r =>
    by_cases h : c = sep
    · simp [cut, h]
    · simp only [cut, h, if_false]
      split <;> simp

theorem cut_of_not_mem {sep : Char} {t : Text} (h : sep ∉ t) : cut sep t = [t] := by
  induction t with
  | nil => rfl
  | cons c r ih =>
    rw [List.mem_cons, not_or] at h
    simp [cut, Ne.symm h.1, ih h.2]

theorem cut_append (sep : Char) (a b : Text) : cut sep (a ++ sep :: b) = cut sep a ++ cut sep b := by
  induction a with
  | nil => simp [cut]
  | cons c a ih =>
    rw [List.cons_append, cut, cut, ih]
    split
    · rfl
    · cases ha : cut sep a with
      | nil => exact absurd ha (cut_ne_nil sep a)
      | cons first more => rfl

theorem cut_append_sep {sep : Char} {a : Text} (h : sep ∉ a) (b : Text) :
    cut sep (a ++ sep :: b) = a :: cut sep b := by
  rw [cut_append, cut_of_not_mem h]
  rfl

theorem not_mem_of_mem_cut {sep : Char} {t piece : Text} (h : piece ∈ cut sep t) :
    sep ∉ piece := by
  induction t generalizing piece with
  | nil => simp_all [cut]
  | cons c r ih =>
    by_cases hc : c = sep
    · simp only [cut, hc, if_true, List.mem_cons] at h
      rcases h with rfl | h
      · simp
      · exact ih h
    · cases hr : cut sep r with
      | nil => exact absurd hr (cut_ne_nil sep r)
      | cons first more =>
        simp only [cut, hc, if_false, hr, List.mem_cons] at h
        rcases h with rfl | h
        · rw [List.mem_cons, not_or]
          exact ⟨Ne.symm hc, ih (by simp [hr])⟩
        · exact ih (by simp [hr, h])

theorem intercalate_cut (sep : Char) (t : Text) : List.intercalate [sep] (cut sep t) = t := by
  induction t with
  | nil => simp [cut, List.intercalate]
  | cons c r ih =>
    cases hr : cut sep r with
    | nil => exact absurd hr (cut_ne_nil sep r)
    | cons first more =>
      rw [hr] at ih
      by_cases hc : c = sep
      · simp [cut, hc, hr, List.intercalate] at ih ⊢
        exact ih
      · cases more <;> simp_all [cut, List.intercalate, List.intersperse]

def splitAtFirst (piece : Text) : Text → Option (Text × Text)
  | [] => if piece.isEmpty then some ([], []) else none
  | c :: r =>
    if piece.isPrefixOf (c :: r) then some ([], (c :: r).drop piece.length)
    else (splitAtFirst piece r).map fun (before, after) => (c :: before, after)

theorem eq_of_splitAtFirst {piece t a b : Text} (h : splitAtFirst piece t = some (a, b)) :
    t = a ++ piece ++ b := by
  induction t generalizing a with
  | nil =>
    simp only [splitAtFirst] at h
    split at h <;> simp_all
  | cons c r ih =>
    simp only [splitAtFirst] at h
    split at h
    · rename_i hp
      obtain ⟨s, hs⟩ := List.isPrefixOf_iff_prefix.1 hp
      simp only [Option.some.injEq, Prod.mk.injEq] at h
      rw [← h.1, ← h.2, ← hs]
      simp
    · obtain ⟨⟨x, y⟩, hx, hy⟩ := Option.map_eq_some_iff.1 h
      obtain ⟨rfl, rfl⟩ := Prod.mk.inj hy
      rw [ih hx]
      rfl

def has (piece : Text) : Text → Bool
  | [] => piece.isEmpty
  | c :: r => piece.isPrefixOf (c :: r) || has piece r

theorem has_iff {piece t : Text} : has piece t = true ↔ piece <:+: t := by
  induction t with
  | nil => simp [has]
  | cons c r ih => simp [has, ih, List.infix_cons_iff]

theorem forall_mem_of_all {p : Char → Prop} [DecidablePred p] {t : Text}
    (h : (t.all fun c => decide (p c)) = true) : ∀ c ∈ t, p c := by
  simpa using h

/-- The results of all matches from left to right; a match says how many characters it
takes, and `skip` characters at the head are taken already. -/
def findAllFrom {α : Type} (matchHead : Text → Option (α × Nat)) : Nat → Text → List α
  | _, [] => []
  | skip + 1, _ :: r => findAllFrom matchHead skip r
  | 0, c :: r =>
    match matchHead (c :: r) with
    | some (a, n) => a :: findAllFrom matchHead (n - 1) r
    | none => findAllFrom matchHead 0 r

def findAll {α : Type} (matchHead : Text → Option (α × Nat)) (t : Text) : List α :=
  findAllFrom matchHead 0 t

def dropPiece? : Text → Text → Option Text
  | [], t => some t
  | _ :: _, [] => none
  | p :: piece, c :: t => if c = p then dropPiece? piece t else none

theorem dropPiece?_eq_some_iff {piece t r : Text} :
    dropPiece? piece t = some r ↔ t = piece ++ r := by
  induction piece generalizing t with
  | nil => simp [dropPiece?]
  | cons p piece ih =>
    cases t with
    | nil => simp [dropPiece?]
    | cons c t =>
      by_cases h : c = p <;> simp [dropPiece?, h, ih]

def replaceChar (old : Char) (new : Text) (t : Text) : Text :=
  t.flatMap fun c => if c = old then new else [c]

def ofNat (n : Nat) : Text := Nat.toDigits 10 n

def ofInt : Int → Text
  | .ofNat n => ofNat n
  | .negSucc n => '-' :: ofNat (n + 1)

def padZeros (width : Nat) (t : Text) : Text :=
  List.replicate (width - t.length) '0' ++ t

end Text

end PullGauge
