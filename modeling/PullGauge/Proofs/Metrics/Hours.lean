import Mathlib
import PullGauge.Metrics.Summary
import PullGauge.Proofs.Calendar.Spans
import PullGauge.Proofs.Number.Magnitudes
import PullGauge.Proofs.Outcome.Rows

/-!
# Hours in doubles

Any two moments are at most `2 ^ 30` hours apart. Next to `2 ^ 84` that is lost in a double, so a sum
of hours stays below this bound however many there are. So their median and their mean can be told,
and rounded to one place.
-/

namespace PullGauge

open Binary64

def Number.IsWithin (k : Nat) (n : Number Float) : Prop :=
  ∃ x, n = .real x ∧ IsUpTo k x.toModel.unpack

theorem Number.IsWithin.mono {j k : Nat} {n : Number Float} (h : n.IsWithin j) (hjk : j ≤ k) :
    n.IsWithin k := by
  obtain ⟨x, rfl, hx⟩ := h
  exact ⟨x, rfl, hx.mono hjk⟩

variable {a b total : Number Float} {values : List (Number Float)}

section Sums

theorem Number.IsWithin.exists_add (ha : a.IsWithin 84) (hb : b.IsWithin 30) :
    ∃ c, a.add b = .ok c ∧ c.IsWithin 84 := by
  obtain ⟨x, rfl, hx⟩ := ha
  obtain ⟨y, rfl, hy⟩ := hb
  exact ⟨_, rfl, x + y, rfl, isUpTo_add hx hy (by decide) (by decide)⟩

theorem Number.IsWithin.exists_zero_add (hb : b.IsWithin 30) :
    ∃ c, (Number.int 0).add b = .ok c ∧ c.IsWithin 84 := by
  obtain ⟨y, rfl, hy⟩ := hb
  have hzero : IsUpTo 84 (ofWord false 0).toModel.unpack := trivial
  exact ⟨_, rfl, _, rfl, isUpTo_add hzero hy (by decide) (by decide)⟩

theorem exists_foldlM_add (hvalues : ∀ n ∈ values, n.IsWithin 30) (htotal : total.IsWithin 84) :
    ∃ last, values.foldlM Number.add total = .ok last ∧ last.IsWithin 84 := by
  induction values generalizing total with
  | nil => exact ⟨total, rfl, htotal⟩
  | cons n values ih =>
    obtain ⟨hn, hvalues⟩ := List.forall_mem_cons.1 hvalues
    obtain ⟨next, hnext, hwithin⟩ := htotal.exists_add hn
    obtain ⟨last, hlast, hlast'⟩ := ih hvalues hwithin
    refine ⟨last, ?_, hlast'⟩
    rw [List.foldlM_cons, hnext]
    exact hlast

end Sums

section Figures

theorem exists_mean_double (hvalues : ∀ n ∈ values, n.IsWithin 30)
    (hlength : values.length ≤ 2 ^ 1000) :
    ∃ average, mean values = .ok average ∧ ∀ x ∈ average, (Number.real x).IsWithin 86 := by
  cases values with
  | nil => exact ⟨none, rfl, nofun⟩
  | cons n values =>
    obtain ⟨hn, hrest⟩ := List.forall_mem_cons.1 hvalues
    obtain ⟨first, hfirst, hwithin⟩ := hn.exists_zero_add
    obtain ⟨last, hlast, x, rfl, hx⟩ := exists_foldlM_add hrest hwithin
    have hpos : 0 < (n :: values).length := Nat.succ_pos _
    obtain ⟨y, hy, hy'⟩ := exists_divInt hpos hlength hx (by decide)
    have hsum : Number.sum (n :: values) = .ok (.real x) := by
      rw [Number.sum, List.foldlM_cons, hfirst]
      exact hlast
    refine ⟨some y, ?_, fun z hz => ⟨y, by rw [Option.mem_some_iff.1 hz], hy'⟩⟩
    rw [mean, if_neg (by simp), hsum, Outcome.ok_bind, hy]
    rfl

theorem exists_median_double (hvalues : ∀ n ∈ values, n.IsWithin 30) :
    ∃ middle, median values = .ok middle ∧ ∀ n ∈ middle, n.IsWithin 86 := by
  have hordered {i : Nat} {n : Number Float} (hn : (ordered id values)[i]? = some n) :
      n.IsWithin 30 :=
    hvalues n ((List.mergeSort_perm values _).mem_iff.1 (List.mem_of_getElem? hn))
  unfold median medianBy
  dsimp only
  split_ifs with hodd
  · refine ⟨(ordered id values)[(ordered id values).length / 2]?, ?_, fun n hn => ?_⟩
    · cases (ordered id values)[(ordered id values).length / 2]? <;> rfl
    · exact (hordered hn).mono (by decide)
  · split
    · rename_i a b ha hb
      obtain ⟨c, hc, x, rfl, hx⟩ := ((hordered ha).mono (by decide)).exists_add (hordered hb)
      obtain ⟨y, hy, hy'⟩ := @exists_divInt _ 2 x (by decide) (by omega) hx (by decide)
      have hhalf : (Number.real x).divInt 2 = .ok y := hy
      refine ⟨some (.real y), ?_, fun n hn => ⟨y, (Option.mem_some_iff.1 hn).symm, hy'⟩⟩
      simp only [id_eq, hc, hhalf, Outcome.ok_bind]
      rfl
    · exact ⟨none, rfl, nofun⟩

theorem exists_rounded_double {n : Option (Number Float)} (h : ∀ a ∈ n, a.IsWithin 86) :
    ∃ x, Summary.rounded n = .ok x := by
  cases n with
  | none => exact ⟨none, rfl⟩
  | some a =>
    obtain ⟨x, rfl, hx⟩ := h a rfl
    obtain ⟨y, hy⟩ := exists_roundHalfUp hx
    exact ⟨some y, congrArg (Functor.map some) hy⟩

end Figures

end PullGauge
