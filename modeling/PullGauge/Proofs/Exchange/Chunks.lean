import Mathlib
import PullGauge.Exchange.Batch

/-!
# Lists in chunks

The chunks of a list are its slices at the multiples of the size. They are the only parts that put
together are the list, of which none is empty and all but the last have that size.
-/

namespace PullGauge

variable {α : Type} {size : Nat} {items : List α}

theorem ceilDiv_eq_succ {n : Nat} (hn : 0 < n) (h : 0 < size) :
    n ⌈/⌉ size = (n - size) ⌈/⌉ size + 1 := by
  refine eq_of_forall_ge_iff fun count => ?_
  cases count with
  | zero =>
    rw [ceilDiv_le_iff_le_mul h]
    omega
  | succ count =>
    rw [ceilDiv_le_iff_le_mul h, Nat.succ_le_succ_iff, ceilDiv_le_iff_le_mul h, Nat.mul_succ,
      Nat.sub_le_iff_le_add]

theorem chunksOf_eq_map (h : 0 < size) (items : List α) :
    chunksOf size h items = (List.range (items.length ⌈/⌉ size)).map fun index =>
      (items.drop (index * size)).take size := by
  fun_induction chunksOf size h items with
  | case1 => rw [List.length_nil, zero_ceilDiv, List.range_zero, List.map_nil]
  | case2 a r ih =>
    rw [ih, ceilDiv_eq_succ (List.length_pos_of_ne_nil (List.cons_ne_nil a r)) h,
      List.range_succ_eq_map, List.map_cons, List.map_map, List.length_drop, Nat.zero_mul,
      List.drop_zero]
    refine congrArg _ (List.map_congr_left fun index _ => ?_)
    rw [List.drop_drop, Function.comp_apply, Nat.succ_mul, Nat.add_comm]

theorem length_chunksOf (size : Nat) (h : 0 < size) (items : List α) :
    (chunksOf size h items).length = items.length ⌈/⌉ size := by
  rw [chunksOf_eq_map, List.length_map, List.length_range]

/-- Parts of a list as chunks of a size: put together they are the list, none is empty, and only
the last one may be shorter. -/
structure AreChunks (size : Int) (items : List α) (parts : List (List α)) : Prop where
  joined : parts.flatten = items
  filled : ∀ part ∈ parts, part ≠ []
  full : ∀ part ∈ parts.dropLast, (part.length : Int) = size
  short : ∀ part ∈ parts.getLast?, (part.length : Int) ≤ size

theorem length_of_mem_dropLast_chunksOf {h : 0 < size} {chunk : List α}
    (hc : chunk ∈ (chunksOf size h items).dropLast) : chunk.length = size := by
  rw [chunksOf_eq_map] at hc
  cases hcount : items.length ⌈/⌉ size with
  | zero =>
    rw [hcount] at hc
    cases hc
  | succ count =>
    rw [hcount, List.range_succ, List.map_append, List.map_singleton, List.dropLast_concat] at hc
    obtain ⟨index, hindex, rfl⟩ := List.mem_map.1 hc
    have hnext : ¬ items.length ⌈/⌉ size ≤ index + 1 := by
      rw [hcount, not_le]
      exact Nat.succ_lt_succ (List.mem_range.1 hindex)
    rw [ceilDiv_le_iff_le_mul h, not_le, Nat.mul_succ, Nat.mul_comm] at hnext
    rw [List.length_take, List.length_drop, min_eq_left (by omega)]

theorem areChunks_chunksOf (h : 0 < size) (items : List α) :
    AreChunks size items (chunksOf size h items) where
  joined := flatten_chunksOf size h items
  filled _ hc := (mem_chunksOf hc).1
  full _ hc := congrArg _ (length_of_mem_dropLast_chunksOf hc)
  short _ hc := Int.ofNat_le.2 (mem_chunksOf (List.mem_of_getLast? hc)).2

theorem chunksOf_of_ne_nil (h : 0 < size) (hne : items ≠ []) :
    chunksOf size h items = items.take size :: chunksOf size h (items.drop size) := by
  cases items with
  | nil => exact absurd rfl hne
  | cons a r => rw [chunksOf]

section Parts

variable {part : List α} {more : List (List α)} (hparts : AreChunks size items (part :: more))

include hparts

theorem AreChunks.tail : AreChunks size more.flatten more := by
  obtain ⟨-, hfilled, hfull, hshort⟩ := hparts
  refine ⟨rfl, (List.forall_mem_cons.1 hfilled).2, fun p hp => hfull p ?_, fun p hp => hshort p ?_⟩
  · rw [List.dropLast_cons_of_ne_nil (by rintro rfl; cases hp)]
    exact List.mem_cons_of_mem _ hp
  · rw [List.getLast?_cons, Option.mem_def.1 hp]
    rfl

theorem AreChunks.take_drop : items.take size = part ∧ items.drop size = more.flatten := by
  have hitems : items = part ++ more.flatten := hparts.joined.symm
  rw [hitems]
  cases more with
  | nil =>
    -- the last part may be short, but nothing is behind it
    have hshort : (part.length : Int) ≤ size := hparts.short part rfl
    rw [List.flatten_nil, List.append_nil]
    exact ⟨List.take_of_length_le (by omega), List.drop_eq_nil_of_le (by omega)⟩
  | cons next more =>
    have hfull : (part.length : Int) = size := hparts.full part (List.mem_cons_self ..)
    exact ⟨List.take_left' (by omega), List.drop_left' (by omega)⟩

end Parts

theorem AreChunks.eq_chunksOf {parts : List (List α)} (hparts : AreChunks size items parts)
    (h : 0 < size) : parts = chunksOf size h items := by
  induction parts generalizing items with
  | nil =>
    obtain rfl : items = [] := hparts.joined.symm
    rw [chunksOf]
  | cons part more ih =>
    obtain ⟨htake, hdrop⟩ := hparts.take_drop
    have hne : items ≠ [] := by
      rw [← hparts.joined]
      exact List.append_ne_nil_of_left_ne_nil (hparts.filled part (List.mem_cons_self ..)) _
    rw [chunksOf_of_ne_nil h hne, htake, hdrop, ← ih hparts.tail]

theorem chunks_eq (size : Int) (items : List α) : chunks size items =
    if h : 1 ≤ size then .ok (chunksOf size.toNat (by omega) items) else .error .emptyChunk := by
  unfold chunks
  split_ifs with hpos hsize hsize
  · rfl
  · omega
  · omega
  · rfl

theorem chunks_eq_ok_iff {size : Int} {items : List α} {parts : List (List α)} :
    chunks size items = .ok parts ↔ 1 ≤ size ∧ AreChunks size items parts := by
  rw [chunks_eq]
  split_ifs with hsize
  · have hpos : 0 < size.toNat := by omega
    have hcast : (size.toNat : Int) = size := by omega
    constructor
    · rintro ⟨⟩
      have hchunks := areChunks_chunksOf hpos items
      rw [hcast] at hchunks
      exact ⟨hsize, hchunks⟩
    · rintro ⟨-, hparts⟩
      rw [← hcast] at hparts
      rw [hparts.eq_chunksOf hpos]
  · exact ⟨nofun, fun h => absurd h.1 hsize⟩

/-- For a size of one or more a list has chunks, and these are the only parts of it that put
together are the list, of which none is empty, all but the last have the size and the last is no
longer. They are as many as the items over the size, rounded up. For less there is an error
instead. -/
theorem chunks_partition (size : Int) (items : List α) :
    ((∃ parts, chunks size items = .ok parts) ↔ 1 ≤ size) ∧
    (∀ parts, chunks size items = .ok parts ↔ 1 ≤ size ∧ AreChunks size items parts) ∧
    (∀ parts, chunks size items = .ok parts → parts.length = items.length ⌈/⌉ size.toNat) ∧
    (chunks size items = .error .emptyChunk ↔ size < 1) := by
  refine ⟨?some, fun _ => chunks_eq_ok_iff, ?count, ?none⟩
  case some =>
    refine ⟨fun ⟨_, h⟩ => (chunks_eq_ok_iff.1 h).1, fun hsize => ?_⟩
    rw [chunks_eq, dif_pos hsize]
    exact ⟨_, rfl⟩
  case count =>
    intro parts h
    have hsize := (chunks_eq_ok_iff.1 h).1
    rw [chunks_eq, dif_pos hsize] at h
    rw [← Except.ok.inj h, length_chunksOf]
  case none =>
    rw [chunks_eq]
    split_ifs with hsize
    · exact ⟨nofun, fun h => absurd hsize (by omega)⟩
    · exact ⟨fun _ => by omega, fun _ => rfl⟩

theorem chunks_partition_boundary :
    chunks 2 [1, 2, 3, 4, 5] = .ok [[1, 2], [3, 4], [5]] ∧
      chunks 2 [1, 2, 3, 4] = .ok [[1, 2], [3, 4]] ∧
      (∀ parts, chunks 2 [1, 2, 3, 4, 5] = .ok parts → parts.length = 3) ∧
      chunks 0 [1, 2, 3] = .error .emptyChunk := by
  obtain ⟨-, hover, hcount, -⟩ := chunks_partition 2 [1, 2, 3, 4, 5]
  obtain ⟨-, heven, -⟩ := chunks_partition 2 [1, 2, 3, 4]
  obtain ⟨-, -, -, hnone⟩ := chunks_partition 0 [1, 2, 3]
  refine ⟨(hover _).2 ⟨by decide, ?_⟩, (heven _).2 ⟨by decide, ?_⟩, hcount, hnone.2 (by decide)⟩
  · exact ⟨rfl, by decide, by decide, by decide⟩
  · exact ⟨rfl, by decide, by decide, by decide⟩

end PullGauge
