import Puya.Teal.Lowering

/-! # Fall-through merging in `_lower_sub`

    `_lower_sub` opens a TEAL block at the first MIR block and at every MIR
    block whose name is a branch target, and appends every other MIR block to
    the TEAL block before it. `mergedBlock` states the result in the terms of
    the indices `o_0 < o_1 < … < o_{m-1}` of the opening blocks, with
    `o_m = k`: the `j`-th TEAL block spans the MIR blocks `o_j ≤ i < o_{j+1}`.

    The proof goes by induction on the MIR blocks from the end
    (`List.reverseRecOn`). One more MIR block either opens a block, and the
    old `o_m = k` becomes a head, or extends the last block, and `o_m` moves
    by one. `groupFrom_append_single` says the loop does one `groupStep` for
    it; `headIdxs_append_single` and the `spanBlock_append_*` lemmas say the
    specification does the same.
-/

namespace Puya.Teal

variable {Op TOp σ : Type}

/-! ### Indexing helpers -/

section Indexing

variable {α : Type} [Inhabited α]

theorem getElem!_append_of_lt (l l' : List α) {i : Nat} (h : i < l.length) :
    (l ++ l')[i]! = l[i]! := by
  rw [getElem!_pos (l ++ l') i (by simp; omega), getElem!_pos l i h, List.getElem_append_left h]

theorem getElem!_append_length (l : List α) (x : α) : (l ++ [x])[l.length]! = x := by
  rw [getElem!_pos (l ++ [x]) l.length (by simp)]
  simp

end Indexing

/-! ### The specification, in the indices of the opening blocks -/

/-- The indices `o_0 < o_1 < …` of the MIR blocks that open a TEAL block. -/
def headIdxs (refs : List String) (bs : List (MirBlock Op)) : List Nat :=
  (List.range bs.length).filter fun i => isHead refs i bs[i]!

/-- The TEAL block spanning the MIR blocks `o ≤ i < o'`: named after `b_o`
    (after the signature for the first block of `main`), entered as `b_o` is,
    left as `b_{o'-1}` is, holding the ops emitted for `b_o, …, b_{o'-1}`. -/
def spanBlock (sub : MemorySubroutine Op) (bs : List (MirBlock Op)) (es : List (List TOp))
    (first : Bool) (o o' : Nat) : TealBlock TOp where
  label := if sub.isMain && first then sub.signatureName else bs[o]!.blockName
  ops := ((es.drop o).take (o' - o)).flatten
  xStack := bs[o]!.xStackIn.getD []
  entryStackHeight := bs[o]!.entryStackHeight
  exitStackHeight := bs[o' - 1]!.exitStackHeight

/-- The `j`-th merged TEAL block: the span from `o_j` to `o_{j+1}`. -/
def mergedBlock (sub : MemorySubroutine Op) (refs : List String) (bs : List (MirBlock Op))
    (es : List (List TOp)) (j : Nat) : TealBlock TOp :=
  spanBlock sub bs es (j == 0) (headIdxs refs bs)[j]! (headIdxs refs bs ++ [bs.length])[j + 1]!

/-- The `m` merged TEAL blocks, in order. -/
def mergedBlocks (sub : MemorySubroutine Op) (refs : List String) (bs : List (MirBlock Op))
    (es : List (List TOp)) : List (TealBlock TOp) :=
  (List.range (headIdxs refs bs).length).map (mergedBlock sub refs bs es)

/-! ### The heads -/

section Heads

variable (refs : List String)

theorem headIdxs_append_single (bs : List (MirBlock Op)) (b : MirBlock Op) :
    headIdxs refs (bs ++ [b]) =
      headIdxs refs bs ++ (if isHead refs bs.length b then [bs.length] else []) := by
  unfold headIdxs
  rw [List.length_append, List.length_singleton, List.range_succ, List.filter_append]
  congr 1
  · exact List.filter_congr fun i hi => by
      rw [getElem!_append_of_lt _ _ (List.mem_range.1 hi)]
  · cases h : isHead refs bs.length b <;> simp [List.filter, getElem!_append_length, h]

theorem lt_of_mem_headIdxs {bs : List (MirBlock Op)} {i : Nat} (h : i ∈ headIdxs refs bs) :
    i < bs.length :=
  List.mem_range.1 (List.mem_filter.1 h).1

theorem headIdxs_pairwise (bs : List (MirBlock Op)) : (headIdxs refs bs).Pairwise (· < ·) :=
  (List.pairwise_lt_range _).filter _

/-- Index `0` always opens a block, so there are no heads only when there are no blocks. -/
theorem headIdxs_eq_nil_iff (bs : List (MirBlock Op)) : headIdxs refs bs = [] ↔ bs = [] := by
  refine ⟨fun h => ?_, fun h => by simp [h, headIdxs]⟩
  cases bs with
  | nil => rfl
  | cons b bs =>
    have : 0 ∈ headIdxs refs (b :: bs) := by simp [headIdxs, isHead]
    simp [h] at this

/-- Consecutive bounds `o_j < o_{j+1} ≤ k`. -/
theorem headIdxs_span_bounds (bs : List (MirBlock Op)) {j : Nat}
    (hj : j < (headIdxs refs bs).length) :
    (headIdxs refs bs)[j]! < (headIdxs refs bs ++ [bs.length])[j + 1]! ∧
      (headIdxs refs bs ++ [bs.length])[j + 1]! ≤ bs.length := by
  have mem : ∀ i (hi : i < (headIdxs refs bs).length), (headIdxs refs bs)[i]! < bs.length :=
    fun i hi => by
      rw [getElem!_pos (headIdxs refs bs) i hi]; exact lt_of_mem_headIdxs refs (List.getElem_mem hi)
  rcases Nat.lt_or_ge (j + 1) (headIdxs refs bs).length with h | h
  · rw [getElem!_append_of_lt _ _ h]
    refine ⟨?_, (mem _ h).le⟩
    rw [getElem!_pos (headIdxs refs bs) j hj, getElem!_pos (headIdxs refs bs) (j + 1) h]
    exact List.pairwise_iff_getElem.1 (headIdxs_pairwise refs bs) j (j + 1) hj h (by omega)
  · rw [show j + 1 = (headIdxs refs bs).length by omega, getElem!_append_length]
    exact ⟨mem j hj, le_rfl⟩

end Heads

/-! ### One more MIR block -/

section Extend

variable (sub : MemorySubroutine Op) {bs : List (MirBlock Op)} {es : List (List TOp)}
  (b : MirBlock Op) (e : List TOp)

/-- A span that ends before the new block does not see it. -/
theorem spanBlock_append_inner (hl : es.length = bs.length) (f : Bool) {o o' : Nat}
    (ho : o < o') (ho' : o' ≤ bs.length) :
    spanBlock sub (bs ++ [b]) (es ++ [e]) f o o' = spanBlock sub bs es f o o' := by
  simp only [spanBlock, getElem!_append_of_lt bs [b] (show o < bs.length by omega),
    getElem!_append_of_lt bs [b] (show o' - 1 < bs.length by omega),
    List.drop_append_of_le_length (show o ≤ es.length by omega),
    List.take_append_of_le_length (show o' - o ≤ (es.drop o).length by simp; omega)]

/-- The span that ends at the old last block grows by the new block. -/
theorem spanBlock_append_last (hl : es.length = bs.length) (f : Bool) {o : Nat}
    (ho : o < bs.length) :
    spanBlock sub (bs ++ [b]) (es ++ [e]) f o (bs.length + 1) =
      closeWith b e (spanBlock sub bs es f o bs.length) := by
  have hd : (es.drop o).length = bs.length - o := by simp [hl]
  simp only [spanBlock, closeWith, getElem!_append_of_lt bs [b] ho, Nat.add_sub_cancel,
    getElem!_append_length, List.drop_append_of_le_length (show o ≤ es.length by omega),
    List.take_of_length_le (show (es.drop o ++ [e]).length ≤ bs.length + 1 - o by simp; omega),
    List.take_of_length_le (show (es.drop o).length ≤ bs.length - o by omega),
    List.flatten_append, List.flatten_singleton]

/-- The span of the new block alone is the block `_lower_sub` opens and closes for it. -/
theorem spanBlock_append_new (hl : es.length = bs.length) :
    spanBlock sub (bs ++ [b]) (es ++ [e]) (bs.length == 0) bs.length (bs.length + 1) =
      closeWith b e (openBlock sub bs.length b) := by
  have hd : (es ++ [e]).drop bs.length = [e] := by rw [← hl, List.drop_left]
  simp [spanBlock, closeWith, openBlock, getElem!_append_length, hd]

/-- A span of the old blocks whose ends are unchanged is unchanged. -/
theorem mergedBlock_append_of_ends (refs : List String) (hl : es.length = bs.length) {j : Nat}
    (hj : j < (headIdxs refs bs).length)
    (hstart : (headIdxs refs (bs ++ [b]))[j]! = (headIdxs refs bs)[j]!)
    (hend : (headIdxs refs (bs ++ [b]) ++ [bs.length + 1])[j + 1]! =
      (headIdxs refs bs ++ [bs.length])[j + 1]!) :
    mergedBlock sub refs (bs ++ [b]) (es ++ [e]) j = mergedBlock sub refs bs es j := by
  have hb := headIdxs_span_bounds refs bs hj
  unfold mergedBlock
  rw [hstart, List.length_append, List.length_singleton, hend]
  exact spanBlock_append_inner sub b e hl _ hb.1 hb.2

/-- The specification does one `groupStep` for one more MIR block. -/
theorem mergedBlocks_append_single (refs : List String) (hl : es.length = bs.length) :
    mergedBlocks sub refs (bs ++ [b]) (es ++ [e]) =
      groupStep sub refs (mergedBlocks sub refs bs es) bs.length b e := by
  have hm : (headIdxs refs bs).length = 0 ↔ bs.length = 0 := by
    simpa using headIdxs_eq_nil_iff refs bs
  have hs := headIdxs_append_single refs bs b
  unfold mergedBlocks groupStep
  cases hh : isHead refs bs.length b
  · -- `b` extends the last block: the end `o_m` moves from `k` to `k + 1`
    simp only [hh, Bool.false_eq_true, ite_false, List.append_nil] at hs ⊢
    obtain ⟨m, hm'⟩ : ∃ m, (headIdxs refs bs).length = m + 1 :=
      Nat.exists_eq_succ_of_ne_zero fun h => by simp [isHead, hm.1 h] at hh
    rw [hs, hm', List.range_succ, List.map_append, List.map_append, List.map_singleton,
      List.map_singleton, List.modifyLast_append_one]
    congr 1
    · refine List.map_congr_left fun j hj => ?_
      have hj := List.mem_range.1 hj
      refine mergedBlock_append_of_ends sub b e refs hl (by omega) (by rw [hs]) ?_
      rw [hs, getElem!_append_of_lt _ _ (show j + 1 < _ by omega),
        getElem!_append_of_lt _ _ (show j + 1 < _ by omega)]
    · have hlast : (headIdxs refs bs)[m]! < bs.length := lt_of_mem_headIdxs refs
        (by rw [getElem!_pos (headIdxs refs bs) m (by omega)]; exact List.getElem_mem _)
      simp only [mergedBlock, hs, List.length_append, List.length_singleton, ← hm',
        getElem!_append_length]
      rw [spanBlock_append_last sub b e hl _ hlast]
  · -- `b` opens a new block: the old end `k` becomes the head `o_m`
    simp only [hh, ite_true] at hs ⊢
    rw [hs, List.length_append, List.length_singleton, List.range_succ, List.map_append,
      List.map_singleton, List.modifyLast_append_one]
    congr 1
    · refine List.map_congr_left fun j hj => ?_
      have hj := List.mem_range.1 hj
      refine mergedBlock_append_of_ends sub b e refs hl hj
        (by rw [hs, getElem!_append_of_lt _ _ hj]) ?_
      rw [hs, getElem!_append_of_lt _ _ (show j + 1 < (headIdxs refs bs ++ [bs.length]).length by
        simp; omega)]
    · have e2 : (headIdxs refs bs ++ [bs.length] ++ [bs.length + 1])[(headIdxs refs bs).length + 1]! =
          bs.length + 1 := by
        simpa using getElem!_append_length (headIdxs refs bs ++ [bs.length]) (bs.length + 1)
      have h0 : ((headIdxs refs bs).length == 0) = (bs.length == 0) := by simpa using hm
      simp only [mergedBlock, hs, List.length_append, List.length_singleton,
        getElem!_append_length, e2, h0]
      rw [spanBlock_append_new sub b e hl]

end Extend

/-! ### The loop builds the merged blocks -/

/-- The grouping loop builds the specification's blocks. -/
theorem groupFrom_eq_mergedBlocks (sub : MemorySubroutine Op) (refs : List String)
    (items : List (MirBlock Op × List TOp)) :
    groupFrom sub refs 0 [] items =
      mergedBlocks sub refs (items.map Prod.fst) (items.map Prod.snd) := by
  induction items using List.reverseRecOn with
  | nil => simp [groupFrom, mergedBlocks, headIdxs]
  | append_singleton items x ih =>
    rw [groupFrom_append_single, ih, List.map_append, List.map_append, List.map_singleton,
      List.map_singleton, mergedBlocks_append_single sub x.1 x.2 refs (by simp)]
    simp

/-- `_lower_sub` returns exactly the `m` merged blocks: the `j`-th spans
    the MIR blocks `o_j ≤ i < o_{j+1}` and holds, in order, the TEAL ops the
    stack simulation emits for each of them. -/
theorem lowerSub_merges_fall_through (S : StackSim Op TOp σ)
    (targets : Op → Option (List String)) (sub : MemorySubroutine Op) :
    (lowerSub S targets sub).blocks =
      (List.range (headIdxs (getReferencedLabels targets sub) sub.allBlocks).length).map
        (mergedBlock sub (getReferencedLabels targets sub) sub.allBlocks
          (emitted S sub S.init sub.allBlocks)) := by
  rw [lowerSub_blocks, groupFrom_eq_mergedBlocks, List.map_fst_zip _ _ (by simp),
    List.map_snd_zip _ _ (by simp)]
  rfl

end Puya.Teal
