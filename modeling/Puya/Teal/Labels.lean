import Puya.Teal.Merge
import Puya.Teal.Validity

/-! # Labels of the lowered program

    Every TEAL block is named after the MIR block that opens it, except the
    first block of `main`, which `_lower_sub` names after the signature. That
    relabelling is the only way a label can repeat or a branch target can be
    lost:

    * if `main`'s first MIR block is itself a branch target (a loop at the very
      start of the program), the branch still names the MIR block, and no TEAL
      block carries that name any more (`buildTeal_loses_entry_target`);
    * if the signature name is the name of another block, two labels agree.

    `buildTeal_labels_resolve` proves label uniqueness and target resolution
    once both are excluded. Its proof reads the labels off `mergedBlock`: the
    labels of one subroutine are a sublist of its block names, with the
    signature name in place of the first for `main` (`lowerSub_labels_sublist`),
    and every op of a TEAL block was emitted for an op of one of its MIR blocks
    (`mem_lowerSub_ops`). Read in order, the ops of the TEAL blocks are those
    emitted for the MIR blocks (`lowerSub_ops_flatten`).
-/

namespace Puya.Teal

variable {Op TOp σ : Type}

/-- All subroutines of a MIR program, `main` first. -/
def MirProgram.allSubroutines (p : MirProgram Op) : List (MemorySubroutine Op) :=
  p.main :: p.subroutines

/-- The block names of every subroutine of a MIR program. -/
def MirProgram.blockNames (p : MirProgram Op) : List String :=
  p.allSubroutines.flatMap fun s => s.allBlocks.map (·.blockName)

/-- The labels of a TEAL program, subroutine by subroutine. -/
def TealProgram.labels (p : TealProgram TOp) : List String :=
  p.allSubroutines.flatMap fun s => s.blocks.map (·.label)

/-- The names the labels of a lowered subroutine are drawn from, in order:
    the block names, with the signature name in place of the first for `main`. -/
def entryNames (sub : MemorySubroutine Op) : List String :=
  match sub.isMain, sub.allBlocks with
  | true, _ :: rest => sub.signatureName :: rest.map (·.blockName)
  | _, bs => bs.map (·.blockName)

/-! ### Labels of one subroutine -/

/-- The labels `_lower_sub` gives from index `idx` on: one for each MIR block
    that opens a TEAL block. -/
def headLabels (sub : MemorySubroutine Op) (refs : List String) :
    Nat → List (MirBlock Op) → List String
  | _, [] => []
  | idx, b :: bs =>
    (if isHead refs idx b then [if sub.isMain && idx == 0 then sub.signatureName else b.blockName]
      else []) ++ headLabels sub refs (idx + 1) bs

theorem map_label_modifyLast (b : MirBlock Op) (e : List TOp) (blocks : List (TealBlock TOp)) :
    (blocks.modifyLast (closeWith b e)).map (·.label) = blocks.map (·.label) := by
  rcases List.eq_nil_or_concat blocks with rfl | ⟨L, x, rfl⟩
  · rfl
  · simp [List.modifyLast_append_one, closeWith]

/-- Closing a block keeps its label, so the loop's labels are the opening blocks'. -/
theorem groupFrom_labels (sub : MemorySubroutine Op) (refs : List String) (idx : Nat)
    (blocks : List (TealBlock TOp)) (items : List (MirBlock Op × List TOp)) :
    (groupFrom sub refs idx blocks items).map (·.label) =
      blocks.map (·.label) ++ headLabels sub refs idx (items.map Prod.fst) := by
  induction items generalizing idx blocks with
  | nil => simp [groupFrom, headLabels]
  | cons x items ih =>
    obtain ⟨b, e⟩ := x
    rw [groupFrom, ih, groupStep, map_label_modifyLast]
    cases h : isHead refs idx b <;> simp [headLabels, openBlock, h]

theorem lowerSub_labels (S : StackSim Op TOp σ) (targets : Op → Option (List String))
    (sub : MemorySubroutine Op) :
    (lowerSub S targets sub).blocks.map (·.label) =
      headLabels sub (getReferencedLabels targets sub) 0 sub.allBlocks := by
  rw [lowerSub_blocks, groupFrom_labels, List.map_fst_zip _ _ (by simp)]
  rfl

/-- Away from the first block of `main`, every label is the block's own name. -/
theorem headLabels_sublist (sub : MemorySubroutine Op) (refs : List String) (idx : Nat)
    (h : sub.isMain = false ∨ 0 < idx) (bs : List (MirBlock Op)) :
    List.Sublist (headLabels sub refs idx bs) (bs.map (·.blockName)) := by
  induction bs generalizing idx with
  | nil => exact List.Sublist.slnil
  | cons b bs ih =>
    have ih := @ih (idx + 1) (.inr (Nat.succ_pos _))
    have hne : ¬(sub.isMain = true ∧ idx = 0) := fun ⟨hm, h0⟩ => by
      rcases h with h | h <;> simp_all
    cases hh : isHead refs idx b
    · simpa [headLabels, hh] using ih.cons b.blockName
    · simpa [headLabels, hh, hne] using ih.cons₂ b.blockName

/-- The labels of a lowered subroutine are a sublist of its `entryNames`. -/
theorem lowerSub_labels_sublist (S : StackSim Op TOp σ) (targets : Op → Option (List String))
    (sub : MemorySubroutine Op) :
    List.Sublist ((lowerSub S targets sub).blocks.map (·.label)) (entryNames sub) := by
  rw [lowerSub_labels]
  generalize getReferencedLabels targets sub = refs
  rcases sub with ⟨isMain, sig, bs⟩
  cases isMain
  · simpa [entryNames] using headLabels_sublist _ refs 0 (.inl rfl) bs
  · cases bs with
    | nil => exact List.Sublist.slnil
    | cons b bs =>
      simpa [headLabels, entryNames, isHead] using
        (headLabels_sublist ⟨true, sig, b :: bs⟩ refs 1 (.inr Nat.one_pos) bs).cons₂ sig

/-- Every branch-target block other than `main`'s first lends its name to a label. -/
theorem name_mem_headLabels (sub : MemorySubroutine Op) (refs : List String) {idx : Nat}
    {bs : List (MirBlock Op)} {i : Nat} (hi : i < bs.length) (hhead : bs[i].blockName ∈ refs)
    (hmain : sub.isMain = true → idx + i ≠ 0) :
    bs[i].blockName ∈ headLabels sub refs idx bs := by
  induction bs generalizing idx i with
  | nil => simp at hi
  | cons b bs ih =>
    cases i with
    | zero =>
      have hne : ¬(sub.isMain = true ∧ idx = 0) := fun ⟨h1, h2⟩ => hmain h1 (by simpa using h2)
      simp only [List.getElem_cons_zero] at hhead ⊢
      simp [headLabels, isHead, hhead, hne]
    | succ i =>
      exact List.mem_append_right _ (ih (Nat.lt_of_succ_lt_succ hi) hhead fun h => by
        have := hmain h; omega)

/-- `main`'s signature names its first TEAL block. -/
theorem signature_mem_lowerSub_labels (S : StackSim Op TOp σ)
    (targets : Op → Option (List String)) (sub : MemorySubroutine Op) (hmain : sub.isMain = true)
    (hne : sub.allBlocks ≠ []) :
    sub.signatureName ∈ (lowerSub S targets sub).blocks.map (·.label) := by
  rw [lowerSub_labels]
  obtain ⟨b, bs, hbs⟩ := List.exists_cons_of_ne_nil hne
  simp [hbs, headLabels, isHead, hmain]

/-! ### Ops of one subroutine -/

theorem mem_acceptOps (S : StackSim Op TOp σ) {ops : List Op} {st : σ} {t : TOp}
    (h : t ∈ (acceptOps S ops st).1) : ∃ op ∈ ops, ∃ st', t ∈ (S.accept op st').1 := by
  induction ops generalizing st with
  | nil => simp [acceptOps] at h
  | cons op ops ih =>
    rcases List.mem_append.1 h with h | h
    · exact ⟨op, List.mem_cons_self _ _, st, h⟩
    · obtain ⟨op', hop', st', h'⟩ := ih h
      exact ⟨op', List.mem_cons_of_mem _ hop', st', h'⟩

theorem mem_emitted (S : StackSim Op TOp σ) (sub : MemorySubroutine Op) {s : σ}
    {bs : List (MirBlock Op)} {e : List TOp} (h : e ∈ emitted S sub s bs) :
    ∃ b ∈ bs, ∃ st, e = (acceptOps S b.ops st).1 := by
  induction bs generalizing s with
  | nil => simp [emitted] at h
  | cons b bs ih =>
    rcases List.mem_cons.1 h with h | h
    · exact ⟨b, List.mem_cons_self _ _, _, h⟩
    · obtain ⟨b', hb', st, h'⟩ := ih h
      exact ⟨b', List.mem_cons_of_mem _ hb', st, h'⟩

/-- Every TEAL op of a lowered subroutine was emitted for an op of one of its MIR blocks. -/
theorem mem_lowerSub_ops (S : StackSim Op TOp σ) (targets : Op → Option (List String))
    (sub : MemorySubroutine Op) {blk : TealBlock TOp} {t : TOp}
    (hblk : blk ∈ (lowerSub S targets sub).blocks) (ht : t ∈ blk.ops) :
    ∃ b ∈ sub.allBlocks, ∃ op ∈ b.ops, ∃ st, t ∈ (S.accept op st).1 := by
  rw [lowerSub_blocks, groupFrom_eq_mergedBlocks, List.map_snd_zip _ _ (by simp)] at hblk
  obtain ⟨j, -, rfl⟩ := List.mem_map.1 hblk
  obtain ⟨e, he, hte⟩ := List.mem_flatten.1 ht
  obtain ⟨b, hb, st, rfl⟩ := mem_emitted S sub (List.mem_of_mem_drop (List.mem_of_mem_take he))
  obtain ⟨op, hop, st', h⟩ := mem_acceptOps S hte
  exact ⟨b, hb, op, hop, st', h⟩

example :
    ∃ b ∈ pushPop.allBlocks, ∃ op ∈ b.ops, ∃ st, ["push"] ∈ (passThrough.accept op st).1 :=
  mem_lowerSub_ops passThrough (fun _ => none) pushPop (List.mem_cons_self _ _)
    (List.mem_cons_self _ _)

/-- One loop iteration appends the MIR block's ops to the last TEAL block,
    which exists: the iteration at index `0` opens one. -/
theorem groupStep_ops (sub : MemorySubroutine Op) (refs : List String)
    {blocks : List (TealBlock TOp)} {idx : Nat} (b : MirBlock Op) (e : List TOp)
    (h : blocks ≠ [] ∨ idx = 0) :
    groupStep sub refs blocks idx b e ≠ [] ∧
      ((groupStep sub refs blocks idx b e).map (·.ops)).flatten =
        (blocks.map (·.ops)).flatten ++ e := by
  have hflat : ((if isHead refs idx b then blocks ++ [openBlock sub idx b] else blocks).map
      (·.ops)).flatten = (blocks.map (·.ops)).flatten := by
    split <;> simp [openBlock]
  have hne : (if isHead refs idx b then blocks ++ [openBlock sub idx b] else blocks) ≠ [] := by
    rcases h with h | rfl
    · split <;> simp [h]
    · simp [isHead]
  rw [groupStep]
  generalize (if isHead refs idx b then blocks ++ [openBlock sub idx b] else blocks) = opened
    at hflat hne
  obtain ⟨L, x, rfl⟩ := (List.eq_nil_or_concat opened).resolve_left hne
  rw [List.concat_eq_append] at hflat ⊢
  rw [List.modifyLast_append_one]
  refine ⟨by simp, ?_⟩
  simp only [List.map_append, List.map_singleton, List.flatten_append, List.flatten_cons,
    List.flatten_nil, List.append_nil, closeWith] at hflat ⊢
  rw [← hflat, List.append_assoc]

/-- The grouping loop keeps every op, in order. -/
theorem groupFrom_ops (sub : MemorySubroutine Op) (refs : List String) (idx : Nat)
    (blocks : List (TealBlock TOp)) (items : List (MirBlock Op × List TOp))
    (h : blocks ≠ [] ∨ idx = 0) :
    ((groupFrom sub refs idx blocks items).map (·.ops)).flatten =
      (blocks.map (·.ops)).flatten ++ (items.map Prod.snd).flatten := by
  induction items generalizing idx blocks with
  | nil => simp [groupFrom]
  | cons x items ih =>
    obtain ⟨b, e⟩ := x
    obtain ⟨hne, hstep⟩ := groupStep_ops sub refs b e h
    rw [groupFrom, ih _ _ (.inl hne), hstep]
    simp

/-- Merging loses and repeats no op: the ops of the lowered blocks, read in
    order, are the ops the stack simulation emits for the MIR blocks, in order. -/
theorem lowerSub_ops_flatten (S : StackSim Op TOp σ) (targets : Op → Option (List String))
    (sub : MemorySubroutine Op) :
    ((lowerSub S targets sub).blocks.map (·.ops)).flatten =
      (emitted S sub S.init sub.allBlocks).flatten := by
  rw [lowerSub_blocks, groupFrom_ops _ _ _ _ _ (.inr rfl), List.map_snd_zip _ _ (by simp)]
  simp

/-! ### The whole program -/

section Program

variable (S : StackSim Op TOp σ) (targets : Op → Option (List String))
  (tealTargets : TOp → List String) (net : TOp → Int) (v : Nat)

theorem buildTeal_eq_some {prog : MirProgram Op} {p : TealProgram TOp}
    (h : buildTeal S targets net v prog = some p) :
    p.allSubroutines = prog.allSubroutines.map (lowerSub S targets) := by
  simp only [buildTeal] at h
  split at h
  · cases h; rfl
  · cases h

/-- For a program whose block names are pairwise distinct, whose branches
    name blocks of their own subroutine, and whose stack simulation emits
    only the targets of the MIR op, and provided that only `main` is flagged
    `is_main`, that `main`'s first block is a branch target only when it is
    named like the signature, and that the signature name is the name of no
    other block, the labels of the program `_build_teal` builds are pairwise
    distinct and every branch target of a TEAL op is a label of its own
    subroutine. -/
theorem buildTeal_labels_resolve (prog : MirProgram Op)
    (hnames : prog.blockNames.Nodup)
    (hown : ∀ s ∈ prog.allSubroutines, ∀ b ∈ s.allBlocks, ∀ op ∈ b.ops,
      ∀ l ∈ (targets op).getD [], ∃ b' ∈ s.allBlocks, b'.blockName = l)
    (hkeep : ∀ op st, ∀ t ∈ (S.accept op st).1, ∀ l ∈ tealTargets t, l ∈ (targets op).getD [])
    (honly : ∀ s ∈ prog.subroutines, s.isMain = false)
    (hentry : ∀ b ∈ prog.main.allBlocks.head?,
      b.blockName ∈ getReferencedLabels targets prog.main → b.blockName = prog.main.signatureName)
    (hsig : prog.main.signatureName ∉ prog.main.allBlocks.tail.map (·.blockName) ++
      prog.subroutines.flatMap fun s => s.allBlocks.map (·.blockName))
    (p : TealProgram TOp) (hp : buildTeal S targets net v prog = some p) :
    p.labels.Nodup ∧
      ∀ s ∈ p.allSubroutines, ∀ blk ∈ s.blocks, ∀ t ∈ blk.ops, ∀ l ∈ tealTargets t,
        ∃ blk' ∈ s.blocks, blk'.label = l := by
  have hsubs := buildTeal_eq_some S targets net v hp
  constructor
  · -- the labels are a sublist of the entry names, which are distinct
    have hsl : List.Sublist p.labels (prog.allSubroutines.flatMap entryNames) := by
      rw [TealProgram.labels, hsubs, List.flatMap_map]
      induction prog.allSubroutines with
      | nil => exact List.Sublist.slnil
      | cons s ss ih => exact (lowerSub_labels_sublist S targets s).append ih
    refine hsl.nodup ?_
    have hrest : prog.subroutines.flatMap entryNames =
        prog.subroutines.flatMap fun s => s.allBlocks.map (·.blockName) :=
      List.flatMap_congr fun s hs => by simp [entryNames, honly s hs]
    simp only [MirProgram.blockNames, MirProgram.allSubroutines, List.flatMap_cons] at hnames ⊢
    rw [hrest]
    rcases hm : prog.main with ⟨isMain, sig, bs⟩
    rw [hm] at hnames hsig
    match isMain, bs with
    | true, b :: rest =>
      simp only [entryNames, List.map_cons, List.cons_append, List.tail_cons] at hnames hsig ⊢
      exact List.nodup_cons.2 ⟨hsig, (List.nodup_cons.1 hnames).2⟩
    | true, [] => simpa [entryNames] using hnames
    | false, bs => simpa [entryNames] using hnames
  · intro s hs blk hblk t ht l hl
    rw [hsubs] at hs
    obtain ⟨sub, hsub, rfl⟩ := List.mem_map.1 hs
    obtain ⟨b, hb, op, hop, st, hts⟩ := mem_lowerSub_ops S targets sub hblk ht
    have hl' := hkeep op st t hts l hl
    obtain ⟨b', hb', rfl⟩ := hown sub hsub b hb op hop l hl'
    have href : b'.blockName ∈ getReferencedLabels targets sub :=
      (mem_getReferencedLabels targets sub _).2 ⟨b, hb, op, hop, hl'⟩
    obtain ⟨i, hi, rfl⟩ := List.getElem_of_mem hb'
    suffices sub.allBlocks[i].blockName ∈ (lowerSub S targets sub).blocks.map (·.label) by
      simpa using this
    by_cases h : sub.isMain = true ∧ i = 0
    · -- only `main` is flagged, and its first block is named like the signature
      obtain ⟨hmain, rfl⟩ := h
      have hsm : sub = prog.main := by
        rcases List.mem_cons.1 hsub with h | h
        · exact h
        · simp [honly sub h] at hmain
      subst hsm
      rw [hentry _ (by rw [List.head?_eq_getElem?, List.getElem?_eq_getElem hi]; rfl) href]
      exact signature_mem_lowerSub_labels S targets _ hmain (List.ne_nil_of_length_pos hi)
    · rw [lowerSub_labels]
      exact name_mem_headLabels sub _ hi href fun hm h0 => h ⟨hm, by simpa using h0⟩

end Program

/-! ### A loop at the very start of `main` -/

/-- `main` is one block that branches back to itself. -/
def loopAtEntry : MirProgram (List String) where
  id := "loop"
  main := { isMain := true, signatureName := "main", allBlocks :=
    [{ blockName := "main_block@0", ops := [["main_block@0"]], xStackIn := none,
       entryStackHeight := 0, exitStackHeight := 0 }] }
  subroutines := []

/-- Label resolution fails at `loopAtEntry`: its block names are distinct, its one
    branch names a block of `main`, the lowering keeps the target, the program
    is built, and the target names no TEAL block: the block is labelled `main`. -/
theorem buildTeal_loses_entry_target :
    loopAtEntry.blockNames.Nodup ∧
      (∀ s ∈ loopAtEntry.allSubroutines, ∀ b ∈ s.allBlocks, ∀ op ∈ b.ops,
        ∀ l ∈ (some op).getD [], ∃ b' ∈ s.allBlocks, b'.blockName = l) ∧
      ¬ ∀ p, buildTeal passThrough some (fun _ => (0 : Int)) 10 loopAtEntry = some p →
        ∀ s ∈ p.allSubroutines, ∀ blk ∈ s.blocks, ∀ t ∈ blk.ops, ∀ l ∈ t,
          ∃ blk' ∈ s.blocks, blk'.label = l := by
  refine ⟨by decide, by decide, fun h => ?_⟩
  have := h _ rfl
  revert this
  decide

/-- `main` enters a loop after its first block. -/
def loopAfterEntry : MirProgram (List String) where
  id := "loop"
  main := { isMain := true, signatureName := "main", allBlocks :=
    [{ blockName := "main_block@0", ops := [], xStackIn := none,
       entryStackHeight := 0, exitStackHeight := 0 },
     { blockName := "main_while_top@1", ops := [["main_while_top@1"]], xStackIn := none,
       entryStackHeight := 0, exitStackHeight := 0 }] }
  subroutines := []

theorem buildTeal_loopAfterEntry_labels_resolve :
    ∃ p, buildTeal passThrough some (fun _ => (0 : Int)) 10 loopAfterEntry = some p ∧ p.labels.Nodup ∧
      ∀ s ∈ p.allSubroutines, ∀ blk ∈ s.blocks, ∀ t ∈ blk.ops, ∀ l ∈ id t,
        ∃ blk' ∈ s.blocks, blk'.label = l :=
  ⟨_, rfl, buildTeal_labels_resolve passThrough some id (fun _ => 0) 10 loopAfterEntry
    (by decide) (by decide) (fun _ _ _ ht _ hl => by simp_all [passThrough]) (by decide)
    (by decide) (by decide) _ rfl⟩

end Puya.Teal
