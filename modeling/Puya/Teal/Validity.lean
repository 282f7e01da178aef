import Mathlib
import Puya.Teal.Lowering

/-! # Block validity after merging

    `_build_teal` lowers every subroutine and then calls `validate()` on every
    TEAL block. `TealBlock.validate` is not among the modelled sources; the
    spec's block-validity condition is used: the entry height plus the net
    stack effect of the ops is the exit height. `net` is the net stack effect
    of one TEAL op.

    Merging keeps the condition when every MIR block satisfies it for the ops
    the stack simulation emits for it, and every fall-through block is entered
    at the height its predecessor is left at. The invariant of the loop
    (`groupStep_valid`) is: every TEAL block so far is valid, and the last one
    is left as the last MIR block processed is. The heights then telescope
    across each run of merged blocks.
-/

namespace Puya.Teal

variable {Op TOp σ : Type}

/-- Block validity: entry height plus the net stack effect of the ops is the
    exit height. -/
def Valid (net : TOp → Int) (blk : TealBlock TOp) : Prop :=
  blk.entryStackHeight + (blk.ops.map net).sum = blk.exitStackHeight

instance (net : TOp → Int) : DecidablePred (Valid net) :=
  fun _ => inferInstanceAs (Decidable (_ = _))

/-- Modelled from the spec: `TealBlock.validate`, which is not among the
    modelled sources, checks the spec's block validity. -/
def validate (net : TOp → Int) (blk : TealBlock TOp) : Bool :=
  decide (Valid net blk)

/-- `_build_teal`: lower `main` and every subroutine, then validate every block
    (`none` when a block fails validation). -/
def buildTeal (S : StackSim Op TOp σ) (targets : Op → Option (List String)) (net : TOp → Int)
    (targetAvmVersion : Nat) (p : MirProgram Op) : Option (TealProgram TOp) :=
  let program : TealProgram TOp :=
    { id := p.id, targetAvmVersion, main := lowerSub S targets p.main,
      subroutines := p.subroutines.map (lowerSub S targets) }
  if program.allSubroutines.all fun s => s.blocks.all (validate net) then some program else none

@[simp] theorem modifyLast_nil {α : Type} (f : α → α) : ([] : List α).modifyLast f = [] := rfl

section Loop

variable (net : TOp → Int) (sub : MemorySubroutine Op) (refs : List String)

/-- One loop iteration keeps the invariant: all blocks valid, the last one
    left at the exit height of the MIR block just processed. -/
theorem groupStep_valid (blocks : List (TealBlock TOp)) (prev : Int) (idx : Nat)
    {b : MirBlock Op} {e : List TOp}
    (hv : ∀ blk ∈ blocks, Valid net blk)
    (hlast : ∀ l ∈ blocks.getLast?, l.exitStackHeight = prev)
    (hb : b.entryStackHeight + (e.map net).sum = b.exitStackHeight)
    (hfall : isHead refs idx b = false → b.entryStackHeight = prev) :
    (∀ blk ∈ groupStep sub refs blocks idx b e, Valid net blk) ∧
      ∀ l ∈ (groupStep sub refs blocks idx b e).getLast?, l.exitStackHeight = b.exitStackHeight := by
  unfold groupStep
  cases hh : isHead refs idx b
  · -- fall-through: the last block, if any, is extended
    rw [if_neg Bool.false_ne_true]
    rcases List.eq_nil_or_concat blocks with rfl | ⟨L, last, rfl⟩
    · simp
    · rw [List.concat_eq_append] at hv hlast ⊢
      rw [List.modifyLast_append_one]
      have hl : last.exitStackHeight = prev := hlast last (by simp)
      have hvl : Valid net last := hv last (by simp)
      refine ⟨fun blk h => ?_, fun l hl' => ?_⟩
      · rcases List.mem_append.1 h with h | h
        · exact hv blk (List.mem_append_left _ h)
        · rw [List.mem_singleton.1 h]
          simp only [Valid, closeWith, List.map_append, List.sum_append] at hvl ⊢
          have := hfall hh
          omega
      · simp only [List.getLast?_concat, Option.mem_def, Option.some.injEq] at hl'
        rw [← hl']
        rfl
  · -- a new block is opened for `b` and closed at once
    rw [if_pos rfl, List.modifyLast_append_one]
    refine ⟨fun blk h => ?_, fun l hl' => ?_⟩
    · rcases List.mem_append.1 h with h | h
      · exact hv blk h
      · rw [List.mem_singleton.1 h]
        simpa [Valid, closeWith, openBlock] using hb
    · simp only [List.getLast?_concat, Option.mem_def, Option.some.injEq] at hl'
      rw [← hl']
      rfl

/-- The loop keeps the invariant over any run of MIR blocks. -/
theorem groupFrom_valid (items : List (MirBlock Op × List TOp))
    (hitems : ∀ p ∈ items, p.1.entryStackHeight + (p.2.map net).sum = p.1.exitStackHeight)
    (hfall : ∀ i (h : i + 1 < items.length), items[i + 1].1.blockName ∉ refs →
      items[i + 1].1.entryStackHeight = items[i].1.exitStackHeight) :
    (∀ blk ∈ groupFrom sub refs 0 [] items, Valid net blk) ∧
      ∀ l ∈ (groupFrom sub refs 0 [] items).getLast?,
        some l.exitStackHeight = items.getLast?.map (·.1.exitStackHeight) := by
  induction items using List.reverseRecOn with
  | nil => simp [groupFrom]
  | append_singleton items x ih =>
    obtain ⟨ihv, ihl⟩ := ih (fun p hp => hitems p (List.mem_append_left _ hp)) fun i h hn => by
      have := hfall i (by simp; omega)
      simp only [List.getElem_append_left h, List.getElem_append_left (Nat.lt_of_succ_lt h)] at this
      exact this hn
    have hx := hitems x (by simp)
    rw [groupFrom_append_single, List.getLast?_concat, Option.map_some']
    rcases List.eq_nil_or_concat items with rfl | ⟨L, y, rfl⟩
    · -- the first MIR block always opens a block
      have step := groupStep_valid net sub refs [] 0 (0 + ([] : List (MirBlock Op × List TOp)).length)
        (by simp) (by simp) hx fun hh => by simp [isHead] at hh
      exact ⟨step.1, fun l hl => by rw [step.2 l hl]⟩
    · rw [List.concat_eq_append] at ihv ihl hfall ⊢
      have hxy := hfall L.length (by simp)
      simp [List.getElem_append_right, List.getElem_append_left] at hxy
      have step := groupStep_valid net sub refs _ y.1.exitStackHeight (0 + (L ++ [y]).length) ihv
        (fun l hl => by simpa using ihl l hl) hx fun hh => by
          simp only [isHead, decide_eq_false_iff_not, not_or] at hh
          simpa using hxy (by simpa using hh.2)
      exact ⟨step.1, fun l hl => by rw [step.2 l hl]⟩

end Loop

/-- Merging fall-through blocks keeps block validity: if every MIR block is
    valid for the ops emitted for it, and every MIR block that is not a branch
    target is entered at its predecessor's exit height, every TEAL block
    `_lower_sub` returns is valid. -/
theorem lowerSub_blocks_valid (S : StackSim Op TOp σ) (targets : Op → Option (List String))
    (net : TOp → Int) (sub : MemorySubroutine Op)
    (hblock : ∀ p ∈ sub.allBlocks.zip (emitted S sub S.init sub.allBlocks),
      p.1.entryStackHeight + (p.2.map net).sum = p.1.exitStackHeight)
    (hfall : ∀ i (h : i + 1 < sub.allBlocks.length),
      sub.allBlocks[i + 1].blockName ∉ getReferencedLabels targets sub →
        sub.allBlocks[i + 1].entryStackHeight = sub.allBlocks[i].exitStackHeight) :
    ∀ blk ∈ (lowerSub S targets sub).blocks,
      blk.entryStackHeight + (blk.ops.map net).sum = blk.exitStackHeight := by
  rw [lowerSub_blocks]
  refine (groupFrom_valid net sub _ _ hblock fun i h hn => ?_).1
  simp only [List.length_zip, emitted_length, min_self] at h
  simpa [List.getElem_zip] using hfall i h (by simpa [List.getElem_zip] using hn)

/-- A stack simulation that lowers each MIR op, here a list of words, to one
    TEAL op with the same words. -/
def passThrough : StackSim (List String) (List String) Unit where
  init := ()
  beginBlock _ _ _ := ()
  accept op _ := ([op], ())

/-- A push, then a fall-through block that pops it. -/
def pushPop : MemorySubroutine (List String) where
  isMain := false
  signatureName := "f"
  allBlocks := [
    { blockName := "f_block@0", ops := [["push"]], xStackIn := none,
      entryStackHeight := 0, exitStackHeight := 1 },
    { blockName := "f_block@1", ops := [["pop"]], xStackIn := none,
      entryStackHeight := 1, exitStackHeight := 0 }]

/-- The net stack effect of the ops of `pushPop`. -/
def pushPopNet (t : List String) : Int :=
  if t = ["push"] then 1 else if t = ["pop"] then -1 else 0

theorem lowerSub_pushPop_valid :
    (lowerSub passThrough (fun _ => none) pushPop).blocks.Forall (Valid pushPopNet) :=
  List.forall_iff_forall_mem.2 <|
    lowerSub_blocks_valid passThrough (fun _ => none) pushPopNet pushPop (by decide) fun i h _ => by
      obtain rfl : i = 0 := by simp [pushPop] at h; omega
      rfl

end Puya.Teal
