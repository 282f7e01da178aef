import Mathlib.Data.List.Basic

/-! # MIR → TEAL lowering of one subroutine

    A model of `_lower_sub` and `_get_referenced_labels` (`puya/teal/main.py`).

    The MIR and TEAL records and the stack simulation live in modules that are
    not among the modelled sources. The records keep the fields `_lower_sub`
    reads and writes; the stack simulation is a parameter `StackSim`, threaded
    through the whole subroutine as the code threads its one `Stack` object;
    the branch targets of a MIR op are a parameter `targets`, `none` for an op
    that is not a `BranchingOp`.

    The loop keeps a list of TEAL blocks and mutates its last element. It is
    modelled as a recursion over the MIR blocks whose accumulator is the stack
    and the block list. `lowerBlocks_snd` separates the two: the TEAL ops each
    MIR block contributes are those of a stack run that never looks at the
    grouping (`emitted`), and the grouping is a fold over the MIR blocks paired
    with those ops (`groupFrom`). Every later result is about `groupFrom`.
-/

namespace Puya.Teal

/-! ### MIR and TEAL records -/

/-- A MIR block (`MemoryBasicBlock`), with the fields `_lower_sub` reads. -/
structure MirBlock (Op : Type) where
  blockName : String
  ops : List Op
  /-- `x_stack_in`: the x-stack at entry, when the block has one. -/
  xStackIn : Option (List String)
  entryStackHeight : Int
  exitStackHeight : Int
  deriving Inhabited

/-- A MIR subroutine (`MemorySubroutine`). Of its signature only `name` is read. -/
structure MemorySubroutine (Op : Type) where
  isMain : Bool
  signatureName : String
  /-- `all_blocks`, in order. -/
  allBlocks : List (MirBlock Op)

/-- A MIR program: `main` and the other subroutines. -/
structure MirProgram (Op : Type) where
  id : String
  main : MemorySubroutine Op
  subroutines : List (MemorySubroutine Op)

/-- A TEAL block (`TealBlock`). -/
structure TealBlock (TOp : Type) where
  label : String
  ops : List TOp
  xStack : List String
  entryStackHeight : Int
  exitStackHeight : Int

/-- A TEAL subroutine (`TealSubroutine`). -/
structure TealSubroutine (TOp : Type) where
  isMain : Bool
  signatureName : String
  blocks : List (TealBlock TOp)

/-- A TEAL program (`TealProgram`). -/
structure TealProgram (TOp : Type) where
  id : String
  targetAvmVersion : Nat
  main : TealSubroutine TOp
  subroutines : List (TealSubroutine TOp)

/-- `all_subroutines`: `main` first, then the others. -/
def TealProgram.allSubroutines {TOp : Type} (p : TealProgram TOp) : List (TealSubroutine TOp) :=
  p.main :: p.subroutines

/-- The stack simulation `_lower_sub` drives (`Stack`): its state after
    `Stack(allow_virtual=False)`, `begin_block`, and the visitor
    `mir_op.accept(stack)`, which returns the TEAL ops for one MIR op. -/
structure StackSim (Op TOp σ : Type) where
  init : σ
  beginBlock : σ → MemorySubroutine Op → MirBlock Op → σ
  accept : Op → σ → List TOp × σ

variable {Op TOp σ : Type}

/-! ### The lowering loop -/

/-- `_get_referenced_labels`: the targets of every branching op, in a list
    that stands for the code's set (only membership is read). -/
def getReferencedLabels (targets : Op → Option (List String))
    (sub : MemorySubroutine Op) : List String :=
  sub.allBlocks.foldl (fun result b => b.ops.foldl (fun result op =>
    match targets op with
    | some ts => result ++ ts
    | none => result) result) []

/-- `teal_op for mir_op in mir_block.ops for teal_op in mir_op.accept(stack)`,
    with the stack threaded through the ops. -/
def acceptOps (S : StackSim Op TOp σ) : List Op → σ → List TOp × σ
  | [], s => ([], s)
  | op :: ops, s =>
    let r := S.accept op s
    let rs := acceptOps S ops r.2
    (r.1 ++ rs.1, rs.2)

/-- `block_idx == 0 or mir_block.block_name in referenced_labels`. -/
def isHead (refs : List String) (idx : Nat) (b : MirBlock Op) : Bool :=
  decide (idx = 0 ∨ b.blockName ∈ refs)

/-- The TEAL block `_lower_sub` opens at MIR block `b` of index `idx`. -/
def openBlock (sub : MemorySubroutine Op) (idx : Nat) (b : MirBlock Op) : TealBlock TOp where
  label := if sub.isMain && idx == 0 then sub.signatureName else b.blockName
  ops := []
  xStack := b.xStackIn.getD []
  entryStackHeight := b.entryStackHeight
  exitStackHeight := -1

/-- The update of `last_block = sub.blocks[-1]`: its exit height becomes the MIR
    block's, and the lowered ops are appended. -/
def closeWith (b : MirBlock Op) (ops : List TOp) (last : TealBlock TOp) : TealBlock TOp :=
  { last with exitStackHeight := b.exitStackHeight, ops := last.ops ++ ops }

/-- The loop of `_lower_sub` over `enumerate(mir_sub.all_blocks)`, from index
    `idx` with the stack and the TEAL blocks so far. `sub.blocks[-1]` is never
    taken of an empty list: the iteration at index `0` always opens a block. -/
def lowerBlocks (S : StackSim Op TOp σ) (sub : MemorySubroutine Op) (refs : List String) :
    Nat → σ × List (TealBlock TOp) → List (MirBlock Op) → σ × List (TealBlock TOp)
  | _, acc, [] => acc
  | idx, (stack, blocks), b :: rest =>
    let stack := S.beginBlock stack sub b
    let blocks := if isHead refs idx b then blocks ++ [openBlock sub idx b] else blocks
    let r := acceptOps S b.ops stack
    lowerBlocks S sub refs (idx + 1) (r.2, blocks.modifyLast (closeWith b r.1)) rest

/-- `_lower_sub`. -/
def lowerSub (S : StackSim Op TOp σ) (targets : Op → Option (List String))
    (sub : MemorySubroutine Op) : TealSubroutine TOp where
  isMain := sub.isMain
  signatureName := sub.signatureName
  blocks := (lowerBlocks S sub (getReferencedLabels targets sub) 0 (S.init, []) sub.allBlocks).2

/-! ### Separating the stack run from the grouping -/

/-- The TEAL ops the stack simulation emits for each MIR block of `bs`, after
    `begin_block` on that block, starting from stack state `s`. -/
def emitted (S : StackSim Op TOp σ) (sub : MemorySubroutine Op) :
    σ → List (MirBlock Op) → List (List TOp)
  | _, [] => []
  | s, b :: bs =>
    let r := acceptOps S b.ops (S.beginBlock s sub b)
    r.1 :: emitted S sub r.2 bs

/-- The block-list part of one loop iteration. -/
def groupStep (sub : MemorySubroutine Op) (refs : List String) (blocks : List (TealBlock TOp))
    (idx : Nat) (b : MirBlock Op) (ops : List TOp) : List (TealBlock TOp) :=
  (if isHead refs idx b then blocks ++ [openBlock sub idx b] else blocks).modifyLast (closeWith b ops)

/-- The block-list part of the loop, over MIR blocks paired with their TEAL ops. -/
def groupFrom (sub : MemorySubroutine Op) (refs : List String) :
    Nat → List (TealBlock TOp) → List (MirBlock Op × List TOp) → List (TealBlock TOp)
  | _, blocks, [] => blocks
  | idx, blocks, (b, ops) :: rest => groupFrom sub refs (idx + 1) (groupStep sub refs blocks idx b ops) rest

section Separation

variable (S : StackSim Op TOp σ) (sub : MemorySubroutine Op) (refs : List String)

@[simp] theorem emitted_length (s : σ) (bs : List (MirBlock Op)) :
    (emitted S sub s bs).length = bs.length := by
  induction bs generalizing s <;> simp [emitted, *]

/-- The TEAL blocks of the loop are the grouping of the MIR blocks paired with
    the ops of the stack run. -/
theorem lowerBlocks_snd (idx : Nat) (s : σ) (blocks : List (TealBlock TOp))
    (bs : List (MirBlock Op)) :
    (lowerBlocks S sub refs idx (s, blocks) bs).2 =
      groupFrom sub refs idx blocks (bs.zip (emitted S sub s bs)) := by
  induction bs generalizing idx s blocks with
  | nil => rfl
  | cons b bs ih => exact ih ..

theorem lowerSub_blocks (targets : Op → Option (List String)) :
    (lowerSub S targets sub).blocks =
      groupFrom sub (getReferencedLabels targets sub) 0 []
        (sub.allBlocks.zip (emitted S sub S.init sub.allBlocks)) :=
  lowerBlocks_snd ..

end Separation

/-- One more MIR block at the end of the loop is one more `groupStep`. -/
theorem groupFrom_append_single (sub : MemorySubroutine Op) (refs : List String) (idx : Nat)
    (blocks : List (TealBlock TOp)) (items : List (MirBlock Op × List TOp))
    (x : MirBlock Op × List TOp) :
    groupFrom sub refs idx blocks (items ++ [x]) =
      groupStep sub refs (groupFrom sub refs idx blocks items) (idx + items.length) x.1 x.2 := by
  induction items generalizing idx blocks with
  | nil => rfl
  | cons y items ih =>
    rw [List.cons_append, groupFrom, ih, List.length_cons, Nat.add_right_comm, Nat.add_assoc]
    rfl

/-- A label is referenced exactly when some branching op of some block targets it. -/
theorem mem_getReferencedLabels (targets : Op → Option (List String))
    (sub : MemorySubroutine Op) (l : String) :
    l ∈ getReferencedLabels targets sub ↔
      ∃ b ∈ sub.allBlocks, ∃ op ∈ b.ops, l ∈ (targets op).getD [] := by
  have ops : ∀ (ops : List Op) (acc : List String), l ∈ ops.foldl (fun result op =>
      match targets op with
      | some ts => result ++ ts
      | none => result) acc ↔ l ∈ acc ∨ ∃ op ∈ ops, l ∈ (targets op).getD [] := by
    intro ops
    induction ops with
    | nil => simp
    | cons op ops ih =>
      intro acc
      cases h : targets op <;> simp [ih, h, or_assoc]
  have blocks : ∀ (bs : List (MirBlock Op)) (acc : List String), l ∈ bs.foldl (fun result b =>
      b.ops.foldl (fun result op =>
        match targets op with
        | some ts => result ++ ts
        | none => result) result) acc ↔
      l ∈ acc ∨ ∃ b ∈ bs, ∃ op ∈ b.ops, l ∈ (targets op).getD [] := by
    intro bs
    induction bs with
    | nil => simp
    | cons b bs ih => intro acc; simp [ih, ops, or_assoc]
  simpa using blocks sub.allBlocks []

end Puya.Teal
