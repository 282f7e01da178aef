import Puya.AwstBuild.BigUInt
import Puya.Lsp.Diagnostics

/-!
# Building ARC-4 tuples

A model of `puya/awst_build/eb/arc4/tuple.py`: `arc4.Tuple(t)` encodes a
native tuple `t`, an index reads one item, and `.native` decodes the whole.

An index is read with Python's `items[index_value]`, so a negative index
counts from the end; the `TupleItemExpression` built keeps the index as it was
written. The typed constructor `arc4.Tuple[...](t)` differs from the generic
one only in the check that `t` has the type's items.

`pytypes` and their `parameterise` are outside the repository: the types are a
parameter `τ` with equality, and the two generics and `str` are fields of
`Env`.
-/

namespace Puya.AwstBuild.Tuple

open Puya.Lsp (pyIndex)

/-- The expressions the ARC-4 tuple builders make, over the expressions `ε`
    of operands; a node's `wtype` is that of a `pytype` in `τ`. -/
inductive Expression (ε τ : Type)
  /-- An operand's expression, as its builder's `resolve()` gives it. -/
  | operand (expr : ε)
  /-- `ARC4Encode(value=..., wtype=typ.wtype)`. -/
  | arc4Encode (value : Expression ε τ) (typ : τ)
  /-- `ARC4Decode(value=..., wtype=typ.wtype)`. -/
  | arc4Decode (value : Expression ε τ) (typ : τ)
  /-- `TupleItemExpression(base=..., index=...)`. -/
  | tupleItem (base : Expression ε τ) (index : Int)
  deriving DecidableEq

/-- The `pytype` of a call's argument, as the calls match it: a `TupleType`,
    with its items, or another type. -/
inductive ArgType (τ : Type)
  | tuple (typ : τ) (items : List τ)
  | other (typ : τ)

/-- An argument of a call: an instance builder with its `pytype` and
    expression, or a node builder that is no instance. -/
inductive Arg (τ ε : Type)
  | instance (pytype : ArgType τ) (expr : Expression ε τ)
  | other

/-- What the builders read from `pytypes`, outside the repository. -/
structure Env (τ : Type) where
  /-- `GenericARC4TupleType.parameterise(items, location)`, with its
      `wtype`, which may raise. -/
  arc4TupleType : List τ → Except PuyaError τ
  /-- `GenericTupleType.parameterise(items, location)`. -/
  tupleType : List τ → τ
  /-- `str(pytype)`, as a message prints a type. -/
  str : τ → String

/-! ## Section 1: The builders -/

section Builders

variable {τ ε : Type} (env : Env τ)

/-- `ARC4TupleGenericTypeBuilder.call`: the type and the expression of the
    `ARC4TupleExpressionBuilder` it returns. -/
def genericCall (args : List (Arg τ ε)) : Except PuyaError (τ × Expression ε τ) :=
  match args with
  | [.instance (.tuple _ items) eb] => do
    let typ ← env.arc4TupleType items
    pure (typ, .arc4Encode eb typ)
  | _ => .error (.codeError "Invalid/unhandled arguments")

/-- `ARC4TupleTypeBuilder.call`, for the builder of the type `typ` with the
    items `typItems`. -/
def call [DecidableEq τ] (typ : τ) (typItems : List τ) (args : List (Arg τ ε)) :
    Except PuyaError (τ × Expression ε τ) :=
  match args with
  | [.instance (.tuple tupleType items) eb] =>
    if typItems ≠ items then
      .error (.codeError ("Invalid arg type: expected " ++ env.str (env.tupleType typItems) ++
        ", got " ++ env.str tupleType))
    else .ok (typ, .arc4Encode eb typ)
  | _ => .error (.codeError "Invalid/unhandled arguments")

/-- `ARC4TupleExpressionBuilder.index`, for a builder of the tuple `self` with
    the items `items` and the index's `LiteralBuilder` value (`none` for any
    other builder): the item's type, for `builder_for_instance`, and the
    `TupleItemExpression` it is given. -/
def index (items : List τ) (self : Expression ε τ) (index : Option LiteralValue) :
    Except PuyaError (τ × Expression ε τ) :=
  match index.bind LiteralValue.asInt? with
  | none => .error (.codeError "arc4.Tuple can only be indexed by int constants")
  | some indexValue =>
    match pyIndex items indexValue with
    | .ok itemTyp => .ok (itemTyp, .tupleItem self indexValue)
    | .error _ => .error (.codeError "Tuple index out of bounds")

/-- `ARC4TupleExpressionBuilder.member_access` for `native`: the type and the
    expression of the `TupleExpressionBuilder` it returns. Other names go to
    the base class, outside the repository. -/
def native (items : List τ) (self : Expression ε τ) : τ × Expression ε τ :=
  (env.tupleType items, .arc4Decode self (env.tupleType items))

/-- What `ARC4TupleExpressionBuilder.contains` always raises. -/
def containsError : PuyaError :=
  .codeError "item containment with ARC4 tuples is currently unsupported"

/-- What `ARC4TupleExpressionBuilder.iterate` always raises. -/
def iterateError : PuyaError := .codeError "iterating ARC4 tuples is currently unsupported"

/-- What `ARC4TupleExpressionBuilder.slice_index` always raises. -/
def sliceIndexError : PuyaError := .codeError "slicing ARC4 tuples is currently unsupported"

end Builders

end Puya.AwstBuild.Tuple
