import Puya.Wtypes.Base32
import Puya.Arc4.Signature

/-!
# Building `BigUInt` expressions

A model of `puya/awst_build/eb/biguint.py`, the builders that turn Python
operations on `algopy.BigUInt` into AWST nodes. An operand is an `int`
literal, a `BigUInt`, or a `UInt64` that `itob` widens; an operator is looked
up in `BigUIntBinaryOperator` by its text, after `/` has been reported and
read as `//`.

The AWST node classes, the operator enums and `pytypes` are outside the
repository. The model takes from them what the builders read: the two types
compared against and the operator table are fields of `Env`, and the
expressions of operands built elsewhere are a type `ε`.
`resolve_literal` of a literal is taken to hand the literal to the
converter's `convert_literal`, as the `LiteralConverter` protocol asks.
-/

namespace Puya.AwstBuild

open Puya.Arc4 (pyRepr)

/-! ## Section 1: The builders' data -/

/-- The values a `LiteralBuilder` holds. -/
inductive LiteralValue
  | int (value : Int)
  | bool (value : Bool)
  | bytes (value : List UInt8)
  | str (value : String)
  deriving DecidableEq

/-- The pattern `int(int_value)`: it also matches a `bool`, `True` being the
    `int` 1. -/
def LiteralValue.asInt? : LiteralValue → Option Int
  | int v => some v
  | bool b => some (if b then 1 else 0)
  | _ => none

/-- `BuilderComparisonOp`, and the `NumericComparison` of the same value. -/
inductive Comparison
  | eq | ne | lt | lte | gt | gte
  deriving DecidableEq

/-- `BuilderBinaryOp`, by its value: the text of the Python operator. -/
structure BuilderBinaryOp where
  value : String
  deriving DecidableEq

/-- `BuilderBinaryOp.div`, Python's `/`. -/
def BuilderBinaryOp.div : BuilderBinaryOp := ⟨"/"⟩

/-- `BuilderBinaryOp.floor_div`, Python's `//`. -/
def BuilderBinaryOp.floorDiv : BuilderBinaryOp := ⟨"//"⟩

/-- The AWST expressions the builders make, over the expressions `ε` of
    operands built elsewhere and the members `β` of `BigUIntBinaryOperator`. -/
inductive Expression (ε β : Type)
  /-- An operand's expression, as its builder's `resolve()` gives it. -/
  | operand (expr : ε)
  /-- `BigUIntConstant(value=...)`. -/
  | bigUIntConstant (value : Int)
  /-- `intrinsic_factory.itob_as(expr, wtypes.biguint_wtype)`. -/
  | itobAs (expr : Expression ε β)
  /-- `BigUIntBinaryOperation(left=..., op=..., right=...)`. -/
  | bigUIntBinaryOperation (left : Expression ε β) (op : β) (right : Expression ε β)
  /-- `NumericComparisonExpression(lhs=..., operator=..., rhs=...)`. -/
  | numericComparison (lhs : Expression ε β) (operator : Comparison) (rhs : Expression ε β)

/-- An instance builder given to a method: a `LiteralBuilder`, or a builder
    of an expression, with its `pytype`. -/
inductive InstanceBuilder (τ ε β : Type)
  | literal (value : LiteralValue)
  | expr (pytype : τ) (expr : Expression ε β)

/-- An argument of a call: an instance builder, or another node builder (a
    type, a function), which no branch of `call` matches. -/
inductive NodeBuilder (τ ε β : Type)
  | instance (builder : InstanceBuilder τ ε β)
  | other

/-- `BigUIntAugmentedAssignment(target=..., value=..., op=...)`. -/
structure AugmentedAssignment (ε β : Type) where
  target : Expression ε β
  value : Expression ε β
  op : β

/-- What the builders read from modules outside the repository. -/
structure Env (τ ε β : Type) where
  /-- `pytypes.BigUIntType`, the `pytype` of every builder of this module. -/
  bigUIntType : τ
  /-- `pytypes.UInt64Type`. -/
  uint64Type : τ
  /-- The two are different types. -/
  bigUInt_ne_uint64 : bigUIntType ≠ uint64Type
  /-- `str(pytype)`, as a message prints a type. -/
  str : τ → String
  /-- `repr(value)`, as a message prints a literal's value. -/
  repr : LiteralValue → String
  /-- `BigUIntBinaryOperator(value)`: `none` where the enum has no member of
      that value, and raises `ValueError`. -/
  bigUIntBinaryOperator : String → Option β
  /-- `resolve_lvalue()` of a builder of the expression. -/
  resolveLvalue : Expression ε β → Except PuyaError (Expression ε β)

/-! ## Section 2: The builders -/

section Builders

variable {τ ε β : Type} [DecidableEq τ] (env : Env τ ε β)

/-- `BigUIntTypeBuilder.convert_literal`: the expression of the
    `BigUIntExpressionBuilder` it returns. -/
def convertLiteral (literal : LiteralValue) : Except PuyaError (Expression ε β) :=
  match literal.asInt? with
  | some intValue => .ok (.bigUIntConstant intValue)
  | none => .error (.codeError ("can't covert literal " ++ env.repr literal ++ " to " ++
      env.str env.bigUIntType))

/-- `other.resolve_literal(converter=BigUIntTypeBuilder(...))`, as the
    `pytype` and expression of the builder it returns: a literal is handed to
    `convert_literal`, any other builder is kept. -/
def resolveLiteral : InstanceBuilder τ ε β → Except PuyaError (τ × Expression ε β)
  | .literal value => (env.bigUIntType, ·) <$> convertLiteral env value
  | .expr pytype e => .ok (pytype, e)

/-- `_uint64_to_biguint`. -/
def uint64ToBiguint (argIn : Expression ε β) : Expression ε β := .itobAs argIn

/-- The branches that `compare`, `binary_op` and `augmented_assignment` share
    after `resolve_literal`: a `BigUInt` operand's expression, a `UInt64`
    operand widened by `_uint64_to_biguint`, and `none` for any other type. -/
def asBigUInt (pytype : τ) (e : Expression ε β) : Option (Expression ε β) :=
  if pytype = env.bigUIntType then some e
  else if pytype = env.uint64Type then some (uint64ToBiguint e)
  else none

/-- The message `_translate_biguint_math_operator` logs for `/`. -/
def truncatingDivisionMessage : String :=
  "To maintain semantic compatibility with Python, " ++
    "only the truncating division operator (//) is supported "

/-- `_translate_biguint_math_operator`, with the errors it logs: `/` is
    reported and read as `//`; an operator the enum lacks raises. -/
def translateBiguintMathOperator (operator : BuilderBinaryOp) :
    Except PuyaError (List String × β) :=
  let logs := if operator = .div then [truncatingDivisionMessage] else []
  let operator := if operator = .div then BuilderBinaryOp.floorDiv else operator
  match env.bigUIntBinaryOperator operator.value with
  | some op => .ok (logs, op)
  | none => .error (.codeError ("Unsupported BigUInt math operator " ++ pyRepr operator.value.data))

/-- `BigUIntTypeBuilder.call`, with the errors it logs: it never raises; for
    arguments it does not handle it reports, and builds a zero. -/
def call (args : List (NodeBuilder τ ε β)) : List String × Expression ε β :=
  match args with
  | [] => ([], .bigUIntConstant 0)
  | [.instance (.literal value)] =>
    match value.asInt? with
    | some intValue => ([], .bigUIntConstant intValue)
    | none => (["Invalid/unhandled arguments"], .bigUIntConstant 0)
  | [.instance (.expr pytype eb)] =>
    if pytype = env.uint64Type then ([], uint64ToBiguint eb)
    else (["Invalid/unhandled arguments"], .bigUIntConstant 0)
  | _ => (["Invalid/unhandled arguments"], .bigUIntConstant 0)

/-- `BigUIntExpressionBuilder.bool_eval`: the comparison with zero. -/
def boolEval (self : Expression ε β) (negate : Bool) : Expression ε β :=
  .numericComparison self (if negate then .eq else .ne) (.bigUIntConstant 0)

/-- `BigUIntExpressionBuilder.compare`: the expression of the
    `BoolExpressionBuilder` it returns, `none` for `NotImplemented`. -/
def compare (self : Expression ε β) (other : InstanceBuilder τ ε β) (op : Comparison) :
    Except PuyaError (Option (Expression ε β)) := do
  let (pytype, e) ← resolveLiteral env other
  match asBigUInt env pytype e with
  | some otherExpr => pure (some (.numericComparison self op otherExpr))
  | none => pure none

/-- `BigUIntExpressionBuilder.binary_op`, with the errors it logs: the
    expression of the builder it returns, `none` for `NotImplemented`. -/
def binaryOp (self : Expression ε β) (other : InstanceBuilder τ ε β) (op : BuilderBinaryOp)
    (reverse : Bool) : Except PuyaError (List String × Option (Expression ε β)) := do
  let (pytype, e) ← resolveLiteral env other
  match asBigUInt env pytype e with
  | none => pure ([], none)
  | some otherExpr =>
    let (lhs, rhs) := if reverse then (otherExpr, self) else (self, otherExpr)
    let (logs, biguintOp) ← translateBiguintMathOperator env op
    pure (logs, some (.bigUIntBinaryOperation lhs biguintOp rhs))

/-- `BigUIntExpressionBuilder.augmented_assignment`, with the errors it logs:
    where `binary_op` answers `NotImplemented`, it raises. -/
def augmentedAssignment (self : Expression ε β) (op : BuilderBinaryOp)
    (rhs : InstanceBuilder τ ε β) :
    Except PuyaError (List String × AugmentedAssignment ε β) := do
  let (pytype, e) ← resolveLiteral env rhs
  let some value := asBigUInt env pytype e
    | throw (.codeError ("Invalid operand type " ++ env.str pytype ++ " for " ++ op.value ++
        "= with " ++ env.str env.bigUIntType))
  let target ← env.resolveLvalue self
  let (logs, biguintOp) ← translateBiguintMathOperator env op
  pure (logs, ⟨target, value, biguintOp⟩)

end Builders

end Puya.AwstBuild
