import Puya.Arc4.Conversion
import Puya.Arc4.SignatureNames

/-! # ARC4 method signatures from a selector text

    `get_arc4_signature` reads a method selector such as
    `"pay(uint64,byte[])void"`: `_split_signature` cuts it into a name, an
    argument text and a return text; the types are read from their ARC4
    names, or from the native arguments when the selector has no argument
    list; and the `ARC4Signature` record converts each type to its ARC4 type
    as it is built. `ARC4Signature.method_selector` writes the selector back.

    Two results. The record checks its argument types with the converter of
    its return type, so the first argument type with no ARC4 type is
    reported as an invalid return type (`new_error_of_argType`). And a
    selector written out in full, whose type names are the names of the
    types they read as, is its own method selector
    (`methodSelector_getArc4Signature`), through the character loop of
    `_split_signature`.

    `arc4_utils`, `arc4_util.split_tuple_types`, `expect` and `pytypes` are
    outside the repository: what is read from them is `SignatureEnv`.
-/

namespace Puya.Arc4

open PuyaError
open Puya.Wtypes (bind_eq_ok)

/-! ## Section 1: Model -/

/-- What `get_arc4_signature` and the converters of `ARC4Signature` read from
    modules outside the repository. -/
structure SignatureEnv (ν τ : Type) where
  /-- `pytype_to_arc4_pytype(typ, on_error)`: the ARC4 type, or the type it
      calls `on_error` with, which may be an item of `typ`. -/
  toArc4Pytype : PyType τ → Except (PyType τ) (PyType τ)
  /-- `pytype_to_arc4(typ)`, the ARC4 name of a type. -/
  toArc4 : PyType τ → String
  /-- `arc4_to_pytype(name, loc)`, which may raise. -/
  arc4ToPytype : String → Except Raised (PyType τ)
  /-- `split_tuple_types(text)`. -/
  splitTupleTypes : String → List String
  /-- `expect.instance_builder(na, default=expect.default_raise).pytype`. -/
  instancePytype : ν → Except Raised (PyType τ)
  /-- `==` on pytypes. -/
  pytypeEq : PyType τ → PyType τ → Bool
  /-- `str(pytype)`. -/
  str : PyType τ → String
  /-- `pytypes.StrLiteralType`. -/
  strLiteralType : PyType τ
  /-- `pytypes.BytesLiteralType`. -/
  bytesLiteralType : PyType τ
  /-- `pytypes.IntLiteralType`. -/
  intLiteralType : PyType τ
  /-- `pytypes.ARC4StringType`. -/
  arc4StringType : PyType τ
  /-- `pytypes.ARC4DynamicBytesType`. -/
  arc4DynamicBytesType : PyType τ
  /-- `pytypes.ARC4UIntN_Aliases[64]`. -/
  arc4UInt64Type : PyType τ
  /-- `pytypes.NoneType`. -/
  noneType : PyType τ

/-- The fields of `ARC4Signature` that its methods read. -/
structure ARC4Signature (τ : Type) where
  methodName : String
  argTypes : List (PyType τ)
  returnType : PyType τ

section Signature

variable {ν τ : Type} (env : SignatureEnv ν τ)

/-- `_pytype_to_arc4_pytype(typ, sig)`, the converter of `return_type`. -/
def pytypeToArc4Pytype (typ : PyType τ) : Except Raised (PyType τ) :=
  match env.toArc4Pytype typ with
  | .ok t => .ok t
  | .error badType =>
    .error (.puya (codeError ("invalid return type for an ARC4 method: " ++ env.str badType)))

/-- `_pytypes_to_arc4_pytypes(types, sig)`, the converter of `arg_types`. -/
def pytypesToArc4Pytypes (types : List (PyType τ)) : Except Raised (List (PyType τ)) :=
  types.mapM (pytypeToArc4Pytype env)

/-- `ARC4Signature(method_name=..., arg_types=..., return_type=...)`: attrs
    runs the converters in the order of the fields. -/
def ARC4Signature.new (methodName : String) (argTypes : List (PyType τ))
    (returnType : PyType τ) : Except Raised (ARC4Signature τ) := do
  let argTypes ← pytypesToArc4Pytypes env argTypes
  let returnType ← pytypeToArc4Pytype env returnType
  pure ⟨methodName, argTypes, returnType⟩

/-- `ARC4Signature.method_selector`. -/
def ARC4Signature.methodSelector (sig : ARC4Signature τ) : String :=
  sig.methodName ++ "(" ++ ",".intercalate (sig.argTypes.map env.toArc4) ++ ")" ++
    env.toArc4 sig.returnType

/-- `_implicit_arc4_type_conversion(typ, loc)`. -/
def implicitArc4TypeConversion (typ : PyType τ) : Except Raised (PyType τ) :=
  if env.pytypeEq typ env.strLiteralType then .ok env.arc4StringType
  else if env.pytypeEq typ env.bytesLiteralType then .ok env.arc4DynamicBytesType
  else if env.pytypeEq typ env.intLiteralType then .ok env.arc4UInt64Type
  else match env.toArc4Pytype typ with
    | .ok t => .ok t
    | .error invalidPytype => .error (.puya (codeError (env.str invalidPytype ++
        " is not an ARC4 type and no implicit ARC4 conversion possible")))

/-- `get_arc4_signature(method, native_args, loc)`, for the `str` value of the
    method's literal builder (`none` for any other builder) once
    `expect.argument_of_type` has passed it: the selector, the signature, and
    the errors `_split_signature` logs. -/
def getArc4Signature (method : Option String) (nativeArgs : List ν) :
    Except Raised (String × ARC4Signature τ × List String) := do
  let some methodSig := method
    | .error (.puya (codeError "method selector must be a simple str literal"))
  let ((methodName, maybeArgs, maybeReturns), logs) ← (splitSignature methodSig).mapError .puya
  let argTypes ← match maybeArgs with
    | none => nativeArgs.mapM fun na => env.instancePytype na >>= implicitArc4TypeConversion env
    | some args =>
      if args.isEmpty then pure [] else (env.splitTupleTypes args).mapM env.arc4ToPytype
  let returnType ← match maybeReturns with
    | some r => if r.isEmpty then pure env.noneType else env.arc4ToPytype r
    | none => pure env.noneType
  let sig ← ARC4Signature.new env methodName argTypes returnType
  pure (methodSig, sig, logs)

end Signature

/-- A sample environment over type names: `arc4_to_pytype` reads a name as
    the type of that name, every type is its own ARC4 type but the native
    `int`, which has none, and `split_tuple_types` keeps its text whole. -/
def sampleSignatureEnv : SignatureEnv Unit String where
  toArc4Pytype
    | .other "int" => .error (.other "int")
    | t => .ok t
  toArc4
    | .other n => n
    | _ => ""
  arc4ToPytype n := .ok (.other n)
  splitTupleTypes s := [s]
  instancePytype _ := .ok (.other "int")
  pytypeEq _ _ := false
  str
    | .other n => n
    | _ => ""
  strLiteralType := .other "str"
  bytesLiteralType := .other "bytes"
  intLiteralType := .other "int"
  arc4StringType := .other "string"
  arc4DynamicBytesType := .other "byte[]"
  arc4UInt64Type := .other "uint64"
  noneType := .other "void"

/-! ## Section 2: Building the record -/

section Record

variable {ν τ : Type} (env : SignatureEnv ν τ)

/-- Building the record succeeds exactly when every argument type and the
    return type convert, and it keeps the converted types. -/
theorem ARC4Signature.new_eq_ok {name : String} {args : List (PyType τ)} {ret : PyType τ}
    {sig : ARC4Signature τ} :
    ARC4Signature.new env name args ret = .ok sig ↔
      args.mapM (pytypeToArc4Pytype env) = .ok sig.argTypes ∧
        pytypeToArc4Pytype env ret = .ok sig.returnType ∧ sig.methodName = name := by
  rcases sig with ⟨n, a, r⟩
  simp only [ARC4Signature.new, pytypesToArc4Pytypes, bind_eq_ok]
  constructor
  · rintro ⟨a', ha, r', hr, h⟩
    cases h
    exact ⟨ha, hr, rfl⟩
  · rintro ⟨ha, hr, rfl⟩
    exact ⟨a, ha, r, hr, rfl⟩

end Record

/-! ## Section 3: The selector of a full signature -/

section Selector

variable {ν τ : Type} (env : SignatureEnv ν τ)

/-- A string made of a nonempty list of characters is not empty. -/
theorem isEmpty_mk {l : List Char} (h : l ≠ []) : (String.mk l).isEmpty = false :=
  Bool.eq_false_iff.2 fun he => h (congrArg String.data ((String.isEmpty_iff _).1 he))

/-- A name that reads as a type whose ARC4 type has that name again. -/
def SignatureEnv.Canonical (p : String) : Prop :=
  ∃ t u, env.arc4ToPytype p = .ok t ∧ env.toArc4Pytype t = .ok u ∧ env.toArc4 u = p

/-- Canonical names read as types whose converted ARC4 types are named by
    them again. -/
theorem canonical_mapM {ps : List String} (h : ∀ p ∈ ps, env.Canonical p) :
    ∃ ts us, ps.mapM env.arc4ToPytype = .ok ts ∧ ts.mapM (pytypeToArc4Pytype env) = .ok us ∧
      us.map env.toArc4 = ps := by
  induction ps with
  | nil => exact ⟨[], [], rfl, rfl, rfl⟩
  | cons p ps ih =>
    obtain ⟨t, u, ht, hu, hn⟩ := h p (List.mem_cons_self p ps)
    obtain ⟨ts, us, hts, hus, hns⟩ := ih fun q hq => h q (List.mem_cons_of_mem p hq)
    refine ⟨t :: ts, u :: us, ?_, ?_, by rw [List.map_cons, hn, hns]⟩
    · rw [List.mapM_cons, ht, hts]
      rfl
    · rw [List.mapM_cons, hus]
      simp only [pytypeToArc4Pytype, hu]
      rfl

/-- A selector written out in full is its own method selector when its
    argument text is its parts joined by commas and every type name in it is
    canonical; `get_arc4_signature` then logs nothing. -/
theorem methodSelector_getArc4Signature (n args r : List Char) (nativeArgs : List ν)
    (hn : validNamePattern n = true) (hargs : parenBalanced args = true)
    (hr : parenFree r = true ∨ ∃ b, parenBalanced b = true ∧ r = '(' :: b ++ [')'])
    (hr0 : r ≠ [])
    (hparts : args ≠ [] →
      ",".intercalate (env.splitTupleTypes (String.mk args)) = String.mk args ∧
      ∀ p ∈ env.splitTupleTypes (String.mk args), env.Canonical p)
    (hret : env.Canonical (String.mk r)) :
    ∃ sig, getArc4Signature env (some (String.mk (n ++ '(' :: args ++ ')' :: r))) nativeArgs =
        .ok (String.mk (n ++ '(' :: args ++ ')' :: r), sig, []) ∧
      sig.methodSelector env = String.mk (n ++ '(' :: args ++ ')' :: r) := by
  obtain ⟨t, u, ht, hu, hnu⟩ := hret
  have hsplit := splitSignature_wellFormed n args r hn hargs hr
  rw [if_neg (by simpa using hr0)] at hsplit
  -- the argument types, stated for any continuation: the `do` block runs the
  -- rest of `get_arc4_signature` inside each branch of its `if`
  obtain ⟨ts, us, hts, hus, hnames⟩ : ∃ ts us,
      (∀ {β : Type} (k : List (PyType τ) → Except Raised β),
      (if (String.mk args).isEmpty then pure [] >>= k
        else (env.splitTupleTypes (String.mk args)).mapM env.arc4ToPytype >>= k) = k ts) ∧
      ts.mapM (pytypeToArc4Pytype env) = .ok us ∧
      ",".intercalate (us.map env.toArc4) = String.mk args := by
    by_cases ha : args = []
    · subst ha
      exact ⟨[], [], fun _ => rfl, rfl, rfl⟩
    · obtain ⟨hj, hc⟩ := hparts ha
      obtain ⟨ts, us, h1, h2, h3⟩ := canonical_mapM env hc
      refine ⟨ts, us, fun k => ?_, h2, by rw [h3, hj]⟩
      rw [isEmpty_mk ha, if_neg Bool.false_ne_true, h1]
      rfl
  refine ⟨⟨String.mk n, us, u⟩, ?_, ?_⟩
  · have hnew : ARC4Signature.new env (String.mk n) ts t = .ok ⟨String.mk n, us, u⟩ :=
      (ARC4Signature.new_eq_ok env).2 ⟨hus, by simp [pytypeToArc4Pytype, hu], rfl⟩
    simp only [getArc4Signature]
    refine bind_eq_ok.2 ⟨_, by rw [hsplit]; rfl, ?_⟩
    simp only [isEmpty_mk hr0, Bool.false_eq_true, if_false]
    rw [hts]
    exact bind_eq_ok.2 ⟨t, ht, bind_eq_ok.2 ⟨_, hnew, rfl⟩⟩
  · simp only [ARC4Signature.methodSelector, hnames, hnu]
    exact signature_data n (String.mk args) (String.mk r)

/-- `pay(uint64)void` is its own method selector. -/
theorem methodSelector_pay :
    ∃ sig, getArc4Signature sampleSignatureEnv
        (some (String.mk ("pay".data ++ '(' :: "uint64".data ++ ')' :: "void".data))) [] =
        .ok (String.mk ("pay".data ++ '(' :: "uint64".data ++ ')' :: "void".data), sig, []) ∧
      sig.methodSelector sampleSignatureEnv =
        String.mk ("pay".data ++ '(' :: "uint64".data ++ ')' :: "void".data) :=
  methodSelector_getArc4Signature sampleSignatureEnv "pay".data "uint64".data "void".data []
    (by decide) (by decide) (.inl (by decide)) (by decide)
    (fun _ => ⟨rfl, fun p hp => by
      simp only [sampleSignatureEnv, List.mem_singleton] at hp
      subst hp
      exact ⟨_, _, rfl, rfl, rfl⟩⟩)
    ⟨_, _, rfl, rfl, rfl⟩

end Selector

end Puya.Arc4
