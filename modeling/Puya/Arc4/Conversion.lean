import Puya.Wtypes.Constructors

/-! # Implicit ARC4 conversion of method arguments

    `ARC4Signature.convert_args` converts each argument of an ARC4 method
    call with `_implicit_arc4_conversion`. That function first resolves a
    tuple literal against an ARC4 tuple target with
    `_maybe_resolve_arc4_literal`, which pairs the literal's items with the
    target's item types by `zip(..., strict=True)` without comparing the two
    lengths first. A literal of the wrong arity, at any depth, therefore
    raises Python's `ValueError` and not a `CodeError`
    (`convertArgs_nested_arity_mismatch`). When `maybe_resolve_literal`
    itself raises nothing, the literals that raise are exactly those whose
    arities differ from the target's at some level
    (`maybeResolveArc4Literal_valueError_iff`). The struct branch of
    `_implicit_arc4_conversion` compares the lengths before its own strict
    zip, so every `ValueError` of a conversion comes from literal resolution
    or from the constructor it calls (`implicitArc4Conversion_valueError`),
    and so does every `ValueError` of `convert_args` (`convertArgs_valueError`).

    Builders and pytypes keep only the classes and fields the code reads,
    and `Env` holds the functions of other modules that it calls.
-/

namespace Puya.Arc4

open Puya.Wtypes PuyaError

/-! ## Section 1: Model -/

/-- What a call raises: one of the compiler's errors, or a Python exception
    of another kind. -/
inductive Raised
  | puya (e : PuyaError)
  /-- `ValueError`, as `zip(..., strict=True)` raises it. -/
  | valueError (msg : String)
  /-- `AssertionError`, from a failed `assert`. -/
  | assertionError
  deriving DecidableEq, Repr

/-- The `pytypes.PyType` classes the conversion looks into, with the fields
    it reads; `τ` stands for everything else about a type. -/
inductive PyType (τ : Type)
  /-- `pytypes.ARC4TupleType`, with its item types. -/
  | arc4Tuple (items : List (PyType τ))
  /-- `pytypes.StructType`, with its field types. -/
  | struct (t : τ) (types : List (PyType τ))
  /-- `pytypes.TupleType`, with its item types. -/
  | tuple (t : τ) (items : List (PyType τ))
  /-- `pytypes.TransactionRelatedType`. -/
  | transaction (t : τ)
  /-- Any other type. -/
  | other (t : τ)

/-- `isinstance(t, pytypes.TupleType)`, with the tuple's `items`; an ARC4
    tuple type is a tuple type. -/
def PyType.tupleItems? {τ : Type} : PyType τ → Option (List (PyType τ))
  | arc4Tuple items | tuple _ items => some items
  | _ => none

/-- `isinstance(t, pytypes.TransactionRelatedType)`. -/
def PyType.isTransaction {τ : Type} : PyType τ → Bool
  | transaction _ => true
  | _ => false

/-- The instance builders the conversion looks into; `β` stands for every
    other builder. -/
inductive Builder (β : Type)
  /-- `TupleLiteralBuilder`, with its items. -/
  | tupleLiteral (items : List (Builder β))
  /-- Any other instance builder. -/
  | other (b : β)

/-! ## Section 2: Resolving tuple literals -/

section Resolve

variable {β τ : Type} (resolveLiteral : Builder β → PyType τ → Except Raised (Builder β))

mutual
/-- `_maybe_resolve_arc4_literal(operand, target_type)`, with
    `maybe_resolve_literal` as `resolveLiteral`. -/
def maybeResolveArc4Literal : Builder β → PyType τ → Except Raised (Builder β)
  | .tupleLiteral items, .arc4Tuple itemTypes => do
    let resolvedItems ← resolveItems items itemTypes
    pure (.tupleLiteral resolvedItems)
  | operand, target => resolveLiteral operand target
  termination_by structural operand _ => operand
/-- `[_maybe_resolve_arc4_literal(item, item_type) for item, item_type in
    zip(items, item_types, strict=True)]`: each pair is resolved before the
    next is drawn, and the zip raises when one list ends before the other. -/
def resolveItems : List (Builder β) → List (PyType τ) → Except Raised (List (Builder β))
  | [], [] => pure []
  | [], _ :: _ => throw (.valueError "zip() argument 2 is longer than argument 1")
  | _ :: _, [] => throw (.valueError "zip() argument 2 is shorter than argument 1")
  | item :: items, itemType :: itemTypes => do
    let resolved ← maybeResolveArc4Literal item itemType
    let rest ← resolveItems items itemTypes
    pure (resolved :: rest)
  termination_by structural items _ => items
end

mutual
/-- Every tuple literal in `operand` that meets an ARC4 tuple type has that
    type's arity. -/
def aritiesMatch : Builder β → PyType τ → Bool
  | .tupleLiteral items, .arc4Tuple itemTypes => itemAritiesMatch items itemTypes
  | _, _ => true
  termination_by structural operand _ => operand
/-- `aritiesMatch` of the items of a literal against the item types. -/
def itemAritiesMatch : List (Builder β) → List (PyType τ) → Bool
  | [], [] => true
  | item :: items, itemType :: itemTypes =>
    aritiesMatch item itemType && itemAritiesMatch items itemTypes
  | _, _ => false
  termination_by structural items _ => items
end

/-- `((),)`: a tuple literal that holds the empty tuple literal. -/
def nestedEmptyLiteral {β : Type} : Builder β := .tupleLiteral [.tupleLiteral []]

/-- `arc4.Tuple[arc4.Tuple[t]]`. -/
def nestedArc4Tuple {τ : Type} (t : τ) : PyType τ := .arc4Tuple [.arc4Tuple [.other t]]

mutual
/-- A literal resolves only when its arities match the target's at every
    level: a mismatch raises, whatever `maybe_resolve_literal` does. -/
theorem aritiesMatch_of_resolve_ok {b : Builder β} : (operand : Builder β) → (target : PyType τ) →
    maybeResolveArc4Literal resolveLiteral operand target = .ok b →
      aritiesMatch operand target = true
  | .tupleLiteral items, .arc4Tuple itemTypes, h => by
    obtain ⟨bs, hbs, -⟩ := bind_eq_ok.1 h
    exact itemAritiesMatch_of_resolve_ok items itemTypes hbs
  | .tupleLiteral _, .struct .., _ | .tupleLiteral _, .tuple .., _
  | .tupleLiteral _, .transaction _, _ | .tupleLiteral _, .other _, _ | .other _, _, _ => rfl
  termination_by structural operand _ => operand
/-- `aritiesMatch_of_resolve_ok` for the items of a literal. -/
theorem itemAritiesMatch_of_resolve_ok {bs : List (Builder β)} :
    (items : List (Builder β)) → (itemTypes : List (PyType τ)) →
      resolveItems resolveLiteral items itemTypes = .ok bs → itemAritiesMatch items itemTypes = true
  | [], [], _ => rfl
  | [], _ :: _, h | _ :: _, [], h => nomatch h
  | item :: items, itemType :: itemTypes, h => by
    obtain ⟨r, hr, h⟩ := bind_eq_ok.1 h
    obtain ⟨rs, hrs, -⟩ := bind_eq_ok.1 h
    simp only [itemAritiesMatch, aritiesMatch_of_resolve_ok item itemType hr,
      itemAritiesMatch_of_resolve_ok items itemTypes hrs, Bool.and_self]
  termination_by structural items _ => items
end

mutual
/-- Every error of literal resolution is one that `maybe_resolve_literal`
    raises, or a `ValueError` for a literal whose arities differ from the
    target's. -/
theorem resolve_error_source {e : Raised} : (operand : Builder β) → (target : PyType τ) →
    maybeResolveArc4Literal resolveLiteral operand target = .error e →
      (∃ b t, resolveLiteral b t = .error e) ∨
        (∃ m, e = .valueError m) ∧ aritiesMatch operand target = false
  | .tupleLiteral items, .arc4Tuple itemTypes, h => by
    rcases bind_eq_error.1 h with h | ⟨_, -, h⟩
    · exact resolveItems_error_source items itemTypes h
    · cases h
  | .tupleLiteral _, .struct .., h | .tupleLiteral _, .tuple .., h
  | .tupleLiteral _, .transaction _, h | .tupleLiteral _, .other _, h | .other _, _, h =>
    .inl ⟨_, _, h⟩
  termination_by structural operand _ => operand
/-- `resolve_error_source` for the items of a literal. -/
theorem resolveItems_error_source {e : Raised} :
    (items : List (Builder β)) → (itemTypes : List (PyType τ)) →
      resolveItems resolveLiteral items itemTypes = .error e →
        (∃ b t, resolveLiteral b t = .error e) ∨
          (∃ m, e = .valueError m) ∧ itemAritiesMatch items itemTypes = false
  | [], [], h => nomatch h
  | [], _ :: _, h | _ :: _, [], h => by cases h; exact .inr ⟨⟨_, rfl⟩, rfl⟩
  | item :: items, itemType :: itemTypes, h => by
    rcases bind_eq_error.1 h with h | ⟨_, -, h⟩
    · rcases resolve_error_source item itemType h with h | ⟨hv, hm⟩
      · exact .inl h
      · exact .inr ⟨hv, by simp [itemAritiesMatch, hm]⟩
    rcases bind_eq_error.1 h with h | ⟨_, -, h⟩
    · rcases resolveItems_error_source items itemTypes h with h | ⟨hv, hm⟩
      · exact .inl h
      · exact .inr ⟨hv, by simp [itemAritiesMatch, hm]⟩
    · cases h
  termination_by structural items _ => items
end

example :
    (∃ b t, (fun b _ => .ok b : Builder Unit → PyType Unit → Except Raised (Builder Unit)) b t =
        .error (.valueError "zip() argument 2 is longer than argument 1")) ∨
      (∃ m, Raised.valueError "zip() argument 2 is longer than argument 1" = .valueError m) ∧
        aritiesMatch (nestedEmptyLiteral : Builder Unit) (nestedArc4Tuple ()) = false :=
  resolve_error_source (fun b _ => .ok b) nestedEmptyLiteral (nestedArc4Tuple ()) rfl

/-- When `maybe_resolve_literal` raises nothing, literal resolution raises a
    `ValueError` exactly when the literal's arities differ from the target's
    at some level, and raises nothing else: it returns whenever the arities
    match. -/
theorem maybeResolveArc4Literal_valueError_iff
    (hr : ∀ b t, ∃ b', resolveLiteral b t = .ok b') (operand : Builder β) (target : PyType τ) :
    ((∃ m, maybeResolveArc4Literal resolveLiteral operand target = .error (.valueError m)) ↔
      aritiesMatch operand target = false) ∧
    (∀ e, maybeResolveArc4Literal resolveLiteral operand target = .error e →
      ∃ m, e = .valueError m) ∧
    (aritiesMatch operand target = true →
      ∃ b, maybeResolveArc4Literal resolveLiteral operand target = .ok b) := by
  have hnone : ∀ e b t, resolveLiteral b t ≠ .error e := fun e b t h => by
    obtain ⟨b', hb'⟩ := hr b t
    rw [hb'] at h; cases h
  -- every error is a `ValueError` of an arity mismatch
  have herr : ∀ e, maybeResolveArc4Literal resolveLiteral operand target = .error e →
      (∃ m, e = .valueError m) ∧ aritiesMatch operand target = false := fun e h => by
    rcases resolve_error_source resolveLiteral operand target h with ⟨b, t, h⟩ | h
    · exact absurd h (hnone _ b t)
    · exact h
  refine ⟨⟨fun ⟨m, h⟩ => (herr _ h).2, fun hm => ?_⟩, fun e h => (herr e h).1, fun hm => ?_⟩
  · cases h : maybeResolveArc4Literal resolveLiteral operand target with
    | ok b => rw [aritiesMatch_of_resolve_ok resolveLiteral operand target h] at hm; cases hm
    | error e =>
      obtain ⟨m, rfl⟩ := (herr e h).1
      exact ⟨m, rfl⟩
  · cases h : maybeResolveArc4Literal resolveLiteral operand target with
    | ok b => exact ⟨b, rfl⟩
    | error e => rw [(herr e h).2] at hm; cases hm

theorem nestedEmptyLiteral_valueError_iff :
    ((∃ m, maybeResolveArc4Literal (fun b _ => .ok b) (nestedEmptyLiteral : Builder Unit)
        (nestedArc4Tuple ()) = .error (.valueError m)) ↔
      aritiesMatch (nestedEmptyLiteral : Builder Unit) (nestedArc4Tuple ()) = false) ∧
    (∀ e, maybeResolveArc4Literal (fun b _ => .ok b) (nestedEmptyLiteral : Builder Unit)
        (nestedArc4Tuple ()) = .error e → ∃ m, e = .valueError m) ∧
    (aritiesMatch (nestedEmptyLiteral : Builder Unit) (nestedArc4Tuple ()) = true →
      ∃ b, maybeResolveArc4Literal (fun b _ => .ok b) (nestedEmptyLiteral : Builder Unit)
        (nestedArc4Tuple ()) = .ok b) :=
  maybeResolveArc4Literal_valueError_iff _ (fun b _ => ⟨b, rfl⟩) _ _

end Resolve

/-! ## Section 3: The conversion -/

/-- The functions of other modules that the conversion calls. -/
structure Env (β τ : Type) where
  /-- `maybe_resolve_literal(operand, target_type)`. -/
  resolveLiteral : Builder β → PyType τ → Except Raised (Builder β)
  /-- `instance.pytype`. -/
  pytype : Builder β → PyType τ
  /-- `==` on pytypes. -/
  pytypeEq : PyType τ → PyType τ → Bool
  /-- `pytype.wtype`. -/
  wtype : PyType τ → WType
  /-- `str(pytype)`. -/
  str : PyType τ → String
  /-- `target_wtype.can_encode_type(wtype)`. -/
  canEncode : WType → WType → Bool
  /-- `isinstance(b, StaticSizedCollectionBuilder)`, for the other builders. -/
  staticSized : β → Bool
  /-- `b.iterate_static()`, for the other builders. -/
  iterateStatic : β → List (Builder β)
  /-- `dummy_value(target_type, loc)`. -/
  dummyValue : PyType τ → Builder β
  /-- `builder_for_type(target_type, loc).call(args, ...)`. -/
  call : PyType τ → List (Builder β) → Except Raised (Builder β)
  /-- `pytypes.InnerTransactionFieldsetTypes[t.transaction_type]` for a group
      transaction type, `none` for the other transaction types. -/
  innerFieldset : τ → Option (PyType τ)

section Conversion

variable {β τ : Type} (env : Env β τ)

/-- `isinstance(b, StaticSizedCollectionBuilder)`: tuple literals are. -/
def Env.isStaticSized : Builder β → Bool
  | .tupleLiteral _ => true
  | .other b => env.staticSized b

/-- `b.iterate_static()`: the items of a tuple literal. -/
def Env.iterateStaticOf : Builder β → List (Builder β)
  | .tupleLiteral items => items
  | .other b => env.iterateStatic b

/-- `_gtxn_to_itxn`. -/
def Env.gtxnToItxn : PyType τ → PyType τ
  | .transaction t => (env.innerFieldset t).getD (.transaction t)
  | p => p

/-- `_inner_transaction_type_matches`, on the wtypes of the two types. -/
def innerTransactionTypeMatches (inst target : WType) : Bool :=
  match inst, target with
  | .innerTransactionFields i, .innerTransactionFields t => WType.pyEq inst target || i.isNone || t.isNone
  | _, _ => false

/-- The checks of `_implicit_arc4_conversion` after literal resolution, in
    the source's order: the result when one of them returns or raises, and
    `none` when the conversion goes on to call the target's builder. -/
def Env.precheck (inst : Builder β) (target : PyType τ) :
    Option (Except Raised (Builder β × List String)) :=
  let instType := env.pytype inst
  let mismatch := "expected type " ++ env.str target ++ ", got type " ++ env.str instType
  if env.pytypeEq instType target then some (.ok (inst, []))
  else if target.isTransaction then
    if innerTransactionTypeMatches (env.wtype instType) (env.wtype target) then some (.ok (inst, []))
    else some (.ok (env.dummyValue target, [mismatch]))
  else if !(env.wtype target).isArc4 then
    some (.error (.puya (internalError ("implicit_operand_conversion expected target_type to " ++
      "be an ARC-4 type, got " ++ env.str target))))
  else if (env.wtype instType).isArc4 then some (.ok (env.dummyValue target, [mismatch]))
  else if !env.canEncode (env.wtype target) (env.wtype instType) then
    some (.ok (env.dummyValue target,
      ["cannot encode " ++ env.str instType ++ " to " ++ env.str target]))
  else none

/-- The end of `_implicit_arc4_conversion` for a resolved instance: the
    checks, then the call of the target's builder on `conversion_args`. -/
def Env.convertWith (inst : Builder β) (target : PyType τ)
    (conversionArgs : Except Raised (List (Builder β) × List String)) :
    Except Raised (Builder β × List String) :=
  match env.precheck inst target with
  | some result => result
  | none => do
    let (args, logs) ← conversionArgs
    let result ← env.call target args
    pure (result, logs)

mutual
/-- `_implicit_arc4_conversion(operand, target_type)`: the converted builder
    and the errors logged. The operand is an instance builder, which
    `expect.instance_builder` returns as it is. Only an ARC4 struct target
    converts the items of a tuple one by one. -/
def implicitArc4Conversion (operand : Builder β) :
    PyType τ → Except Raised (Builder β × List String)
  | .struct t types => do
    let inst ← maybeResolveArc4Literal env.resolveLiteral operand (.struct t types)
    env.convertWith inst (.struct t types)
      (match (env.pytype inst).tupleItems? with
        | some items =>
          if types.length = items.length then
            if env.isStaticSized inst then convertItems (env.iterateStaticOf inst) types
            else throw .assertionError
          else pure ([inst], [])
        | none => pure ([inst], []))
  | target => do
    let inst ← maybeResolveArc4Literal env.resolveLiteral operand target
    env.convertWith inst target (pure ([inst], []))
  termination_by structural target => target
/-- `[_implicit_arc4_conversion(item, item_target_typ) for item,
    item_target_typ in zip(items, types, strict=True)]`, with the errors
    logged. -/
def convertItems : List (Builder β) → List (PyType τ) →
    Except Raised (List (Builder β) × List String)
  | [], [] => pure ([], [])
  | [], _ :: _ => throw (.valueError "zip() argument 2 is longer than argument 1")
  | _ :: _, [] => throw (.valueError "zip() argument 2 is shorter than argument 1")
  | item :: items, type :: types => do
    let (converted, logs) ← implicitArc4Conversion item type
    let (rest, logs') ← convertItems items types
    pure (converted :: rest, logs ++ logs')
  termination_by structural _ types => types
end

/-- The conversions of `convert_args`, over
    `zip(native_args, arg_types, strict=False)`. -/
def convertEach : List (Builder β × PyType τ) → Except Raised (List (Builder β) × List String)
  | [] => pure ([], [])
  | (arg, pt) :: rest => do
    let (converted, logs) ← implicitArc4Conversion env arg pt
    let (others, logs') ← convertEach rest
    pure (converted :: others, logs ++ logs')

/-- `ARC4Signature.convert_args(native_args, expect_itxn_args=...)`: the
    converted arguments and the errors logged. -/
def convertArgs (argTypes : List (PyType τ)) (nativeArgs : List (Builder β))
    (expectItxnArgs : Bool) : Except Raised (List (Builder β) × List String) := do
  let numArgs := nativeArgs.length
  let numSigArgs := argTypes.length
  let countLog :=
    if numSigArgs ≠ numArgs then
      ["expected " ++ toString numSigArgs ++ " ABI argument" ++
        (if numSigArgs = 1 then "" else "s") ++ ", got " ++ toString numArgs]
    else []
  let argTypes := if expectItxnArgs then argTypes.map env.gtxnToItxn else argTypes
  let (arc4Args, logs) ← convertEach env (nativeArgs.zip argTypes)
  pure (arc4Args, countLog ++ logs)

/-! ## Section 4: Where a conversion raises -/

theorem implicitArc4Conversion_of_not_struct {operand : Builder β} {target : PyType τ}
    (h : ∀ t types, target ≠ .struct t types) :
    implicitArc4Conversion env operand target =
      maybeResolveArc4Literal env.resolveLiteral operand target >>= fun inst =>
        env.convertWith inst target (pure ([inst], [])) := by
  cases target <;> first | rfl | exact absurd rfl (h _ _)

/-- The checks raise only the `InternalError` for a target that is not an
    ARC4 type. -/
theorem Env.precheck_error {inst : Builder β} {target : PyType τ} {e : Raised}
    (h : env.precheck inst target = some (.error e)) :
    e = .puya (internalError ("implicit_operand_conversion expected target_type to be an " ++
      "ARC-4 type, got " ++ env.str target)) := by
  simp only [Env.precheck] at h
  split_ifs at h <;> cases h
  rfl

theorem Env.convertWith_eq_error {inst : Builder β} {target : PyType τ}
    {args : Except Raised (List (Builder β) × List String)} {e : Raised}
    (h : env.convertWith inst target args = .error e) :
    env.precheck inst target = some (.error e) ∨
      args = .error e ∨ ∃ a : List (Builder β), env.call target a = .error e := by
  unfold Env.convertWith at h
  cases hp : env.precheck inst target with
  | some r => rw [hp] at h; exact .inl (congrArg some h)
  | none =>
    rw [hp] at h
    rcases bind_eq_error.1 h with h | ⟨⟨a, _⟩, -, h⟩
    · exact .inr (.inl h)
    rcases bind_eq_error.1 h with h | ⟨_, -, h⟩
    · exact .inr (.inr ⟨a, h⟩)
    · cases h

/-- `iterate_static` yields one builder per item of the builder's tuple
    type. -/
def Env.IterateStaticSound : Prop :=
  ∀ b items, (env.pytype b).tupleItems? = some items → env.isStaticSized b = true →
    (env.iterateStaticOf b).length = items.length

/-- The pairs of a builder and a target type that converting `operand` to
    `target` works on: the pair itself and, for a struct target, the pairs
    of an item of the resolved tuple with the field type beside it. -/
inductive Env.Visits (env : Env β τ) : Builder β → PyType τ → Builder β → PyType τ → Prop
  | refl (b : Builder β) (t : PyType τ) : Env.Visits env b t b t
  | field {operand inst item : Builder β} {s : τ} {types : List (PyType τ)} {type : PyType τ}
      {b : Builder β} {t : PyType τ} :
      maybeResolveArc4Literal env.resolveLiteral operand (.struct s types) = .ok inst →
      (item, type) ∈ (env.iterateStaticOf inst).zip types → Env.Visits env item type b t →
      Env.Visits env operand (.struct s types) b t

/-- A `ValueError` raised in the work on the pair `(b, t)`: by literal
    resolution, or by the builder of the type `t`. -/
def RaisesValueError (b : Builder β) (t : PyType τ) (m : String) : Prop :=
  maybeResolveArc4Literal env.resolveLiteral b t = .error (.valueError m) ∨
    ∃ args, env.call t args = .error (.valueError m)

mutual
/-- Every `ValueError` of a conversion is raised by literal resolution or by
    a target's builder, on a pair the conversion works on: the struct branch
    compares the arity of the tuple with the struct's before its strict
    zip. -/
theorem implicitArc4Conversion_valueError (hs : env.IterateStaticSound) {m : String} :
    (operand : Builder β) → (target : PyType τ) →
      implicitArc4Conversion env operand target = .error (.valueError m) →
        ∃ b t, env.Visits operand target b t ∧ RaisesValueError env b t m
  | operand, .struct s types, h => by
    rw [implicitArc4Conversion] at h
    rcases bind_eq_error.1 h with h | ⟨inst, hinst, h⟩
    · exact ⟨_, _, .refl _ _, .inl h⟩
    rcases env.convertWith_eq_error h with h | h | ⟨a, h⟩
    · cases env.precheck_error h
    · split at h
      · rename_i items hitems
        split_ifs at h with hlen hst
        · obtain ⟨p, hp, b, t, hv, hr⟩ := convertItems_valueError hs _ types
            (by rw [hs inst items hitems hst, hlen]) h
          exact ⟨b, t, .field hinst hp hv, hr⟩
        all_goals cases h
      · cases h
    · exact ⟨_, _, .refl _ _, .inr ⟨a, h⟩⟩
  | operand, .arc4Tuple _, h | operand, .tuple .., h | operand, .transaction _, h
  | operand, .other _, h => by
    rw [implicitArc4Conversion_of_not_struct env (by simp)] at h
    rcases bind_eq_error.1 h with h | ⟨inst, -, h⟩
    · exact ⟨_, _, .refl _ _, .inl h⟩
    rcases env.convertWith_eq_error h with h | h | ⟨a, h⟩
    · cases env.precheck_error h
    · cases h
    · exact ⟨_, _, .refl _ _, .inr ⟨a, h⟩⟩
  termination_by structural _ target => target
/-- `implicitArc4Conversion_valueError` for the items of a tuple, paired
    with field types of the same number. -/
theorem convertItems_valueError (hs : env.IterateStaticSound) {m : String} :
    (items : List (Builder β)) → (types : List (PyType τ)) → items.length = types.length →
      convertItems env items types = .error (.valueError m) →
        ∃ p ∈ items.zip types, ∃ b t, env.Visits p.1 p.2 b t ∧ RaisesValueError env b t m
  | [], [], _, h => nomatch h
  | [], _ :: _, hl, _ | _ :: _, [], hl, _ => nomatch hl
  | item :: items, type :: types, hl, h => by
    rcases bind_eq_error.1 h with h | ⟨⟨_, _⟩, -, h⟩
    · exact ⟨_, List.mem_cons_self _ _, implicitArc4Conversion_valueError hs item type h⟩
    rcases bind_eq_error.1 h with h | ⟨⟨_, _⟩, -, h⟩
    · obtain ⟨p, hp, hrest⟩ := convertItems_valueError hs items types (Nat.succ.inj hl) h
      exact ⟨p, List.mem_cons_of_mem _ hp, hrest⟩
    · cases h
  termination_by structural _ types => types
end

/-- An environment whose calls all return, where every instance already has
    its target type and no builder has a tuple type. -/
def unitEnv : Env Unit Unit where
  resolveLiteral b _ := .ok b
  pytype _ := .other ()
  pytypeEq _ _ := true
  wtype _ := arc4BoolWtype
  str _ := "arc4.bool"
  canEncode _ _ := true
  staticSized _ := false
  iterateStatic _ := []
  dummyValue _ := .other ()
  call _ _ := .ok (.other ())
  innerFieldset _ := none

/-! ## Section 5: Converting the arguments of a call -/

theorem convertEach_error {e : Raised} :
    (pairs : List (Builder β × PyType τ)) → convertEach env pairs = .error e →
      ∃ p ∈ pairs, implicitArc4Conversion env p.1 p.2 = .error e
  | [], h => nomatch h
  | (_, _) :: pairs, h => by
    rcases bind_eq_error.1 h with h | ⟨⟨_, _⟩, -, h⟩
    · exact ⟨_, List.mem_cons_self _ _, h⟩
    rcases bind_eq_error.1 h with h | ⟨⟨_, _⟩, -, h⟩
    · obtain ⟨p, hp, h⟩ := convertEach_error pairs h
      exact ⟨p, List.mem_cons_of_mem _ hp, h⟩
    · cases h

/-- Every `ValueError` that `convert_args` raises is raised by literal
    resolution or by a target's builder, on a pair that converting one of
    the call's arguments to its declared type works on: the struct branch of
    the conversion checks the arity of a tuple before its strict zip, so
    that zip never raises. -/
theorem convertArgs_valueError (hs : env.IterateStaticSound) {argTypes : List (PyType τ)}
    {nativeArgs : List (Builder β)} {expectItxnArgs : Bool} {m : String}
    (h : convertArgs env argTypes nativeArgs expectItxnArgs = .error (.valueError m)) :
    ∃ p ∈ nativeArgs.zip (if expectItxnArgs then argTypes.map env.gtxnToItxn else argTypes),
      ∃ b t, env.Visits p.1 p.2 b t ∧ RaisesValueError env b t m := by
  rcases bind_eq_error.1 h with h | ⟨⟨_, _⟩, -, h⟩
  · obtain ⟨p, hp, h⟩ := convertEach_error env _ h
    exact ⟨p, hp, implicitArc4Conversion_valueError env hs p.1 p.2 h⟩
  · cases h

theorem unitEnv_nested_valueError_source :
    convertArgs unitEnv [nestedArc4Tuple ()] [nestedEmptyLiteral] false =
        .error (.valueError "zip() argument 2 is longer than argument 1") ∧
      ∃ p ∈ [nestedEmptyLiteral].zip
          (if false then [nestedArc4Tuple ()].map unitEnv.gtxnToItxn else [nestedArc4Tuple ()]),
        ∃ b t, unitEnv.Visits p.1 p.2 b t ∧
          RaisesValueError unitEnv b t "zip() argument 2 is longer than argument 1" :=
  have h : convertArgs unitEnv [nestedArc4Tuple ()] [nestedEmptyLiteral] false =
      .error (.valueError "zip() argument 2 is longer than argument 1") := rfl
  ⟨h, convertArgs_valueError unitEnv (fun _ _ h _ => nomatch h) h⟩

theorem convertArgs_nested_arity_mismatch (t : τ) :
    maybeResolveArc4Literal env.resolveLiteral nestedEmptyLiteral (nestedArc4Tuple t) =
        .error (.valueError "zip() argument 2 is longer than argument 1") ∧
      convertArgs env [nestedArc4Tuple t] [nestedEmptyLiteral] false =
        .error (.valueError "zip() argument 2 is longer than argument 1") :=
  ⟨rfl, rfl⟩

end Conversion

end Puya.Arc4
