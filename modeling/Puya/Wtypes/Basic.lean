import Mathlib

/-! # The wire-type universe

    A model of `puya/awst/wtypes.py`: one inductive `WType` whose
    constructors are the classes of the module, holding the arguments their
    constructors keep. The attributes the classes store (`name`,
    `scalar_type`, `ephemeral`, `immutable`, `arc4_name`, `decode_type`) are
    functions computed from those arguments exactly as the `__init__`
    methods compute them.

    Two kinds of base `WType` instance are kept apart: the module-level
    constants (`bool_wtype`, `uint64_wtype`, …), which are single objects that
    `is` compares by identity, and any other `WType(...)` instance, which only
    `==` can relate to them.

    The classes' checks and errors are in `Puya.Wtypes.Constructors`.
-/

namespace Puya.Wtypes

/-! ### Scalar types, transaction kinds, base constants -/

/-- `AVMType`: the two AVM stack types. -/
inductive AVMType
  | uint64
  | bytes
  deriving DecidableEq, Repr

/-- Modelled from the spec: `TransactionType` (`puya/awst_build/constants.py`)
    is not among the modelled sources; the spec's fixed enum of transaction
    kinds, with the member names the AVM uses. -/
inductive TransactionType
  | pay
  | keyreg
  | acfg
  | axfer
  | afrz
  | appl
  deriving DecidableEq, Repr

/-- `transaction_type.name`. -/
def TransactionType.name : TransactionType → String
  | .pay => "pay"
  | .keyreg => "keyreg"
  | .acfg => "acfg"
  | .axfer => "axfer"
  | .afrz => "afrz"
  | .appl => "appl"

/-- The module-level `WType` constants. -/
inductive BasicConst
  | void
  | bool
  | uint64
  | biguint
  | bytes
  | string
  | asset
  | account
  | application
  | stateKey
  | boxKey
  deriving DecidableEq, Repr

/-- The `name` each constant is built with. -/
def BasicConst.name : BasicConst → String
  | .void => "void"
  | .bool => "bool"
  | .uint64 => "uint64"
  | .biguint => "biguint"
  | .bytes => "bytes"
  | .string => "string"
  | .asset => "asset"
  | .account => "account"
  | .application => "application"
  | .stateKey => "state_key"
  | .boxKey => "box_key"

/-- The `scalar_type` each constant is built with. -/
def BasicConst.scalarType : BasicConst → Option AVMType
  | .void => none
  | .bool | .uint64 | .asset | .application => some .uint64
  | .biguint | .bytes | .string | .account | .stateKey | .boxKey => some .bytes

/-! ### The universe -/

/-- A wire type: one constructor per class of `wtypes.py`, with the arguments
    its constructor keeps. `arc4Alias` is the optional `arc4_name` override; the
    struct constructors keep the items of their field mapping in order. -/
inductive WType where
  /-- One of the module-level constants (`void_wtype`, `bool_wtype`, …). -/
  | basic (c : BasicConst)
  /-- Any other instance of the base class, `WType(name=…, …)`. -/
  | plain (name : String) (scalarType : Option AVMType) (ephemeral immutable : Bool)
  | groupTransaction (transactionType : Option TransactionType)
  | innerTransactionFields (transactionType : Option TransactionType)
  | innerTransaction (transactionType : Option TransactionType)
  | struct (fields : List (String × WType)) (name : String) (immutable : Bool)
  | array (elementType : WType)
  | tuple (types : List WType)
  /-- `arc4_bool_wtype`, the one instance of the base class `ARC4Type`. -/
  | arc4Bool
  | arc4UIntN (n : Int) (decodeType : WType) (arc4Alias : Option String)
  | arc4UFixedNxM (bits precision : Int)
  | arc4Tuple (types : List WType)
  | arc4DynamicArray (elementType : WType) (arc4Alias : Option String) (nativeType : Option WType)
      (immutable : Bool)
  | arc4StaticArray (elementType : WType) (arraySize : Int) (arc4Alias : Option String)
      (nativeType : Option WType) (immutable : Bool)
  | arc4Struct (fields : List (String × WType)) (name : String) (immutable : Bool)
  deriving Repr, Inhabited

namespace WType

/-- Python's `alias or default`: an empty alias counts as none. -/
def aliasOr (arc4Alias : Option String) (default : String) : String :=
  match arc4Alias with
  | some a => if a = "" then default else a
  | none => default

/-- `"prefix<" + ",".join(names) + ">"`. -/
def bracket (pre : String) (names : List String) : String :=
  pre ++ "<" ++ ",".intercalate names ++ ">"

/-- `"(" + ",".join(names) + ")"`. -/
def paren (names : List String) : String :=
  "(" ++ ",".intercalate names ++ ")"

/-- The name `from_type` gives a transaction type. -/
def txnName (base : String) : Option TransactionType → String
  | some t => base ++ "_" ++ t.name
  | none => base

mutual
/-- `name`, as each constructor builds it. -/
def name : WType → String
  | basic c => c.name
  | plain n _ _ _ => n
  | groupTransaction t => txnName "group_transaction" t
  | innerTransactionFields t => txnName "inner_transaction_fields" t
  | innerTransaction t => txnName "inner_transaction" t
  | struct _ n _ => n
  | array e => bracket "array" [e.name]
  | tuple ts => bracket "tuple" (names ts)
  | arc4Bool => "arc4.bool"
  | arc4UIntN n _ _ => "arc4.uint" ++ toString n
  | arc4UFixedNxM n m => "arc4.ufixed" ++ toString n ++ "x" ++ toString m
  | arc4Tuple ts => bracket "arc4.tuple" (names ts)
  | arc4DynamicArray e _ _ _ => bracket "arc4.dynamic_array" [e.name]
  | arc4StaticArray e k _ _ _ => "arc4.static_array<" ++ e.name ++ ", " ++ toString k ++ ">"
  | arc4Struct _ n _ => n
  termination_by structural t => t
/-- The names of a list of types. -/
def names : List WType → List String
  | [] => []
  | t :: ts => t.name :: names ts
  termination_by structural ts => ts
end

mutual
/-- `immutable`: fixed by the class, taken from the caller, or, for ARC4
    tuples and structs, collapsed to mutable when any item is mutable. -/
def immutable : WType → Bool
  | basic _ => true
  | plain _ _ _ i => i
  | groupTransaction _ | innerTransactionFields _ | innerTransaction _ => true
  | struct _ _ i => i
  | array _ => false
  | tuple _ => true
  | arc4Bool => true
  | arc4UIntN _ _ _ => true
  | arc4UFixedNxM _ _ => true
  | arc4Tuple ts => allImmutable ts
  | arc4DynamicArray _ _ _ i => i
  | arc4StaticArray _ _ _ _ i => i
  | arc4Struct fs _ i => i && fieldsImmutable fs
  termination_by structural t => t
/-- All types of a list are immutable. -/
def allImmutable : List WType → Bool
  | [] => true
  | t :: ts => t.immutable && allImmutable ts
  termination_by structural ts => ts
/-- All field types of a struct are immutable. -/
def fieldsImmutable : List (String × WType) → Bool
  | [] => true
  | (_, t) :: fs => t.immutable && fieldsImmutable fs
  termination_by structural fs => fs
end

mutual
/-- `arc4_name` of an ARC4 type (`""` for the others, which have none). -/
def arc4Name : WType → String
  | arc4Bool => "bool"
  | arc4UIntN n _ a => aliasOr a ("uint" ++ toString n)
  | arc4UFixedNxM n m => "ufixed" ++ toString n ++ "x" ++ toString m
  | arc4Tuple ts => paren (arc4Names ts)
  | arc4DynamicArray e a _ _ => aliasOr a (e.arc4Name ++ "[]")
  | arc4StaticArray e k a _ _ => aliasOr a (e.arc4Name ++ "[" ++ toString k ++ "]")
  | arc4Struct fs _ _ => paren (fieldArc4Names fs)
  | _ => ""
  termination_by structural t => t
/-- The ARC4 names of a list of types. -/
def arc4Names : List WType → List String
  | [] => []
  | t :: ts => t.arc4Name :: arc4Names ts
  termination_by structural ts => ts
/-- The ARC4 names of the field types of a struct. -/
def fieldArc4Names : List (String × WType) → List String
  | [] => []
  | (_, t) :: fs => t.arc4Name :: fieldArc4Names fs
  termination_by structural fs => fs
end

/-- `scalar_type`. -/
def scalarType : WType → Option AVMType
  | basic c => c.scalarType
  | plain _ s _ _ => s
  | groupTransaction _ => some .uint64
  | innerTransactionFields _ | innerTransaction _ => none
  | struct .. | array _ | tuple _ => none
  | _ => some .bytes

/-- `ephemeral`. -/
def ephemeral : WType → Bool
  | plain _ _ e _ => e
  | groupTransaction _ | innerTransactionFields _ | innerTransaction _ => true
  | _ => false

/-- `isinstance(t, ARC4Type)`. -/
def isArc4 : WType → Bool
  | arc4Bool | arc4UIntN .. | arc4UFixedNxM .. | arc4Tuple _ | arc4DynamicArray ..
  | arc4StaticArray .. | arc4Struct .. => true
  | _ => false

/-- `isinstance(t, WTuple)`. -/
def isTuple : WType → Bool
  | tuple _ => true
  | _ => false

/-- `decode_type` of an ARC4 type: an ARC4 tuple decodes to the native tuple
    of its item types. -/
def decodeType : WType → Option WType
  | arc4Bool => some (basic .bool)
  | arc4UIntN _ d _ => some d
  | arc4Tuple ts => some (tuple ts)
  | arc4DynamicArray _ _ d _ => d
  | arc4StaticArray _ _ _ d _ => d
  | _ => none

/-- The fields every class has: `name`, `scalar_type`, `ephemeral`, `immutable`. -/
def baseEq (a b : WType) : Bool :=
  a.name == b.name && a.scalarType == b.scalarType && a.ephemeral == b.ephemeral &&
    a.immutable == b.immutable

mutual
/-- `a == b` as `attrs` generates it: objects of different classes are unequal;
    objects of one class compare every field with `eq=True`, which leaves out
    `arc4_name` (and so the alias). Both `WType` kinds (constants and other
    instances) are of the base class; struct fields compare as mappings. -/
def pyEq : WType → WType → Bool
  | a@(basic _), b | a@(plain ..), b =>
    match b with
    | basic _ | plain .. => baseEq a b
    | _ => false
  | a@(groupTransaction t), b =>
    match b with
    | groupTransaction t' => baseEq a b && t == t'
    | _ => false
  | a@(innerTransactionFields t), b =>
    match b with
    | innerTransactionFields t' => baseEq a b && t == t'
    | _ => false
  | a@(innerTransaction t), b =>
    match b with
    | innerTransaction t' => baseEq a b && t == t'
    | _ => false
  | a@(struct fs _ _), b =>
    match b with
    | struct fs' _ _ => baseEq a b && fs.length == fs'.length && fieldsIn fs fs'
    | _ => false
  | a@(array e), b =>
    match b with
    | array e' => baseEq a b && pyEq e e'
    | _ => false
  | a@(tuple ts), b =>
    match b with
    | tuple ts' => baseEq a b && listEq ts ts'
    | _ => false
  | arc4Bool, b =>
    match b with
    | arc4Bool => true
    | _ => false
  | a@(arc4UIntN n d _), b =>
    match b with
    | arc4UIntN n' d' _ => baseEq a b && pyEq d d' && n == n'
    | _ => false
  | a@(arc4UFixedNxM n m), b =>
    match b with
    | arc4UFixedNxM n' m' => baseEq a b && n == n' && m == m'
    | _ => false
  | a@(arc4Tuple ts), b =>
    match b with
    | arc4Tuple ts' => baseEq a b && listEq ts ts'
    | _ => false
  | a@(arc4DynamicArray e _ d _), b =>
    match b with
    | arc4DynamicArray e' _ d' _ => baseEq a b && pyEq e e' && optEq d d'
    | _ => false
  | a@(arc4StaticArray e k _ d _), b =>
    match b with
    | arc4StaticArray e' k' _ d' _ => baseEq a b && pyEq e e' && k == k' && optEq d d'
    | _ => false
  | a@(arc4Struct fs _ _), b =>
    match b with
    | arc4Struct fs' _ _ => baseEq a b && fs.length == fs'.length && fieldsIn fs fs'
    | _ => false
  termination_by structural a => a
/-- Tuple equality: equal lengths and equal items in order. -/
def listEq : List WType → List WType → Bool
  | [], [] => true
  | t :: ts, t' :: ts' => pyEq t t' && listEq ts ts'
  | _, _ => false
  termination_by structural ts => ts
/-- Every key of the first mapping is in the second, with an equal value. -/
def fieldsIn : List (String × WType) → List (String × WType) → Bool
  | [], _ => true
  | (k, t) :: fs, fs' =>
    (match fs'.lookup k with
     | some t' => pyEq t t'
     | none => false) && fieldsIn fs fs'
  termination_by structural fs => fs
/-- Equality of two `WType | None` values. -/
def optEq : Option WType → Option WType → Bool
  | some t, some t' => pyEq t t'
  | none, none => true
  | _, _ => false
  termination_by structural d => d
end

theorem names_eq_map (ts : List WType) : names ts = ts.map name := by
  induction ts with
  | nil => rfl
  | cons t ts ih => simp [names, ih]

theorem allImmutable_iff (ts : List WType) : allImmutable ts = true ↔ ∀ t ∈ ts, t.immutable = true := by
  induction ts with
  | nil => simp [allImmutable]
  | cons t ts ih => simp [allImmutable, ih]

theorem fieldsImmutable_iff (fs : List (String × WType)) :
    fieldsImmutable fs = true ↔ ∀ f ∈ fs, f.2.immutable = true := by
  induction fs with
  | nil => simp [fieldsImmutable]
  | cons f fs ih => obtain ⟨k, t⟩ := f; simp [fieldsImmutable, ih]

end WType

/-! ### The module constants -/

open WType

/-- `void_wtype`. -/
def voidWtype : WType := basic .void
/-- `bool_wtype`. -/
def boolWtype : WType := basic .bool
/-- `uint64_wtype`. -/
def uint64Wtype : WType := basic .uint64
/-- `biguint_wtype`. -/
def biguintWtype : WType := basic .biguint
/-- `bytes_wtype`. -/
def bytesWtype : WType := basic .bytes
/-- `string_wtype`. -/
def stringWtype : WType := basic .string
/-- `account_wtype`. -/
def accountWtype : WType := basic .account
/-- `arc4_bool_wtype`. -/
def arc4BoolWtype : WType := arc4Bool
/-- `arc4_byte_alias`: `ARC4UIntN(n=8, alias="byte", decode_type=uint64_wtype)`. -/
def arc4ByteAlias : WType := arc4UIntN 8 uint64Wtype (some "byte")
/-- `arc4_string_wtype`: the dynamic byte array that decodes to `string`. -/
def arc4StringWtype : WType :=
  arc4DynamicArray arc4ByteAlias (some "string") (some stringWtype) true
/-- `arc4_address_wtype`: the 32-byte static array that decodes to `account`. -/
def arc4AddressWtype : WType :=
  arc4StaticArray arc4ByteAlias 32 (some "address") (some accountWtype) true

end Puya.Wtypes
