import Puya.Wtypes.Constructors

/-! # Storage types and ARC4 argument types

    `persistable_stack_type`, `validate_persistable` and
    `_storage_type_or_error` (`puya/awst/wtypes.py`): whether a value of a
    wtype can be kept in state or in a box, and as which AVM type; and
    `is_reference_type` and `is_arc4_argument_type`, which say which types an
    ARC4 method may take.
-/

namespace Puya.Wtypes

open WType PuyaError

/-- `asset_wtype`. -/
def assetWtype : WType := basic .asset
/-- `application_wtype`. -/
def applicationWtype : WType := basic .application

/-- `_storage_type_or_error(wtype)`: the AVM type a value of `wtype` is stored
    as, or why it cannot be stored. -/
def storageTypeOrError (wtype : WType) : Except String AVMType :=
  if wtype.ephemeral then
    .error "ephemeral types (such as transaction related types) are not suitable for storage"
  else
    match wtype.scalarType with
    | none => .error "type is not suitable for storage"
    | some t => .ok t

/-- `persistable_stack_type(wtype, location)`: the reason becomes a
    `CodeError`. -/
def persistableStackType (wtype : WType) : Except PuyaError AVMType :=
  match storageTypeOrError wtype with
  | .error e => .error (codeError e)
  | .ok t => .ok t

/-- `validate_persistable(wtype, location)`: the result and the errors it
    logs. -/
def validatePersistable (wtype : WType) : Bool × List String :=
  match storageTypeOrError wtype with
  | .error e => (false, [e])
  | .ok _ => (true, [])

/-- `is_reference_type(wtype)`: `wtype in (asset_wtype, account_wtype,
    application_wtype)`, where `in` compares each constant `== wtype`. -/
def isReferenceType (wtype : WType) : Bool :=
  [assetWtype, accountWtype, applicationWtype].any (pyEq · wtype)

/-- `isinstance(wtype, WGroupTransaction)`. -/
def isGroupTransaction : WType → Bool
  | groupTransaction _ => true
  | _ => false

/-- `is_arc4_argument_type(wtype)`. -/
def isArc4ArgumentType (wtype : WType) : Bool :=
  isReferenceType wtype || wtype.isArc4 || isGroupTransaction wtype

end Puya.Wtypes
