import SheetTypes.Concrete.OfInferred
import SheetTypes.Unification

/-!
Sessions. A session owns the variables of one check and offers what a walk over an expression
needs: instantiating signatures, unifying operands, requiring capabilities, applying functions,
building tagged values, and making the result concrete.
-/

set_option autoImplicit false

namespace SheetTypes

structure CheckOptions where
  allowDefaults : Bool := true
  maxErrors : Nat := 100
  abortOnInternal : Bool := true
deriving DecidableEq

structure Session where
  store : Store
  registry : Registry
  options : CheckOptions
  log : ErrorLog

/-- An operation of a session; what it has changed before a failure stays. -/
abbrev Checking := ExceptT Failure (StateM Session)

abbrev Annotating := ExceptT Failure (StateT Bindings (StateM Session))

namespace Session

def start (registry : Registry) (options : CheckOptions) : Session :=
  ⟨.empty, registry, options, ⟨options.maxErrors, [], 0⟩⟩

def onStore {m : Type → Type} [MonadStateOf Session m] {α : Type} (action : StateM Store α) :
    m α :=
  modifyGet fun session =>
    let (result, store) := action session.store
    (result, { session with store })

def infer {α : Type} (action : Infer α) : Checking α := do
  match ← onStore action.run with
  | .ok value => return value
  | .error error => throw (.error error)

def escalate {α : Type} (result : Except TypeError α) : Checking α := do
  match result with
  | .ok value => return value
  | .error error => throw (error.escalate (← get).options.abortOnInternal)

def inferEscalating {α : Type} (action : Infer α) : Checking α := do
  escalate (← onStore action.run)

def freshType (requirements : Requirements) : StateM Session InferredType := do
  return .var (← onStore (Store.freshTypeVar requirements))

def freshUnit : StateM Session InferredUnit := do
  return .ofVar (← onStore Store.freshUnitVar)

/-- Instantiates a template; its named variables are shared with other templates that are
instantiated with the same bindings. -/
def instantiateWith (label : String) (template : Template) : Annotating InferredType :=
  ExceptT.mk fun bindings => do
    let (result, bindings) ← onStore ((template.instantiate label).run.run bindings)
    return (← (escalate result).run, bindings)

def instantiate (label : String) (template : Template) : Checking InferredType :=
  ExceptT.mk do
    let (result, _) ← (instantiateWith label template).run.run .empty
    return result

def unify (left right : InferredType) : Checking InferredType := do
  let registry := (← get).registry
  inferEscalating (Unification.unify (some registry) left right)

def unifyAt (places : List Place) (left right : InferredType) : Checking InferredType := do
  try unify left right
  catch
    | .error error => throw (.error (error.atPlaces places))
    | failure => throw failure

def unifyUnits (left right : InferredUnit) : Checking Unit := do
  let registry := (← get).registry
  inferEscalating (Unification.unifyUnits (some registry) left right)

def require (type : InferredType) (capability origin : String) : Checking Unit :=
  inferEscalating (Store.enforce (.single capability origin) type)

def resolve (type : InferredType) : StateM Session InferredType := onStore (Store.resolve type)

def unifyPairs : List InferredType → List InferredType → Checking Unit
  | param :: params, argument :: arguments => do
      discard (unify param argument)
      unifyPairs params arguments
  | _, _ => pure ()

/-- The result of applying a function to arguments. A function that is not known yet becomes one
from the arguments to a new result. -/
def apply (function : InferredType) (arguments : List InferredType) : Checking InferredType := do
  match ← onStore (Store.prune function) with
  | .var var =>
      let result ← freshType .none
      discard (unify (.var var) (.function arguments result))
      onStore (Store.prune result)
  | .function params result =>
      if params.length ≠ arguments.length then
        let name ← onStore (Store.render (.function params result))
        throw (.error (.ofCause (.arityMismatch name params.length arguments.length)))
      unifyPairs params arguments
      onStore (Store.prune result)
  | other =>
      let type ← onStore (Store.render other)
      throw (.error (.ofCause (.notFunction type)))

def freshOperands : List Parameter → Bindings →
    StateM Session (List (Operand InferredType InferredUnit) × Bindings)
  | [], bindings => return ([], bindings)
  | .type name :: params, bindings => do
      let var ← freshType .none
      let (operands, bindings) ← freshOperands params (bindings.putType name var)
      return (.type var :: operands, bindings)
  | .unit name :: params, bindings => do
      let var ← freshUnit
      let (operands, bindings) ← freshOperands params (bindings.putUnit name var)
      return (.unit var :: operands, bindings)

/-- The type that a tag belongs to, with new variables for its parameters, and the type of the
tag's payload. -/
def tagConstructor (typeName tagName : String) :
    Checking (InferredType × Option InferredType) := do
  let registry := (← get).registry
  match registry.type? typeName with
  | none => throw (.error (.unknownType typeName registry.typeNames))
  | some definition =>
      match definition.tag? tagName with
      | none => throw (.error (.noSuchTag typeName tagName definition.tagNames))
      | some tag =>
          let (operands, bindings) ← freshOperands definition.params .empty
          match tag.payload with
          | none => return (.tagged typeName operands, none)
          | some payload =>
              let (result, _) ←
                (instantiateWith (definition.payloadLabel tag) payload).run.run bindings
              return (.tagged typeName operands, some (← ExceptT.mk (pure result)))

def construct (typeName tagName : String) (payload : Option InferredType) :
    Checking InferredType := do
  let (constructed, expected) ← tagConstructor typeName tagName
  match expected, payload with
  | some expected, some payload => discard (unify expected payload)
  | none, none => pure ()
  | expected, payload =>
      throw (.error (.ofCause (.arityMismatch (typeName ++ "." ++ tagName)
        expected.toList.length payload.toList.length)))
  resolve constructed

def field (type : InferredType) (name : String) : Checking InferredType := do
  match ← onStore (Store.prune type) with
  | .record fields =>
      match fields.lookup name with
      | some fieldType => return fieldType
      | none =>
          let record ← onStore (Store.render type)
          throw (.error (.noSuchField record name (fields.map Prod.fst)))
  | .var var =>
      throw (.error (.ofCause (.ambiguousType var.text ["field '" ++ name ++ "'"])))
  | other =>
      let rendered ← onStore (Store.render other)
      throw (.error (.noSuchField rendered name []))

def concretize (type : InferredType) : Checking ConcreteType := do
  let session ← get
  escalate (session.store.concretize session.registry session.options.allowDefaults type)

/-- The concrete type of a template whose variables are bound in the session. An error of the
last step refers to the whole template. -/
def concretizeTemplate (label : String) (template : Template) : Annotating ConcreteType :=
  ExceptT.mk fun bindings => do
    let (result, bindings) ← (instantiateWith label template).run.run bindings
    match result with
    | .error failure => return (.error failure, bindings)
    | .ok type =>
        match ← (concretize type).run with
        | .error (.error error) =>
            return (.error (.error (error.atPlace (.node label 0))), bindings)
        | outcome => return (outcome, bindings)

def report (error : TypeError) : StateM Session Unit :=
  modify fun session => { session with log := session.log.add error }

def record {α : Type} (result : Except TypeError α) : StateM Session (Option α) := do
  match result with
  | .ok value => return some value
  | .error error =>
      report error
      return none

def hasErrors (session : Session) : Bool := !session.log.kept.isEmpty

end Session

def checkTemplate (registry : Registry) (options : CheckOptions) (label : String)
    (template : Template) : Except Failure ConcreteType :=
  let ((result, _), _) :=
    ((Session.concretizeTemplate label template).run.run .empty).run (.start registry options)
  result

/-- What comes of starting a pool of so many workers: a message if it fails. -/
abbrev StartWorkers := Nat → Except String Unit

/-- Checks templates, each in a session of its own; the results keep their order. With zero workers
no pool of its own is started for the batch. -/
def checkBatch (start : StartWorkers) (registry : Registry) (options : CheckOptions)
    (workers : Nat) (templates : List (String × Template)) :
    Except String (List (Except Failure ConcreteType)) := do
  if workers ≠ 0 then
    start workers
  return templates.map fun entry => checkTemplate registry options entry.1 entry.2

end SheetTypes
