/- GID: Sre/Integration/Registry
   digest: The registry of analyzer integrations, with the factories and registrars it calls. -/

import Sre.Foundation.System
import Sre.Scanner.History

set_option autoImplicit false

namespace Sre.Integration

open Foundation Foundation.Assoc Foundation.Strings
open Scanner (AnalyzerInfo)

section Scanner

inductive AnalyzerError where
  | invalid
  | duplicate

def unsafeCharacter (c : Char) : Bool := c = '\r' || c = '\n' || c.toNat = 0

/-- `strings.ContainsAny(value, "\r\n\x00")`. -/
def containsUnsafe (t : Text) : Bool := t.any unsafeCharacter

def validAnalyzerInfo (info : AnalyzerInfo) : Bool :=
  let name := TrimSpace info.name
  let resource := TrimSpace info.resource
  let description := TrimSpace info.description
  name ≠ [] && byteSize name ≤ 128 && resource ≠ [] && byteSize resource ≤ 128 &&
    description ≠ [] && byteSize description ≤ 4096 &&
    [name, resource, description, info.docsURL].all fun value => !containsUnsafe value

/-- The key of an analyzer in a `scanner.AnalyzerRegistry`. -/
def analyzerKey (name : Text) : Text := ToLower (TrimSpace name)

/-- `AnalyzerRegistry.Register`, on the keys that are taken. -/
def registerKey (keys : List Text) (info : AnalyzerInfo) : Except AnalyzerError (List Text) :=
  if validAnalyzerInfo info = false then .error .invalid
  else if analyzerKey info.name ∈ keys then .error .duplicate
  else .ok (analyzerKey info.name :: keys)

end Scanner

section Types

structure GroupVersionResource where
  group : Text
  version : Text
  resource : Text
  deriving DecidableEq

structure Metadata where
  name : Text
  displayName : Text
  version : Text
  description : Text
  docsURL : Text
  owner : Text
  namespace_ : Text
  readOnly : Bool
  requiredResources : List GroupVersionResource
  deriving DecidableEq

/-- A factory. Where it panics instead of telling its metadata there are none. -/
structure Factory where
  identity : ℕ
  multiple : Bool
  single : Bool
  metadata : Option Metadata
  deriving DecidableEq

/-- A registrar; one that is neither comparable nor a pointer is the same as none. -/
structure Registrar where
  identity : ℕ
  comparable : Bool
  deriving DecidableEq

/-- An analyzer as a factory returns it. Its `Info` may panic. -/
inductive Product where
  | nil
  | analyzer (info : Option AnalyzerInfo) (closable : Bool)

def Product.closable : Product → Bool
  | .nil => false
  | .analyzer _ closable => closable

/-- An analyzer under management. Analyzers are numbered as factories return them. -/
structure managedAnalyzer where
  id : ℕ
  info : AnalyzerInfo
  closable : Bool
  deriving DecidableEq

structure activation where
  registrar : Registrar
  analyzers : List managedAnalyzer
  analyzerNames : List Text
  deriving DecidableEq

structure registeredIntegration where
  factory : Factory
  metadata : Metadata
  active : Option activation
  deriving DecidableEq

/-- What an error that comes from outside wraps. -/
inductive Cause where
  | canceled
  | deadlineExceeded
  | other

inductive LifecycleError where
  | integrationRequired
  | factoryInvalid
  | metadataInvalid
  | integrationDuplicate
  | integrationNotFound
  | integrationActive
  | registrarRequired
  | registrarMismatch
  | activationFailed
  | deactivationFailed
  | canceled
  | deadlineExceeded

def safeLifecycleError (pub : LifecycleError) : Cause → LifecycleError
  | .canceled => .canceled
  | .deadlineExceeded => .deadlineExceeded
  | .other => pub

/-- What others see of the registry. Calls of a registrar that fail leave no event. -/
inductive Event where
  | returned (product : Product)
  | registered (r : Registrar) (m : managedAnalyzer)
  | unregistered (r : Registrar) (name : Text)
  | setActive (m : managedAnalyzer) (active : Bool)
  | closed (m : managedAnalyzer)

/-- The newest event is the first. -/
abbrev Log := List Event

inductive Unregistered where
  | ok
  | notFound
  | failed (cause : Cause)

/-- What the world outside answers to a call, which may depend on everything that happened
before it, and on what the call is for. -/
structure Environment where
  secureURL : Text → Bool
  err : Log → Option Cause
  NewAnalyzers : Log → Factory → Option (List Product × Option Cause)
  New : Log → Factory → Option (Product × Option Cause)
  register : Log → Registrar → managedAnalyzer → Option Cause
  unregister : Bool → Log → Registrar → Text → Unregistered
  close : Log → managedAnalyzer → Option Cause

structure World where
  entries : List (Text × registeredIntegration)
  log : Log

end Types

section Metadata

def isASCIIAlphaNumeric (c : Char) : Bool :=
  ('a' ≤ c && c ≤ 'z') || ('A' ≤ c && c ≤ 'Z') || ('0' ≤ c && c ≤ '9')

def validIdentifier : Text → Bool
  | [] => true
  | c :: rest =>
    isASCIIAlphaNumeric c &&
      rest.all fun c => isASCIIAlphaNumeric c || c = '-' || c = '_' || c = '.'

def safeText (value : Text) (max : ℕ) : Bool := byteSize value ≤ max && !containsUnsafe value

def integrationKey (name : Text) : Text := ToLower (TrimSpace name)

def validMetadata (secureURL : Text → Bool) (m : Metadata) : Bool :=
  m.name ≠ [] && byteSize m.name ≤ 128 && validIdentifier m.name &&
    m.description ≠ [] && byteSize m.description ≤ 4096 &&
    byteSize m.displayName ≤ 128 && byteSize m.version ≤ 128 && byteSize m.owner ≤ 128 &&
    byteSize m.namespace_ ≤ 63 && byteSize m.docsURL ≤ 2048 &&
    ([m.name, m.displayName, m.version, m.description, m.owner, m.namespace_, m.docsURL].all
      fun value => !containsUnsafe value) &&
    (m.docsURL = [] || secureURL m.docsURL) &&
    m.requiredResources.length ≤ 64 &&
    m.requiredResources.all fun r =>
      r.version ≠ [] && r.resource ≠ [] && safeText r.group 128 && safeText r.version 64 &&
        safeText r.resource 128

def normalizeMetadata (secureURL : Text → Bool) (m : Metadata) : Option Metadata :=
  let m := { m with
    name := ToLower (TrimSpace m.name)
    displayName := TrimSpace m.displayName
    version := TrimSpace m.version
    description := TrimSpace m.description
    docsURL := TrimSpace m.docsURL
    owner := TrimSpace m.owner
    namespace_ := TrimSpace m.namespace_ }
  if validMetadata secureURL m then some m else none

end Metadata

section Calls

variable (env : Environment)

/-- What a factory returned in a call, with or without an error. -/
def products (log : Log) (factory : Factory) : List Product :=
  if factory.multiple then ((env.NewAnalyzers log factory).map Prod.fst).getD []
  else if factory.single then ((env.New log factory).map fun made => [made.1]).getD []
  else []

/-- `newAnalyzers`: what the registry goes on with. -/
def newAnalyzers (log : Log) (factory : Factory) : Except Cause (List Product) :=
  if factory.multiple then
    match env.NewAnalyzers log factory with
    | none => .error .other
    | some (_, some cause) => .error cause
    | some (analyzers, none) => .ok analyzers
  else if factory.single then
    match env.New log factory with
    | none => .error .other
    | some (_, some cause) => .error cause
    | some (.nil, none) => .error .other
    | some (analyzer, none) => .ok [analyzer]
  else .error .other

def made : Log → ℕ
  | [] => 0
  | .returned _ :: log => made log + 1
  | _ :: log => made log

def manage (keys : List Text) (id : ℕ) : List Product → Option (List managedAnalyzer)
  | [] => some []
  | .nil :: _ => none
  | .analyzer none _ :: _ => none
  | .analyzer (some info) closable :: rest =>
    let info := { info with name := TrimSpace info.name }
    match registerKey keys info with
    | .error _ => none
    | .ok keys => (manage keys (id + 1) rest).map (⟨id, info, closable⟩ :: ·)

/-- The analyzers, the first of them with the given number. -/
def validateAnalyzers (id : ℕ) (analyzers : List Product) : Option (List managedAnalyzer) :=
  if analyzers.length = 0 then none
  else if 64 < analyzers.length then none
  else manage [] id analyzers

/-- The names that were registered, and why the loop ended early. -/
def registerAnalyzers (r : Registrar) :
    List managedAnalyzer → List Text → Log → (List Text × Option Cause) × Log
  | [], registered, log => ((registered, none), log)
  | m :: rest, registered, log =>
    match env.err log with
    | some cause => ((registered, some cause), log)
    | none =>
      match env.register log r m with
      | some cause => ((registered, some cause), log)
      | none => registerAnalyzers r rest (registered ++ [m.info.name]) (.registered r m :: log)

/-- The log after a call of `Unregister`. -/
def unregisterAnalyzer (r : Registrar) (name : Text) (log : Log) : Unregistered → Log
  | .ok => .unregistered r name :: log
  | .notFound | .failed _ => log

/-- From the last name to the first. -/
def rollback (r : Registrar) (names : List Text) (log : Log) : Log :=
  names.reverse.foldl
    (fun log name => unregisterAnalyzer r name log (env.unregister true log r name)) log

def managedAnalyzer.close (m : managedAnalyzer) (log : Log) : Log :=
  if m.closable then .closed m :: log else log

def closeManagedAnalyzers (analyzers : List managedAnalyzer) (log : Log) : Log :=
  analyzers.foldl (fun log m => m.close log) log

def setActive (analyzers : List managedAnalyzer) (active : Bool) (log : Log) : Log :=
  analyzers.foldl (fun log m => .setActive m active :: log) log

/-- What is left of an activation. -/
structure Remaining where
  analyzers : List managedAnalyzer
  names : List Text
  firstErr : Option Cause

/-- The loop of `Deactivate` and `Close` over the names of an activation. -/
def release (r : Registrar) : List Text → List managedAnalyzer → Remaining → Log → Remaining × Log
  | [], _, left, log => (left, log)
  | name :: names, analyzers, left, log =>
    let analyzer := analyzers.head?.toList
    let log := setActive analyzer false log
    match env.unregister false log r name with
    | .failed cause =>
      release r names analyzers.tail
        ⟨left.analyzers ++ analyzer, left.names ++ [name], left.firstErr.or (some cause)⟩
        (setActive analyzer true log)
    | answer =>
      let log := unregisterAnalyzer r name log answer
      let closeErr := analyzer.head?.bind fun m => if m.closable then env.close log m else none
      release r names analyzers.tail { left with firstErr := left.firstErr.or closeErr }
        (closeManagedAnalyzers analyzer log)

end Calls

namespace World

variable (env : Environment) (w : World)

def find (name : Text) : Option registeredIntegration :=
  if integrationKey name = [] then none else w.entries.lookup (integrationKey name)

/-- Entries are shared: an activation is changed in place. -/
def setActivation (name : Text) (active : Option activation) (log : Log) : World where
  entries := w.entries.map fun e =>
    if e.1 = integrationKey name then (e.1, { e.2 with active := active }) else e
  log := log

def Register (factory : Option Factory) : Except LifecycleError Unit × World :=
  match factory with
  | none => (.error .integrationRequired, w)
  | some factory =>
    if factory.multiple = false ∧ factory.single = false then (.error .factoryInvalid, w)
    else
      match factory.metadata.bind (normalizeMetadata env.secureURL) with
      | none => (.error .metadataInvalid, w)
      | some metadata =>
        let key := integrationKey metadata.name
        if (w.entries.lookup key).isSome then (.error .integrationDuplicate, w)
        else (.ok (), { w with entries := put w.entries key ⟨factory, metadata, none⟩ })

def Unregister (name : Text) : Except LifecycleError Unit × World :=
  match w.find name with
  | none => (.error .integrationNotFound, w)
  | some entry =>
    if entry.active.isSome then (.error .integrationActive, w)
    else (.ok (), { w with entries := w.entries.filter fun e => e.1 ≠ integrationKey name })

def sameRegistrar (left right : Registrar) : Bool := left.comparable && left = right

/-- `Activate` from the call of the factory on. -/
def activate (name : Text) (entry : registeredIntegration) (registrar : Registrar) :
    Except LifecycleError Unit × World :=
  let returned := (products env w.log entry.factory).reverse.map Event.returned ++ w.log
  match newAnalyzers env w.log entry.factory with
  | .error cause =>
    (.error (safeLifecycleError .activationFailed cause), { w with log := returned })
  | .ok raw =>
    match validateAnalyzers (made w.log) raw with
    | none => (.error .activationFailed, { w with log := returned })
    | some managed =>
      match registerAnalyzers env registrar managed [] returned with
      | ((registered, some cause), log) =>
        (.error (safeLifecycleError .activationFailed cause),
          { w with
            log := closeManagedAnalyzers managed (rollback env registrar registered log) })
      | ((_, none), log) =>
        (.ok (), w.setActivation name
          (some ⟨registrar, managed, managed.map fun m => m.info.name⟩)
          (setActive managed true log))

def Activate (ctx : Bool) (name : Text) (registrar : Option Registrar) :
    Except LifecycleError Unit × World :=
  match w.find name with
  | none => (.error .integrationNotFound, w)
  | some entry =>
    match entry.active, registrar with
    | some _, none => (.error .registrarRequired, w)
    | some active, some registrar =>
      if sameRegistrar active.registrar registrar then (.ok (), w)
      else (.error .registrarMismatch, w)
    | none, none => (.error .registrarRequired, w)
    | none, some registrar =>
      if ctx = false then (.error .activationFailed, w)
      else
        match env.err w.log with
        | some cause => (.error (safeLifecycleError .activationFailed cause), w)
        | none => w.activate env name entry registrar

/-- The activation that is left, none where all names are gone. -/
def remaining (r : Registrar) (left : Remaining) : Option activation :=
  if left.names.length = 0 then none else some ⟨r, left.analyzers, left.names⟩

def lifecycleResult : Option Cause → Except LifecycleError Unit
  | none => .ok ()
  | some cause => .error (safeLifecycleError .deactivationFailed cause)

def Deactivate (name : Text) (registrar : Option Registrar) : Except LifecycleError Unit × World :=
  match w.find name with
  | none => (.error .integrationNotFound, w)
  | some entry =>
    match entry.active, registrar with
    | none, _ => (.ok (), w)
    | some _, none => (.error .registrarRequired, w)
    | some active, some registrar =>
      if sameRegistrar active.registrar registrar = false then (.error .registrarMismatch, w)
      else
        let (left, log) := release env registrar active.analyzerNames active.analyzers
          ⟨[], [], none⟩ w.log
        (lifecycleResult left.firstErr, w.setActivation name (remaining active.registrar left) log)

def closeEntries : List registeredIntegration → List registeredIntegration → Option Cause → Log →
    (List registeredIntegration × Option Cause) × Log
  | [], keep, firstErr, log => ((keep, firstErr), log)
  | entry :: rest, keep, firstErr, log =>
    match entry.active with
    | none => closeEntries rest keep firstErr log
    | some active =>
      let (left, log) := release env active.registrar active.analyzerNames active.analyzers
        ⟨[], [], firstErr⟩ log
      -- there are never more analyzers than names
      let extra := active.analyzers.drop active.analyzerNames.length
      let left := { left with analyzers := left.analyzers ++ extra }
      let log := setActive extra true log
      match remaining active.registrar left with
      | none => closeEntries rest keep left.firstErr log
      | some active =>
        closeEntries rest (keep ++ [{ entry with active := some active }]) left.firstErr log

def Close (iteration : Iteration (Text × registeredIntegration)) :
    Except LifecycleError Unit × World :=
  let ((keep, firstErr), log) :=
    closeEntries env ((iteration.order w.entries).map Prod.snd) [] none w.log
  (lifecycleResult firstErr,
    { entries := keep.foldl (fun entries e => put entries (integrationKey e.metadata.name) e) []
      log := log })

end World

inductive Call where
  | register (factory : Option Factory)
  | unregister (name : Text)
  | activate (ctx : Bool) (name : Text) (registrar : Option Registrar)
  | deactivate (name : Text) (registrar : Option Registrar)
  | close (iteration : Iteration (Text × registeredIntegration))

/-- A call with the answers that it gets from outside. -/
structure Step where
  env : Environment
  call : Call

def World.run (w : World) (step : Step) : Except LifecycleError Unit × World :=
  match step.call with
  | .register factory => w.Register step.env factory
  | .unregister name => w.Unregister name
  | .activate ctx name registrar => w.Activate step.env ctx name registrar
  | .deactivate name registrar => w.Deactivate step.env name registrar
  | .close iteration => w.Close step.env iteration

/-- Calls on an empty registry, one after the other, as its lock admits them. -/
def registrySystem : System World Step where
  init w := w = ⟨[], []⟩
  step w step w' := (w.run step).2 = w'

end Sre.Integration
