import BinderTracer.Lib.LruMap
import BinderTracer.App.PersistentSignatureCache

/-!
# Resolving method signatures

`MethodResolver.getMethodSignature`: the candidate packages are asked one after another for the name and
the parameters of the method behind a transaction code. Reflection, the class loaders of the packages, the
interface index, the static table and what the persistent cache holds are the environment; the resolver
keeps three caches of its own. A package in which a code had no method is remembered for a minute under
its name and the interface, and is not asked then for any code.
-/

namespace BinderTracer.App

open BinderTracer.Lib

def hasPrefix (start text : String) : Bool := start.toList.isPrefixOf text.toList

/-! ### Reflection -/

/-- A field of a `$Stub` class: its value, if it can be read, and the default name of that transaction, if the
class has one. -/
structure StubField where
  name : String
  isStaticInt : Bool
  value : Option Int32
  defaultTransactionName : Option String

def transactionPrefix : String := "TRANSACTION_"

/-- The name of the method behind a field: the default name, or else the rest of the name of the field. -/
def StubField.methodName (field : StubField) : String :=
  match field.defaultTransactionName with
  | some name => if name = "" then rest else name
  | none => rest
where
  rest : String := String.ofList (field.name.toList.drop transactionPrefix.length)

/-- The transactions of a `$Stub` class, by code. -/
def stubTransactions (fields : List StubField) : Table Int32 String :=
  fields.foldl
    (fun result field =>
      if !field.isStaticInt then result
      else if !hasPrefix transactionPrefix field.name then result
      else
        match field.value with
        | none => result
        | some code => result.insert code field.methodName)
    ∅

/-- A method of an interface. Its types are missing if reading them throws. -/
structure ReflectedMethod where
  name : String
  genericParameterTypes : Option (List String)
  genericReturnType : Option String

/-- The signatures of an interface. Of several methods with one name the first counts. -/
def interfaceSignatures (methods : List ReflectedMethod) : Signatures :=
  methods.foldl
    (fun result m =>
      if (result.lookup m.name).isSome then result
      else result.insert m.name ⟨m.name, m.genericParameterTypes.getD [], m.genericReturnType⟩)
    ∅

/-- What a resolver finds around it. A class that is missing or cannot be read is `none`; the classes of a
package are missing as long as it has no class loader. -/
structure ResolverEnv where
  stubClass : String → Option (List StubField)
  appStubClass : String → String → Option (List StubField)
  interfaceClass : String → Option (List ReflectedMethod)
  appClass : String → String → Option (List ReflectedMethod)
  interfaceIndex : String → List String
  staticMethodTable : String → Int32 → Option String
  packageMeta : String → Option PackageMeta
  persistentCache : Option SignatureWriter
  maxEntries : Nat := 256

namespace ResolverEnv

variable (env : ResolverEnv)

/-- `loadStubTransactions`. -/
def loadStubTransactions (iface : String) : Table Int32 String :=
  stubTransactions ((env.stubClass iface).getD [])

/-- `AppClassLoaderRegistry.getStubMap`; an empty map is none. -/
def getStubMap (pkg iface : String) : Option (Table Int32 String) :=
  match env.appStubClass pkg iface with
  | none => none
  | some fields => if (stubTransactions fields).entries = [] then none else some (stubTransactions fields)

/-- The packages that the index has for the interface, without the caller. -/
def otherPackages (iface : String) (callerPackage : Option String) : List String :=
  (env.interfaceIndex iface).filter fun pkg => some pkg ≠ callerPackage

/-- `getMethodName`, after the reflection of the system's class. -/
def lookupMethodName (reflected : Table Int32 String) (iface : String) (code : Int32)
    (callerPackage : Option String) : String :=
  let inPackage := fun pkg => (env.getStubMap pkg iface).bind (·.lookup code)
  match reflected.lookup code with
  | some name => name
  | none =>
    match callerPackage.bind inPackage with
    | some name => name
    | none =>
      match (env.otherPackages iface callerPackage).findSome? inPackage with
      | some name => name
      | none => (env.staticMethodTable iface code).getD ("code=" ++ toString code)

/-- `loadInterfaceSignatures`: the first loader counts that has a class with methods. -/
def loadInterfaceSignatures (iface : String) (callerPackage : Option String) : Signatures :=
  let classes := env.interfaceClass iface ::
    ((callerPackage.toList ++ env.otherPackages iface callerPackage).map fun pkg => env.appClass pkg iface)
  let loaded := classes.map fun methods => interfaceSignatures (methods.getD [])
  (loaded.find? fun signatures => signatures.entries ≠ []).getD ∅

/-- The signatures that the persistent cache has for the version of the package, if there are any. -/
def persistentHit (pkg iface : String) : Option Signatures :=
  match env.persistentCache, env.packageMeta pkg with
  | some pcache, some info =>
    (pcache.get pkg iface info.versionCode info.lastUpdateTime).filter fun cached => cached.entries ≠ []
  | _, _ => none

end ResolverEnv

/-! ### The resolver -/

/-- The caches of the resolver, and what it has sent to the persistent one. -/
structure MethodResolver where
  reflectionCache : Table String (Table Int32 String) := ∅
  negativeCache : LruMap (String × String) Int64 := {}
  signatureCache : LruMap (String × String) Signatures := {}
  sent : List WriteOp := []

/-- `NEGATIVE_CACHE_MAX`. -/
def negativeCacheMax : Nat := 1024

/-- `NEGATIVE_CACHE_TTL_MS`. -/
def negativeCacheTtlMs : Int64 := 60000

inductive Classification where
  | strong
  | weak
  | miss
deriving DecidableEq, Repr

/-- `classify`. -/
def MethodSignature.classify (sig : MethodSignature) : Classification :=
  if hasPrefix "code=" sig.methodName then .miss else if sig.paramTypes ≠ [] then .strong else .weak

/-- The class of a result; none is a miss. -/
def classOf : Option MethodSignature → Classification
  | none => .miss
  | some sig => sig.classify

/-- The signature of a method of which only the name may be known. -/
def signatureIn (signatures : Signatures) (name : String) : MethodSignature :=
  (signatures.lookup name).getD { methodName := name, paramTypes := [], returnType := none }

/-- The arguments of a call. -/
structure SignatureQuery where
  interfaceName : Option String
  code : Int32
  candidates : List String
  nowMs : Int64
deriving DecidableEq

namespace MethodResolver

/-- `bucketOf`. -/
def bucketOf (packageName : Option String) : String := packageName.getD ""

variable (env : ResolverEnv)

/-- `getMethodName`. An empty reflection is not cached. -/
def getMethodName (s : MethodResolver) (iface : String) (code : Int32) (callerPackage : Option String) :
    String × MethodResolver :=
  match s.reflectionCache.lookup iface with
  | some reflected => (env.lookupMethodName reflected iface code callerPackage, s)
  | none =>
    let loaded := env.loadStubTransactions iface
    (env.lookupMethodName loaded iface code callerPackage,
      if loaded.entries = [] then s else { s with reflectionCache := s.reflectionCache.insert iface loaded })

/-- `SignatureCache.put`. -/
def putSignature (pkg : Option String) (iface : String) (s : MethodResolver) (signature : MethodSignature) :
    MethodResolver :=
  let (old, store) := s.signatureCache.get (bucketOf pkg, iface)
  let merged := (old.getD ∅).insert signature.methodName signature
  { s with signatureCache := ((store.assign (bucketOf pkg, iface) merged).evict env.maxEntries).1 }

/-- `SignatureCache.getOrLoad`. -/
def getOrLoad (s : MethodResolver) (pkg : Option String) (iface : String) : Signatures × MethodResolver :=
  match s.signatureCache.get (bucketOf pkg, iface) with
  | (some signatures, store) => (signatures, { s with signatureCache := store })
  | (none, store) =>
    let loaded := env.loadInterfaceSignatures iface pkg
    if loaded.entries = [] then (loaded, { s with signatureCache := store })
    else
      (loaded, { s with signatureCache := ((store.assign (bucketOf pkg, iface) loaded).evict env.maxEntries).1 })

/-- Signatures of another version make the resolver ask for their removal. -/
def invalidateStale (s : MethodResolver) (callerPackage : Option String) (iface : String) : MethodResolver :=
  match callerPackage, env.persistentCache with
  | some pkg, some pcache =>
    if (env.packageMeta pkg).isSome ∧ (pcache.hot.get pkg iface).any fun raw => raw.entries ≠ [] then
      { s with sent := s.sent ++ [.invalidate pkg] }
    else s
  | _, _ => s

/-- What was loaded goes to the persistent cache with the version of the package. -/
def storeSignatures (s : MethodResolver) (callerPackage : Option String) (iface : String)
    (signatures : Signatures) : MethodResolver :=
  match callerPackage, env.persistentCache with
  | some pkg, some _ =>
    match env.packageMeta pkg with
    | some info =>
      if signatures.entries = [] then s
      else
        { s with
          sent := s.sent ++ [WriteOp.put pkg iface info.versionCode info.lastUpdateTime signatures] }
    | none => s
  | _, _ => s

/-- `resolveSingleCandidate`. -/
def resolveSingleCandidate (s : MethodResolver) (iface : String) (code : Int32)
    (callerPackage : Option String) : Option MethodSignature × MethodResolver :=
  let (name, s) := s.getMethodName env iface code callerPackage
  if hasPrefix "code=" name then (none, s)
  else
    match callerPackage.bind fun pkg => env.persistentHit pkg iface with
    | some cached =>
      (some (signatureIn cached name),
        (cached.entries.map Sigma.snd).foldl (putSignature env callerPackage iface) s)
    | none =>
      let (signatures, s) := (s.invalidateStale env callerPackage iface).getOrLoad env callerPackage iface
      (some (signatureIn signatures name), s.storeSignatures env callerPackage iface signatures)

/-- `isNegativeCached`. -/
def isNegativeCached (s : MethodResolver) (pkg iface : String) (nowMs : Int64) : Bool × MethodResolver :=
  match s.negativeCache.get (pkg, iface) with
  | (none, cache) => (false, { s with negativeCache := cache })
  | (some ts, cache) =>
    if nowMs - ts > negativeCacheTtlMs then (false, { s with negativeCache := cache.drop (pkg, iface) })
    else (true, { s with negativeCache := cache })

/-- `putNegativeCache`. -/
def putNegativeCache (s : MethodResolver) (pkg iface : String) (nowMs : Int64) : MethodResolver :=
  { s with negativeCache := ((s.negativeCache.assign (pkg, iface) nowMs).evict negativeCacheMax).1 }

/-- The loop over the candidates. -/
def candidateLoop (iface : String) (code : Int32) (nowMs : Int64) :
    Option MethodSignature → List String → MethodResolver → Option MethodSignature × MethodResolver
  | bestWeak, [], s => (bestWeak, s)
  | bestWeak, pkg :: candidates, s =>
    match s.isNegativeCached pkg iface nowMs with
    | (true, s) => candidateLoop iface code nowMs bestWeak candidates s
    | (false, s) =>
      let (sig, s) := s.resolveSingleCandidate env iface code (some pkg)
      match classOf sig with
      | .strong => (sig, s)
      | .weak => candidateLoop iface code nowMs (bestWeak.or sig) candidates s
      | .miss => candidateLoop iface code nowMs bestWeak candidates (s.putNegativeCache pkg iface nowMs)

/-- `getMethodSignature`. -/
def getMethodSignature (s : MethodResolver) (q : SignatureQuery) : Option MethodSignature × MethodResolver :=
  match q.interfaceName with
  | none => (none, s)
  | some iface =>
    if q.candidates = [] then
      let (sig, s) := s.resolveSingleCandidate env iface q.code none
      (sig.filter fun sig => sig.classify ≠ .miss, s)
    else candidateLoop env iface q.code q.nowMs none q.candidates s

/-- The resolver after these calls. -/
def run (history : List SignatureQuery) : MethodResolver :=
  history.foldl (fun s q => (s.getMethodSignature env q).2) {}

theorem run_snoc (history : List SignatureQuery) (q : SignatureQuery) :
    run env (history ++ [q]) = ((run env history).getMethodSignature env q).2 := by
  rw [run, List.foldl_append]
  rfl

end MethodResolver

end BinderTracer.App
